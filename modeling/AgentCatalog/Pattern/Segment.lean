import AgentCatalog.Text.Fold

/-!
# Patterns and their segments

A pattern is a text in which `*` stands for any run of characters and `?` for any one character. It
is used in lower case and with every run of `*` collapsed to one, which `normalize` provides for.

`split` cuts a pattern at its `*`. Every `*` becomes a segment of its own, so that `join` gives the
pattern back.
-/

namespace AgentCatalog.Pattern

/-- A piece of a pattern: a `*`, or a text without one. -/
inductive Segment where
  | star
  | literal (text : List Char)
deriving DecidableEq, Repr

/-- The segments of a pattern, from left to right. -/
def split : List Char → List Segment
  | [] => []
  | c :: rest =>
    if c = '*' then .star :: split rest
    else
      match split rest with
      | .literal text :: segments => .literal (c :: text) :: segments
      | segments => .literal [c] :: segments

/-- A segment as it is written in a pattern. -/
def Segment.text : Segment → List Char
  | .star => ['*']
  | .literal text => text

/-- The pattern that consists of the segments. -/
def join (segments : List Segment) : List Char :=
  segments.flatMap Segment.text

theorem join_split (pattern : List Char) : join (split pattern) = pattern := by
  induction pattern with
  | nil => rfl
  | cons c rest ih =>
    rw [split]
    split
    · next h => simp_all [join, Segment.text]
    · split <;> simp_all [join, Segment.text]

/-- The pattern with every run of `*` collapsed to one. -/
def collapse : List Char → List Char
  | [] => []
  | c :: rest => if c = '*' ∧ rest.head? = some '*' then collapse rest else c :: collapse rest

/-- The form in which a pattern is compiled: lower case, runs of `*` collapsed. -/
def normalize (raw : List Char) : List Char :=
  collapse (Text.foldCase raw)

example : normalize "A**B***".toList = "a*b*".toList := by decide

example : split "a**b".toList = [.literal ['a'], .star, .star, .literal ['b']] := by decide

end AgentCatalog.Pattern
