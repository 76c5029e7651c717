import AgentCatalog.Pattern.Segment

/-!
# Shapes of patterns

A pattern is a lone `*`, a text without `*`, or a row of texts with `*` between them. The texts of
the last kind are told apart by their place: a first one that starts the pattern, a last one that
ends it, and those in between. A `Shape` is this form with the texts replaced by anything that
refers to them: texts, handles or literals.
-/

namespace AgentCatalog

/-- The form of a pattern, over references `α` to its literals. -/
inductive Shape (α : Type) where
  /-- A lone `*`. -/
  | catchAll
  /-- A text without `*`. -/
  | exact (literal : α)
  /-- Texts with a `*` before every inner one and before the last one. A pattern that starts or ends
  with `*` has no first or no last text. -/
  | structured (first : Option α) (inner : List α) (last : Option α)
deriving DecidableEq, Repr

namespace Shape

/-- The literals from left to right. -/
def literals {α : Type} : Shape α → List α
  | .catchAll => []
  | .exact literal => [literal]
  | .structured first inner last => first.toList ++ inner ++ last.toList

/-- The shape over the literals that the references stand for, if all of them stand for one. -/
def resolve? {α β : Type} (find? : α → Option β) : Shape α → Option (Shape β)
  | .catchAll => some .catchAll
  | .exact literal => (find? literal).map .exact
  | .structured first inner last => do
    return .structured (← first.mapM find?) (← inner.mapM find?) (← last.mapM find?)

/-- The pattern of a shape over texts. -/
def render : Shape (List Char) → List Char
  | .catchAll => ['*']
  | .exact text => text
  | .structured first inner last =>
    first.getD [] ++ inner.flatMap ('*' :: ·) ++ '*' :: last.getD []

end Shape

/-- The text of a segment, unless it is a `*`. -/
def Pattern.Segment.text? : Segment → Option (List Char)
  | .star => none
  | .literal text => some text

/-- The shape of a row of segments; no segments have no shape. A row of two or more counts as
structured, whatever its segments are. -/
def Shape.ofSegments? : List Pattern.Segment → Option (Shape (List Char))
  | [] => none
  | [.star] => some .catchAll
  | [.literal text] => some (.exact text)
  | first :: second :: rest =>
    let last := (second :: rest).getLast (List.cons_ne_nil second rest)
    let inner := (second :: rest).dropLast.filterMap Pattern.Segment.text?
    some (.structured first.text? inner last.text?)

example : (Shape.ofSegments? (Pattern.split "a*b?*".toList)).map Shape.render =
    some "a*b?*".toList := by decide

end AgentCatalog
