/-!
# The language of a pattern

`Matches p s` says that the text `s` can be cut into consecutive pieces, one for each character of
the pattern `p`: a `*` takes any run of characters, also the empty one, a `?` takes exactly one, and
every other character takes itself.
-/

namespace AgentCatalog.Pattern

/-- The text is in the language of the pattern. -/
inductive Matches : List Char → List Char → Prop where
  /-- Nothing is left of the pattern and of the text. -/
  | nil : Matches [] []
  /-- A `*` takes a run of characters. -/
  | run (taken : List Char) {p s : List Char} : Matches p s → Matches ('*' :: p) (taken ++ s)
  /-- A `?` takes one character. -/
  | any (c : Char) {p s : List Char} : Matches p s → Matches ('?' :: p) (c :: s)
  /-- Any other character takes itself. -/
  | same {c : Char} (not_star : c ≠ '*') (not_any : c ≠ '?') {p s : List Char} :
      Matches p s → Matches (c :: p) (c :: s)

/-- A lone `*` has every text. -/
theorem matches_star (s : List Char) : Matches ['*'] s := by
  simpa using Matches.run s .nil

end AgentCatalog.Pattern
