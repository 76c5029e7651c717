/-!
# How specific a pattern is

Of two rules that match a user agent the more specific one wins. A pattern with more characters
besides `*` is more specific, among those one with fewer `*`. A pattern of `*` only catches all and
is less specific than any other.
-/

namespace AgentCatalog

/-- What the order of patterns looks at. `?` counts as a literal character. -/
structure Specificity where
  catchAll : Bool
  literalChars : Nat
  stars : Nat
deriving DecidableEq, Repr

namespace Specificity

/-- The specificity of a pattern. -/
def ofPattern (pattern : List Char) : Specificity :=
  let stars := pattern.count '*'
  let literalChars := pattern.length - stars
  { catchAll := literalChars == 0 && stars > 0
    literalChars
    stars }

/-- `.lt` if the first pattern is the more specific one. -/
def compare (a b : Specificity) : Ordering :=
  (Ord.compare a.catchAll b.catchAll).then <|
    (Ord.compare b.literalChars a.literalChars).then (Ord.compare a.stars b.stars)

instance : Ord Specificity := ⟨compare⟩

example : compare (ofPattern "ab*".toList) (ofPattern "a*".toList) = .lt := by decide

example : compare (ofPattern "**".toList) (ofPattern "".toList) = .gt := by decide

end Specificity

end AgentCatalog
