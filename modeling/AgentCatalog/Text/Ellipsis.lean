/-!
# Long texts cut short

A message that quotes a pattern quotes at most so many characters of it.
-/

namespace AgentCatalog.Text

/-- The text itself if it has at most `limit` characters, else its first `limit` and an ellipsis. -/
def elide (limit : Nat) (text : String) : String :=
  let chars := text.toList
  if chars.length ≤ limit then text else String.ofList (chars.take limit ++ ['…'])

example : elide 3 "abc" = "abc" ∧ elide 2 "abc" = "ab…" ∧ elide 0 "" = "" := by decide

end AgentCatalog.Text
