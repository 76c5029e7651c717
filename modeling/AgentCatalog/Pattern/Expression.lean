import AgentCatalog.Text.Fold

/-!
# Patterns as regular expressions

A record shows the pattern of its rule as an anchored regular expression in lower case: `*` as a lazy
run, `?` as any character, ASCII letters, digits and the space as themselves, and all else behind a
backslash. The expression is lower-cased as a whole, after the backslashes have been put in.
-/

namespace AgentCatalog.Pattern

/-- One character of a pattern in an expression. -/
def expressionChar (c : Char) : List Char :=
  if c = '*' then ['.', '*', '?']
  else if c = '?' then ['.']
  else if c.isAlphanum || c = ' ' then [c]
  else ['\\', c]

/-- The expression before it is lower-cased. -/
def rawExpression (pattern : List Char) : List Char :=
  '^' :: pattern.flatMap expressionChar ++ ['$']

/-- The regular expression of a pattern. -/
def expression (pattern : List Char) : List Char :=
  Text.lowerCase (rawExpression pattern)

example : expression "A?/*".toList = "^a.\\/.*?$".toList := by decide +kernel

end AgentCatalog.Pattern
