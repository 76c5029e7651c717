import AgentCatalog.Text.CaseIgnorable
import AgentCatalog.Text.Cased
import AgentCatalog.Text.LowerCase

/-!
# Case folding

Patterns and user agents are compared in lower case. `lowerCase` is the full lower-casing of the
Unicode standard: every character by its own mapping, except that a capital sigma at the end of a
word becomes `ς`. `foldCase` gives the same text, with a shorter way for ASCII.

A sigma ends a word when the nearest character before it is cased and the nearest one behind it is
not, where case-ignorable characters are passed over on both sides.
-/

namespace AgentCatalog.Text

/-- The first character that is not case-ignorable exists and is cased. -/
def startsCased (text : List Char) : Bool :=
  (text.dropWhile isCaseIgnorable).head?.any isCased

/-- What `startsCased` says of the characters before the next one, read backwards, once `c` has been
passed: a case-ignorable character changes nothing. -/
def casedAfter (cased : Bool) (c : Char) : Bool :=
  if isCaseIgnorable c then cased else isCased c

/-- Lower-casing of a text whose preceding characters end cased, or not. -/
def lowerFrom (cased : Bool) : List Char → List Char
  | [] => []
  | c :: rest =>
    let lower :=
      if c = 'Σ' then [if cased && !startsCased rest then 'ς' else 'σ'] else lowerChar c
    lower ++ lowerFrom (casedAfter cased c) rest

/-- The full lower-case form of a text. -/
def lowerCase (text : List Char) : List Char :=
  lowerFrom false text

/-- The character is one of the first 128. -/
def isAscii (c : Char) : Bool :=
  c.toNat < 128

/-- The lower-case form by which texts are compared. ASCII has no context to look at. -/
def foldCase (text : List Char) : List Char :=
  if text.all isAscii then text.map Char.toLower else lowerCase text

/-- Folding leaves the text as it is. -/
def isFolded (text : List Char) : Bool :=
  foldCase text == text

example : foldCase "Mozilla/5.0".toList = "mozilla/5.0".toList := by decide

example : foldCase "ΑΣ".toList = "ας".toList ∧ foldCase "ΑΣ.Β".toList = "ασ.β".toList := by
  decide +kernel

example : foldCase "Σ*İ".toList = "σ*i̇".toList := by decide +kernel

end AgentCatalog.Text
