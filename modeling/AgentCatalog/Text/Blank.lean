import AgentCatalog.Text.CodeRange

/-!
# White space

White space is the Unicode property `White_Space`. Cells of a rule file are trimmed on both sides,
lines of user agents at their end.
-/

namespace AgentCatalog.Text

/-- The ranges of the property `White_Space`, in ascending order. -/
def blankRanges : List CodeRange :=
  [⟨0x9, 0xD⟩, ⟨0x20, 0x20⟩, ⟨0x85, 0x85⟩, ⟨0xA0, 0xA0⟩, ⟨0x1680, 0x1680⟩, ⟨0x2000, 0x200A⟩,
    ⟨0x2028, 0x2029⟩, ⟨0x202F, 0x202F⟩, ⟨0x205F, 0x205F⟩, ⟨0x3000, 0x3000⟩]

/-- The character is white space. -/
def isBlankChar (c : Char) : Bool :=
  inRanges blankRanges c

/-- There is nothing but white space in the text. -/
def isBlank (text : List Char) : Bool :=
  text.all isBlankChar

/-- The text without the white space at its start. -/
def trimStart (text : List Char) : List Char :=
  text.dropWhile isBlankChar

/-- The text without the white space at its end. -/
def trimEnd (text : List Char) : List Char :=
  (trimStart text.reverse).reverse

/-- The text without the white space at its start and its end. -/
def trim (text : List Char) : List Char :=
  trimEnd (trimStart text)

/-- The property has 25 characters. -/
example : (blankRanges.map fun r => r.last + 1 - r.first).sum = 25 := by decide

example : trim " \u3000a b\u0085".toList = "a b".toList ∧ isBlank "\u2028\t".toList := by decide

end AgentCatalog.Text
