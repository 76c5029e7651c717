import AgentCatalog.Text.Utf8

/-!
# Literals

A literal is a text between the `*` of a pattern. It is matched on the bytes of a subject, where a
`?` in it takes one character. The bytes need not be well-formed UTF-8: a character is as wide as
its first byte says when reading forwards, and goes back to a byte that continues nothing when
reading backwards.

There are three ways to match: forwards from a place (`matchFrom`), backwards from the end
(`matchEnd`), and anywhere in a window (`search`). All speak of offsets into the subject.
-/

namespace AgentCatalog

/-- A text without `*`, with its bytes. -/
structure Literal where
  text : String
  bytes : List UInt8
  bytes_eq : bytes = Utf8.encode text.toList

namespace Literal

/-- The literal of a text. -/
def ofText (text : String) : Literal :=
  ⟨text, Utf8.encode text.toList, rfl⟩

/-- The byte of `?`, which takes one character. -/
def anyByte : UInt8 :=
  0x3F

/-- The literal has a `?`. -/
def hasAnyChar (l : Literal) : Bool :=
  l.bytes.contains anyByte

/-- The bytes before the first `?`. -/
def head (l : Literal) : List UInt8 :=
  l.bytes.takeWhile (· != anyByte)

/-- The least number of bytes that the literal takes. -/
def minLength (l : Literal) : Nat :=
  l.bytes.length

/-- The byte that every match starts with, unless the literal starts with `?` or is empty. -/
def firstByte? (l : Literal) : Option UInt8 :=
  l.bytes.head?.filter (· != anyByte)

/-! ## Matching at the ends -/

/-- What is left of the subject when the bytes of a literal have been taken from its front. -/
def takeFront? : List UInt8 → List UInt8 → Option (List UInt8)
  | [], subject => some subject
  | b :: bytes, subject =>
    if b = anyByte then (Utf8.skipFront? subject).bind (takeFront? bytes)
    else
      match subject with
      | c :: rest => if c = b then takeFront? bytes rest else none
      | [] => none

/-- What is left of the subject when the bytes of a literal have been taken from its end. Both are
given in reverse order. -/
def takeBack? : List UInt8 → List UInt8 → Option (List UInt8)
  | [], subject => some subject
  | _ :: _, [] => none
  | b :: bytes, c :: rest =>
    if b = anyByte then takeBack? bytes (Utf8.skipBack (c :: rest))
    else if c = b then takeBack? bytes rest
    else none

/-- Where the literal ends if it is matched from the offset `start` on. -/
def matchFrom (l : Literal) (subject : List UInt8) (start : Nat) : Option Nat :=
  if subject.length < start then none
  else if l.hasAnyChar then
    (takeFront? l.bytes (subject.drop start)).map (subject.length - ·.length)
  else if l.bytes.isPrefixOf (subject.drop start) then some (start + l.bytes.length)
  else none

/-- The literal takes the whole subject. -/
def takesAll (l : Literal) (subject : List UInt8) : Bool :=
  if l.hasAnyChar then l.matchFrom subject 0 == some subject.length
  else subject == l.bytes

/-- Where the literal starts if it takes the end of the subject and starts at `floor` or later. -/
def matchEnd (l : Literal) (subject : List UInt8) (floor : Nat) : Option Nat :=
  let start? :=
    if l.hasAnyChar then (takeBack? l.bytes.reverse subject.reverse).map List.length
    else if l.bytes.isSuffixOf subject then some (subject.length - l.bytes.length)
    else none
  start?.filter (floor ≤ ·)

/-! ## Searching -/

/-- The least offset at which the bytes occur in the subject. -/
def indexOf? (bytes : List UInt8) : List UInt8 → Option Nat
  | [] => if bytes.isEmpty then some 0 else none
  | c :: rest =>
    if bytes.isPrefixOf (c :: rest) then some 0 else (indexOf? bytes rest).map (· + 1)

/-- The end of the first match of a literal that starts with a `?`: tried from character to
character. An offset counts from the start of the window. -/
def searchChars (l : Literal) (window : List UInt8) : Option Nat :=
  match window with
  | [] => none
  | b :: rest =>
    match takeFront? l.bytes (b :: rest) with
    | some left => some (rest.length + 1 - left.length)
    | none => (searchChars l (rest.drop (Utf8.width b - 1))).map (· + Utf8.width b)
termination_by window.length
decreasing_by simp only [List.length_drop, List.length_cons]; omega

/-- The end of the first match of a literal with bytes before its first `?`: looked for where those
bytes occur. An offset counts from the start of the window. -/
def searchHead (l : Literal) (window : List UInt8) : Option Nat :=
  match window with
  | [] => none
  | b :: rest =>
    match indexOf? l.head (b :: rest) with
    | none => none
    | some i =>
      match takeFront? l.bytes ((b :: rest).drop i) with
      | some left => some (rest.length + 1 - left.length)
      | none => (searchHead l (rest.drop i)).map (· + (i + 1))
termination_by window.length
decreasing_by simp only [List.length_drop, List.length_cons]; omega

/-- Where the first match ends that starts at `start` or later and ends at `limit` or before. The
first match leaves most room for what is to follow. -/
def search (l : Literal) (subject : List UInt8) (start limit : Nat) : Option Nat :=
  if limit < start ∨ limit - start < l.minLength then none
  else
    let window := (subject.take limit).drop start
    let length? :=
      if l.head.isEmpty then l.searchChars window
      else if l.hasAnyChar then l.searchHead window
      else (indexOf? l.bytes window).map (· + l.bytes.length)
    length?.map (start + ·)

end Literal

end AgentCatalog
