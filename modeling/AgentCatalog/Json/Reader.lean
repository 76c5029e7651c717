import AgentCatalog.Json.Value

/-!
# Reading JSON documents

`Json.read?` accepts exactly the documents of the JSON grammar: one value with white space around
it. Strings and numbers are taken over as written. The functions that read a part return it together
with the rest of the text.

The nesting of a document is bounded by its length, which is how the recursion ends.
-/

namespace AgentCatalog.Json.Reader

/-- The four characters that may stand between tokens. -/
def isSpace (c : Char) : Bool :=
  c == ' ' || c == '\n' || c == '\t' || c == '\r'

/-- The text behind the white space at its start. -/
def skipSpace (text : List Char) : List Char :=
  text.dropWhile isSpace

/-- The text behind the given word, if it starts with it. -/
def dropWord? : List Char → List Char → Option (List Char)
  | [], text => some text
  | c :: word, d :: text => if c = d then dropWord? word text else none
  | _ :: _, [] => none

/-- What stands before the closing quote, as written, and the text behind that quote. Escapes must
be well formed, but need not denote a character. -/
def stringBody? : List Char → Option (List Char × List Char)
  | [] => none
  | c :: rest =>
    if c = '"' then some ([], rest)
    else if c = '\\' then
      match rest with
      | [] => none
      | e :: rest =>
        if e = 'u' then
          match rest with
          | h₁ :: h₂ :: h₃ :: h₄ :: rest =>
            if (hex4? h₁ h₂ h₃ h₄).isSome then
              (stringBody? rest).map fun (body, rest) =>
                (c :: e :: h₁ :: h₂ :: h₃ :: h₄ :: body, rest)
            else none
          | _ => none
        else if (letterEscape? e).isSome then
          (stringBody? rest).map fun (body, rest) => (c :: e :: body, rest)
        else none
    else if c.toNat < 0x20 then none
    else (stringBody? rest).map fun (body, rest) => (c :: body, rest)

/-- The digits at the start of the text, of which there must be at least one. -/
def digits? (text : List Char) : Option (List Char × List Char) :=
  match text.span Char.isDigit with
  | ([], _) => none
  | parts => some parts

/-- The whole part of a number: one zero, or digits that do not start with one. -/
def whole? : List Char → Option (List Char × List Char)
  | '0' :: rest => if rest.head?.any Char.isDigit then none else some (['0'], rest)
  | text => digits? text

/-- The fraction of a number, if the text goes on with a point. -/
def fraction? : List Char → Option (List Char × List Char)
  | '.' :: rest => (digits? rest).map fun (digits, rest) => ('.' :: digits, rest)
  | text => some ([], text)

/-- The exponent of a number, if the text goes on with its mark. -/
def exponent? : List Char → Option (List Char × List Char)
  | c :: rest =>
    if c = 'e' ∨ c = 'E' then
      match rest with
      | '+' :: rest => (digits? rest).map fun (digits, rest) => (c :: '+' :: digits, rest)
      | '-' :: rest => (digits? rest).map fun (digits, rest) => (c :: '-' :: digits, rest)
      | rest => (digits? rest).map fun (digits, rest) => (c :: digits, rest)
    else some ([], c :: rest)
  | [] => some ([], [])

/-- A number without sign, as written. -/
def unsigned? (text : List Char) : Option (List Char × List Char) := do
  let (whole, text) ← whole? text
  let (fraction, text) ← fraction? text
  let (exponent, text) ← exponent? text
  return (whole ++ fraction ++ exponent, text)

/-- A number, as written. -/
def number? : List Char → Option (List Char × List Char)
  | '-' :: rest => (unsigned? rest).map fun (written, rest) => ('-' :: written, rest)
  | text => unsigned? text

mutual

/-- The value at the start of the text, behind white space. -/
def value? : (fuel : Nat) → List Char → Option (Json × List Char)
  | 0, _ => none
  | fuel + 1, text =>
    match skipSpace text with
    | 'n' :: rest => (dropWord? ['u', 'l', 'l'] rest).map fun rest => (.null, rest)
    | 't' :: rest => (dropWord? ['r', 'u', 'e'] rest).map fun rest => (.bool true, rest)
    | 'f' :: rest => (dropWord? ['a', 'l', 's', 'e'] rest).map fun rest => (.bool false, rest)
    | '"' :: rest =>
      (stringBody? rest).map fun (body, rest) => (.string (String.ofList body), rest)
    | '[' :: rest =>
      match skipSpace rest with
      | ']' :: rest => some (.array [], rest)
      | rest => (elements? fuel rest).map fun (elements, rest) => (.array elements, rest)
    | c :: rest =>
      if c = '\x7b' then
        match skipSpace rest with
        | [] => none
        | d :: rest =>
          if d = '\x7d' then some (.object [], rest)
          else (members? fuel (d :: rest)).map fun (members, rest) => (.object members, rest)
      else
        (number? (c :: rest)).map fun (written, rest) => (.number (String.ofList written), rest)
    | [] => none

/-- The elements of an array up to its closing bracket. -/
def elements? : (fuel : Nat) → List Char → Option (List Json × List Char)
  | 0, _ => none
  | fuel + 1, text => do
    let (value, rest) ← value? fuel text
    match skipSpace rest with
    | ']' :: rest => return ([value], rest)
    | ',' :: rest =>
      let (values, rest) ← elements? fuel rest
      return (value :: values, rest)
    | _ => none

/-- The members of an object up to its closing brace. -/
def members? : (fuel : Nat) → List Char → Option (List (String × Json) × List Char)
  | 0, _ => none
  | fuel + 1, text => do
    match skipSpace text with
    | '"' :: rest =>
      let (name, rest) ← stringBody? rest
      match skipSpace rest with
      | ':' :: rest =>
        let (value, rest) ← value? fuel rest
        let member := (String.ofList name, value)
        match skipSpace rest with
        | ',' :: rest =>
          let (members, rest) ← members? fuel rest
          return (member :: members, rest)
        | c :: rest => if c = '\x7d' then return ([member], rest) else none
        | [] => none
      | _ => none
    | _ => none

end

end AgentCatalog.Json.Reader

namespace AgentCatalog.Json

/-- The value of a document. Each step into a value, an element or a member passes a character or
leads to a step that does, so twice the length bounds the depth. -/
def read? (document : String) : Option Json :=
  let text := document.toList
  match Reader.value? (2 * text.length + 2) text with
  | some (value, rest) => if (Reader.skipSpace rest).isEmpty then some value else none
  | none => none

example : (read? " [1.50, \"\\ud800\"] ").map compact = some "[1.50,\"\\ud800\"]" := by
  decide +kernel

example : (read? "[01]").isNone ∧ (read? "[1,]").isNone ∧ (read? "1 2").isNone := by
  decide +kernel

end AgentCatalog.Json
