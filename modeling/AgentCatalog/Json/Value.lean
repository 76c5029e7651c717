import AgentCatalog.Json.Quoted

/-!
# JSON values

A value keeps its numbers and strings as they are written in the document. What they denote is asked
for by the readers below, so a part of a document that nobody asks for only has to be well formed.
Values are written compactly or spread over lines with an indentation of two spaces.
-/

namespace AgentCatalog

/-- A JSON value. Numbers are kept as written, strings and member names as written between their
quotes; members keep their order. -/
inductive Json where
  | null
  | bool (value : Bool)
  | number (written : String)
  | string (written : String)
  | array (elements : List Json)
  | object (members : List (String × Json))
deriving Repr

namespace Json

/-! ## Building values -/

/-- The string that denotes a text. -/
def ofText (text : String) : Json :=
  .string (String.ofList (quote text.toList))

/-- The number that denotes a natural number. -/
def ofNat (n : Nat) : Json :=
  .number (toString n)

/-- The object with the given member names, as texts, and values. -/
def ofMembers (members : List (String × Json)) : Json :=
  .object (members.map fun (name, value) => (String.ofList (quote name.toList), value))

/-! ## Reading values -/

/-- The text that a string denotes. -/
def text? : Json → Option String
  | .string written => (unquote? written.toList).map String.ofList
  | _ => none

/-- The largest natural number that is read: the largest one of 64 bits. -/
def maxNat : Nat :=
  18446744073709551615

/-- The natural number that a number denotes if it is written in digits only, without sign, fraction
or exponent, and not above `maxNat`. -/
def nat? : Json → Option Nat
  | .number written =>
    let digits := written.toList
    if digits.all Char.isDigit then
      let n := digits.foldl (fun n c => 10 * n + (c.toNat - '0'.toNat)) 0
      if n ≤ maxNat then some n else none
    else none
  | _ => none

/-- The name of an alternative, which is a string or the only member of an object, with the value
null. -/
def name? : Json → Option String
  | .string written => text? (.string written)
  | .object [(name, .null)] => text? (.string name)
  | _ => none

/-- The members of an object, by the texts that their names denote. -/
def members? : Json → Option (List (String × Json))
  | .object members => members.mapM fun (name, value) => return (← text? (.string name), value)
  | _ => none

/-- The value of the only member with this name, `none` if there is no such member. It fails if
there are several. -/
def single? (members : List (String × Json)) (name : String) : Option (Option Json) :=
  match members.filter (·.1 == name) with
  | [] => some none
  | [(_, value)] => some (some value)
  | _ => none

/-! ## Writing values -/

mutual

/-- The value on one line, without spaces. -/
def compact : Json → String
  | .null => "null"
  | .bool value => if value then "true" else "false"
  | .number written => written
  | .string written => "\"" ++ written ++ "\""
  | .array elements => "[" ++ compactElements elements ++ "]"
  | .object members => "\x7b" ++ compactMembers members ++ "\x7d"

/-- The elements of an array, with commas between them. -/
def compactElements : List Json → String
  | [] => ""
  | [value] => value.compact
  | value :: rest => value.compact ++ "," ++ compactElements rest

/-- The members of an object, with commas between them. -/
def compactMembers : List (String × Json) → String
  | [] => ""
  | [(name, value)] => "\"" ++ name ++ "\":" ++ value.compact
  | (name, value) :: rest =>
    "\"" ++ name ++ "\":" ++ value.compact ++ "," ++ compactMembers rest

end

/-- A line break and the indentation of the given depth. -/
def lineBreak (depth : Nat) : String :=
  "\n" ++ String.ofList (List.replicate (2 * depth) ' ')

mutual

/-- The value over several lines, each element and member on a line of its own, indented by two
spaces for each of the `depth` values around it. -/
def prettyAt (depth : Nat) : Json → String
  | .null => "null"
  | .bool value => if value then "true" else "false"
  | .number written => written
  | .string written => "\"" ++ written ++ "\""
  | .array [] => "[]"
  | .array (value :: rest) =>
    "[" ++ prettyElements (depth + 1) (value :: rest) ++ lineBreak depth ++ "]"
  | .object [] => "\x7b\x7d"
  | .object (member :: rest) =>
    "\x7b" ++ prettyMembers (depth + 1) (member :: rest) ++ lineBreak depth ++ "\x7d"

/-- The elements of an array, each behind a line break. -/
def prettyElements (depth : Nat) : List Json → String
  | [] => ""
  | [value] => lineBreak depth ++ value.prettyAt depth
  | value :: rest =>
    lineBreak depth ++ value.prettyAt depth ++ "," ++ prettyElements depth rest

/-- The members of an object, each behind a line break. -/
def prettyMembers (depth : Nat) : List (String × Json) → String
  | [] => ""
  | [(name, value)] => lineBreak depth ++ "\"" ++ name ++ "\": " ++ value.prettyAt depth
  | (name, value) :: rest =>
    lineBreak depth ++ "\"" ++ name ++ "\": " ++ value.prettyAt depth ++ ","
      ++ prettyMembers depth rest

end

/-- The value over several lines. -/
def pretty (value : Json) : String :=
  value.prettyAt 0

end Json

end AgentCatalog
