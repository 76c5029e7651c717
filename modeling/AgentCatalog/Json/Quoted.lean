/-!
# Quoted JSON strings

What stands between the quotes of a JSON string. `quote` writes a text there, with the shortest
escapes; `unquote?` reads what stands there back. The reader is wider than the writer: it takes
every escape of the format, but no half of a surrogate pair on its own.
-/

namespace AgentCatalog.Json

/-- The digit of a number below sixteen, in lower case. -/
def hexDigit (n : Nat) : Char :=
  if n < 10 then Char.ofNat ('0'.toNat + n) else Char.ofNat ('a'.toNat + (n - 10))

/-- The value of a hexadecimal digit, in either case. -/
def hexValue? (c : Char) : Option Nat :=
  if '0' ≤ c ∧ c ≤ '9' then some (c.toNat - '0'.toNat)
  else if 'a' ≤ c ∧ c ≤ 'f' then some (c.toNat - 'a'.toNat + 10)
  else if 'A' ≤ c ∧ c ≤ 'F' then some (c.toNat - 'A'.toNat + 10)
  else none

/-- One character as it is written between quotes. Only the quote, the backslash and the control
characters below the space are escaped. -/
def quoteChar (c : Char) : List Char :=
  match c with
  | '"' => ['\\', '"']
  | '\\' => ['\\', '\\']
  | '\x08' => ['\\', 'b']
  | '\t' => ['\\', 't']
  | '\n' => ['\\', 'n']
  | '\x0c' => ['\\', 'f']
  | '\r' => ['\\', 'r']
  | c =>
    if c.toNat < 0x20 then
      ['\\', 'u', '0', '0', hexDigit (c.toNat / 16), hexDigit (c.toNat % 16)]
    else [c]

/-- A text as it is written between quotes. -/
def quote (text : List Char) : List Char :=
  text.flatMap quoteChar

/-- The value of four hexadecimal digits. -/
def hex4? (a b c d : Char) : Option Nat := do
  let a ← hexValue? a
  let b ← hexValue? b
  let c ← hexValue? c
  let d ← hexValue? d
  return ((a * 16 + b) * 16 + c) * 16 + d

/-- The character of an escape of one letter. -/
def letterEscape? (c : Char) : Option Char :=
  match c with
  | '"' => some '"'
  | '\\' => some '\\'
  | '/' => some '/'
  | 'b' => some '\x08'
  | 'f' => some '\x0c'
  | 'n' => some '\n'
  | 'r' => some '\r'
  | 't' => some '\t'
  | _ => none

/-- The character of a surrogate pair. -/
def pairChar (high low : Nat) : Char :=
  Char.ofNat (0x10000 + (high - 0xD800) * 0x400 + (low - 0xDC00))

/-- The text whose quoted form stands between the quotes. There is none if an escape is incomplete
or unknown, or if a half of a surrogate pair stands alone. -/
def unquote? : List Char → Option (List Char)
  | [] => some []
  | c :: rest =>
    if c ≠ '\\' then (unquote? rest).map (c :: ·)
    else
      match rest with
      | [] => none
      | e :: rest =>
        if e ≠ 'u' then do
          let c ← letterEscape? e
          let text ← unquote? rest
          return c :: text
        else
          match rest with
          | h₁ :: h₂ :: h₃ :: h₄ :: rest => do
            let unit ← hex4? h₁ h₂ h₃ h₄
            if unit < 0xD800 ∨ 0xE000 ≤ unit then
              let text ← unquote? rest
              return Char.ofNat unit :: text
            else
              match rest with
              | b :: u :: l₁ :: l₂ :: l₃ :: l₄ :: rest => do
                let low ← hex4? l₁ l₂ l₃ l₄
                if unit < 0xDC00 ∧ b = '\\' ∧ u = 'u' ∧ 0xDC00 ≤ low ∧ low < 0xE000 then
                  let text ← unquote? rest
                  return pairChar unit low :: text
                else none
              | _ => none
          | _ => none

example : quote "a\"\\\n\x01é/".toList = "a\\\"\\\\\\n\\u0001é/".toList := by decide +kernel

example : unquote? "\\ud83d\\ude00\\u00e9\\/".toList = some "😀é/".toList := by decide +kernel

example : unquote? "\\ud83d".toList = none ∧ unquote? "\\ude00x".toList = none := by
  decide +kernel

end AgentCatalog.Json
