/-!
# UTF-8

Patterns and user agents are matched byte by byte in UTF-8, and rule files are read as bytes. This
module has the byte classes of the encoding, `encode`, and `decode`, which tells where the first
malformed sequence starts.
-/

namespace AgentCatalog.Utf8

/-- The bytes of a text. -/
def encode (text : List Char) : List UInt8 :=
  text.flatMap String.utf8EncodeChar

@[simp] theorem encode_nil : encode [] = [] := rfl

@[simp] theorem encode_cons (c : Char) (text : List Char) :
    encode (c :: text) = String.utf8EncodeChar c ++ encode text := rfl

@[simp] theorem encode_append (s t : List Char) : encode (s ++ t) = encode s ++ encode t := by
  simp [encode]

/-- A byte that continues a character (`10xxxxxx`). -/
def isContinuation (b : UInt8) : Bool :=
  b &&& 0xC0 == 0x80

/-- How many bytes a character takes whose first byte is `b`. A byte that starts no character counts
as one of its own. -/
def width (b : UInt8) : Nat :=
  if b < 0xC0 then 1 else if b < 0xE0 then 2 else if b < 0xF0 then 3 else 4

theorem width_pos (b : UInt8) : 0 < width b := by
  unfold width; split <;> (try split) <;> (try split) <;> omega

/-- The bytes behind a first character, whose width is read off its first byte. There are none if
the bytes end before the character does. -/
def skipFront? : List UInt8 → Option (List UInt8)
  | [] => none
  | b :: rest => if width b ≤ rest.length + 1 then some (rest.drop (width b - 1)) else none

/-- Of bytes in reverse order, those before the last character, which goes back to the nearest byte
that continues nothing. -/
def skipBack : List UInt8 → List UInt8
  | [] => []
  | b :: rest => if isContinuation b then skipBack rest else rest

/-- The six low bits, the payload of a continuation byte. -/
def payload (b : UInt8) : Nat :=
  (b &&& 0x3F).toNat

/-- The character with the given code, if the code is at least `least` and that of a character. -/
def charAtLeast? (least code : Nat) : Option Char :=
  if h : least ≤ code ∧ code.isValidChar then some (Char.ofNatAux code h.2) else none

/-- The first character and the bytes behind it. There is none if the bytes are too few, are not of
the right classes, or spell a character in more bytes than it needs. -/
def next? : List UInt8 → Option (Char × List UInt8)
  | [] => none
  | b₀ :: rest =>
    if b₀ < 0x80 then (charAtLeast? 0 b₀.toNat).map (·, rest)
    else if b₀ < 0xC0 then none
    else if b₀ < 0xE0 then
      match rest with
      | b₁ :: rest =>
        if isContinuation b₁ then
          (charAtLeast? 0x80 ((b₀ &&& 0x1F).toNat * 64 + payload b₁)).map (·, rest)
        else none
      | _ => none
    else if b₀ < 0xF0 then
      match rest with
      | b₁ :: b₂ :: rest =>
        if isContinuation b₁ && isContinuation b₂ then
          (charAtLeast? 0x800
            (((b₀ &&& 0x0F).toNat * 64 + payload b₁) * 64 + payload b₂)).map (·, rest)
        else none
      | _ => none
    else if b₀ < 0xF8 then
      match rest with
      | b₁ :: b₂ :: b₃ :: rest =>
        if isContinuation b₁ && isContinuation b₂ && isContinuation b₃ then
          (charAtLeast? 0x10000
            ((((b₀ &&& 0x07).toNat * 64 + payload b₁) * 64 + payload b₂) * 64
              + payload b₃)).map (·, rest)
        else none
      | _ => none
    else none

/-- Reading a character leaves fewer bytes. -/
theorem next?_length {bytes rest : List UInt8} {c : Char} (h : next? bytes = some (c, rest)) :
    rest.length < bytes.length := by
  unfold next? at h
  repeat' split at h
  all_goals simp only [Option.map_eq_some_iff, Prod.mk.injEq, reduceCtorEq] at h
  all_goals
    obtain ⟨_, _, _, rfl⟩ := h
    simp only [List.length_cons]
    omega

/-- The text of the bytes, where `offset` bytes were read before. -/
def decodeFrom (offset : Nat) (bytes : List UInt8) : Except Nat (List Char) :=
  match _h : next? bytes with
  | some (c, rest) => (decodeFrom (offset + c.utf8Size) rest).map (c :: ·)
  | none => if bytes.isEmpty then .ok [] else .error offset
termination_by bytes.length
decreasing_by exact next?_length _h

/-- The text of the bytes, or the number of bytes before the first malformed sequence. -/
def decode (bytes : List UInt8) : Except Nat (List Char) :=
  decodeFrom 0 bytes

example : decode (encode "aΣ中😀".toList) = .ok "aΣ中😀".toList := by cbv

example : decode [0x61, 0xC3, 0xA9, 0xFF, 0x61] = .error 3 := by cbv

example : decode [0xED, 0xA0, 0x80] = .error 0 ∧ decode [0xC0, 0x80] = .error 0 := by cbv

end AgentCatalog.Utf8
