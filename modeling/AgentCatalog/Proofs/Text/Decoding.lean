import AgentCatalog.Proofs.Text.Encoding

/-!
# Reading texts back

The bytes of a text are read back as the text: the first byte of a character tells how many there
are, and the low bits of all of them are its code:

* `next?_encodeChar`: the first character of some bytes;
* `decode_encode`: a whole text.
-/

namespace AgentCatalog.Utf8

open String (utf8EncodeChar)

/-! ### One byte -/

lemma payload_ofNat : ∀ n < 0x40, payload (UInt8.ofNat (n + 0x80)) = n := by
  decide

lemma bits_of_one : ∀ n < 0x80, UInt8.ofNat n < 0x80 ∧ (UInt8.ofNat n).toNat = n := by
  decide

lemma bits_of_two : ∀ n < 0x20, ¬UInt8.ofNat (n + 0xC0) < 0x80 ∧ ¬UInt8.ofNat (n + 0xC0) < 0xC0 ∧
    UInt8.ofNat (n + 0xC0) < 0xE0 ∧ (UInt8.ofNat (n + 0xC0) &&& 0x1F).toNat = n := by
  decide

lemma bits_of_three : ∀ n < 0x10, ¬UInt8.ofNat (n + 0xE0) < 0x80 ∧
    ¬UInt8.ofNat (n + 0xE0) < 0xC0 ∧ ¬UInt8.ofNat (n + 0xE0) < 0xE0 ∧
    UInt8.ofNat (n + 0xE0) < 0xF0 ∧ (UInt8.ofNat (n + 0xE0) &&& 0x0F).toNat = n := by
  decide

lemma bits_of_four : ∀ n < 0x08, ¬UInt8.ofNat (n + 0xF0) < 0x80 ∧
    ¬UInt8.ofNat (n + 0xF0) < 0xC0 ∧ ¬UInt8.ofNat (n + 0xF0) < 0xE0 ∧
    ¬UInt8.ofNat (n + 0xF0) < 0xF0 ∧ UInt8.ofNat (n + 0xF0) < 0xF8 ∧
    (UInt8.ofNat (n + 0xF0) &&& 0x07).toNat = n := by
  decide

/-! ### One character -/

section Sequences

variable {b b₁ b₂ b₃ : UInt8} {rest : List UInt8}

lemma next?_one (h : b < 0x80) : next? (b :: rest) = (charAtLeast? 0 b.toNat).map (·, rest) := by
  unfold next?
  exact if_pos h

lemma next?_two (h80 : ¬b < 0x80) (hC0 : ¬b < 0xC0) (hE0 : b < 0xE0)
    (h₁ : isContinuation b₁ = true) : next? (b :: b₁ :: rest) =
      (charAtLeast? 0x80 ((b &&& 0x1F).toNat * 64 + payload b₁)).map (·, rest) := by
  unfold next?
  simp only [h80, hC0, hE0, h₁, if_true, if_false]

lemma next?_three (h80 : ¬b < 0x80) (hC0 : ¬b < 0xC0) (hE0 : ¬b < 0xE0) (hF0 : b < 0xF0)
    (h₁ : isContinuation b₁ = true) (h₂ : isContinuation b₂ = true) :
    next? (b :: b₁ :: b₂ :: rest) = (charAtLeast? 0x800
      (((b &&& 0x0F).toNat * 64 + payload b₁) * 64 + payload b₂)).map (·, rest) := by
  unfold next?
  simp only [h80, hC0, hE0, hF0, h₁, h₂, Bool.and_self, if_true, if_false]

lemma next?_four (h80 : ¬b < 0x80) (hC0 : ¬b < 0xC0) (hE0 : ¬b < 0xE0) (hF0 : ¬b < 0xF0)
    (hF8 : b < 0xF8) (h₁ : isContinuation b₁ = true) (h₂ : isContinuation b₂ = true)
    (h₃ : isContinuation b₃ = true) : next? (b :: b₁ :: b₂ :: b₃ :: rest) = (charAtLeast? 0x10000
      ((((b &&& 0x07).toNat * 64 + payload b₁) * 64 + payload b₂) * 64 + payload b₃)).map
        (·, rest) := by
  unfold next?
  simp only [h80, hC0, hE0, hF0, hF8, h₁, h₂, h₃, Bool.and_self, if_true, if_false]

end Sequences

lemma charAtLeast?_toNat (c : Char) {least code : Nat} (hcode : code = c.toNat)
    (h : least ≤ c.toNat) : charAtLeast? least code = some c := by
  subst hcode
  rw [charAtLeast?, dif_pos ⟨h, c.valid⟩]
  rfl

/-- A character is read back from its bytes, whatever stands behind them. -/
theorem next?_encodeChar (c : Char) (rest : List UInt8) :
    next? (utf8EncodeChar c ++ rest) = some (c, rest) := by
  have low : ∀ v : Nat, isContinuation (UInt8.ofNat (v % 0x40 + 0x80)) = true := fun v =>
    isContinuation_ofNat _ (Nat.mod_lt _ (by decide))
  have lowBits : ∀ v : Nat, payload (UInt8.ofNat (v % 0x40 + 0x80)) = v % 0x40 := fun v =>
    payload_ofNat _ (Nat.mod_lt _ (by decide))
  have hvalid : c.toNat < 0x110000 := by
    rcases c.valid with h | h
    · exact Nat.lt_trans h (by decide)
    · exact h.2
  unfold utf8EncodeChar
  dsimp only
  rw [← Char.toNat]
  split
  · next h1 =>
    obtain ⟨hlt, hval⟩ := bits_of_one c.toNat (Nat.lt_succ_of_le h1)
    exact (next?_one hlt).trans (by rw [charAtLeast?_toNat c hval (Nat.zero_le _)]; rfl)
  · next h1 =>
    split
    · next h2 =>
      obtain ⟨h80, hC0, hlt, hval⟩ := bits_of_two (c.toNat / 64 % 0x20) (Nat.mod_lt _ (by decide))
      refine (next?_two h80 hC0 hlt (low _)).trans ?_
      rw [hval, lowBits, charAtLeast?_toNat c (by omega) (by omega)]
      rfl
    · next h2 =>
      split
      · next h3 =>
        obtain ⟨h80, hC0, hE0, hlt, hval⟩ :=
          bits_of_three (c.toNat / 4096 % 0x10) (Nat.mod_lt _ (by decide))
        refine (next?_three h80 hC0 hE0 hlt (low _) (low _)).trans ?_
        rw [hval, lowBits, lowBits, charAtLeast?_toNat c (by omega) (by omega)]
        rfl
      · next h3 =>
        obtain ⟨h80, hC0, hE0, hF0, hlt, hval⟩ :=
          bits_of_four (c.toNat / 262144 % 0x08) (Nat.mod_lt _ (by decide))
        refine (next?_four h80 hC0 hE0 hF0 hlt (low _) (low _) (low _)).trans ?_
        rw [hval, lowBits, lowBits, lowBits, charAtLeast?_toNat c (by omega) (by omega)]
        rfl

/-! ### Texts -/

lemma decodeFrom_encode (offset : Nat) (s : List Char) :
    decodeFrom offset (encode s) = .ok s := by
  induction s generalizing offset with
  | nil =>
    rw [encode_nil, decodeFrom]
    rfl
  | cons c s ih =>
    rw [encode_cons, decodeFrom]
    split
    · next d rest hnext =>
      rw [next?_encodeChar, Option.some.injEq, Prod.mk.injEq] at hnext
      obtain ⟨rfl, rfl⟩ := hnext
      rw [ih]
      rfl
    · next hnext =>
      rw [next?_encodeChar] at hnext
      cases hnext

/-- Reading the bytes of a text gives the text. -/
theorem decode_encode (s : List Char) : decode (encode s) = .ok s :=
  decodeFrom_encode 0 s

end AgentCatalog.Utf8
