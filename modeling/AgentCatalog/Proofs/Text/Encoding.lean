import AgentCatalog.Text.Utf8
import Mathlib.Tactic.Lemma

/-!
# The bytes of a text

The bytes of a character are a first byte, which tells how many there are, and continuation bytes.
So a text is cut into its characters in one way only, forwards and backwards:

* `skipFront?_encodeChar` and `skipBack_encodeChar`: a character is passed in both directions;
* `encodeChar_append_inj` and `append_encodeChar_inj`: bytes start and end with one character only.

A window of a text may end within a character. The bytes of that character that are left are
`CutOff`: nothing that is matched takes any of them.
-/

namespace AgentCatalog.Utf8

open String (utf8EncodeChar)

/-! ### One character -/

/-- The bytes of one character: the first tells their number, the others continue it. -/
structure CharBytes (first : UInt8) (rest : List UInt8) : Prop where
  first_eq_false : isContinuation first = false
  rest_eq_true : ∀ b ∈ rest, isContinuation b = true
  width_first : width first = rest.length + 1

lemma isContinuation_ofNat : ∀ n < 0x40, isContinuation (UInt8.ofNat (n + 0x80)) = true := by
  decide

lemma first_of_one : ∀ n < 0x80,
    isContinuation (UInt8.ofNat n) = false ∧ width (UInt8.ofNat n) = 1 := by
  decide

lemma first_of_two : ∀ n < 0x20,
    isContinuation (UInt8.ofNat (n + 0xC0)) = false ∧ width (UInt8.ofNat (n + 0xC0)) = 2 := by
  decide

lemma first_of_three : ∀ n < 0x10,
    isContinuation (UInt8.ofNat (n + 0xE0)) = false ∧ width (UInt8.ofNat (n + 0xE0)) = 3 := by
  decide

lemma first_of_four : ∀ n < 0x08,
    isContinuation (UInt8.ofNat (n + 0xF0)) = false ∧ width (UInt8.ofNat (n + 0xF0)) = 4 := by
  decide

lemma exists_charBytes (c : Char) :
    ∃ first rest, utf8EncodeChar c = first :: rest ∧ CharBytes first rest := by
  have low : ∀ v : Nat, isContinuation (UInt8.ofNat (v % 0x40 + 0x80)) = true := fun v =>
    isContinuation_ofNat _ (Nat.mod_lt _ (by decide))
  unfold utf8EncodeChar
  dsimp only
  split
  · next h =>
    obtain ⟨hf, hw⟩ := first_of_one c.val.toNat (Nat.lt_succ_of_le h)
    exact ⟨_, _, rfl, hf, by simp, hw⟩
  · split
    · obtain ⟨hf, hw⟩ := first_of_two (c.val.toNat / 64 % 0x20) (Nat.mod_lt _ (by decide))
      exact ⟨_, _, rfl, hf, List.forall_mem_singleton.2 (low _), hw⟩
    · split
      · obtain ⟨hf, hw⟩ := first_of_three (c.val.toNat / 4096 % 0x10) (Nat.mod_lt _ (by decide))
        exact ⟨_, _, rfl, hf,
          List.forall_mem_cons.2 ⟨low _, List.forall_mem_singleton.2 (low _)⟩, hw⟩
      · obtain ⟨hf, hw⟩ := first_of_four (c.val.toNat / 262144 % 0x08) (Nat.mod_lt _ (by decide))
        exact ⟨_, _, rfl, hf, List.forall_mem_cons.2 ⟨low _,
          List.forall_mem_cons.2 ⟨low _, List.forall_mem_singleton.2 (low _)⟩⟩, hw⟩

lemma isContinuation_getElem {c : Char} {i : Nat} (hi : i < (utf8EncodeChar c).length)
    (hpos : 0 < i) : isContinuation (utf8EncodeChar c)[i] = true := by
  obtain ⟨first, rest, hc, h⟩ := exists_charBytes c
  obtain ⟨i, rfl⟩ := Nat.exists_eq_add_of_lt hpos
  simp only [hc, Nat.zero_add, List.getElem_cons_succ]
  exact h.rest_eq_true _ (List.getElem_mem _)

lemma encodeChar_injective {c d : Char} (h : utf8EncodeChar c = utf8EncodeChar d) : c = d := by
  have hc := ByteArray.utf8DecodeChar?_utf8EncodeChar_append (b := .empty) (c := c)
  have hd := ByteArray.utf8DecodeChar?_utf8EncodeChar_append (b := .empty) (c := d)
  rw [h, hd] at hc
  exact (Option.some.inj hc).symm

/-- A byte that is a whole character is in the bytes of no other. -/
lemma mem_encodeChar_iff {b : UInt8} {c d : Char} (hd : utf8EncodeChar d = [b]) :
    b ∈ utf8EncodeChar c ↔ c = d := by
  constructor
  · intro h
    obtain ⟨_, _, hb, hwhole⟩ := exists_charBytes d
    obtain ⟨rfl, rfl⟩ := List.cons.inj (hd.symm.trans hb)
    obtain ⟨first, rest, hc, hbytes⟩ := exists_charBytes c
    have hrest : b ∉ rest := fun hmem => by
      simpa [hwhole.first_eq_false] using hbytes.rest_eq_true _ hmem
    rw [hc, List.mem_cons, or_iff_left hrest] at h
    subst h
    have hlen := hbytes.width_first
    rw [hwhole.width_first] at hlen
    obtain rfl : rest = [] := List.eq_nil_of_length_eq_zero (Nat.succ.inj hlen).symm
    exact encodeChar_injective (hc.trans hd.symm)
  · rintro rfl
    rw [hd]
    exact List.mem_singleton_self _

/-! ### Passing a character -/

lemma skipFront?_encodeChar (c : Char) (bytes : List UInt8) :
    skipFront? (utf8EncodeChar c ++ bytes) = some bytes := by
  obtain ⟨first, rest, hc, h⟩ := exists_charBytes c
  rw [hc, List.cons_append, skipFront?, h.width_first]
  simp

lemma skipBack_append {rest : List UInt8} (h : ∀ b ∈ rest, isContinuation b = true)
    {first : UInt8} (hf : isContinuation first = false) (bytes : List UInt8) :
    skipBack (rest ++ first :: bytes) = bytes := by
  induction rest with
  | nil => simp [skipBack, hf]
  | cons b rest ih =>
    rw [List.cons_append, skipBack, if_pos (h b List.mem_cons_self)]
    exact ih fun x hx => h x (List.mem_cons_of_mem b hx)

lemma skipBack_encodeChar (c : Char) (bytes : List UInt8) :
    skipBack ((utf8EncodeChar c).reverse ++ bytes) = bytes := by
  obtain ⟨first, rest, hc, h⟩ := exists_charBytes c
  rw [hc, List.reverse_cons, List.append_assoc]
  exact skipBack_append (fun b hb => h.rest_eq_true b (List.mem_reverse.1 hb)) h.first_eq_false _

/-- The first character and the bytes behind it can be told from the bytes. -/
lemma encodeChar_append_inj {c d : Char} {x y : List UInt8}
    (h : utf8EncodeChar c ++ x = utf8EncodeChar d ++ y) : c = d ∧ x = y := by
  have hxy : x = y := by
    have := congrArg skipFront? h
    rwa [skipFront?_encodeChar, skipFront?_encodeChar, Option.some.injEq] at this
  subst hxy
  exact ⟨encodeChar_injective (List.append_cancel_right h), rfl⟩

/-- The last character and the bytes before it can be told from the bytes. -/
lemma append_encodeChar_inj {c d : Char} {x y : List UInt8}
    (h : x ++ utf8EncodeChar c = y ++ utf8EncodeChar d) : c = d ∧ x = y := by
  have hxy : x = y := by
    have := congrArg (fun bytes => skipBack bytes.reverse) h
    simpa [skipBack_encodeChar] using this
  subst hxy
  exact ⟨encodeChar_injective (List.append_cancel_left h), rfl⟩

/-! ### Texts -/

lemma encode_reverse_cons (c : Char) (text : List Char) :
    (encode (c :: text).reverse).reverse
      = (utf8EncodeChar c).reverse ++ (encode text.reverse).reverse := by
  simp

lemma encode_injective {s t : List Char} (h : encode s = encode t) : s = t := by
  induction s generalizing t with
  | nil =>
    cases t with
    | nil => rfl
    | cons d t =>
      obtain ⟨first, rest, hd, -⟩ := exists_charBytes d
      simp [hd] at h
  | cons c s ih =>
    cases t with
    | nil =>
      obtain ⟨first, rest, hc, -⟩ := exists_charBytes c
      simp [hc] at h
    | cons d t =>
      obtain ⟨rfl, htexts⟩ := encodeChar_append_inj h
      rw [ih htexts]

lemma encode_eq_nil_iff {s : List Char} : encode s = [] ↔ s = [] :=
  ⟨fun h => encode_injective (t := []) h, fun h => h ▸ rfl⟩

/-- Of two texts that start the same text the one with fewer characters has fewer bytes. -/
lemma length_encode_append_le_iff {a x : List Char} {b y : List Char} (h : a ++ b = x ++ y) :
    (encode a).length ≤ (encode x).length ↔ a.length ≤ x.length := by
  rcases List.append_eq_append_iff.1 h with ⟨m, rfl, -⟩ | ⟨m, rfl, -⟩
  · simp
  · constructor
    · intro hle
      rw [encode_append, List.length_append] at hle
      have hm : encode m = [] := List.eq_nil_of_length_eq_zero (by omega)
      simp [encode_eq_nil_iff.1 hm]
    · intro hle
      rw [List.length_append] at hle
      have hm : m = [] := List.eq_nil_of_length_eq_zero (by omega)
      simp [hm]

/-! ### Characters cut off -/

/-- Some bytes of a character from its first on, but not all of them. No bytes are so, too. -/
def CutOff (bytes : List UInt8) : Prop :=
  ∃ c more, more ≠ [] ∧ utf8EncodeChar c = bytes ++ more

lemma cutOff_nil : CutOff [] :=
  ⟨'a', utf8EncodeChar 'a', String.utf8EncodeChar_ne_nil, rfl⟩

/-- The bytes of a character do not start what is left of one. -/
lemma CutOff.ne_append {bytes : List UInt8} (h : CutOff bytes) (c : Char) (t : List UInt8) :
    bytes ≠ utf8EncodeChar c ++ t := by
  rintro rfl
  obtain ⟨d, more, hmore, hd⟩ := h
  rw [List.append_assoc, ← List.append_nil (utf8EncodeChar d)] at hd
  have := (encodeChar_append_inj hd).2
  exact hmore (List.append_eq_nil_iff.1 this.symm).2

lemma CutOff.skipFront? {bytes : List UInt8} (h : CutOff bytes) : skipFront? bytes = none := by
  obtain ⟨c, more, hmore, hc⟩ := h
  obtain ⟨first, rest, hbytes, hb⟩ := exists_charBytes c
  cases bytes with
  | nil => rfl
  | cons b bytes =>
    rw [hbytes, List.cons_append, List.cons.injEq] at hc
    obtain ⟨rfl, rfl⟩ := hc
    have := List.length_pos_iff.2 hmore
    rw [Utf8.skipFront?, hb.width_first, if_neg]
    rw [List.length_append]
    omega

end AgentCatalog.Utf8
