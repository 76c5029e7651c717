import AgentCatalog.Proofs.Text.Encoding

/-!
# Offsets into the bytes of a text

An offset into the bytes of a text is a boundary if it is that of a character, or of the end. Bytes
from a boundary on are those of a text. How far they go is another matter: up to an offset that is no
boundary they end with a character cut off.

* `boundary_iff`: the byte at a boundary continues nothing, and every other byte does;
* `exists_take_encode`: the first bytes of a text are those of its longest start that fits, and a
  character cut off.
-/

namespace AgentCatalog.Utf8

open String (utf8EncodeChar)

variable {s : List Char} {i : Nat}

/-! ### Boundaries -/

/-- A character of the text starts at the offset, or the text ends there. -/
def Boundary (s : List Char) (i : Nat) : Prop :=
  ∃ a b, s = a ++ b ∧ (encode a).length = i

lemma boundary_append (a b : List Char) : Boundary (a ++ b) (encode a).length :=
  ⟨a, b, rfl, rfl⟩

lemma boundary_zero (s : List Char) : Boundary s 0 :=
  boundary_append [] s

lemma Boundary.le_length (h : Boundary s i) : i ≤ (encode s).length := by
  obtain ⟨a, b, rfl, rfl⟩ := h
  simp

lemma boundary_nil_iff : Boundary [] i ↔ i = 0 := by
  constructor
  · intro h
    simpa using h.le_length
  · rintro rfl
    exact boundary_zero []

lemma boundary_cons_iff {c : Char} :
    Boundary (c :: s) i ↔ i = 0 ∨ ∃ j, i = (utf8EncodeChar c).length + j ∧ Boundary s j := by
  constructor
  · rintro ⟨a, b, hs, rfl⟩
    cases a with
    | nil => exact .inl rfl
    | cons d a =>
      rw [List.cons_append, List.cons.injEq] at hs
      obtain ⟨rfl, rfl⟩ := hs
      exact .inr ⟨_, by simp, boundary_append a b⟩
  · rintro (rfl | ⟨j, rfl, a, b, rfl, rfl⟩)
    · exact boundary_zero _
    · exact ⟨c :: a, b, rfl, by simp⟩

/-- The byte at a boundary continues nothing, and the other bytes do. -/
theorem boundary_iff : Boundary s i ↔
    i ≤ (encode s).length ∧ ((encode s).drop i).head?.any isContinuation = false := by
  induction s generalizing i with
  | nil => simp [boundary_nil_iff]
  | cons c s ih =>
    obtain ⟨first, rest, hc, hb⟩ := exists_charBytes c
    rw [boundary_cons_iff, encode_cons, List.length_append]
    rcases Nat.eq_zero_or_pos i with rfl | hpos
    · simp [hc, hb.first_eq_false]
    rcases Nat.lt_or_ge i (utf8EncodeChar c).length with hi | hi
    · -- within the character
      have hcont := isContinuation_getElem hi hpos
      rw [List.drop_append_of_le_length (Nat.le_of_lt hi), List.drop_eq_getElem_cons hi]
      rw [List.cons_append, List.head?_cons, Option.any_some, hcont]
      refine iff_of_false ?_ fun h => Bool.noConfusion h.2
      rintro (rfl | ⟨j, rfl, -⟩)
      · exact Nat.lt_irrefl 0 hpos
      · omega
    · obtain ⟨j, rfl⟩ := Nat.exists_eq_add_of_le hi
      rw [List.drop_append, List.drop_eq_nil_of_le (Nat.le_add_right _ _), List.nil_append,
        Nat.add_sub_cancel_left, Nat.add_le_add_iff_left, ← ih]
      constructor
      · rintro (h | ⟨k, hk, h⟩)
        · omega
        · rwa [Nat.add_left_cancel hk]
      · intro h
        exact .inr ⟨j, rfl, h⟩

instance (s : List Char) (i : Nat) : Decidable (Boundary s i) :=
  decidable_of_iff _ boundary_iff.symm

example : Boundary "aé中".toList 3 ∧ ¬Boundary "aé中".toList 2 := by decide

/-! ### The first bytes of a text -/

/-- The first bytes of a text are those of its longest start that has no more of them, and some of
the next character. -/
theorem exists_take_encode (s : List Char) (n : Nat) :
    ∃ m part, (encode s).take n = encode m ++ part ∧ CutOff part ∧ m <+: s ∧
      ∀ a, a <+: s → (encode a).length ≤ n → a <+: m := by
  induction s generalizing n with
  | nil => exact ⟨[], [], by simp, cutOff_nil, List.prefix_rfl, fun a ha _ => ha⟩
  | cons c s ih =>
    rw [encode_cons]
    rcases Nat.lt_or_ge n (utf8EncodeChar c).length with hn | hn
    · refine ⟨[], (utf8EncodeChar c).take n, ?_, ?_, List.nil_prefix, ?_⟩
      · rw [List.take_append_of_le_length (Nat.le_of_lt hn), encode_nil, List.nil_append]
      · refine ⟨c, (utf8EncodeChar c).drop n, ?_, (List.take_append_drop n _).symm⟩
        rw [ne_eq, List.drop_eq_nil_iff]
        omega
      · intro a ha hle
        cases a with
        | nil => exact List.prefix_rfl
        | cons d a =>
          obtain rfl := (List.cons_prefix_cons.1 ha).1
          rw [encode_cons, List.length_append] at hle
          omega
    · obtain ⟨k, rfl⟩ := Nat.exists_eq_add_of_le hn
      obtain ⟨m, part, htake, hpart, hm, hlongest⟩ := ih k
      refine ⟨c :: m, part, ?_, hpart, List.cons_prefix_cons.2 ⟨rfl, hm⟩, ?_⟩
      · rw [List.take_length_add_append, htake, encode_cons, List.append_assoc]
      · intro a ha hle
        cases a with
        | nil => exact List.nil_prefix
        | cons d a =>
          obtain ⟨rfl, hrest⟩ := List.cons_prefix_cons.1 ha
          rw [encode_cons, List.length_append] at hle
          exact List.cons_prefix_cons.2 ⟨rfl, hlongest a hrest (by omega)⟩

end AgentCatalog.Utf8
