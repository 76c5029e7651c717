import AgentCatalog.Literal.Basic
import AgentCatalog.Proofs.Pattern.Language
import AgentCatalog.Proofs.Text.Encoding

/-!
# Literals at the ends of a subject

A literal is matched byte by byte, forwards from its first byte on or backwards from its last. On
the bytes of a text both ways do what a part of a pattern does on the characters:

* `takeFront?_encode` and `takeBack?_encode`: the bytes that are left are those of the characters
  that are left;
* `matchFrom_encode`, `takesAll_encode` and `matchEnd_encode`: the same for the offsets.

What is said of `takeFront?` and `takeBack?` before that holds of any bytes.
-/

namespace AgentCatalog.Literal

open String (utf8EncodeChar)
open Utf8 (encode skipFront? skipBack CutOff)
open Pattern (Takes front? back?)

/-! ### The byte of `?` -/

lemma encodeChar_any : utf8EncodeChar '?' = [anyByte] := by
  decide

lemma anyByte_mem_encodeChar_iff {c : Char} : anyByte ∈ utf8EncodeChar c ↔ c = '?' :=
  Utf8.mem_encodeChar_iff encodeChar_any

/-! ### From the front -/

lemma takeFront?_any_cons (bytes subject : List UInt8) :
    takeFront? (anyByte :: bytes) subject = (skipFront? subject).bind (takeFront? bytes) := by
  rw [takeFront?.eq_def]
  exact if_pos rfl

lemma takeFront?_cons_nil {b : UInt8} (hb : b ≠ anyByte) (bytes : List UInt8) :
    takeFront? (b :: bytes) [] = none := by
  rw [takeFront?.eq_def]
  exact if_neg hb

lemma takeFront?_cons_cons {b : UInt8} (hb : b ≠ anyByte) (bytes : List UInt8) (c : UInt8)
    (subject : List UInt8) :
    takeFront? (b :: bytes) (c :: subject) = if c = b then takeFront? bytes subject else none := by
  rw [takeFront?.eq_def]
  exact if_neg hb

/-- Bytes other than that of `?` take themselves. -/
lemma takeFront?_append_eq_some_iff {as bs subject left : List UInt8} (h : anyByte ∉ as) :
    takeFront? (as ++ bs) subject = some left ↔
      ∃ rest, subject = as ++ rest ∧ takeFront? bs rest = some left := by
  induction as generalizing subject with
  | nil => simp
  | cons a as ih =>
    rw [List.mem_cons, not_or] at h
    rw [List.cons_append]
    cases subject with
    | nil => simp [takeFront?_cons_nil (Ne.symm h.1)]
    | cons c subject =>
      simp only [takeFront?_cons_cons (Ne.symm h.1), Option.ite_none_right_eq_some, ih h.2,
        List.cons_append, List.cons.injEq]
      constructor
      · rintro ⟨rfl, rest, rfl, hrest⟩
        exact ⟨rest, ⟨rfl, rfl⟩, hrest⟩
      · rintro ⟨rest, ⟨rfl, rfl⟩, hrest⟩
        exact ⟨rfl, rest, rfl, hrest⟩

lemma takeFront?_eq_some_iff_of_plain {bytes subject left : List UInt8} (h : anyByte ∉ bytes) :
    takeFront? bytes subject = some left ↔ subject = bytes ++ left := by
  rw [← List.append_nil bytes, takeFront?_append_eq_some_iff h]
  simp [takeFront?, eq_comm]

lemma takeFront?_suffix {bytes subject left : List UInt8}
    (h : takeFront? bytes subject = some left) : left <:+ subject := by
  induction bytes generalizing subject with
  | nil =>
    rw [takeFront?, Option.some.injEq] at h
    exact h ▸ List.suffix_rfl
  | cons b bytes ih =>
    by_cases hb : b = anyByte
    · subst hb
      rw [takeFront?_any_cons, Option.bind_eq_some_iff] at h
      obtain ⟨rest, hrest, h⟩ := h
      refine (ih h).trans ?_
      cases subject with
      | nil => simp [skipFront?] at hrest
      | cons c subject =>
        rw [skipFront?, Option.ite_none_right_eq_some, Option.some.injEq] at hrest
        rw [← hrest.2]
        exact (List.drop_suffix _ _).trans (List.suffix_cons _ _)
    · have hplain : anyByte ∉ [b] := fun hmem => hb (List.mem_singleton.1 hmem).symm
      obtain ⟨rest, rfl, hrest⟩ := (takeFront?_append_eq_some_iff hplain).1 h
      exact (ih hrest).trans (List.suffix_append _ _)

/-- On the bytes of a text, behind which a character may be cut off, the bytes of a part of a
pattern take what its characters take. -/
theorem takeFront?_encode (t s : List Char) {part : List UInt8} (hpart : CutOff part) :
    takeFront? (encode t) (encode s ++ part) = (front? t s).map (encode · ++ part) := by
  induction t generalizing s with
  | nil => simp [takeFront?, front?]
  | cons p t ih =>
    rw [Utf8.encode_cons]
    by_cases hp : p = '?'
    · -- a `?` passes one character, and never the part of one
      subst hp
      rw [encodeChar_any, List.singleton_append, takeFront?_any_cons]
      cases s with
      | nil => simp [hpart.skipFront?, front?]
      | cons c s =>
        rw [Utf8.encode_cons, List.append_assoc, Utf8.skipFront?_encodeChar, Option.bind_some, ih,
          front?, if_pos (.inl rfl)]
    · have hplain : anyByte ∉ utf8EncodeChar p := fun h => hp (anyByte_mem_encodeChar_iff.1 h)
      ext left
      rw [takeFront?_append_eq_some_iff hplain]
      cases s with
      | nil =>
        simp only [Utf8.encode_nil, List.nil_append, front?, Option.map_none, reduceCtorEq,
          iff_false]
        rintro ⟨rest, hrest, -⟩
        exact hpart.ne_append p rest hrest
      | cons c s =>
        -- the bytes of `p` are there only if they are those of `c`
        rw [Utf8.encode_cons, List.append_assoc, front?]
        constructor
        · rintro ⟨rest, hrest, h⟩
          obtain ⟨rfl, rfl⟩ := Utf8.encodeChar_append_inj hrest
          rwa [if_pos (.inr rfl), ← ih]
        · intro h
          by_cases hpc : Takes p c
          · obtain rfl : p = c := hpc.resolve_left hp
            rw [if_pos hpc, ← ih] at h
            exact ⟨_, rfl, h⟩
          · simp [hpc] at h

/-! ### From the back -/

lemma takeBack?_append_eq_some_iff {as bs subject left : List UInt8} (h : anyByte ∉ as) :
    takeBack? (as ++ bs) subject = some left ↔
      ∃ rest, subject = as ++ rest ∧ takeBack? bs rest = some left := by
  induction as generalizing subject with
  | nil => simp
  | cons a as ih =>
    rw [List.mem_cons, not_or] at h
    rw [List.cons_append]
    cases subject with
    | nil => simp [takeBack?]
    | cons c subject =>
      simp only [takeBack?, if_neg (Ne.symm h.1), Option.ite_none_right_eq_some, ih h.2,
        List.cons_append, List.cons.injEq]
      constructor
      · rintro ⟨rfl, rest, rfl, hrest⟩
        exact ⟨rest, ⟨rfl, rfl⟩, hrest⟩
      · rintro ⟨rest, ⟨rfl, rfl⟩, hrest⟩
        exact ⟨rfl, rest, rfl, hrest⟩

lemma takeBack?_eq_some_iff_of_plain {bytes subject left : List UInt8} (h : anyByte ∉ bytes) :
    takeBack? bytes subject = some left ↔ subject = bytes ++ left := by
  rw [← List.append_nil bytes, takeBack?_append_eq_some_iff h]
  simp [takeBack?, eq_comm]

lemma takeBack?_any_append {subject : List UInt8} (h : subject ≠ []) (bytes : List UInt8) :
    takeBack? (anyByte :: bytes) subject = takeBack? bytes (skipBack subject) := by
  obtain ⟨c, rest, rfl⟩ := List.exists_cons_of_ne_nil h
  rw [takeBack?, if_pos rfl]

lemma takeBack?_encode_reverse (t s : List Char) :
    takeBack? (encode t.reverse).reverse (encode s.reverse).reverse
      = (front? t s).map fun left => (encode left.reverse).reverse := by
  induction t generalizing s with
  | nil => simp [takeBack?, front?]
  | cons p t ih =>
    rw [Utf8.encode_reverse_cons]
    cases s with
    | nil =>
      obtain ⟨b, bytes, hb⟩ := List.exists_cons_of_ne_nil
        (l := (utf8EncodeChar p).reverse) (by simp [String.utf8EncodeChar_ne_nil])
      simp [hb, takeBack?, front?]
    | cons c s =>
      rw [Utf8.encode_reverse_cons]
      by_cases hp : p = '?'
      · subst hp
        rw [encodeChar_any, List.reverse_singleton, List.singleton_append, takeBack?_any_append,
          Utf8.skipBack_encodeChar, ih, front?, if_pos (.inl rfl)]
        simp [String.utf8EncodeChar_ne_nil]
      · have hplain : anyByte ∉ (utf8EncodeChar p).reverse := fun h =>
          hp (anyByte_mem_encodeChar_iff.1 (List.mem_reverse.1 h))
        ext left
        rw [takeBack?_append_eq_some_iff hplain, front?]
        constructor
        · rintro ⟨rest, hrest, h⟩
          have hrest' := congrArg List.reverse hrest
          simp only [List.reverse_append, List.reverse_reverse] at hrest'
          obtain ⟨rfl, hs⟩ := Utf8.append_encodeChar_inj hrest'
          rwa [if_pos (.inr rfl), ← ih, hs, List.reverse_reverse]
        · intro h
          by_cases hpc : Takes p c
          · obtain rfl : p = c := hpc.resolve_left hp
            rw [if_pos hpc, ← ih] at h
            exact ⟨_, rfl, h⟩
          · simp [hpc] at h

/-- Backwards, too, the bytes of a part of a pattern take what its characters take. -/
theorem takeBack?_encode (t s : List Char) :
    takeBack? (encode t).reverse (encode s).reverse
      = (back? t s).map fun left => (encode left).reverse := by
  have h := takeBack?_encode_reverse t.reverse s.reverse
  rw [List.reverse_reverse, List.reverse_reverse] at h
  rw [h, back?, Option.map_map, Function.comp_def]

/-! ### Offsets -/

lemma hasAnyChar_eq_true_iff {l : Literal} : l.hasAnyChar = true ↔ anyByte ∈ l.bytes := by
  simp [hasAnyChar]

/-- The shorter way of a literal without `?` gives the same. -/
lemma matchFrom_eq (l : Literal) (subject : List UInt8) (start : Nat) :
    l.matchFrom subject start = if subject.length < start then none
      else (takeFront? l.bytes (subject.drop start)).map (subject.length - ·.length) := by
  rw [matchFrom]
  split
  · rfl
  · next hstart =>
    split
    · rfl
    · next hany =>
      rw [hasAnyChar_eq_true_iff] at hany
      have hstop : ∀ left, subject.drop start = l.bytes ++ left →
          start + l.bytes.length = subject.length - left.length := by
        intro left hleft
        have hlen := congrArg List.length hleft
        rw [List.length_append, List.length_drop] at hlen
        omega
      ext stop
      simp only [Option.ite_none_right_eq_some, Option.some.injEq, Option.map_eq_some_iff,
        takeFront?_eq_some_iff_of_plain hany, List.isPrefixOf_iff_prefix]
      constructor
      · rintro ⟨⟨left, hleft⟩, rfl⟩
        exact ⟨left, hleft.symm, (hstop left hleft.symm).symm⟩
      · rintro ⟨left, hleft, rfl⟩
        exact ⟨⟨left, hleft.symm⟩, hstop left hleft⟩

lemma takesAll_eq (l : Literal) (subject : List UInt8) :
    l.takesAll subject = (takeFront? l.bytes subject == some []) := by
  rw [takesAll, Bool.eq_iff_iff]
  split
  · rw [matchFrom_eq, if_neg (Nat.not_lt_zero _), List.drop_zero, beq_iff_eq, beq_iff_eq,
      Option.map_eq_some_iff]
    constructor
    · rintro ⟨left, hleft, hlen⟩
      have := (takeFront?_suffix hleft).length_le
      rw [hleft, List.eq_nil_of_length_eq_zero (l := left) (by omega)]
    · intro h
      exact ⟨[], h, by simp⟩
  · next hany =>
    rw [hasAnyChar_eq_true_iff] at hany
    rw [beq_iff_eq, beq_iff_eq, takeFront?_eq_some_iff_of_plain hany, List.append_nil]

lemma matchEnd_eq (l : Literal) (subject : List UInt8) (floor : Nat) :
    l.matchEnd subject floor
      = ((takeBack? l.bytes.reverse subject.reverse).map List.length).filter (floor ≤ ·) := by
  rw [matchEnd]
  split
  · rfl
  · next hany =>
    rw [hasAnyChar_eq_true_iff, ← List.mem_reverse] at hany
    congr 1
    ext stop
    simp only [Option.ite_none_right_eq_some, Option.some.injEq, Option.map_eq_some_iff,
      takeBack?_eq_some_iff_of_plain hany, List.isSuffixOf_iff_suffix]
    constructor
    · rintro ⟨⟨left, rfl⟩, rfl⟩
      exact ⟨left.reverse, by simp, by simp⟩
    · rintro ⟨left, hleft, rfl⟩
      obtain rfl : subject = left.reverse ++ l.bytes := by simpa using congrArg List.reverse hleft
      exact ⟨List.suffix_append _ _, by simp⟩

/-! ### Literals of texts -/

@[simp] lemma bytes_ofText (t : String) : (ofText t).bytes = encode t.toList := rfl

/-- Behind the start `a` of a text the literal takes what its characters take. -/
lemma matchFrom_encode (t : String) (a s : List Char) :
    (ofText t).matchFrom (encode (a ++ s)) (encode a).length
      = (front? t.toList s).map fun left => (encode (a ++ s)).length - (encode left).length := by
  have h := takeFront?_encode t.toList s Utf8.cutOff_nil
  rw [List.append_nil] at h
  rw [matchFrom_eq, if_neg (by simp), Utf8.encode_append, List.drop_left, bytes_ofText, h,
    Option.map_map]
  simp [Function.comp_def]

lemma takesAll_encode (t : String) (s : List Char) :
    (ofText t).takesAll (encode s) = (front? t.toList s == some []) := by
  have h := takeFront?_encode t.toList s Utf8.cutOff_nil
  rw [List.append_nil] at h
  rw [takesAll_eq, bytes_ofText, h, Bool.eq_iff_iff, beq_iff_eq, beq_iff_eq]
  simp [Utf8.encode_eq_nil_iff]

/-- Behind the start `a` of a text the literal takes the end that its characters take. -/
lemma matchEnd_encode (t : String) (a s : List Char) :
    (ofText t).matchEnd (encode (a ++ s)) (encode a).length
      = (back? t.toList s).map fun m => (encode (a ++ m)).length := by
  rw [matchEnd_eq, bytes_ofText, takeBack?_encode, Option.map_map]
  ext stop
  simp only [Option.filter_eq_some_iff, Option.map_eq_some_iff, decide_eq_true_eq]
  constructor
  · rintro ⟨⟨x, hx, rfl⟩, hle⟩
    rw [Function.comp_apply, List.length_reverse] at hle
    obtain ⟨b, hab, -⟩ := Pattern.back?_eq_some_iff.1 hx
    rw [Utf8.length_encode_append_le_iff hab] at hle
    obtain ⟨m, rfl, hm⟩ := Pattern.back?_append_eq_some_iff.1 ⟨hx, hle⟩
    exact ⟨m, hm, by simp [Nat.add_comm]⟩
  · rintro ⟨m, hm, rfl⟩
    have hx := (Pattern.back?_append_eq_some_iff (a := a).2 ⟨m, rfl, hm⟩).1
    exact ⟨⟨a ++ m, hx, by simp [Nat.add_comm]⟩, by simp⟩

end AgentCatalog.Literal
