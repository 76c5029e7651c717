import AgentCatalog.Proofs.Literal.Ends

/-!
# Searching a literal

A literal is searched for in one of three ways, by what stands before its first `?`. All of them
find the first place where the literal takes anything:

* `searchHead_eq` and `map_indexOf?_eq`: two of the ways give what trying every byte in turn gives
  (`searchBytes`), on any bytes;
* `TriesChars.find_encode`: on the bytes of a text, trying every byte and trying every character
  both end behind the first place in the characters;
* `search_of_window`: so does the search, which also looks at the least length first.

A window may end within a character; the bytes that are left of it are never taken.
-/

namespace AgentCatalog.Literal

open String (utf8EncodeChar)
open Utf8 (encode CutOff)
open Pattern (Takes Covers front? behindFirst?)

/-! ### The bytes before the first `?` -/

lemma anyByte_notMem_head (l : Literal) : anyByte ∉ l.head := by
  intro h
  simpa using List.all_eq_true.1 List.all_takeWhile anyByte h

lemma bytes_eq_head_append (l : Literal) : ∃ rest, l.bytes = l.head ++ rest :=
  ⟨_, List.takeWhile_append_dropWhile.symm⟩

lemma head_prefix_of_takeFront? {l : Literal} {subject left : List UInt8}
    (h : takeFront? l.bytes subject = some left) : l.head <+: subject := by
  obtain ⟨rest, hl⟩ := l.bytes_eq_head_append
  rw [hl] at h
  obtain ⟨behind, rfl, -⟩ := (takeFront?_append_eq_some_iff l.anyByte_notMem_head).1 h
  exact List.prefix_append _ _

lemma indexOf?_eq_none {bytes window : List UInt8} (h : indexOf? bytes window = none) (i : Nat) :
    ¬ bytes <+: window.drop i := by
  induction window generalizing i with
  | nil =>
    rw [indexOf?] at h
    split at h
    · simp at h
    · next hne => simpa using hne
  | cons c rest ih =>
    simp only [indexOf?, List.isPrefixOf_iff_prefix] at h
    split at h
    · simp at h
    · next hne =>
      cases i with
      | zero => exact hne
      | succ i => exact ih (Option.map_eq_none_iff.1 h) i

lemma indexOf?_eq_some {bytes window : List UInt8} {i : Nat} (h : indexOf? bytes window = some i) :
    i ≤ window.length ∧ bytes <+: window.drop i ∧ ∀ j < i, ¬ bytes <+: window.drop j := by
  induction window generalizing i with
  | nil =>
    rw [indexOf?, Option.ite_none_right_eq_some, Option.some.injEq, List.isEmpty_iff] at h
    obtain ⟨rfl, rfl⟩ := h
    simp
  | cons c rest ih =>
    simp only [indexOf?, List.isPrefixOf_iff_prefix] at h
    split at h
    · next hp =>
      obtain rfl := Option.some.inj h
      exact ⟨Nat.zero_le _, hp, fun j hj => absurd hj (Nat.not_lt_zero j)⟩
    · next hne =>
      obtain ⟨k, hk, rfl⟩ := Option.map_eq_some_iff.1 h
      obtain ⟨hle, hp, hfirst⟩ := ih hk
      refine ⟨Nat.succ_le_succ hle, hp, fun j hj => ?_⟩
      cases j with
      | zero => exact hne
      | succ j => exact hfirst j (Nat.lt_of_succ_lt_succ hj)

/-! ### Trying every byte -/

/-- The end of the first match, tried from byte to byte. An offset counts from the start of the
window. -/
def searchBytes (l : Literal) : List UInt8 → Option Nat
  | [] => none
  | b :: rest =>
    match takeFront? l.bytes (b :: rest) with
    | some left => some (rest.length + 1 - left.length)
    | none => (searchBytes l rest).map (· + 1)

/-- Bytes at which nothing matches may be passed over. -/
lemma searchBytes_of_skip {l : Literal} {window : List UInt8} {i : Nat} (hi : i ≤ window.length)
    (h : ∀ j < i, takeFront? l.bytes (window.drop j) = none) :
    l.searchBytes window = (l.searchBytes (window.drop i)).map (· + i) := by
  induction i generalizing window with
  | zero => simp
  | succ i ih =>
    cases window with
    | nil => simp at hi
    | cons b rest =>
      have h₀ : takeFront? l.bytes (b :: rest) = none := h 0 (Nat.succ_pos i)
      have hrest := @ih rest (Nat.le_of_succ_le_succ hi) fun j hj =>
        h (j + 1) (Nat.succ_lt_succ hj)
      rw [searchBytes, h₀, hrest, List.drop_succ_cons, Option.map_map]
      rfl

lemma searchBytes_eq_none {l : Literal} {window : List UInt8}
    (h : ∀ j < window.length, takeFront? l.bytes (window.drop j) = none) :
    l.searchBytes window = none := by
  rw [searchBytes_of_skip (Nat.le_refl _) h, List.drop_length, searchBytes, Option.map_none]

/-- Looking for the bytes before the first `?` passes over places where nothing matches. -/
theorem searchHead_eq {l : Literal} (hl : l.head ≠ []) (window : List UInt8) :
    l.searchHead window = l.searchBytes window := by
  -- on the length of the window, as the next try skips to the next place of the head
  induction hn : window.length using Nat.strongRecOn generalizing window with
  | ind n ih =>
    subst hn
    cases window with
    | nil => rw [searchHead, searchBytes]
    | cons b rest =>
      have hnone : ∀ j, ¬ l.head <+: (b :: rest).drop j →
          takeFront? l.bytes ((b :: rest).drop j) = none := by
        intro j hj
        rw [Option.eq_none_iff_forall_ne_some]
        exact fun left hleft => hj (head_prefix_of_takeFront? hleft)
      rw [searchHead]
      cases hi : indexOf? l.head (b :: rest) with
      | none => exact (searchBytes_eq_none fun j _ => hnone j (indexOf?_eq_none hi j)).symm
      | some i =>
        obtain ⟨hle, hp, hfirst⟩ := indexOf?_eq_some hi
        rw [searchBytes_of_skip hle fun j hj => hnone j (hfirst j hj)]
        cases hw : (b :: rest).drop i with
        | nil =>
          rw [hw] at hp
          exact absurd (List.prefix_nil.1 hp) hl
        | cons b' rest' =>
          have hlen := congrArg List.length hw
          have hrest : rest.drop i = rest' := by
            have := congrArg List.tail hw
            rwa [List.tail_drop, List.tail_cons] at this
          simp only [List.length_drop, List.length_cons] at hlen
          dsimp only
          rw [hw, hrest, searchBytes]
          cases hleft : takeFront? l.bytes (b' :: rest') with
          | some left =>
            have := (takeFront?_suffix hleft).length_le
            simp only [Option.map_some, Option.some.injEq, List.length_cons] at this ⊢
            omega
          | none =>
            simp only [Option.map_map]
            rw [ih rest'.length (by simp only [List.length_cons]; omega) rest' rfl]
            congr 1
            funext k
            simp only [Function.comp_apply]
            omega

/-- Without a `?` the place of the bytes is that of the literal. -/
theorem map_indexOf?_eq {l : Literal} (hany : anyByte ∉ l.bytes) (hl : l.bytes ≠ [])
    (window : List UInt8) :
    (indexOf? l.bytes window).map (· + l.bytes.length) = l.searchBytes window := by
  induction window with
  | nil => simp [indexOf?, searchBytes, hl]
  | cons b rest ih =>
    rw [indexOf?, searchBytes, ← ih]
    simp only [List.isPrefixOf_iff_prefix]
    split
    · next hp =>
      obtain ⟨left, hleft⟩ := hp
      rw [(takeFront?_eq_some_iff_of_plain hany).2 hleft.symm]
      have := congrArg List.length hleft
      simp only [List.length_append, List.length_cons] at this
      simp only [Option.map_some, Option.some.injEq]
      omega
    · next hp =>
      have hnone : takeFront? l.bytes (b :: rest) = none := by
        rw [Option.eq_none_iff_forall_ne_some]
        intro left hleft
        exact hp ⟨left, ((takeFront?_eq_some_iff_of_plain hany).1 hleft).symm⟩
      rw [hnone, Option.map_map, Option.map_map]
      congr 1
      funext k
      simp only [Function.comp_apply]
      omega

/-- The search, whichever way is taken. -/
lemma search_eq (l : Literal) (subject : List UInt8) (start limit : Nat) :
    l.search subject start limit = if limit < start ∨ limit - start < l.minLength then none
      else ((if l.head = [] then l.searchChars ((subject.take limit).drop start)
        else l.searchBytes ((subject.take limit).drop start))).map (start + ·) := by
  rw [search]
  split
  · rfl
  · simp only [List.isEmpty_iff]
    split
    · rfl
    · next hl =>
      split
      · rw [searchHead_eq hl]
      · next hany =>
        rw [hasAnyChar_eq_true_iff] at hany
        have hne : l.bytes ≠ [] := fun h => hl (by simp [head, h])
        rw [map_indexOf?_eq hany hne]

/-! ### On the bytes of a text -/

/-- A way of searching bytes that end with those of a character cut off: it tries the place before
each character and passes over the character if the literal takes nothing there. -/
structure TriesChars (l : Literal) (part : List UInt8) (find : List UInt8 → Option Nat) : Prop where
  cut_off : find part = none
  found : ∀ c bytes left, takeFront? l.bytes (utf8EncodeChar c ++ bytes) = some left →
    find (utf8EncodeChar c ++ bytes) = some ((utf8EncodeChar c ++ bytes).length - left.length)
  passed : ∀ c bytes, takeFront? l.bytes (utf8EncodeChar c ++ bytes) = none →
    find (utf8EncodeChar c ++ bytes) = (find bytes).map (· + (utf8EncodeChar c).length)

/-- Such a way finds the first place in the characters. -/
lemma TriesChars.find_encode {t : String} {part : List UInt8} {find : List UInt8 → Option Nat}
    (h : TriesChars (ofText t) part find) (hpart : CutOff part) (s : List Char) :
    find (encode s ++ part)
      = (behindFirst? t.toList s).map fun left => (encode s).length - (encode left).length := by
  induction s with
  | nil => simp [h.cut_off, behindFirst?]
  | cons c s ih =>
    have htake := takeFront?_encode t.toList (c :: s) hpart
    rw [Utf8.encode_cons, List.append_assoc] at htake ⊢
    rw [behindFirst?]
    cases hf : front? t.toList (c :: s) with
    | some left =>
      rw [hf, Option.map_some] at htake
      rw [h.found _ _ _ htake, Option.some_or, Option.map_some]
      simp only [List.length_append, Option.some.injEq]
      omega
    | none =>
      rw [hf, Option.map_none] at htake
      rw [h.passed _ _ htake, ih, Option.none_or, Option.map_map]
      cases hr : behindFirst? t.toList s with
      | none => rfl
      | some left =>
        obtain ⟨a, b, rfl, -⟩ := Pattern.exists_of_behindFirst? hr
        simp only [Option.map_some, Function.comp_apply, Utf8.encode_append, List.length_append,
          Option.some.injEq]
        omega

lemma takeFront?_cutOff {t : String} (ht : t.toList ≠ []) {part : List UInt8}
    (hpart : CutOff part) : takeFront? (ofText t).bytes part = none := by
  have h := takeFront?_encode t.toList [] hpart
  obtain ⟨p, t', hp⟩ := List.exists_cons_of_ne_nil ht
  rw [hp, front?, Option.map_none] at h
  rw [bytes_ofText, hp]
  exact h

lemma searchChars_triesChars {t : String} (ht : t.toList ≠ []) {part : List UInt8}
    (hpart : CutOff part) : TriesChars (ofText t) part (ofText t).searchChars where
  cut_off := by
    have hnone := takeFront?_cutOff ht hpart
    obtain ⟨c, more, hmore, hc⟩ := hpart
    cases part with
    | nil => rw [searchChars]
    | cons b rest =>
      -- the character is wider than what is left of it, so no bytes remain behind it
      obtain ⟨first, tail, hbytes, hb⟩ := Utf8.exists_charBytes c
      rw [hbytes, List.cons_append, List.cons.injEq] at hc
      obtain ⟨rfl, rfl⟩ := hc
      have hdrop : rest.drop (Utf8.width first - 1) = [] := by
        rw [hb.width_first, List.drop_eq_nil_iff, List.length_append]
        omega
      rw [searchChars, hnone, hdrop, searchChars]
      rfl
  found c bytes left h := by
    obtain ⟨first, rest, hc, hb⟩ := Utf8.exists_charBytes c
    rw [hc, List.cons_append] at h ⊢
    rw [searchChars, h]
    rfl
  passed c bytes h := by
    obtain ⟨first, rest, hc, hb⟩ := Utf8.exists_charBytes c
    rw [hc, List.cons_append] at h ⊢
    rw [searchChars, h]
    simp [hb.width_first]

/-- A literal that does not start with `?` takes nothing from within a character. -/
lemma takeFront?_of_isContinuation {t : String} {p : Char} {t' : List Char}
    (ht : t.toList = p :: t') (hp : p ≠ '?') {b : UInt8} (hb : Utf8.isContinuation b = true)
    (bytes : List UInt8) : takeFront? (ofText t).bytes (b :: bytes) = none := by
  have hplain : anyByte ∉ utf8EncodeChar p := fun h => hp (anyByte_mem_encodeChar_iff.1 h)
  rw [bytes_ofText, ht, Utf8.encode_cons, Option.eq_none_iff_forall_ne_some]
  intro left hleft
  obtain ⟨rest, hrest, -⟩ := (takeFront?_append_eq_some_iff hplain).1 hleft
  obtain ⟨first, tail, hc, hfirst⟩ := Utf8.exists_charBytes p
  rw [hc, List.cons_append, List.cons.injEq] at hrest
  rw [hrest.1, hfirst.first_eq_false] at hb
  exact Bool.false_ne_true hb

lemma searchBytes_triesChars {t : String} {p : Char} {t' : List Char} (ht : t.toList = p :: t')
    (hp : p ≠ '?') {part : List UInt8} (hpart : CutOff part) :
    TriesChars (ofText t) part (ofText t).searchBytes where
  cut_off := by
    have hnone := takeFront?_cutOff (t := t) (by simp [ht]) hpart
    obtain ⟨c, more, -, hc⟩ := hpart
    refine searchBytes_eq_none fun j hj => ?_
    rcases Nat.eq_zero_or_pos j with rfl | hpos
    · exact hnone
    · -- behind the first byte there are continuation bytes only
      have hj' : j < (utf8EncodeChar c).length := by
        rw [hc, List.length_append]
        omega
      have hcont := Utf8.isContinuation_getElem hj' hpos
      simp only [hc, List.getElem_append_left hj] at hcont
      rw [List.drop_eq_getElem_cons hj]
      exact takeFront?_of_isContinuation ht hp hcont _
  found c bytes left h := by
    obtain ⟨b, rest, hc⟩ := List.exists_cons_of_ne_nil (String.utf8EncodeChar_ne_nil (c := c))
    rw [hc, List.cons_append] at h ⊢
    rw [searchBytes, h]
    rfl
  passed c bytes h := by
    rw [searchBytes_of_skip (i := (utf8EncodeChar c).length) (by simp), List.drop_left]
    intro j hj
    rcases Nat.eq_zero_or_pos j with rfl | hpos
    · exact h
    · -- within the character nothing is taken
      have hcont := Utf8.isContinuation_getElem hj hpos
      have hj' : j < (utf8EncodeChar c ++ bytes).length := by
        rw [List.length_append]
        omega
      have hget : (utf8EncodeChar c ++ bytes)[j] = (utf8EncodeChar c)[j] :=
        List.getElem_append_left hj
      rw [← hget] at hcont
      rw [List.drop_eq_getElem_cons hj']
      exact takeFront?_of_isContinuation ht hp hcont _

/-! ### The search -/

lemma length_encode_le_of_covers {t s : List Char} (h : Covers t s) :
    (encode t).length ≤ (encode s).length := by
  induction h with
  | nil => simp
  | @cons p c t s hpc _ ih =>
    rw [Utf8.encode_cons, Utf8.encode_cons, List.length_append, List.length_append]
    refine Nat.add_le_add ?_ ih
    rcases hpc with rfl | rfl
    · rw [encodeChar_any, List.length_singleton, String.length_utf8EncodeChar]
      exact c.utf8Size_pos
    · exact Nat.le_refl _

lemma head_ofText_eq_nil_iff {t : String} {p : Char} {t' : List Char} (ht : t.toList = p :: t') :
    (ofText t).head = [] ↔ p = '?' := by
  rw [head, bytes_ofText, ht, Utf8.encode_cons]
  by_cases hp : p = '?'
  · simp [hp, encodeChar_any]
  · obtain ⟨b, rest, hc⟩ := List.exists_cons_of_ne_nil (String.utf8EncodeChar_ne_nil (c := p))
    have hb : b ≠ anyByte := by
      rintro rfl
      exact hp (anyByte_mem_encodeChar_iff.1 (by simp [hc]))
    simp [hc, hb, hp]

/-- In a window that holds a text, and perhaps a character cut off, the search ends behind the first
place in the text. -/
theorem search_of_window {t : String} (ht : t.toList ≠ []) {subject : List UInt8}
    {start limit : Nat} (hle : start ≤ limit) (hlimit : limit ≤ subject.length) {s : List Char}
    {part : List UInt8} (hpart : CutOff part)
    (hw : (subject.take limit).drop start = encode s ++ part) :
    (ofText t).search subject start limit = (behindFirst? t.toList s).map fun left =>
      start + ((encode s).length - (encode left).length) := by
  have hlen := congrArg List.length hw
  rw [List.length_drop, List.length_take, Nat.min_eq_left hlimit, List.length_append] at hlen
  rw [search_eq, hw]
  split
  · next hshort =>
    -- a match takes no fewer bytes than the literal has, so there is no room for one
    cases hr : behindFirst? t.toList s with
    | none => rfl
    | some left =>
      obtain ⟨a, b, rfl, hb⟩ := Pattern.exists_of_behindFirst? hr
      have := length_encode_le_of_covers hb
      simp only [minLength, bytes_ofText, Utf8.encode_append, List.length_append] at *
      omega
  · obtain ⟨p, t', hp⟩ := List.exists_cons_of_ne_nil ht
    split
    · rw [(searchChars_triesChars ht hpart).find_encode hpart, Option.map_map]
      rfl
    · next hhead =>
      have hne : p ≠ '?' := fun h => hhead ((head_ofText_eq_nil_iff hp).2 h)
      rw [(searchBytes_triesChars hp hne hpart).find_encode hpart, Option.map_map]
      rfl

/-- Between the start `a` and the end `z` of a text the search ends behind the first place. -/
lemma search_encode {t : String} (ht : t.toList ≠ []) (a s z : List Char) :
    (ofText t).search (encode (a ++ s ++ z)) (encode a).length (encode (a ++ s)).length
      = (behindFirst? t.toList s).map fun left =>
        (encode (a ++ s)).length - (encode left).length := by
  have hw : ((encode (a ++ s ++ z)).take (encode (a ++ s)).length).drop (encode a).length
      = encode s ++ [] := by
    simp [Utf8.encode_append, List.take_append]
  rw [search_of_window ht (by simp) (by simp) Utf8.cutOff_nil hw]
  cases hr : behindFirst? t.toList s with
  | none => rfl
  | some left =>
    obtain ⟨x, b, rfl, -⟩ := Pattern.exists_of_behindFirst? hr
    simp only [Option.map_some, Utf8.encode_append, List.length_append, Option.some.injEq]
    omega

end AgentCatalog.Literal
