import AgentCatalog.Proofs.Literal.Search

/-!
# Where matches start and end

On any bytes, whether they are those of a text or not, a literal takes at least as many bytes as it
has, and never more than there are:

* `matchFrom_bounds`, `matchEnd_bounds` and `search_bounds`: the offsets that come of this.

A first byte of a character says at most how many bytes a `?` passes, so what it says of bytes that
are not there is not believed. Continuation bytes that continue nothing are passed with what is
before them, but a `?` always passes one byte at least.
-/

namespace AgentCatalog

open Utf8 (skipFront? skipBack)

namespace Utf8

lemma length_lt_of_skipFront? {bytes left : List UInt8} (h : skipFront? bytes = some left) :
    left.length < bytes.length := by
  cases bytes with
  | nil => cases h
  | cons b rest =>
    rw [skipFront?, Option.ite_none_right_eq_some, Option.some.injEq] at h
    rw [← h.2, List.length_drop, List.length_cons]
    omega

lemma skipBack_suffix (bytes : List UInt8) : skipBack bytes <:+ bytes := by
  induction bytes with
  | nil => exact List.suffix_rfl
  | cons b rest ih =>
    rw [skipBack]
    split
    · exact ih.trans (List.suffix_cons b rest)
    · exact List.suffix_cons b rest

lemma length_skipBack_lt (b : UInt8) (rest : List UInt8) :
    (skipBack (b :: rest)).length < (b :: rest).length := by
  rw [skipBack, List.length_cons]
  split
  · exact Nat.lt_succ_of_le (skipBack_suffix rest).length_le
  · exact Nat.lt_succ_self _

end Utf8

namespace Literal

/-! ### What is left -/

theorem length_add_le_of_takeFront? {bytes subject left : List UInt8}
    (h : takeFront? bytes subject = some left) : bytes.length + left.length ≤ subject.length := by
  induction bytes generalizing subject with
  | nil =>
    obtain rfl := Option.some.inj h
    simp
  | cons b bytes ih =>
    rw [List.length_cons]
    by_cases hb : b = anyByte
    · subst hb
      rw [takeFront?_any_cons, Option.bind_eq_some_iff] at h
      obtain ⟨rest, hrest, h⟩ := h
      have := Utf8.length_lt_of_skipFront? hrest
      have := ih h
      omega
    · cases subject with
      | nil => simp [takeFront?_cons_nil hb] at h
      | cons c subject =>
        rw [takeFront?_cons_cons hb, Option.ite_none_right_eq_some] at h
        have := ih h.2
        rw [List.length_cons]
        omega

theorem takeBack?_bounds {bytes subject left : List UInt8}
    (h : takeBack? bytes subject = some left) :
    left <:+ subject ∧ bytes.length + left.length ≤ subject.length := by
  induction bytes generalizing subject with
  | nil =>
    obtain rfl := Option.some.inj h
    exact ⟨List.suffix_rfl, by simp⟩
  | cons b bytes ih =>
    cases subject with
    | nil => cases h
    | cons c subject =>
      rw [takeBack?] at h
      split at h
      · obtain ⟨hsuffix, hlen⟩ := ih h
        have := Utf8.length_skipBack_lt c subject
        refine ⟨hsuffix.trans (Utf8.skipBack_suffix _), ?_⟩
        rw [List.length_cons]
        omega
      · rw [Option.ite_none_right_eq_some] at h
        obtain ⟨hsuffix, hlen⟩ := ih h.2
        refine ⟨hsuffix.trans (List.suffix_cons c subject), ?_⟩
        rw [List.length_cons, List.length_cons]
        omega

/-! ### Offsets -/

variable {l : Literal} {subject window : List UInt8} {start floor limit stop : Nat}

theorem matchFrom_bounds (h : l.matchFrom subject start = some stop) :
    start + l.minLength ≤ stop ∧ stop ≤ subject.length := by
  rw [matchFrom_eq, Option.ite_none_left_eq_some, Option.map_eq_some_iff] at h
  obtain ⟨hstart, left, hleft, rfl⟩ := h
  have := length_add_le_of_takeFront? hleft
  rw [List.length_drop] at this
  rw [minLength]
  omega

theorem matchEnd_bounds (h : l.matchEnd subject floor = some start) :
    floor ≤ start ∧ start + l.minLength ≤ subject.length := by
  rw [matchEnd_eq, Option.filter_eq_some_iff, Option.map_eq_some_iff, decide_eq_true_eq] at h
  obtain ⟨⟨left, hleft, rfl⟩, hfloor⟩ := h
  have := (takeBack?_bounds hleft).2
  rw [List.length_reverse, List.length_reverse] at this
  rw [minLength]
  exact ⟨hfloor, by omega⟩

lemma searchChars_bounds (h : l.searchChars window = some stop) :
    l.minLength ≤ stop ∧ stop ≤ window.length := by
  induction window using searchChars.induct l generalizing stop with
  | case1 => simp [searchChars] at h
  | case2 b rest left hleft =>
    rw [searchChars, hleft, Option.some.injEq] at h
    have := length_add_le_of_takeFront? hleft
    rw [List.length_cons] at this ⊢
    rw [minLength]
    omega
  | case3 b rest hnone ih =>
    rw [searchChars, hnone] at h
    obtain ⟨n, hn, rfl⟩ := Option.map_eq_some_iff.1 h
    -- the character is no wider than the rest, or nothing would be left to be searched
    have hwidth : Utf8.width b - 1 < rest.length := by
      by_contra hwide
      rw [List.drop_eq_nil_of_le (Nat.le_of_not_lt hwide), searchChars] at hn
      cases hn
    obtain ⟨hmin, hlen⟩ := ih hn
    rw [List.length_drop] at hlen
    rw [List.length_cons]
    omega

lemma searchBytes_bounds (h : l.searchBytes window = some stop) :
    l.minLength ≤ stop ∧ stop ≤ window.length := by
  induction window generalizing stop with
  | nil => cases h
  | cons b rest ih =>
    rw [searchBytes] at h
    rw [List.length_cons]
    split at h
    · next left hleft =>
      have := length_add_le_of_takeFront? hleft
      rw [Option.some.injEq] at h
      rw [List.length_cons] at this
      rw [minLength]
      omega
    · obtain ⟨n, hn, rfl⟩ := Option.map_eq_some_iff.1 h
      obtain ⟨hmin, hlen⟩ := ih hn
      omega

theorem search_bounds (hlimit : limit ≤ subject.length)
    (h : l.search subject start limit = some stop) : start + l.minLength ≤ stop ∧ stop ≤ limit := by
  have hwindow : ((subject.take limit).drop start).length = limit - start := by
    rw [List.length_drop, List.length_take, Nat.min_eq_left hlimit]
  rw [search_eq, Option.ite_none_left_eq_some, Option.map_eq_some_iff] at h
  obtain ⟨hroom, n, hn, rfl⟩ := h
  have hn : l.minLength ≤ n ∧ n ≤ limit - start := by
    rw [← hwindow]
    split at hn
    · exact searchChars_bounds hn
    · exact searchBytes_bounds hn
  omega

end Literal

end AgentCatalog
