import AgentCatalog.Text.Fold
import Mathlib.Tactic.Lemma

/-!
# What folding does to `*`

Lower-casing takes no character away and makes no `*` of another one. So a text has as many of them
before and after it, as far as a pattern made of `*` only is concerned:

* `foldCase_eq_nil_iff`: only the empty text is folded to the empty text;
* `forall_foldCase_eq_star_iff`: only a text of `*` is folded to a text of `*`.
-/

namespace AgentCatalog.Text

/-! ### Single characters -/

/-- Every small letter of a block is `a` or comes after it. -/
lemma toNat_a_le_lower : ∀ range ∈ caseRanges, 0x61 ≤ range.lower := by
  decide +kernel

lemma toNat_ofNat_eq_or (n : Nat) : (Char.ofNat n).toNat = n ∨ Char.ofNat n = '\x00' := by
  by_cases hvalid : n.isValidChar
  · have hof : Char.ofNat n = Char.ofNatAux n hvalid := dif_pos hvalid
    exact .inl (hof ▸ rfl)
  · exact .inr (dif_neg hvalid)

lemma ofNat_ne_of_lt {n : Nat} {d : Char} (hpos : 0 < d.toNat) (h : d.toNat < n) :
    Char.ofNat n ≠ d := by
  rintro rfl
  rcases toNat_ofNat_eq_or n with htoNat | hzero
  · omega
  · rw [hzero] at hpos
    exact absurd hpos (by decide)

/-- A character before `a`, such as `*` and `?`, is the lower-case form of itself only. -/
lemma eq_of_mem_lowerChar {c d : Char} (hpos : 0 < d.toNat) (hlt : d.toNat < 0x61)
    (h : d ∈ lowerChar c) : d = c := by
  rw [lowerChar] at h
  split at h
  · simp only [List.mem_cons, List.not_mem_nil, or_false] at h
    rcases h with rfl | rfl <;> exact absurd hlt (by decide)
  · split at h
    · next range hfind =>
      have hle := toNat_a_le_lower range (List.mem_of_find?_eq_some hfind)
      exact absurd (List.mem_singleton.1 h).symm (ofNat_ne_of_lt hpos (by omega))
    · exact List.mem_singleton.1 h

/-- The first block has the letters of ASCII, and the other blocks lie behind ASCII. -/
lemma caseRanges_eq_cons : ∃ rest, caseRanges = ⟨0x41, 0x5A, 1, 0x61⟩ :: rest ∧
    ∀ range ∈ rest, 0x80 ≤ range.first :=
  ⟨caseRanges.tail, rfl, by decide +kernel⟩

lemma ofNat_eq_toLower : ∀ n < 26, Char.ofNat (0x61 + n) = (Char.ofNat (0x41 + n)).toLower := by
  decide

/-- Only the capital letters of ASCII have another ASCII case. -/
lemma toLower_eq_self {c : Char} (h : ¬(0x41 ≤ c.toNat ∧ c.toNat ≤ 0x5A)) : c.toLower = c := by
  refine dif_neg fun hval => h ?_
  simpa [UInt32.le_iff_toNat_le] using hval

lemma lowerChar_of_isAscii {c : Char} (h : isAscii c = true) : lowerChar c = [c.toLower] := by
  rw [isAscii, decide_eq_true_eq] at h
  have hdotted : c ≠ 'İ' := by
    rintro rfl
    exact absurd h (by decide)
  obtain ⟨rest, hranges, hrest⟩ := caseRanges_eq_cons
  rw [lowerChar, if_neg hdotted, hranges]
  by_cases hupper : 0x41 ≤ c.toNat ∧ c.toNat ≤ 0x5A
  · obtain ⟨n, hn⟩ := Nat.exists_eq_add_of_le hupper.1
    have hsmall := ofNat_eq_toLower n (by omega)
    rw [← hn, Char.ofNat_toNat] at hsmall
    have hcontains : (⟨0x41, 0x5A, 1, 0x61⟩ : CaseRange).contains c.toNat = true := by
      simp [CaseRange.contains, hupper, Nat.mod_one]
    rw [List.find?_cons, hcontains, ← hsmall]
    simp only [hn, Nat.add_sub_cancel_left]
  · -- no block has the character, and it is no capital letter
    have hnone : ∀ range ∈ ⟨0x41, 0x5A, 1, 0x61⟩ :: rest, ¬range.contains c.toNat = true := by
      intro range hrange hcontains
      simp only [CaseRange.contains, Bool.and_eq_true, decide_eq_true_eq] at hcontains
      rcases List.mem_cons.1 hrange with rfl | hrange
      · exact hupper hcontains.1
      · have := hrest range hrange
        omega
    rw [List.find?_eq_none.2 hnone, toLower_eq_self hupper]

lemma lowerChar_star : lowerChar '*' = ['*'] :=
  lowerChar_of_isAscii (by decide)

lemma lowerChar_ne_nil (c : Char) : lowerChar c ≠ [] := by
  rw [lowerChar]
  split
  · simp
  · split <;> simp

/-- The lower-case form of a character consists of `*` for `*` only. -/
lemma forall_lowerChar_eq_star_iff {c : Char} : (∀ d ∈ lowerChar c, d = '*') ↔ c = '*' := by
  constructor
  · intro h
    obtain ⟨d, hd⟩ := List.exists_mem_of_ne_nil _ (lowerChar_ne_nil c)
    obtain rfl := h d hd
    exact (eq_of_mem_lowerChar (by decide) (by decide) hd).symm
  · rintro rfl d hd
    rw [lowerChar_star] at hd
    exact List.mem_singleton.1 hd

/-! ### Texts -/

lemma lowerFrom_of_isAscii {s : List Char} (h : ∀ c ∈ s, isAscii c = true) (cased : Bool) :
    lowerFrom cased s = s.map Char.toLower := by
  induction s generalizing cased with
  | nil => rfl
  | cons c s ih =>
    rw [List.forall_mem_cons] at h
    have hsigma : c ≠ 'Σ' := by
      rintro rfl
      exact absurd h.1 (by decide)
    rw [lowerFrom, if_neg hsigma, lowerChar_of_isAscii h.1, ih h.2]
    rfl

/-- The shorter way for ASCII gives the same. -/
theorem foldCase_eq_lowerCase (s : List Char) : foldCase s = lowerCase s := by
  rw [foldCase]
  split
  · next h => exact (lowerFrom_of_isAscii (List.all_eq_true.1 h) false).symm
  · rfl

lemma forall_lowerFrom_eq_star_iff {cased : Bool} {s : List Char} :
    (∀ c ∈ lowerFrom cased s, c = '*') ↔ ∀ c ∈ s, c = '*' := by
  induction s generalizing cased with
  | nil => simp [lowerFrom]
  | cons c s ih =>
    rw [lowerFrom, List.forall_mem_append, List.forall_mem_cons, ih]
    refine and_congr_left fun _ => ?_
    split
    · next h =>
      subst h
      refine iff_of_false (fun hall => ?_) (by decide)
      have hstar := hall _ (List.mem_singleton_self _)
      split at hstar <;> exact absurd hstar (by decide)
    · exact forall_lowerChar_eq_star_iff

/-- Only a text of `*` is folded to a text of `*`. -/
theorem forall_foldCase_eq_star_iff {s : List Char} :
    (∀ c ∈ foldCase s, c = '*') ↔ ∀ c ∈ s, c = '*' := by
  rw [foldCase_eq_lowerCase]
  exact forall_lowerFrom_eq_star_iff

/-- Only the empty text is folded to the empty text. -/
theorem foldCase_eq_nil_iff {s : List Char} : foldCase s = [] ↔ s = [] := by
  rw [foldCase_eq_lowerCase, lowerCase]
  cases s with
  | nil => simp [lowerFrom]
  | cons c s =>
    rw [lowerFrom, List.append_eq_nil_iff]
    refine iff_of_false (fun h => ?_) (List.cons_ne_nil c s)
    split at h
    · exact absurd h.1 (by simp)
    · exact lowerChar_ne_nil c h.1

end AgentCatalog.Text
