import AgentCatalog.Proofs.Text.Context

/-!
# The case of ASCII letters

Folding asks four things of a character: whether it is a capital sigma, whether it is cased, whether
it is case-ignorable, and what its lower-case form is. An ASCII capital and its small letter answer
them alike (`toLower_facts`). So texts that differ in the case of ASCII letters only are folded to the
same text (`foldCase_eq_of_sameButCase`).
-/

namespace AgentCatalog.Text

/-! ### Letters -/

lemma toNat_of_isAlpha {c : Char} (h : c.isAlpha = true) :
    0x41 ≤ c.toNat ∧ c.toNat ≤ 0x5A ∨ 0x61 ≤ c.toNat ∧ c.toNat ≤ 0x7A := by
  have hletter : (decide ('A'.val ≤ c.val ∧ c.val ≤ 'Z'.val) ||
      (decide ('a'.val ≤ c.val) && decide (c.val ≤ 'z'.val))) = true := h
  simpa [UInt32.le_iff_toNat_le] using hletter

lemma isCased_of_isAlpha {c : Char} (h : c.isAlpha = true) : isCased c = true := by
  rw [isCased, inRanges_iff]
  rcases toNat_of_isAlpha h with hupper | hlower
  · exact ⟨⟨0x41, 0x5A⟩, by simp [casedRanges], hupper⟩
  · exact ⟨⟨0x61, 0x7A⟩, by simp [casedRanges], hlower⟩

lemma outside_letters : ∀ r ∈ caseIgnorableRanges,
    r.last < 0x41 ∨ 0x5A < r.first ∧ r.last < 0x61 ∨ 0x7A < r.first := by
  decide +kernel

lemma isCaseIgnorable_of_isAlpha {c : Char} (h : c.isAlpha = true) : isCaseIgnorable c = false := by
  rw [← Bool.not_eq_true, isCaseIgnorable, inRanges_iff]
  rintro ⟨r, hr, hfirst, hlast⟩
  have hletter := toNat_of_isAlpha h
  have houtside := outside_letters r hr
  omega

lemma isAscii_of_isAlpha {c : Char} (h : c.isAlpha = true) : isAscii c = true := by
  have := toNat_of_isAlpha h
  rw [isAscii, decide_eq_true_eq]
  omega

lemma isAlpha_capital : ∀ n < 26, (Char.ofNat (0x41 + n)).isAlpha = true ∧
    (Char.ofNat (0x41 + n)).toLower.isAlpha = true ∧
    (Char.ofNat (0x41 + n)).toLower.toLower = (Char.ofNat (0x41 + n)).toLower := by
  decide

/-- Only letters have another ASCII case, and it is a letter that has no other. -/
lemma toLower_cases (c : Char) : c.toLower = c ∨
    c.isAlpha = true ∧ c.toLower.isAlpha = true ∧ c.toLower.toLower = c.toLower := by
  by_cases hupper : 0x41 ≤ c.toNat ∧ c.toNat ≤ 0x5A
  · obtain ⟨n, hn⟩ := Nat.exists_eq_add_of_le hupper.1
    have hcapital := isAlpha_capital n (by omega)
    rw [← hn, Char.ofNat_toNat] at hcapital
    exact .inr hcapital
  · exact .inl (toLower_eq_self hupper)

/-- Nothing that folding looks at tells an ASCII capital from the small letter. -/
lemma toLower_facts (c : Char) :
    (c.toLower = 'Σ' ↔ c = 'Σ') ∧ isCased c.toLower = isCased c ∧
      isCaseIgnorable c.toLower = isCaseIgnorable c ∧ lowerChar c.toLower = lowerChar c := by
  rcases toLower_cases c with hsame | ⟨hletter, hsmall, hagain⟩
  · rw [hsame]
    exact ⟨Iff.rfl, rfl, rfl, rfl⟩
  · have hsigma : ∀ d : Char, d.isAlpha = true → d ≠ 'Σ' := by
      rintro _ hd rfl
      exact absurd hd (by decide)
    refine ⟨iff_of_false (hsigma _ hsmall) (hsigma _ hletter), ?_, ?_, ?_⟩
    · rw [isCased_of_isAlpha hsmall, isCased_of_isAlpha hletter]
    · rw [isCaseIgnorable_of_isAlpha hsmall, isCaseIgnorable_of_isAlpha hletter]
    · rw [lowerChar_of_isAscii (isAscii_of_isAlpha hsmall),
        lowerChar_of_isAscii (isAscii_of_isAlpha hletter), hagain]

/-! ### Texts -/

/-- The texts are the same when all ASCII letters are small. -/
def SameButCase (s t : List Char) : Prop :=
  s.map Char.toLower = t.map Char.toLower

instance : DecidableRel SameButCase := fun s t =>
  inferInstanceAs (Decidable (s.map Char.toLower = t.map Char.toLower))

lemma startsCased_map_toLower (s : List Char) :
    startsCased (s.map Char.toLower) = startsCased s := by
  induction s with
  | nil => rfl
  | cons c s ih =>
    obtain ⟨-, hcased, hignorable, -⟩ := toLower_facts c
    rw [List.map_cons, startsCased_cons, startsCased_cons, hcased, hignorable, ih]

lemma lowerFrom_map_toLower (cased : Bool) (s : List Char) :
    lowerFrom cased (s.map Char.toLower) = lowerFrom cased s := by
  induction s generalizing cased with
  | nil => rfl
  | cons c s ih =>
    obtain ⟨hsigma, hcased, hignorable, hlower⟩ := toLower_facts c
    rw [List.map_cons, lowerFrom, lowerFrom, startsCased_map_toLower, hlower]
    simp only [casedAfter, hcased, hignorable, hsigma, ih]

/-- Texts that differ in the case of ASCII letters only are folded to the same text. -/
theorem foldCase_eq_of_sameButCase {s t : List Char} (h : SameButCase s t) :
    foldCase s = foldCase t := by
  rw [foldCase_eq_lowerCase, foldCase_eq_lowerCase, lowerCase, lowerCase,
    ← lowerFrom_map_toLower, h, lowerFrom_map_toLower]

end AgentCatalog.Text
