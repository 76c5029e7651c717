import AgentCatalog.Proofs.Text.Folding

/-!
# Texts in lower case

The characters of a text in lower case are small letters, or have no other case: each of them is its
own lower-case form. Such characters may be put together in any way, for only a capital sigma is told
by its neighbours, and folding leaves the text as it is:

* `lowerChar_eq_self_of_mem`: the lower-case form of a character consists of such characters;
* `foldCase_eq_self`: a text of such characters is not changed by folding;
* `lowerChar_eq_self_of_mem_foldCase`: what is folded consists of such characters.
-/

namespace AgentCatalog.Text

/-! ### Small letters -/

/-- No small letter of the first block is a capital of the second: they lie apart, or in between. -/
def CaseRange.apart (a b : CaseRange) : Bool :=
  (a.lower + (a.last - a.first)).blt b.first || b.last.blt a.lower ||
    (b.step == 2 && (a.step == 2 || a.first == a.last) && (a.lower + b.first) % 2 == 1)

lemma CaseRange.contains_eq_false_of_apart {a b : CaseRange} (h : a.apart b = true) {code : Nat}
    (hcode : a.contains code = true) : b.contains (a.lower + (code - a.first)) = false := by
  simp only [contains, apart, Bool.or_eq_true, Bool.and_eq_true, Nat.blt_eq, beq_iff_eq,
    decide_eq_true_eq] at h hcode
  obtain ⟨⟨hfirst, hlast⟩, hstep⟩ := hcode
  rw [← Bool.not_eq_true, contains]
  simp only [Bool.and_eq_true, decide_eq_true_eq, beq_iff_eq]
  rintro ⟨⟨hfirst', hlast'⟩, hstep'⟩
  rcases h with (h | h) | ⟨⟨hb, ha⟩, hodd⟩
  · omega
  · omega
  · -- the small letters have another parity than the capitals
    rw [hb] at hstep'
    rcases ha with ha | ha
    · rw [ha] at hstep
      omega
    · omega

lemma all_apart : (caseRanges.all fun a => caseRanges.all fun b => a.apart b) = true := by
  decide +kernel

lemma lower_ne_dotted : ∀ a ∈ caseRanges,
    a.lower + (a.last - a.first) < 0x130 ∨ 0x130 < a.lower := by
  decide +kernel

/-- The characters that are told apart by name: those of the sigma, and the dot of `İ`. -/
lemma lowerChar_named : lowerChar 'Σ' = ['σ'] ∧ lowerChar 'σ' = ['σ'] ∧ lowerChar 'ς' = ['ς'] ∧
    lowerChar '\u0307' = ['\u0307'] := by
  decide +kernel

lemma lowerChar_eq_self {c : Char} (hdotted : c ≠ 'İ')
    (h : ∀ range ∈ caseRanges, range.contains c.toNat = false) : lowerChar c = [c] := by
  have hfind : caseRanges.find? (·.contains c.toNat) = none :=
    List.find?_eq_none.2 fun range hrange => by simp [h range hrange]
  rw [lowerChar, if_neg hdotted, hfind]

/-- A small letter is its own lower-case form. -/
theorem lowerChar_eq_self_of_mem {c d : Char} (h : d ∈ lowerChar c) : lowerChar d = [d] := by
  have hlower := h
  rw [lowerChar] at hlower
  split at hlower
  · simp only [List.mem_cons, List.not_mem_nil, or_false] at hlower
    rcases hlower with rfl | rfl
    · exact lowerChar_of_isAscii (by decide)
    · exact lowerChar_named.2.2.2
  · split at hlower
    · next range hfind =>
      obtain rfl := List.mem_singleton.1 hlower
      have hrange := List.mem_of_find?_eq_some hfind
      have hcode := List.find?_some hfind
      rcases toNat_ofNat_eq_or (range.lower + (c.toNat - range.first)) with htoNat | hzero
      · refine lowerChar_eq_self (fun hdotted => ?_) fun other hother => ?_
        · have hne := lower_ne_dotted range hrange
          rw [hdotted] at htoNat
          have h130 : 'İ'.toNat = 0x130 := rfl
          simp only [CaseRange.contains, Bool.and_eq_true, decide_eq_true_eq] at hcode
          omega
        · have hapart := List.all_eq_true.1 (List.all_eq_true.1 all_apart range hrange) other hother
          rw [htoNat]
          exact CaseRange.contains_eq_false_of_apart hapart hcode
      · rw [hzero]
        exact lowerChar_of_isAscii (by decide)
    · obtain rfl := List.mem_singleton.1 hlower
      next hdotted hfind =>
        exact lowerChar_eq_self hdotted fun range hrange =>
          Bool.eq_false_iff.2 (List.find?_eq_none.1 hfind range hrange)

lemma ne_sigma_of_lowerChar_eq_self {c : Char} (h : lowerChar c = [c]) : c ≠ 'Σ' := by
  rintro rfl
  rw [lowerChar_named.1] at h
  exact absurd h (by decide)

/-! ### Texts -/

/-- A character of a folded text is from the lower-case form of a character, or it is a sigma. -/
lemma exists_of_mem_lowerFrom {cased : Bool} {s : List Char} {d : Char}
    (h : d ∈ lowerFrom cased s) :
    ∃ c ∈ s, d ∈ lowerChar c ∨ c = 'Σ' ∧ (d = 'ς' ∨ d = 'σ') := by
  induction s generalizing cased with
  | nil => simp [lowerFrom] at h
  | cons c s ih =>
    rw [lowerFrom, List.mem_append] at h
    rcases h with h | h
    · refine ⟨c, List.mem_cons_self, ?_⟩
      split at h
      · next hsigma =>
        rw [List.mem_singleton] at h
        subst h
        refine .inr ⟨hsigma, ?_⟩
        split <;> simp
      · exact .inl h
    · obtain ⟨b, hb, hd⟩ := ih h
      exact ⟨b, List.mem_cons_of_mem c hb, hd⟩

lemma exists_of_mem_foldCase {s : List Char} {d : Char} (h : d ∈ foldCase s) :
    ∃ c ∈ s, d ∈ lowerChar c ∨ c = 'Σ' ∧ (d = 'ς' ∨ d = 'σ') := by
  rw [foldCase_eq_lowerCase] at h
  exact exists_of_mem_lowerFrom h

/-- Characters before `a`, such as `*` and `?`, do not come from others. -/
lemma mem_of_mem_foldCase {s : List Char} {d : Char} (hpos : 0 < d.toNat) (hlt : d.toNat < 0x61)
    (h : d ∈ foldCase s) : d ∈ s := by
  obtain ⟨c, hc, hd | ⟨-, rfl | rfl⟩⟩ := exists_of_mem_foldCase h
  · rwa [eq_of_mem_lowerChar hpos hlt hd]
  · exact absurd hlt (by decide)
  · exact absurd hlt (by decide)

/-- The characters of a folded text are their own lower-case forms. -/
theorem lowerChar_eq_self_of_mem_foldCase {s : List Char} {d : Char} (h : d ∈ foldCase s) :
    lowerChar d = [d] := by
  obtain ⟨c, -, hd | ⟨-, rfl | rfl⟩⟩ := exists_of_mem_foldCase h
  · exact lowerChar_eq_self_of_mem hd
  · exact lowerChar_named.2.2.1
  · exact lowerChar_named.2.1

lemma lowerFrom_eq_self {s : List Char} (h : ∀ c ∈ s, lowerChar c = [c]) (cased : Bool) :
    lowerFrom cased s = s := by
  induction s generalizing cased with
  | nil => rfl
  | cons c s ih =>
    obtain ⟨hc, hs⟩ := List.forall_mem_cons.1 h
    rw [lowerFrom, if_neg (ne_sigma_of_lowerChar_eq_self hc), hc, ih hs]
    rfl

/-- Folding leaves a text of characters that are their own lower-case forms as it is. -/
theorem foldCase_eq_self {s : List Char} (h : ∀ c ∈ s, lowerChar c = [c]) : foldCase s = s := by
  rw [foldCase_eq_lowerCase]
  exact lowerFrom_eq_self h false

end AgentCatalog.Text
