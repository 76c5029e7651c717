import AgentCatalog.Proofs.Pattern.Expression
import AgentCatalog.Proofs.Pattern.NormalSegments
import AgentCatalog.Proofs.Text.LetterCase

/-!
# Expressions of raw patterns

The expression of a raw pattern is put together first and lower-cased afterwards, while a rule has
its pattern in lower case from the start. Of most characters this gives the same. Three of them stand
against it. `İ` and the Kelvin sign become ASCII letters, and are behind a backslash only if it is put
in before. A capital sigma that ends a word in the pattern ends none behind a backslash.

* `expression_eq_flatMap`: the expression of a raw pattern, character by character;
* `map_expression_eq_iff`: when it agrees with that of the normal form, in all characters or in some.
-/

namespace AgentCatalog.Pattern

open Text (casedAfter endsWord foldCase isAscii lowerBetween lowerCase lowerChar lowerFrom startsCased)

/-- The Kelvin sign, whose small letter is `k`. -/
def kelvin : Char :=
  '\u212A'

/-! ### Character by character -/

/-- What stands for a character in the expression of a raw pattern. -/
def rawPiece (c : Char) : List Char :=
  if c = 'Σ' then ['\\', 'σ'] else (expressionChar c).flatMap lowerChar

/-- Where there is no capital sigma, lower-casing does not ask for neighbours. -/
lemma lowerFrom_append_of_notMem {t : List Char} (ht : 'Σ' ∉ t) (cased : Bool) (s : List Char) :
    ∃ cased', lowerFrom cased (t ++ s) = t.flatMap lowerChar ++ lowerFrom cased' s := by
  induction t generalizing cased with
  | nil => exact ⟨cased, rfl⟩
  | cons c t ih =>
    rw [List.mem_cons, not_or] at ht
    obtain ⟨cased', h⟩ := ih ht.2 (casedAfter cased c)
    refine ⟨cased', ?_⟩
    rw [List.cons_append, lowerFrom, if_neg (Ne.symm ht.1), h, List.flatMap_cons, List.append_assoc]

lemma sigma_notMem_expressionChar {c : Char} (hc : c ≠ 'Σ') : 'Σ' ∉ expressionChar c := by
  intro h
  rcases mem_expressionChar h with rfl | h
  · exact hc rfl
  · exact absurd h (by decide)

lemma lowerFrom_expressionChar_append (cased : Bool) (c : Char) (s : List Char) :
    ∃ cased', lowerFrom cased (expressionChar c ++ s) = rawPiece c ++ lowerFrom cased' s := by
  by_cases hc : c = 'Σ'
  · -- the backslash before the sigma is no letter
    subst hc
    refine ⟨casedAfter false 'Σ', ?_⟩
    have hpiece : expressionChar 'Σ' = ['\\', 'Σ'] := by decide
    have hback : casedAfter cased '\\' = false := by cases cased <;> decide +kernel
    have hlower : lowerChar '\\' = ['\\'] := Text.lowerChar_of_isAscii (by decide)
    have hlowered : lowerFrom cased ('\\' :: 'Σ' :: s)
        = '\\' :: 'σ' :: lowerFrom (casedAfter false 'Σ') s := by
      rw [lowerFrom, if_neg (by decide), hback, hlower, lowerFrom, if_pos rfl]
      rfl
    rw [hpiece, rawPiece, if_pos rfl]
    exact hlowered
  · rw [rawPiece, if_neg hc]
    exact lowerFrom_append_of_notMem (sigma_notMem_expressionChar hc) cased s

lemma lowerFrom_flatMap_expressionChar (cased : Bool) (p s : List Char) :
    ∃ cased', lowerFrom cased (p.flatMap expressionChar ++ s)
      = p.flatMap rawPiece ++ lowerFrom cased' s := by
  induction p generalizing cased with
  | nil => exact ⟨cased, rfl⟩
  | cons c p ih =>
    obtain ⟨after, hc⟩ := lowerFrom_expressionChar_append cased c (p.flatMap expressionChar ++ s)
    obtain ⟨cased', hp⟩ := ih after
    refine ⟨cased', ?_⟩
    rw [List.flatMap_cons, List.append_assoc, hc, hp, List.flatMap_cons, List.append_assoc]

/-- The expression of a raw pattern, with the sigmas as they are behind a backslash. -/
theorem expression_eq_flatMap (p : List Char) :
    expression p = '^' :: p.flatMap rawPiece ++ ['$'] := by
  have hstart : lowerChar '^' = ['^'] := Text.lowerChar_of_isAscii (by decide)
  have hend : lowerChar '$' = ['$'] := Text.lowerChar_of_isAscii (by decide)
  obtain ⟨cased, h⟩ :=
    lowerFrom_flatMap_expressionChar (casedAfter false '^') p ['$']
  rw [expression, lowerCase, rawExpression, List.cons_append, lowerFrom, if_neg (by decide), hstart, h,
    lowerFrom, if_neg (by decide), hend]
  rfl

/-! ### Escaping and lower-casing -/

/-- Only `İ` and the Kelvin sign have small letters in ASCII. -/
lemma lower_of_not_isAscii : ∀ range ∈ Text.caseRanges,
    0x80 ≤ range.lower ∨ range.last < 0x80 ∨ range.first = 0x212A ∧ range.last = 0x212A := by
  decide +kernel

lemma expressionChar_of_isAlpha {c : Char} (h : c.isAlpha = true) : expressionChar c = [c] := by
  have hne : ∀ d : Char, d.isAlpha = false → c ≠ d := by
    rintro d hd rfl
    exact absurd h (by simp [hd])
  have hplain : (c.isAlphanum || c = ' ') = true := by
    rw [Char.isAlphanum, h, Bool.true_or, Bool.true_or]
  rw [expressionChar_of_ne (hne '*' (by decide)) (hne '?' (by decide)), if_pos hplain]

lemma isAscii_of_mem_expressionChar {c d : Char} (hc : isAscii c = true)
    (hd : d ∈ expressionChar c) : isAscii d = true := by
  have hsigns : ∀ e ∈ signs, isAscii e = true := by simp [signs, isAscii]
  rcases mem_expressionChar hd with rfl | hsign
  · exact hc
  · exact hsigns d hsign

/-- A letter stands for itself, and nothing else changes its ASCII case. -/
lemma map_toLower_expressionChar (c : Char) :
    (expressionChar c).map Char.toLower = expressionChar c.toLower := by
  rcases Text.toLower_cases c with hsame | ⟨hletter, hsmall, -⟩
  · have hsigns : ∀ e ∈ signs, e.toLower = e := by simp [signs]
    have heach : ∀ d ∈ expressionChar c, d.toLower = id d := by
      intro d hd
      rcases mem_expressionChar hd with rfl | hsign
      · exact hsame
      · exact hsigns d hsign
    rw [hsame, List.map_congr_left heach, List.map_id]
  · rw [expressionChar_of_isAlpha hletter, expressionChar_of_isAlpha hsmall, List.map_singleton]

lemma isAscii_of_isAlphanum {c : Char} (h : c.isAlphanum = true) : isAscii c = true := by
  rw [Char.isAlphanum, Bool.or_eq_true] at h
  rcases h with hletter | hdigit
  · exact Text.isAscii_of_isAlpha hletter
  · have : 0x30 ≤ c.toNat ∧ c.toNat ≤ 0x39 := by
      simpa [Char.isDigit, UInt32.le_iff_toNat_le] using hdigit
    rw [isAscii, decide_eq_true_eq]
    omega

lemma expressionChar_of_not_isAscii {c : Char} (h : ¬isAscii c = true) :
    expressionChar c = ['\\', c] := by
  have hne : ∀ d : Char, isAscii d = true → c ≠ d := by
    rintro d hd rfl
    exact h hd
  have hplain : ¬(c.isAlphanum || c = ' ') = true := by
    rw [Bool.or_eq_true, decide_eq_true_eq]
    exact not_or.2 ⟨fun hc => h (isAscii_of_isAlphanum hc), hne ' ' (by decide)⟩
  rw [expressionChar_of_ne (hne '*' (by decide)) (hne '?' (by decide)), if_neg hplain]

lemma rawPiece_eq_of_isAscii {c : Char} (h : isAscii c = true) :
    (expressionChar c).flatMap lowerChar = (lowerChar c).flatMap expressionChar := by
  rw [Text.lowerChar_of_isAscii h, List.flatMap_singleton, ← map_toLower_expressionChar,
    List.map_eq_flatMap]
  exact List.flatMap_congr fun d hd =>
    Text.lowerChar_of_isAscii (isAscii_of_mem_expressionChar h hd)

/-- Outside of ASCII a small letter stands behind a backslash like its capital. -/
lemma exists_lowerChar_eq {c : Char} (hc : ¬isAscii c = true) (hdotted : c ≠ 'İ')
    (hkelvin : c ≠ kelvin) : ∃ d, lowerChar c = [d] ∧ expressionChar d = ['\\', d] := by
  rw [lowerChar, if_neg hdotted]
  split
  · next range hfind =>
    refine ⟨_, rfl, ?_⟩
    have hcode := List.find?_some hfind
    simp only [Text.CaseRange.contains, Bool.and_eq_true, decide_eq_true_eq] at hcode
    rw [isAscii, decide_eq_true_eq] at hc
    rcases lower_of_not_isAscii range (List.mem_of_find?_eq_some hfind) with hlower | hlast | hone
    · rcases Text.toNat_ofNat_eq_or (range.lower + (c.toNat - range.first)) with htoNat | hzero
      · refine expressionChar_of_not_isAscii ?_
        rw [isAscii, decide_eq_true_eq, htoNat]
        omega
      · rw [hzero]
        decide
    · exact absurd (Nat.lt_of_le_of_lt hcode.1.2 hlast) hc
    · have hcode' : c.toNat = 0x212A := by omega
      refine absurd ?_ hkelvin
      rw [← Char.ofNat_toNat c, hcode']
      rfl
  · exact ⟨c, rfl, expressionChar_of_not_isAscii hc⟩

/-- All but three characters may be lower-cased before or after the backslash is put in. -/
lemma rawPiece_eq {c : Char} (hsigma : c ≠ 'Σ') (hdotted : c ≠ 'İ') (hkelvin : c ≠ kelvin) :
    rawPiece c = (lowerChar c).flatMap expressionChar := by
  rw [rawPiece, if_neg hsigma]
  by_cases hc : isAscii c = true
  · exact rawPiece_eq_of_isAscii hc
  · obtain ⟨d, hd, hpiece⟩ := exists_lowerChar_eq hc hdotted hkelvin
    have hback : lowerChar '\\' = ['\\'] := Text.lowerChar_of_isAscii (by decide)
    rw [expressionChar_of_not_isAscii hc, hd, List.flatMap_singleton, hpiece]
    simp [hback, hd]

/-! ### Expressions before and after folding -/

/-- No capital sigma of the text `s`, which stands behind `before`, is at the end of a word. -/
def NoFinalSigma (before s : List Char) : Prop :=
  ∀ a b, s = a ++ 'Σ' :: b → endsWord (before ++ a) b = false

lemma noFinalSigma_nil (before : List Char) : NoFinalSigma before [] := by
  intro a b h
  exact absurd h (by simp)

lemma noFinalSigma_cons {before : List Char} {c : Char} {s : List Char} :
    NoFinalSigma before (c :: s) ↔
      (c = 'Σ' → endsWord before s = false) ∧ NoFinalSigma (before ++ [c]) s := by
  constructor
  · intro h
    refine ⟨?_, fun a b hs => ?_⟩
    · rintro rfl
      simpa using h [] s rfl
    · rw [List.append_assoc]
      exact h (c :: a) b (by rw [hs, List.cons_append])
  · rintro ⟨hfirst, hrest⟩ a b hs
    cases a with
    | nil =>
      obtain ⟨rfl, rfl⟩ := List.cons.inj hs
      rw [List.append_nil]
      exact hfirst rfl
    | cons d a =>
      obtain ⟨rfl, hs'⟩ := List.cons.inj hs
      have hends := hrest a b hs'
      rwa [List.append_assoc] at hends

/-- What stands for the characters of a text in both expressions is the same, as far as `f` tells, if
none of them is `İ` or the Kelvin sign and `f` does not tell the two small sigmas apart or none of the
capital ones ends a word. -/
theorem map_flatMap_rawPiece_eq_iff {α : Type} {f : Char → α} (hi : f '\\' ≠ f 'i')
    (hk : f '\\' ≠ f 'k') (before s : List Char) :
    (s.flatMap rawPiece).map f
        = ((lowerFrom (startsCased before.reverse) s).flatMap expressionChar).map f ↔
      'İ' ∉ s ∧ kelvin ∉ s ∧ (f 'σ' = f 'ς' ∨ NoFinalSigma before s) := by
  induction s generalizing before with
  | nil => simp [lowerFrom, noFinalSigma_nil]
  | cons c s ih =>
    have hrest := ih (before ++ [c])
    rw [Text.lowerFrom_cons_eq_append, List.flatMap_cons, List.flatMap_append, List.map_append,
      List.map_append, noFinalSigma_cons, lowerBetween]
    generalize lowerFrom (startsCased (before ++ [c]).reverse) s = lower at hrest ⊢
    by_cases hsigma : c = 'Σ'
    · subst hsigma
      have hraw : rawPiece 'Σ' = ['\\', 'σ'] := by decide
      have hinner : expressionChar 'σ' = ['\\', 'σ'] := by decide
      have hfinal : expressionChar 'ς' = ['\\', 'ς'] := by decide
      rw [if_pos rfl, List.flatMap_singleton, hraw]
      cases hends : endsWord before s with
      | false =>
        rw [if_neg Bool.false_ne_true, hinner, List.append_cancel_left_eq, hrest]
        simp [kelvin]
      | true =>
        -- behind the backslash the sigma is not the one of the folded pattern
        have hsplit : (['\\', 'σ'].map f ++ (s.flatMap rawPiece).map f
            = ['\\', 'ς'].map f ++ (lower.flatMap expressionChar).map f) ↔
            f 'σ' = f 'ς' ∧
              (s.flatMap rawPiece).map f = (lower.flatMap expressionChar).map f := by
          simp
        rw [if_pos rfl, hfinal, hsplit, hrest]
        by_cases hsame : f 'σ' = f 'ς' <;> simp [hsame, kelvin]
    · rw [if_neg hsigma]
      by_cases hdotted : c = 'İ'
      · -- the backslash stands before both characters of the small letter, or between them
        subst hdotted
        have hraw : rawPiece 'İ' = ['\\', 'i', '\u0307'] := by decide +kernel
        have hfolded : (lowerChar 'İ').flatMap expressionChar = ['i', '\\', '\u0307'] := by
          decide +kernel
        rw [hraw, hfolded]
        simp [hi]
      · by_cases hkelvin : c = kelvin
        · subst hkelvin
          have hraw : rawPiece kelvin = ['\\', 'k'] := by decide +kernel
          have hfolded : (lowerChar kelvin).flatMap expressionChar = ['k'] := by decide +kernel
          rw [hraw, hfolded]
          simp [hk]
        · rw [rawPiece_eq hsigma hdotted hkelvin, List.append_cancel_left_eq, hrest]
          simp [hsigma, Ne.symm hdotted, Ne.symm hkelvin]

/-- The expressions of a raw pattern and of its normal form agree, as far as `f` tells. -/
theorem map_expression_eq_iff {α : Type} {f : Char → α} (hi : f '\\' ≠ f 'i')
    (hk : f '\\' ≠ f 'k') {raw : List Char} (hraw : Collapsed raw) :
    (expression raw).map f = (expression (normalize raw)).map f ↔
      'İ' ∉ raw ∧ kelvin ∉ raw ∧ (f 'σ' = f 'ς' ∨ NoFinalSigma [] raw) := by
  have hnormal : expression (normalize raw)
      = '^' :: (lowerFrom (startsCased [].reverse) raw).flatMap expressionChar ++ ['$'] := by
    rw [expression_eq_rawExpression (normalize_normalize raw), rawExpression,
      normalize_eq_foldCase hraw, Text.foldCase_eq_lowerCase]
    rfl
  rw [expression_eq_flatMap, hnormal, ← map_flatMap_rawPiece_eq_iff hi hk [] raw]
  simp

end AgentCatalog.Pattern
