import AgentCatalog.Proofs.Catalog.Containment
import AgentCatalog.Proofs.Catalog.Winner

/-!
# Rules with some `?` filled in

A pattern in which some `?` have been replaced by characters matches less than before, but has as many
characters besides `*` and as many `*`: a `?` counts like any other character. So the texts of the
patterns decide which rule comes first, and there it is the first character filled in that counts.
Only if it comes before `?` as a character does the rule of the filled pattern come first; all letters
come behind `?`.

* `filling_ordered_by_first`: the order of the two rules in any catalog, and what is never looked up;
* `any_before_letter`: a rule that is never looked up, as the rule it fills comes before it.
-/

namespace AgentCatalog

namespace Pattern

/-- The pattern `q` is `p` with some `?` replaced, and `filled` has the characters that replace them
from left to right. -/
inductive Filling : (p filled q : List Char) → Prop where
  /-- Nothing is left of the patterns. -/
  | nil : Filling [] [] []
  /-- A character of the pattern is kept, maybe a `?`. -/
  | keep (c : Char) {p filled q : List Char} : Filling p filled q → Filling (c :: p) filled (c :: q)
  /-- A `?` is replaced by a character that stands for itself. -/
  | fill {d : Char} (not_star : d ≠ '*') (not_any : d ≠ '?') {p filled q : List Char} :
      Filling p filled q → Filling ('?' :: p) (d :: filled) (d :: q)

namespace Filling

variable {p q filled : List Char} {d : Char}

lemma length_filter_eq (h : Filling p filled q) :
    (q.filter (· ≠ '*')).length = (p.filter (· ≠ '*')).length := by
  induction h with
  | nil => rfl
  | keep c _ ih =>
    rw [List.filter_cons, List.filter_cons]
    split <;> simp only [List.length_cons, ih]
  | fill hstar _ _ ih =>
    rw [List.filter_cons_of_pos (by simpa using hstar), List.filter_cons_of_pos (by simp),
      List.length_cons, List.length_cons, ih]

lemma count_star_eq (h : Filling p filled q) : q.count '*' = p.count '*' := by
  induction h with
  | nil => rfl
  | keep c _ ih => rw [List.count_cons, List.count_cons, ih]
  | fill hstar _ _ ih => rw [List.count_cons_of_ne hstar, List.count_cons_of_ne (by decide), ih]

/-- A pattern matches what it matches when it is filled in. -/
lemma matches_of_matches (h : Filling p filled q) {s : List Char} (hs : Matches q s) :
    Matches p s := by
  induction h generalizing s with
  | nil => exact hs
  | keep c _ ih =>
    cases hs with
    | run taken hs => exact .run taken (ih hs)
    | any d hs => exact .any d (ih hs)
    | same hstar hany hs => exact .same hstar hany (ih hs)
  | @fill d hstar hany _ _ _ _ ih =>
    cases hs with
    | run => exact absurd rfl hstar
    | any => exact absurd rfl hany
    | same _ _ hs => exact .any d (ih hs)

/-- The first character that is filled in decides which of the patterns comes first as a text. -/
lemma lt_iff (h : Filling p (d :: filled) q) : (q < p ↔ d < '?') ∧ (p < q ↔ ¬d < '?') := by
  generalize hall : d :: filled = all at h
  induction h with
  | nil => cases hall
  | keep c _ ih =>
    rw [List.cons_lt_cons_self, List.cons_lt_cons_self]
    exact ih hall
  | fill _ hany =>
    cases hall
    rw [List.cons_lt_cons_iff, List.cons_lt_cons_iff, or_iff_left fun h => hany h.1,
      or_iff_left fun h => hany h.1.symm, Char.not_lt]
    exact ⟨Iff.rfl, Std.le_of_lt, fun hle => Std.lt_of_le_of_ne hle hany.symm⟩

lemma any_mem (h : Filling p (d :: filled) q) : '?' ∈ p := by
  generalize hall : d :: filled = all at h
  induction h with
  | nil => cases hall
  | keep _ _ ih => exact List.mem_cons_of_mem _ (ih hall)
  | fill => exact List.mem_cons_self

variable {p q : String}

lemma otherChars_eq (h : Filling p.toList filled q.toList) : otherChars q = otherChars p :=
  h.length_filter_eq

lemma otherChars_pos (h : Filling p.toList (d :: filled) q.toList) : 0 < otherChars p :=
  List.length_pos_of_mem (List.mem_filter.2 ⟨h.any_mem, rfl⟩)

/-- Of the two patterns the one precedes whose text comes first. -/
lemma precedes (h : Filling p.toList (d :: filled) q.toList) :
    (d < '?' → Precedes q p) ∧ (¬d < '?' → Precedes p q) := by
  obtain ⟨hqp, hpq⟩ := h.lt_iff
  rw [← String.lt_iff] at hqp hpq
  refine ⟨fun hd => ?_, fun hd => ?_⟩
  · exact .inr ⟨h.otherChars_eq.symm, .inr ⟨h.count_star_eq, hqp.2 hd⟩⟩
  · exact .inr ⟨h.otherChars_eq, .inr ⟨h.count_star_eq.symm, hpq.2 hd⟩⟩

end Filling

end Pattern

namespace Catalog

open Pattern (Filling Precedes otherChars)

/-- A rule stands before those whose patterns its own precedes, and none of these is looked up for
what it matches. -/
lemma before_of_precedes {d : CatalogDraft} (hd : d.Sound) {i : Nat}
    (hi : i < d.toCatalog.rules.size) {pattern : String}
    (hpos : 0 < otherChars d.toCatalog.rules[i].pattern) (hpos' : 0 < otherChars pattern)
    (h : Precedes d.toCatalog.rules[i].pattern pattern) :
    (∀ j (hj : j < d.toCatalog.rules.size), d.toCatalog.rules[j].pattern = pattern → i < j) ∧
      ∀ agent, d.toCatalog.accepts d.toCatalog.rules[i] agent = true →
        (d.toCatalog.lookup agent).pattern ≠ pattern := by
  have hlt : ∀ rule ∈ d.ranked, rule.pattern = pattern →
      d.toCatalog.rules[i].compare rule = .lt := by
    rintro rule hrule rfl
    have hi' := compiled_getElem hd hi
    have hrule' := hd.compiled_of_mem_ranked hrule
    rwa [hi'.compare_eq_lt_iff hrule' (hi'.isCatchAll_eq_false_iff.2 hpos)
      (hrule'.isCatchAll_eq_false_iff.2 hpos')]
  exact ⟨fun j hj => lt_of_pattern_eq hd hi hlt hj, fun agent => lookup_pattern_ne hd hi hlt⟩

/-- Let `q` be `p` with some `?` filled in, `d` being the first of the characters that replace them.
In every catalog with both, the rule of `q` stands before that of `p` if `d` comes before `?`, and
behind it otherwise. The one that stands behind is never looked up for what the rule of `q`
matches. -/
theorem filling_ordered_by_first (calls : List Compiler.Call) {p q : String} {d : Char}
    {filled : List Char} (h : Filling p.toList (d :: filled) q.toList) :
    let c := (CatalogDraft.empty.after calls).toCatalog
    ∀ (i j : Nat) (hi : i < c.rules.size) (hj : j < c.rules.size),
      c.rules[i].pattern = q → c.rules[j].pattern = p →
      (if d < '?' then i < j else j < i) ∧
        ∀ agent, c.accepts c.rules[i] agent = true →
          (c.lookup agent).pattern ≠ if d < '?' then p else q := by
  intro c i j hi hj hq hp
  have hsound := CatalogDraft.sound_after_empty calls
  have hposP : 0 < otherChars p := h.otherChars_pos
  have hposQ : 0 < otherChars q := h.otherChars_eq ▸ hposP
  split
  · next hd =>
    obtain ⟨hbefore, hlookup⟩ :=
      before_of_precedes hsound hi (by rwa [hq]) hposP (by rw [hq]; exact h.precedes.1 hd)
    exact ⟨hbefore j hj hp, hlookup⟩
  · next hd =>
    obtain ⟨hbefore, hlookup⟩ :=
      before_of_precedes hsound hj (by rwa [hp]) hposQ (by rw [hp]; exact h.precedes.2 hd)
    refine ⟨hbefore i hi hq, fun agent haccepts => hlookup agent ?_⟩
    -- what the rule of `q` matches, that of `p` matches, too
    rw [accepts_iff (compiled_getElem hsound hi), hq] at haccepts
    rw [accepts_iff (compiled_getElem hsound hj), hp]
    exact h.matches_of_matches haccepts

theorem filling_ordered_by_first_of_digit :
    Filling "v?.?".toList ['1'] "v1.?".toList ∧
    let c := (CatalogDraft.empty.after [.normal "V?.?" .unknown, .normal "V1.?" .unknown]).toCatalog
    ∃ (i j : Nat) (hi : i < c.rules.size) (hj : j < c.rules.size),
      c.rules[i].pattern = "v1.?" ∧ c.rules[j].pattern = "v?.?" ∧ i < j ∧
        ∀ agent, c.accepts c.rules[i] agent = true → (c.lookup agent).pattern ≠ "v?.?" := by
  have hfilling : Filling "v?.?".toList ['1'] "v1.?".toList :=
    .keep 'v' (.fill (by decide) (by decide) (.keep '.' (.keep '?' .nil)))
  refine ⟨hfilling, ?_⟩
  intro c
  obtain ⟨i, hi, hq⟩ : ∃ i, ∃ hi : i < c.rules.size, c.rules[i].pattern = "v1.?" :=
    exists_getElem_of_mem_added (by decide +kernel)
  obtain ⟨j, hj, hp⟩ : ∃ j, ∃ hj : j < c.rules.size, c.rules[j].pattern = "v?.?" :=
    exists_getElem_of_mem_added (by decide +kernel)
  obtain ⟨hbefore, hlookup⟩ := filling_ordered_by_first _ hfilling i j hi hj hq hp
  have hd : '1' < '?' := by decide
  rw [if_pos hd] at hbefore hlookup
  exact ⟨i, j, hi, hj, hq, hp, hbefore, hlookup⟩

/-- The rule of `a` stands behind that of `?`, which is looked up for its own text. -/
theorem any_before_letter :
    Filling "?".toList ['a'] "a".toList ∧
    let c := (CatalogDraft.empty.after [.normal "?" .unknown, .normal "a" .unknown]).toCatalog
    ∃ (i j : Nat) (hi : i < c.rules.size) (hj : j < c.rules.size),
      c.rules[i].pattern = "a" ∧ c.rules[j].pattern = "?" ∧ j < i ∧
        c.accepts c.rules[i] "a" = true ∧ (c.lookup "a").pattern = "?" := by
  have hfilling : Filling "?".toList ['a'] "a".toList := .fill (by decide) (by decide) .nil
  refine ⟨hfilling, ?_⟩
  intro c
  let calls : List Compiler.Call := [.normal "?" .unknown, .normal "a" .unknown]
  have hsound := CatalogDraft.sound_after_empty calls
  have hpatterns : (CatalogDraft.empty.after calls).added.toList.map (·.pattern) = ["?", "a"] := by
    decide +kernel
  obtain ⟨i, hi, hq⟩ : ∃ i, ∃ hi : i < c.rules.size, c.rules[i].pattern = "a" :=
    exists_getElem_of_mem_added (by rw [hpatterns]; decide)
  obtain ⟨j, hj, hp⟩ : ∃ j, ∃ hj : j < c.rules.size, c.rules[j].pattern = "?" :=
    exists_getElem_of_mem_added (by rw [hpatterns]; decide)
  have hletter : Text.foldCase "a".toList = "a".toList := by decide
  have hmatches : Pattern.Matches "?".toList "a".toList :=
    hfilling.matches_of_matches (Pattern.matches_self _)
  have haccepts : c.accepts c.rules[i] "a" = true := by
    rw [accepts_iff (compiled_getElem hsound hi), hq, hletter]
    exact Pattern.matches_self _
  have haccepts' : c.accepts c.rules[j] "a" = true := by
    rw [accepts_iff (compiled_getElem hsound hj), hp, hletter]
    exact hmatches
  obtain ⟨hbefore, hlookup⟩ := @before_of_precedes _ hsound j hj "a" (by rw [hp]; decide)
    (by decide) (by rw [hp]; exact hfilling.precedes.2 (by decide))
  refine ⟨i, j, hi, hj, hq, hp, hbefore i hi hq, haccepts, ?_⟩
  rcases hsound.lookup_toCatalog_of_sound "a" with ⟨-, hnone⟩ | ⟨k, hk, hadded, -⟩
  · -- the rule of `?` matches, so the catch-all rule is not fallen back on
    obtain ⟨rule, hrule, hpattern⟩ := List.mem_map.1 (hpatterns ▸ List.mem_cons_self)
    refine absurd ?_ (hnone rule hrule)
    rw [hpattern, hletter]
    exact hmatches
  · have hmem : (c.lookup "a").pattern ∈ ["?", "a"] := by
      rw [← hpatterns, hadded]
      exact List.mem_map_of_mem (List.getElem_mem hk)
    exact (List.mem_pair.1 hmem).resolve_right (hlookup "a" haccepts')

end Catalog

end AgentCatalog
