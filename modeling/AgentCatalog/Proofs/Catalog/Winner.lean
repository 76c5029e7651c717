import AgentCatalog.Proofs.Catalog.Lookup
import AgentCatalog.Proofs.Rule.Precedence

/-!
# The rule that wins

The rule that is looked up is described without sorting and without an index: of the rules that were
added and match the user agent it is the least one in the order of rules, and of those with the same
pattern the one that was added first. If none matches it is the catch-all rule. The main result is
`lookup_toCatalog_of_sound`.
-/

namespace AgentCatalog

open Pattern (Matches)

namespace CatalogDraft.Sound

variable {d : CatalogDraft}

lemma find?_ranked (d : CatalogDraft) (agent : String) :
    d.ranked.find? (d.toCatalog.accepts · agent) = some (d.toCatalog.lookup agent) := by
  obtain ⟨i, h⟩ := Catalog.exists_isFirstMatch d agent
  have hi := h.lt_size
  have hlookup := h.lookup_eq
  rw [Array.getElem?_eq_getElem hi, Option.some.injEq] at hlookup
  rw [List.find?_eq_some_iff_getElem]
  refine ⟨hlookup ▸ h.accepts_eq_true, i, hi, hlookup, fun j hj => ?_⟩
  rw [Bool.not_eq_true']
  exact h.eq_false_of_lt j hj

/-- The rule that is looked up is the least of the rules added that match, and the first one with
its pattern. -/
theorem lookup_toCatalog_of_sound (hd : d.Sound) (agent : String) :
    (d.toCatalog.lookup agent = .catchAll ∧
      ∀ rule ∈ d.added.toList, ¬Matches rule.pattern.toList (Text.foldCase agent.toList)) ∨
    ∃ i, ∃ hi : i < d.added.toList.length, d.toCatalog.lookup agent = d.added.toList[i] ∧
      Matches d.added.toList[i].pattern.toList (Text.foldCase agent.toList) ∧
      ∀ j (hj : j < d.added.toList.length),
        Matches d.added.toList[j].pattern.toList (Text.foldCase agent.toList) → j = i ∨
          Pattern.Precedes d.added.toList[i].pattern d.added.toList[j].pattern ∨
          d.added.toList[i].pattern = d.added.toList[j].pattern ∧ i < j := by
  have hfind := find?_ranked d agent
  rw [ranked, List.find?_append] at hfind
  cases hsorted : (d.added.toList.mergeSort fun x y => (x.compare y).isLE).find?
      (d.toCatalog.accepts · agent) with
  | none =>
    rw [hsorted, Option.none_or] at hfind
    refine .inl ⟨?_, fun rule hrule hm => ?_⟩
    · exact (List.mem_singleton.1 (List.mem_of_find?_eq_some hfind))
    · have hnot := List.find?_eq_none.1 hsorted rule (List.mem_mergeSort.2 hrule)
      exact hnot ((Catalog.accepts_iff (hd.compiled rule hrule) agent).2 hm)
  | some rule =>
    rw [hsorted, Option.some_or, Option.some.injEq] at hfind
    subst hfind
    have hequal : ∀ a ∈ d.added.toList, ∀ b ∈ d.added.toList, a.compare b = .eq →
        d.toCatalog.accepts a agent = true → d.toCatalog.accepts b agent = true := by
      intro a ha b hb hab
      rw [Catalog.accepts_iff (hd.compiled a ha), Catalog.accepts_iff (hd.compiled b hb),
        Rule.pattern_eq_of_compare_eq hab]
      exact id
    obtain ⟨hleast, hfirst⟩ := find?_mergeSort Rule.compare hequal hsorted
    obtain ⟨-, i, hi, hget, hbefore⟩ := List.find?_eq_some_iff_getElem.1 hfirst
    have hcompiled : ∀ {j : Nat} (hj : j < d.added.toList.length),
        d.added.toList[j].Compiled d.compiler.registry := fun hj =>
      hd.compiled _ (List.getElem_mem hj)
    have haccepts := List.find?_some hsorted
    rw [← hget] at hleast hbefore haccepts
    refine .inr ⟨i, hi, hget.symm, (Catalog.accepts_iff (hcompiled hi) agent).1 haccepts,
      fun j hj hm => ?_⟩
    have hle := hleast d.added.toList[j] (List.getElem_mem hj)
      ((Catalog.accepts_iff (hcompiled hj) agent).2 hm)
    rw [(hcompiled hi).isLE_compare_iff (hcompiled hj) (hd.not_catchAll _ (List.getElem_mem hi))
      (hd.not_catchAll _ (List.getElem_mem hj))] at hle
    rcases hle with hprecedes | hpattern
    · exact .inr (.inl hprecedes)
    · -- the first rule with the pattern does not stand behind another one with it
      have hij : i ≤ j := by
        by_contra hlt
        have hne := hbefore j (by omega)
        rw [((hcompiled hj).compare_eq_eq_iff (hcompiled hi)).2 hpattern.symm] at hne
        cases hne
      rcases Nat.lt_or_eq_of_le hij with hlt | heq
      · exact .inr (.inr ⟨hpattern, hlt⟩)
      · exact .inl heq.symm

end CatalogDraft.Sound

end AgentCatalog
