import AgentCatalog.Proofs.Catalog.Lookup
import AgentCatalog.Proofs.Pattern.Instances
import AgentCatalog.Proofs.Rule.Grammar

/-!
# Rules match the instances of their raw patterns

A rule is compiled from the normal form of a raw pattern and is matched against folded user agents. So
it matches the instances of the raw pattern, as far as both are folded alike:

* `accepts_instances_of_settled`: the rule of a settled pattern matches all its instances;
* `instances_not_accepted`: a capital sigma before a `*` and an `İ` for a `?` are not matched.
-/

namespace AgentCatalog

open Pattern (Instance Matches normalForm settled)

namespace CatalogDraft

/-- A raw pattern that is not empty is added, if there is room for its literals. -/
lemma exists_mem_ranked_after_add (d : CatalogDraft) {raw : String} (capabilities : Capabilities)
    (hne : raw ≠ "")
    (room : (d.compiler.compileNormal raw capabilities).2.registry.size < LiteralRegistry.capacity)
    (later : List Compiler.Call) :
    (d.add raw capabilities).1 = .ok () ∧
      ∃ rule ∈ ((d.add raw capabilities).2.after later).ranked, rule.pattern = normalForm raw := by
  obtain ⟨rule, c', h⟩ := (Compiler.exists_compileNormal_eq_ok_iff room).2 hne
  have hadd : d.add raw capabilities = d.accept (.ok rule, c') := congrArg d.accept h
  rw [Compiler.compileNormal_eq] at h
  obtain ⟨hcompiled, hpattern, -⟩ := Compiler.compiled_of_compile_eq_ok h
  rw [hadd]
  refine ⟨rfl, ?_⟩
  cases hcatch : rule.isCatchAll with
  | true =>
    -- a lone `*` is not added, but the catch-all rule has its pattern
    refine ⟨.catchAll, mem_ranked.2 (.inr rfl), ?_⟩
    rw [← hpattern, hcompiled.isCatchAll_iff.1 hcatch]
    rfl
  | false =>
    refine ⟨rule, mem_ranked.2 (.inl ?_), hpattern⟩
    rw [(after_eq _ later).2, accept, hcatch]
    simp

end CatalogDraft

namespace Catalog

/-- The first rule of a draft does not match the user agents that its normal form does not match when
they are folded. -/
lemma exists_not_accepts {raw agent : String} (hne : raw ≠ "")
    (room : (CatalogDraft.empty.compiler.compileNormal raw .unknown).2.registry.size
      < LiteralRegistry.capacity)
    (h : ¬Matches (Pattern.normalize raw.toList) (Text.foldCase agent.toList)) :
    let added := CatalogDraft.empty.add raw .unknown
    let c := added.2.toCatalog
    added.1 = .ok () ∧ ∃ i, ∃ hi : i < c.rules.size,
      c.rules[i].pattern = normalForm raw ∧ c.accepts c.rules[i] agent = false := by
  intro added c
  obtain ⟨hok, rule, hrule, hpattern⟩ :=
    CatalogDraft.empty.exists_mem_ranked_after_add .unknown hne room []
  rw [CatalogDraft.after_nil] at hrule
  obtain ⟨i, hi, hget⟩ : ∃ i, ∃ hi : i < c.rules.size, c.rules[i].pattern = rule.pattern :=
    exists_getElem_of_mem_ranked hrule
  refine ⟨hok, i, hi, hget.trans hpattern, ?_⟩
  have hsound : added.2.Sound := CatalogDraft.sound_after_empty [.normal raw .unknown]
  rwa [← Bool.not_eq_true, accepts_iff (compiled_getElem hsound hi), hget.trans hpattern,
    Pattern.toList_normalForm]

/-- Every non-empty raw pattern is added, as long as there is room for its literals, and if it is
settled its rule matches all its instances. -/
theorem accepts_instances_of_settled (calls later : List Compiler.Call) {raw : String}
    (capabilities : Capabilities) (hne : raw ≠ "") (hsettled : settled raw.toList = true)
    (room : ((CatalogDraft.empty.after calls).compiler.compileNormal raw
      capabilities).2.registry.size < LiteralRegistry.capacity) :
    let added := (CatalogDraft.empty.after calls).add raw capabilities
    let c := (added.2.after later).toCatalog
    added.1 = .ok () ∧
      (∃ i, ∃ hi : i < c.rules.size, c.rules[i].pattern = normalForm raw) ∧
      ∀ i (hi : i < c.rules.size), c.rules[i].pattern = normalForm raw →
        ∀ agent : String, Instance raw.toList agent.toList → c.accepts c.rules[i] agent = true := by
  obtain ⟨hok, rule, hrule, hpattern⟩ :=
    (CatalogDraft.empty.after calls).exists_mem_ranked_after_add capabilities hne room later
  rw [← hpattern]
  refine ⟨hok, exists_getElem_of_mem_ranked hrule, fun i hi hi' agent h => ?_⟩
  have hsound : (((CatalogDraft.empty.after calls).add raw capabilities).2.after later).Sound := by
    have hsound := CatalogDraft.sound_after_empty (calls ++ .normal raw capabilities :: later)
    rwa [CatalogDraft.after_append, CatalogDraft.after_cons, CatalogDraft.call_normal] at hsound
  rw [accepts_iff (compiled_getElem hsound hi), hi', hpattern, Pattern.toList_normalForm]
  exact Pattern.matches_normalize_of_instance h hsettled

theorem accepts_instances_of_word_end :
    settled "ΟΔΟΣ ?*".toList = true ∧ Instance "ΟΔΟΣ ?*".toList "ΟΔΟΣ ΑΣ".toList ∧
    let added := (CatalogDraft.empty.after [.normal "Ο*" .unknown]).add "ΟΔΟΣ ?*" .unknown
    let c := (added.2.after [.normal "*" .unknown]).toCatalog
    added.1 = .ok () ∧ ∃ i, ∃ hi : i < c.rules.size,
      c.rules[i].pattern = "οδος ?*" ∧ c.accepts c.rules[i] "ΟΔΟΣ ΑΣ" = true := by
  have hsettled : settled "ΟΔΟΣ ?*".toList = true := by decide +kernel
  have hinstance : Instance "ΟΔΟΣ ?*".toList "ΟΔΟΣ ΑΣ".toList := by
    have hrest : Instance ['?', '*'] ['Α', 'Σ'] := .any (by decide) (.run ['Σ'] .nil)
    exact .same (by decide) (by decide) (.same (by decide) (by decide) (.same (by decide)
      (by decide) (.same (by decide) (by decide) (.same (by decide) (by decide) hrest))))
  have hform : normalForm "ΟΔΟΣ ?*" = "οδος ?*" := by decide +kernel
  refine ⟨hsettled, hinstance, ?_⟩
  intro added c
  have hroom : ((CatalogDraft.empty.after [.normal "Ο*" .unknown]).compiler.compileNormal "ΟΔΟΣ ?*"
      .unknown).2.registry.size < LiteralRegistry.capacity := by
    decide +kernel
  obtain ⟨hok, ⟨i, hi, hpattern⟩, haccepts⟩ :=
    accepts_instances_of_settled [.normal "Ο*" .unknown] [.normal "*" .unknown] .unknown
      (by decide) hsettled hroom
  exact ⟨hok, i, hi, hpattern.trans hform, haccepts i hi hpattern _ hinstance⟩

/-- The rule of `ΑΣ*` is that of `ας*`, and in `ΑΣΒ` the sigma does not end a word. In `Aİ` there is
one character behind the `A`, and two when it is folded. -/
theorem instances_not_accepted :
    (Matches "ΑΣ*".toList "ΑΣΒ".toList ∧
      let added := CatalogDraft.empty.add "ΑΣ*" .unknown
      let c := added.2.toCatalog
      added.1 = .ok () ∧ ∃ i, ∃ hi : i < c.rules.size,
        c.rules[i].pattern = normalForm "ΑΣ*" ∧ c.accepts c.rules[i] "ΑΣΒ" = false) ∧
    Matches "A?".toList "Aİ".toList ∧
      let added := CatalogDraft.empty.add "A?" .unknown
      let c := added.2.toCatalog
      added.1 = .ok () ∧ ∃ i, ∃ hi : i < c.rules.size,
        c.rules[i].pattern = normalForm "A?" ∧ c.accepts c.rules[i] "Aİ" = false := by
  refine ⟨⟨?_, exists_not_accepts (by decide) (by decide +kernel) ?_⟩, ?_,
    exists_not_accepts (by decide) (by decide +kernel) ?_⟩
  · exact .same (by decide) (by decide) (.same (by decide) (by decide) (Pattern.matches_star ['Β']))
  · have hraw : Pattern.normalize "ΑΣ*".toList = ['α', 'ς', '*'] := by decide +kernel
    have hagent : Text.foldCase "ΑΣΒ".toList = ['α', 'σ', 'β'] := by decide +kernel
    rw [hraw, hagent]
    rintro (- | - | - | ⟨-, -, h⟩)
    cases h
  · exact .same (by decide) (by decide) (.any 'İ' .nil)
  · have hraw : Pattern.normalize "A?".toList = ['a', '?'] := by decide +kernel
    have hagent : Text.foldCase "Aİ".toList = ['a', 'i', '\u0307'] := by decide +kernel
    rw [hraw, hagent]
    rintro (- | - | - | ⟨-, -, - | - | ⟨_, h⟩ | -⟩)
    cases h

end Catalog

end AgentCatalog
