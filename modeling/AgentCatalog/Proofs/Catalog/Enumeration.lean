import AgentCatalog.Proofs.Catalog.Draft
import AgentCatalog.Proofs.Rule.Order

/-!
# The rules of a catalog

However patterns are added to a draft, the catalog has the rules of those that were accepted, in the
order of rules, and the catch-all rule behind them. The catch-all rule is not sorted: it is the only
one with its pattern, and no other rule has a specificity that comes after all others.

The main result is `enumerates_toCatalog`.
-/

namespace AgentCatalog

/-- The rules of the calls that have been added to a draft: not those of a lone `*`. -/
def Compiler.addedBy (calls : List Compiler.Call) : List Rule :=
  (Compiler.empty.rulesOf calls).filter fun rule => !rule.isCatchAll

lemma Compiler.addedBy_eq_filter (calls : List Compiler.Call) :
    addedBy calls = (empty.rulesOf calls).filter fun rule => rule.pattern ≠ "*" := by
  refine List.filter_congr fun rule hrule => ?_
  have hcompiled := compiled_of_mem_rulesOf hrule
  rw [Bool.eq_iff_iff, Bool.not_eq_true', ← Bool.not_eq_true, hcompiled.isCatchAll_iff,
    decide_eq_true_eq]

/-- The rules of a catalog to which some rules have been added. -/
structure Enumerates (rules added : List Rule) : Prop where
  /-- Without the last one they are the rules added, none lost and none twice. -/
  perm : rules.dropLast.Perm added
  /-- The last one is the catch-all rule. -/
  last_eq : rules.getLast? = some .catchAll
  /-- No other rule catches all. -/
  isCatchAll_iff : ∀ i (hi : i < rules.length),
    rules[i].isCatchAll = true ↔ i + 1 = rules.length
  /-- A rule that catches all shows it in its pattern and in its specificity, and only such a one. -/
  agree : ∀ rule ∈ rules, (rule.isCatchAll = true ↔ rule.pattern = "*") ∧
    (rule.isCatchAll = true ↔ rule.specificity.catchAll = true)
  /-- No rule comes after one that it stands before. -/
  sorted : rules.Pairwise fun a b => a.compare b ≠ .gt
  /-- Rules are equal in the order if they have the same pattern, and only then. -/
  equal_iff : ∀ a ∈ rules, ∀ b ∈ rules, a.compare b = .eq ↔ a.pattern = b.pattern
  /-- Rules with the same pattern stand together. -/
  together : ∀ pattern, (rules.filter fun rule => rule.pattern == pattern) <:+: rules
  /-- Rules with the same pattern stand in the order in which they were added. -/
  in_order : ∀ pattern, pattern ≠ "*" → (rules.filter fun rule => rule.pattern == pattern)
    = added.filter fun rule => rule.pattern == pattern

namespace CatalogDraft

/-- The rules of a draft are compiled, and none of them catches all. -/
structure Sound (d : CatalogDraft) : Prop where
  compiled : ∀ rule ∈ d.added.toList, rule.Compiled d.compiler.registry
  not_catchAll : ∀ rule ∈ d.added.toList, rule.isCatchAll = false

lemma added_after_empty (calls : List Compiler.Call) :
    (empty.after calls).added.toList = Compiler.addedBy calls :=
  (after_eq empty calls).2

lemma sound_after_empty (calls : List Compiler.Call) : (empty.after calls).Sound where
  compiled rule h := by
    rw [added_after_empty, Compiler.addedBy, List.mem_filter] at h
    rw [(after_eq empty calls).1]
    exact Compiler.compiled_of_mem_rulesOf h.1
  not_catchAll rule h := by
    rw [added_after_empty, Compiler.addedBy, List.mem_filter] at h
    simpa using h.2

variable {d : CatalogDraft}

lemma mem_ranked {rule : Rule} : rule ∈ d.ranked ↔ rule ∈ d.added.toList ∨ rule = .catchAll := by
  rw [ranked, List.mem_append, List.mem_mergeSort, List.mem_singleton]

namespace Sound

lemma compiled_of_mem_ranked (h : d.Sound) {rule : Rule} (hrule : rule ∈ d.ranked) :
    rule.Compiled d.compiler.registry := by
  rcases mem_ranked.1 hrule with hadded | rfl
  · exact h.compiled rule hadded
  · exact Rule.compiled_catchAll _

/-- The catch-all rule comes after every rule of the draft. -/
lemma compare_catchAll_eq_lt (h : d.Sound) {rule : Rule} (hrule : rule ∈ d.added.toList) :
    rule.compare .catchAll = .lt :=
  (h.compiled rule hrule).compare_eq_lt_of_isCatchAll (Rule.compiled_catchAll .empty)
    (h.not_catchAll rule hrule) rfl

lemma pairwise_ranked (h : d.Sound) :
    d.ranked.Pairwise fun a b => (a.compare b).isLE = true := by
  refine List.pairwise_append.2
    ⟨pairwise_isLE_mergeSort _ _, List.pairwise_singleton _ _, fun a ha b hb => ?_⟩
  rw [List.mem_singleton.1 hb, h.compare_catchAll_eq_lt (List.mem_mergeSort.1 ha)]
  rfl

/-- Rules with the pattern of a rule are those equal to it in the order. -/
lemma filter_pattern_eq (h : d.Sound) {rules : List Rule} (hrules : ∀ a ∈ rules, a ∈ d.ranked)
    {rule : Rule} (hrule : rule ∈ d.ranked) :
    (rules.filter fun a => a.pattern == rule.pattern)
      = rules.filter (Rule.compare · rule == .eq) := by
  refine List.filter_congr fun a ha => ?_
  rw [Bool.eq_iff_iff, beq_iff_eq, beq_iff_eq]
  exact ((h.compiled_of_mem_ranked (hrules a ha)).compare_eq_eq_iff
    (h.compiled_of_mem_ranked hrule)).symm

/-- Sorting keeps the order of the rules with the same pattern. -/
lemma filter_ranked (h : d.Sound) {pattern : String} (hne : pattern ≠ "*") :
    (d.ranked.filter fun rule => rule.pattern == pattern)
      = d.added.toList.filter fun rule => rule.pattern == pattern := by
  have hcatch : ([Rule.catchAll].filter fun rule => rule.pattern == pattern) = [] :=
    List.filter_eq_nil_iff.2 fun rule hrule => by
      simpa [List.mem_singleton.1 hrule, Rule.catchAll] using Ne.symm hne
  rw [ranked, List.filter_append, hcatch, List.append_nil]
  by_cases hex : ∃ rule ∈ d.added.toList, rule.pattern = pattern
  · -- with a rule of the pattern at hand, its rules are those equal to this one in the order
    obtain ⟨rule, hrule, rfl⟩ := hex
    have hmem : rule ∈ d.ranked := mem_ranked.2 (.inl hrule)
    rw [h.filter_pattern_eq (fun a ha => mem_ranked.2 (.inl (List.mem_mergeSort.1 ha))) hmem,
      h.filter_pattern_eq (fun a ha => mem_ranked.2 (.inl ha)) hmem, filter_eq_mergeSort]
  · have hnone : ∀ rule ∈ d.added.toList, ¬(rule.pattern == pattern) = true :=
      fun rule hrule heq => hex ⟨rule, hrule, by simpa using heq⟩
    rw [List.filter_eq_nil_iff.2 hnone, List.filter_eq_nil_iff.2 fun rule hrule =>
      hnone rule (List.mem_mergeSort.1 hrule)]

lemma filter_ranked_infix (h : d.Sound) (pattern : String) :
    (d.ranked.filter fun rule => rule.pattern == pattern) <:+: d.ranked := by
  by_cases hex : ∃ rule ∈ d.ranked, rule.pattern = pattern
  · obtain ⟨rule, hrule, rfl⟩ := hex
    rw [h.filter_pattern_eq (fun _ => id) hrule]
    exact filter_eq_infix_of_sorted _ h.pairwise_ranked rule
  · rw [List.filter_eq_nil_iff.2 fun rule hrule heq => hex ⟨rule, hrule, by simpa using heq⟩]
    exact List.nil_infix

lemma isCatchAll_getElem_ranked (h : d.Sound) (i : Nat) (hi : i < d.ranked.length) :
    d.ranked[i].isCatchAll = true ↔ i + 1 = d.ranked.length := by
  have hlen : d.ranked.length = d.added.toList.length + 1 := by
    simp [ranked]
  rcases Nat.lt_or_eq_of_le (Nat.le_of_lt_succ (hlen ▸ hi)) with hlt | heq
  · -- before the last position there are the rules added
    have hmem : d.ranked[i] ∈ d.added.toList := by
      have hlt' := hlt
      rw [← List.length_mergeSort d.added.toList] at hlt'
      simp only [ranked]
      rw [List.getElem_append_left hlt', ← List.mem_mergeSort]
      exact List.getElem_mem hlt'
    rw [h.not_catchAll _ hmem]
    simp only [Bool.false_eq_true, false_iff]
    omega
  · have hget : d.ranked[i] = .catchAll := by
      simp [ranked, heq]
    rw [hget, hlen, heq]
    exact iff_of_true rfl rfl

lemma enumerates_ranked (h : d.Sound) : Enumerates d.ranked d.added.toList where
  perm := by
    rw [ranked, List.dropLast_concat]
    exact List.mergeSort_perm _ _
  last_eq := by rw [ranked, List.getLast?_concat]
  isCatchAll_iff := h.isCatchAll_getElem_ranked
  agree rule hrule := by
    have hcompiled := h.compiled_of_mem_ranked hrule
    exact ⟨hcompiled.isCatchAll_iff, hcompiled.isCatchAll_iff.trans hcompiled.catchAll_iff.symm⟩
  sorted := h.pairwise_ranked.imp fun hle hgt => by simp [hgt] at hle
  equal_iff a ha b hb :=
    (h.compiled_of_mem_ranked ha).compare_eq_eq_iff (h.compiled_of_mem_ranked hb)
  together := h.filter_ranked_infix
  in_order _ := h.filter_ranked

end Sound

end CatalogDraft

/-- The rules of a catalog are those that were added, in the order of rules, which is a total
preorder, with the catch-all rule behind them. -/
theorem Catalog.enumerates_toCatalog (calls : List Compiler.Call) :
    Enumerates (CatalogDraft.empty.after calls).toCatalog.rules.toList (Compiler.addedBy calls) ∧
      (∀ a b : Rule, (a.compare b).isLE = true ∨ (b.compare a).isLE = true) ∧
      (∀ a b c : Rule, (a.compare b).isLE = true → (b.compare c).isLE = true →
        (a.compare c).isLE = true) := by
  refine ⟨?_, fun a b => ?_, fun a b c => Std.TransCmp.isLE_trans⟩
  · have h := (CatalogDraft.sound_after_empty calls).enumerates_ranked
    rwa [CatalogDraft.added_after_empty] at h
  · exact Bool.or_eq_true_iff.1 (isLE_or_isLE Rule.compare a b)

end AgentCatalog
