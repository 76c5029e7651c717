import AgentCatalog.Proofs.Catalog.Accepted
import AgentCatalog.Proofs.Catalog.Lookup
import AgentCatalog.Proofs.Pattern.Expression

/-!
# The expressions of a catalog

The expression that is shown for a rule is not what the rule is matched by. Both come from the
pattern, the one character by character, the other from the texts between its `*`. They have the same
language all the same, when the patterns have been added in normal form. The main result is
`expressions_denote`.
-/

namespace AgentCatalog

open Pattern (Token expression normalize)

namespace CatalogDraft

/-- The patterns of a draft to which only normal forms have been added are normal forms. -/
lemma normalize_pattern_of_mem_ranked {adds : List (String × Capabilities)} {rule : Rule}
    (h : rule ∈ (empty.after (adds.map fun row => .normal row.1 row.2)).ranked) :
    normalize rule.pattern.toList = rule.pattern.toList := by
  rcases mem_ranked.1 h with hadded | rfl
  · have hentry := List.mem_map_of_mem (f := Rule.entry) hadded
    rw [entries_after_empty, List.mem_filter] at hentry
    obtain ⟨call, hcall, heq⟩ := List.mem_map.1 hentry.1
    obtain ⟨row, -, rfl⟩ := List.mem_map.1 ((accepted_sublist _ _).mem hcall)
    have hpattern : Pattern.normalForm row.1 = rule.pattern := congrArg Prod.fst heq
    rw [← hpattern, Pattern.toList_normalForm, Pattern.normalize_normalize]
  · show normalize ['*'] = ['*']
    decide +kernel

end CatalogDraft

namespace Catalog

/-- The expression of a normal form is read as that normal form, so different ones have different
expressions. A rule of a catalog to which normal forms have been added matches the user agents that
its expression stands for. -/
theorem expressions_denote :
    (∀ p, normalize p = p → (Pattern.read (expression p)).map Token.char = p) ∧
    (∀ p q, normalize p = p → normalize q = q → expression p = expression q → p = q) ∧
    ∀ adds : List (String × Capabilities),
      let c := (CatalogDraft.empty.after (adds.map fun row => .normal row.1 row.2)).toCatalog
      ∀ rule ∈ c.rules, ∀ agent, c.accepts rule agent = true ↔
        Token.Matches (Pattern.read (expression rule.pattern.toList))
          (Text.foldCase agent.toList) := by
  refine ⟨fun p => Pattern.map_char_read_expression, fun p q => Pattern.expression_inj, ?_⟩
  intro adds c rule hrule agent
  have hranked : rule ∈ (CatalogDraft.empty.after
      (adds.map fun row => .normal row.1 row.2)).ranked := List.mem_toArray.1 hrule
  rw [accepts_iff ((CatalogDraft.sound_after_empty _).compiled_of_mem_ranked hranked),
    Pattern.matches_read_iff (CatalogDraft.normalize_pattern_of_mem_ranked hranked)]

theorem expressions_denote_of_signs :
    expression "a.?*\\é".toList = "^a\\...*?\\\\\\é$".toList ∧
    (Pattern.read (expression "a.?*\\é".toList)).map Token.char = "a.?*\\é".toList ∧
    expression "a.?*\\é".toList ≠ expression "a.*?\\é".toList ∧
    let c := (CatalogDraft.empty.after [.normal "A.?**\\É" .unknown, .normal "" .unknown]).toCatalog
    ∃ rule ∈ c.rules, rule.pattern = "a.?*\\é" ∧ ∀ agent, c.accepts rule agent = true ↔
      Token.Matches [.same 'a', .same '.', .any, .run, .same '\\', .same 'é']
        (Text.foldCase agent.toList) := by
  obtain ⟨hread, hinj, haccepts⟩ := expressions_denote
  have hnormal : normalize "a.?*\\é".toList = "a.?*\\é".toList := by decide +kernel
  have hnormal' : normalize "a.*?\\é".toList = "a.*?\\é".toList := by decide +kernel
  refine ⟨by decide +kernel, hread _ hnormal, fun h => ?_, ?_⟩
  · exact absurd (hinj _ _ hnormal hnormal' h) (by decide)
  · intro c
    have hmem : "a.?*\\é" ∈ c.rules.toList.map (·.pattern) := by decide +kernel
    obtain ⟨rule, hrule, hpattern⟩ := List.mem_map.1 hmem
    have hrule' : rule ∈ c.rules := Array.mem_toList_iff.1 hrule
    have htokens : Pattern.read (expression "a.?*\\é".toList) =
        [.same 'a', .same '.', .any, .run, .same '\\', .same 'é'] := by decide +kernel
    refine ⟨rule, hrule', hpattern, fun agent => ?_⟩
    have hiff := haccepts [("A.?**\\É", .unknown), ("", .unknown)] rule hrule' agent
    rwa [hpattern, htokens] at hiff

end Catalog

end AgentCatalog
