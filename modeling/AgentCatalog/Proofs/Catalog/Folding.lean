import AgentCatalog.Proofs.Catalog.Lookup
import AgentCatalog.Proofs.Rule.Grammar
import AgentCatalog.Proofs.Text.LetterCase

/-!
# The case of patterns and user agents

Raw patterns are folded before they are compiled, and user agents before they are looked up. So what
folding does not tell apart is not told apart by compilers and catalogs either: a text and the folded
one, and texts that differ in the case of ASCII letters. The main result is `folding_coherent`.
-/

namespace AgentCatalog

open Pattern (normalForm)
open Text (foldCase lowerInContext SameButCase)

/-! ### Patterns -/

lemma Pattern.normalForm_eq_of_sameButCase {raw raw' : String}
    (h : SameButCase raw.toList raw'.toList) : normalForm raw = normalForm raw' := by
  rw [normalForm, normalForm, normalize, normalize, Text.foldCase_eq_of_sameButCase h]

lemma Compiler.pattern_of_compileNormal_eq_ok {c c' : Compiler} {raw : String}
    {capabilities : Capabilities} {rule : Rule}
    (h : c.compileNormal raw capabilities = (.ok rule, c')) : rule.pattern = normalForm raw := by
  rw [compileNormal_eq] at h
  exact (compiled_of_compile_eq_ok h).2.1

namespace Catalog

/-! ### User agents -/

lemma lookup_eq_of_subject_eq {agent agent' : String} (h : subject agent = subject agent')
    (c : Catalog) : c.lookup agent = c.lookup agent' := by
  rw [lookup, lookup, h]

lemma subject_foldCase (agent : String) :
    subject (String.ofList (foldCase agent.toList)) = subject agent := by
  rw [subject, subject, String.toList_ofList, Text.foldCase_foldCase]

lemma subject_eq_of_sameButCase {agent agent' : String}
    (h : SameButCase agent.toList agent'.toList) : subject agent = subject agent' := by
  rw [subject, subject, Text.foldCase_eq_of_sameButCase h]

/-- Folding is lower-casing in context, and folding again changes nothing. It does not see the case of
ASCII letters. So the same rule is found for a user agent and for the folded one, and texts that
differ in the case of ASCII letters have the same rule and are compiled to the same pattern. -/
theorem folding_coherent :
    (∀ s : List Char, foldCase s = lowerInContext s ∧ foldCase (foldCase s) = foldCase s) ∧
    (∀ (c : Catalog) (s : String),
      c.lookup (String.ofList (foldCase s.toList)) = c.lookup s) ∧
    ∀ s t : String, SameButCase s.toList t.toList →
      foldCase t.toList = foldCase s.toList ∧
      (∀ c : Catalog, c.lookup t = c.lookup s) ∧
      (∀ (c : Compiler) (capabilities : Capabilities),
        c.compileNormal t capabilities = c.compileNormal s capabilities) ∧
      ∀ (c d c' d' : Compiler) (capabilities capabilities' : Capabilities) (rule rule' : Rule),
        c.compileNormal s capabilities = (.ok rule, c') →
        d.compileNormal t capabilities' = (.ok rule', d') → rule'.pattern = rule.pattern := by
  refine ⟨fun s => ⟨Text.foldCase_eq_lowerInContext s, Text.foldCase_foldCase s⟩,
    fun c s => lookup_eq_of_subject_eq (subject_foldCase s) c, fun s t h => ?_⟩
  have hform := Pattern.normalForm_eq_of_sameButCase h
  refine ⟨(Text.foldCase_eq_of_sameButCase h).symm,
    lookup_eq_of_subject_eq (subject_eq_of_sameButCase h).symm, fun c capabilities => ?_, ?_⟩
  · rw [Compiler.compileNormal_eq, Compiler.compileNormal_eq, hform]
  · intro c d c' d' capabilities capabilities' rule rule' hs ht
    rw [Compiler.pattern_of_compileNormal_eq_ok hs, Compiler.pattern_of_compileNormal_eq_ok ht, hform]

theorem folding_coherent_of_sigma :
    SameButCase "AΣ*B".toList "aΣ*b".toList ∧ foldCase "aΣ*b".toList = foldCase "AΣ*B".toList ∧
    foldCase "AΣ*B".toList = "aς*b".toList ∧
    (∀ c : Catalog, c.lookup "aΣ*b" = c.lookup "AΣ*B") ∧
    ∃ rule c', Compiler.empty.compileNormal "AΣ*B" .unknown = (.ok rule, c') ∧
      Compiler.empty.compileNormal "aΣ*b" .unknown = (.ok rule, c') ∧ rule.pattern = "aς*b" := by
  have hsame : SameButCase "AΣ*B".toList "aΣ*b".toList := by decide
  obtain ⟨hfold, hlookup, hcompile, -⟩ := folding_coherent.2.2 "AΣ*B" "aΣ*b" hsame
  have hroom : (Compiler.empty.compileNormal "AΣ*B" .unknown).2.registry.size
      < LiteralRegistry.capacity := by decide +kernel
  obtain ⟨rule, c', h⟩ := (Compiler.exists_compileNormal_eq_ok_iff hroom).2 (by decide)
  have hform : normalForm "AΣ*B" = "aς*b" := by decide +kernel
  refine ⟨hsame, hfold, by decide +kernel, hlookup, rule, c', h, (hcompile _ _).trans h, ?_⟩
  rw [Compiler.pattern_of_compileNormal_eq_ok h, hform]

end Catalog

end AgentCatalog
