import AgentCatalog.Proofs.Catalog.Lookup
import AgentCatalog.Proofs.Pattern.Containment
import AgentCatalog.Proofs.Rule.Grammar
import AgentCatalog.Proofs.Rule.Precedence
import Mathlib.Data.Set.Defs

/-!
# Rules that match less come first

A rule whose texts are all matched by another rule, which has no `?`, comes before it. For the pattern
of the first rule is a text in lower case that it matches, so the other rule matches this text, and
has to leave as many of its characters to `*` as the first rule does, or more.

The main result is `narrower_rules_first`.
-/

namespace AgentCatalog

open Utf8 (encode)
open Pattern (Matches normalForm)

namespace Rule

/-- The texts in lower case that the rule matches. -/
def language (rule : Rule) (table : LiteralTable) : Set (List Char) :=
  {s | Text.isFolded s = true ∧ rule.accepts table (encode s) = true}

/-- The rule has been compiled from the raw pattern, and the table is that of its compiler, which may
have compiled more since. -/
def CompiledFrom (rule : Rule) (raw : String) (table : LiteralTable) : Prop :=
  ∃ (c c' : Compiler) (capabilities : Capabilities) (later : List Compiler.Call),
    c.compileNormal raw capabilities = (.ok rule, c') ∧
      table = (c'.after later).registry.toTable

variable {a b rule : Rule} {r s : LiteralRegistry} {raw : String} {table : LiteralTable}

/-- With room for its literals there is a rule of every raw pattern that is not empty. -/
lemma exists_compiledFrom (c : Compiler) (capabilities : Capabilities) (hne : raw ≠ "")
    (room : (c.compileNormal raw capabilities).2.registry.size < LiteralRegistry.capacity) :
    ∃ rule table, CompiledFrom rule raw table := by
  obtain ⟨rule, c', h⟩ := (Compiler.exists_compileNormal_eq_ok_iff room).2 hne
  exact ⟨rule, _, c, c', capabilities, [], h, rfl⟩

lemma CompiledFrom.exists_registry (h : rule.CompiledFrom raw table) :
    ∃ r : LiteralRegistry, table = r.toTable ∧ rule.Compiled r ∧
      rule.pattern = normalForm raw := by
  obtain ⟨c, c', capabilities, later, hok, rfl⟩ := h
  rw [Compiler.compileNormal_eq] at hok
  obtain ⟨hcompiled, hpattern, -⟩ := Compiler.compiled_of_compile_eq_ok hok
  exact ⟨_, rfl, hcompiled.mono (Compiler.extends_after c' later), hpattern⟩

lemma Compiled.mem_language_iff (h : rule.Compiled r) {t : List Char} :
    t ∈ rule.language r.toTable ↔ Text.foldCase t = t ∧ Matches rule.pattern.toList t := by
  refine and_congr ?_ (h.accepts_encode_iff t)
  rw [Text.isFolded, beq_iff_eq]

/-- A rule that matches the pattern of another one, read as a text, comes behind it. -/
lemma Compiled.compare_eq_lt_of_matches (ha : a.Compiled r) (hb : b.Compiled s)
    (hb' : '?' ∉ b.pattern.toList) (hne : a.pattern ≠ b.pattern)
    (h : Matches b.pattern.toList a.pattern.toList) : a.compare b = .lt := by
  have hbefore := Pattern.before_of_matches hb' ha.grammar.2 (by rwa [Ne, String.toList_inj]) h
  cases hbcatch : b.isCatchAll with
  | true =>
    refine ha.compare_eq_lt_of_isCatchAll hb ?_ hbcatch
    rw [← Bool.not_eq_true, ha.isCatchAll_iff, ← hb.isCatchAll_iff.1 hbcatch]
    exact hne
  | false =>
    have hpos : 0 < Pattern.otherChars b.pattern := hb.isCatchAll_eq_false_iff.1 hbcatch
    have hacatch : a.isCatchAll = false :=
      ha.isCatchAll_eq_false_iff.2
        (hpos.trans_le (hbefore.elim Nat.le_of_lt fun heq => Nat.le_of_eq heq.1))
    rw [ha.compare_eq_lt_iff hb hacatch hbcatch]
    exact hbefore.imp id (And.imp id Or.inl)

/-- A rule comes before another one without `?` that matches all its texts. -/
lemma Compiled.compare_eq_lt_of_subset (ha : a.Compiled r) (hb : b.Compiled s)
    (hfold : Text.foldCase a.pattern.toList = a.pattern.toList) (hb' : '?' ∉ b.pattern.toList)
    (hne : a.pattern ≠ b.pattern) (hsub : a.language r.toTable ⊆ b.language s.toTable) :
    a.compare b = .lt := by
  have hself : a.pattern.toList ∈ a.language r.toTable :=
    ha.mem_language_iff.2 ⟨hfold, Pattern.matches_self _⟩
  exact ha.compare_eq_lt_of_matches hb hb' hne (hb.mem_language_iff.1 (hsub hself)).2

lemma CompiledFrom.compare_eq_lt {tableA tableB : LiteralTable} {rawA rawB : String}
    (ha : a.CompiledFrom rawA tableA) (hb : b.CompiledFrom rawB tableB) (hraw : '?' ∉ rawB.toList)
    (hne : normalForm rawA ≠ normalForm rawB) (hsub : a.language tableA ⊆ b.language tableB) :
    a.compare b = .lt := by
  obtain ⟨r, rfl, ha, hpatternA⟩ := ha.exists_registry
  obtain ⟨s, rfl, hb, hpatternB⟩ := hb.exists_registry
  refine ha.compare_eq_lt_of_subset hb ?_ ?_ ?_ hsub
  · rw [hpatternA, Pattern.foldCase_normalForm]
  · rw [hpatternB]
    exact Pattern.any_notMem_normalForm hraw
  · rwa [hpatternA, hpatternB]

end Rule

namespace Catalog

/-- Let one pattern without `?` match no texts in lower case but those that another one matches, and
be different from it. Then its rule comes first, wherever the two have been compiled. In a catalog
the rule of the other pattern never answers what the first one matches. Two patterns that match the
same texts are the same. -/
theorem narrower_rules_first {rawA rawB : String} (hrawA : '?' ∉ rawA.toList)
    (hrawB : '?' ∉ rawB.toList) :
    (∀ (a b : Rule) (tableA tableB : LiteralTable), a.CompiledFrom rawA tableA →
      b.CompiledFrom rawB tableB →
      (normalForm rawA ≠ normalForm rawB → a.language tableA ⊆ b.language tableB →
        a.compare b = .lt) ∧
      (a.language tableA = b.language tableB → normalForm rawA = normalForm rawB)) ∧
    ∀ calls : List Compiler.Call,
      let c := (CatalogDraft.empty.after calls).toCatalog
      ∀ (i j : Nat) (hi : i < c.rules.size) (hj : j < c.rules.size),
        c.rules[i].pattern = normalForm rawA → c.rules[j].pattern = normalForm rawB →
        normalForm rawA ≠ normalForm rawB →
        (∀ agent, c.accepts c.rules[i] agent = true → c.accepts c.rules[j] agent = true) →
        i < j ∧ ∀ agent, c.accepts c.rules[i] agent = true →
          (c.lookup agent).pattern ≠ normalForm rawB := by
  refine ⟨fun a b tableA tableB ha hb => ⟨ha.compare_eq_lt hb hrawB, fun heq => ?_⟩, ?_⟩
  · -- otherwise each of the two would come before the other
    by_contra hne
    have hlt := ha.compare_eq_lt hb hrawB hne heq.subset
    have hgt := hb.compare_eq_lt ha hrawA (Ne.symm hne) heq.symm.subset
    exact Std.OrientedCmp.not_lt_of_lt hlt hgt
  · intro calls c i j hi hj hpatternA hpatternB hne hsub
    have hsound := CatalogDraft.sound_after_empty calls
    have ha := compiled_getElem hsound hi
    -- the pattern of the first rule, as a user agent, is matched by both rules
    have hself : c.accepts c.rules[i] (normalForm rawA) = true := by
      rw [accepts_iff ha, hpatternA, Pattern.foldCase_normalForm]
      exact Pattern.matches_self _
    have hother := (accepts_iff (compiled_getElem hsound hj) _).1 (hsub _ hself)
    rw [hpatternB, Pattern.foldCase_normalForm] at hother
    have hlt : ∀ rule ∈ (CatalogDraft.empty.after calls).ranked, rule.pattern = normalForm rawB →
        c.rules[i].compare rule = .lt := by
      intro rule hrule hpattern
      refine ha.compare_eq_lt_of_matches (hsound.compiled_of_mem_ranked hrule) ?_ ?_ ?_
      · rw [hpattern]
        exact Pattern.any_notMem_normalForm hrawB
      · rwa [hpatternA, hpattern]
      · rwa [hpatternA, hpattern]
    exact ⟨lt_of_pattern_eq hsound hi hlt hj hpatternB,
      fun agent => lookup_pattern_ne hsound hi hlt⟩

theorem narrower_rules_first_of_prefix :
    (∃ (a b : Rule) (tableA tableB : LiteralTable), a.CompiledFrom "AB*" tableA ∧
      b.CompiledFrom "A*" tableB ∧ a.language tableA ⊆ b.language tableB ∧ a.compare b = .lt) ∧
    let c := (CatalogDraft.empty.after [.normal "A*" .unknown, .normal "AB*" .unknown]).toCatalog
    ∃ (i j : Nat) (hi : i < c.rules.size) (hj : j < c.rules.size),
      c.rules[i].pattern = "ab*" ∧ c.rules[j].pattern = "a*" ∧ i < j ∧
        ∀ agent, c.accepts c.rules[i] agent = true → (c.lookup agent).pattern ≠ "a*" := by
  have hformA : normalForm "AB*" = "ab*" := by decide +kernel
  have hformB : normalForm "A*" = "a*" := by decide +kernel
  have hne : normalForm "AB*" ≠ normalForm "A*" := by decide +kernel
  have hnarrower : ∀ s, Matches "ab*".toList s → Matches "a*".toList s := by
    rintro _ (- | - | - | ⟨hstar, hany, -⟩)
    exact .same hstar hany (Pattern.matches_star _)
  obtain ⟨hcompiled, hcatalog⟩ :=
    @narrower_rules_first "AB*" "A*" (by decide) (by decide)
  refine ⟨?_, ?_⟩
  · obtain ⟨a, tableA, ha⟩ : ∃ a tableA, Rule.CompiledFrom a "AB*" tableA :=
      Rule.exists_compiledFrom .empty .unknown (by decide) (by decide +kernel)
    obtain ⟨b, tableB, hb⟩ : ∃ b tableB, Rule.CompiledFrom b "A*" tableB :=
      Rule.exists_compiledFrom .empty .unknown (by decide) (by decide +kernel)
    have hsub : a.language tableA ⊆ b.language tableB := by
      obtain ⟨r, rfl, hra, hpatternA⟩ := ha.exists_registry
      obtain ⟨s, rfl, hsb, hpatternB⟩ := hb.exists_registry
      intro t ht
      rw [hra.mem_language_iff, hpatternA, hformA] at ht
      rw [hsb.mem_language_iff, hpatternB, hformB]
      exact ht.imp_right (hnarrower t)
    exact ⟨a, b, tableA, tableB, ha, hb, hsub, (hcompiled a b _ _ ha hb).1 hne hsub⟩
  · intro c
    have hsound := CatalogDraft.sound_after_empty
      [.normal "A*" .unknown, .normal "AB*" .unknown]
    obtain ⟨i, hi, hpatternA⟩ :
        ∃ i, ∃ hi : i < c.rules.size, c.rules[i].pattern = "ab*" :=
      exists_getElem_of_mem_added (by decide +kernel)
    obtain ⟨j, hj, hpatternB⟩ :
        ∃ j, ∃ hj : j < c.rules.size, c.rules[j].pattern = "a*" :=
      exists_getElem_of_mem_added (by decide +kernel)
    refine ⟨i, j, hi, hj, hpatternA, hpatternB, ?_⟩
    rw [← hformB]
    refine hcatalog _ i j hi hj (hpatternA.trans hformA.symm) (hpatternB.trans hformB.symm) hne
      fun agent h => ?_
    rw [accepts_iff (compiled_getElem hsound hi), hpatternA] at h
    rw [accepts_iff (compiled_getElem hsound hj), hpatternB]
    exact hnarrower _ h

end Catalog

end AgentCatalog
