import AgentCatalog.Layout.Basic
import Mathlib.Order.MinMax
import Mathlib.Tactic.Lemma

/-!
# Sound layouts

A layout has no problem exactly if the pattern has a column and every column from which an attribute
is read is one of the fields that each used record has.
-/

namespace AgentCatalog.Layout

variable {layout : Layout}

lemma includes_pattern (tier : Tier) : tier.includes .pattern = true := by
  cases tier <;> decide

lemma nodup_attributes (tier : Tier) : tier.attributes.Nodup := by
  cases tier with
  | basic | standard => decide
  | extended => exact Attribute.nodup_all

/-- The pattern is read in every tier. -/
lemma column?_pattern (layout : Layout) : layout.column? .pattern = layout.columns .pattern :=
  if_pos (includes_pattern layout.tier)

lemma mem_readColumns_iff {a : Attribute} {column : Nat} :
    (a, column) ∈ layout.readColumns ↔ layout.column? a = some column := by
  rw [readColumns, List.mem_filterMap]
  constructor
  · rintro ⟨b, -, hb⟩
    obtain ⟨_, hcolumn, heq⟩ := Option.map_eq_some_iff.1 hb
    obtain ⟨rfl, rfl⟩ := Prod.mk.inj heq
    exact hcolumn
  · intro h
    refine ⟨a, ?_, by rw [h]; rfl⟩
    by_contra hnot
    have hincludes : layout.tier.includes a = false := by
      simpa [Tier.includes] using hnot
    rw [column?, hincludes] at h
    cases h

/-- Each attribute that is read has one column. -/
lemma nodup_map_readColumns (layout : Layout) : (layout.readColumns.map (·.1)).Nodup := by
  have hmap : layout.readColumns.map (·.1) =
      layout.tier.attributes.filter fun a => (layout.column? a).isSome := by
    rw [readColumns, List.map_filterMap, ← List.filterMap_eq_filter]
    congr 1
    funext a
    cases h : layout.column? a <;> simp [h, Option.guard]
  rw [hmap]
  exact (nodup_attributes layout.tier).filter _

lemma foldl_max_lt_iff {columns : List Nat} {column bound : Nat} :
    columns.foldl max column < bound ↔ column < bound ∧ ∀ c ∈ columns, c < bound := by
  induction columns generalizing column with
  | nil => simp
  | cons c columns ih =>
    rw [List.foldl_cons, ih, max_lt_iff, List.forall_mem_cons, and_assoc]

/-- A layout has no problem if there are columns for the pattern and the other attributes that are
read as far as they have any, and all of them are below the least number of fields. -/
theorem problem?_eq_none_iff : layout.problem? = none ↔
    ∃ column, layout.columns .pattern = some column ∧ column < layout.minFields ∧
      ∀ a column, layout.column? a = some column → column < layout.minFields := by
  have hcolumns : (∀ column ∈ layout.readColumns.map (·.2), column < layout.minFields) ↔
      ∀ a column, layout.column? a = some column → column < layout.minFields := by
    simp only [List.forall_mem_map, Prod.forall, mem_readColumns_iff]
  cases hpattern : layout.columns .pattern with
  | none => simp [problem?, hpattern]
  | some column =>
    have hproblem : layout.problem? = none ↔
        (layout.readColumns.map (·.2)).foldl max column < layout.minFields := by
      rw [problem?, hpattern]
      dsimp only
      split
      · next h => simp [Nat.not_lt_of_le h]
      · next h => simp [Nat.lt_of_not_le h]
    rw [hproblem, foldl_max_lt_iff, hcolumns]
    simp only [Option.some.injEq, exists_eq_left']

end AgentCatalog.Layout
