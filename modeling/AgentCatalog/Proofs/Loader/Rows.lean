import AgentCatalog.Loader.Basic
import AgentCatalog.Proofs.Catalog.Draft
import AgentCatalog.Proofs.Pattern.Normal

/-!
# The rows of a source

The records of enough fields are the rows of a source. Each gives a pattern and capabilities, which
do not depend on the rows before it. All of them are added to the draft if no pattern is empty, and
if one is, the loading ends there:

* `read_eq`: what is taken from a record, whatever was read before it;
* `exists_call_eq_ok`: a row with a pattern is compiled, as long as there is room;
* `addRecords_eq`: what becomes of the draft.
-/

namespace AgentCatalog

open Pattern (normalize)

/-- The pattern has no characters besides `*`. -/
def Pattern.OnlyStars (raw : String) : Prop :=
  ∀ c ∈ raw.toList, c = '*'

instance (raw : String) : Decidable (Pattern.OnlyStars raw) :=
  List.decidableBAll (· = '*') raw.toList

namespace Loader

variable {layout : Layout}

/-! ### Reading a row -/

/-- The pattern that a record has. -/
def cell (layout : Layout) (record : List String) : String :=
  record.getD ((layout.columns .pattern).getD 0) ""

/-- The capabilities that a reader takes from a record, as the first one that it reads. -/
def capabilitiesOf (layout : Layout) (record : List String) : Capabilities :=
  (((RecordReader.ofLayout layout).read record).1.map (·.2)).getD .unknown

/-- The patterns and capabilities of the records that have enough fields. -/
def rows (layout : Layout) (records : List (List String)) : List (String × Capabilities) :=
  (records.filter fun record => layout.minFields ≤ record.length).map fun record =>
    (cell layout record, capabilitiesOf layout record)

/-- The call that adds a row to a draft. -/
def callOf (row : String × Capabilities) : Compiler.Call :=
  .normal row.1 row.2

/-- The texts between the `*` of all patterns, each once. -/
def literalPool (rows : List (String × Capabilities)) : Finset (List Char) :=
  (rows.flatMap fun row => Pattern.literals (normalize row.1.toList)).toFinset

lemma mem_literalPool {rows : List (String × Capabilities)} {row : String × Capabilities}
    (hrow : row ∈ rows) {t : List Char} (ht : t ∈ Pattern.literals (normalize row.1.toList)) :
    t ∈ literalPool rows :=
  List.mem_toFinset.2 (List.mem_flatMap.2 ⟨row, hrow, ht⟩)

/-- What a reader has read before changes nothing of what it takes from a record. -/
lemma read_eq (h : layout.problem? = none) {reader : RecordReader} (hr : reader.layout = layout)
    (record : List String) :
    (reader.read record).2.layout = layout ∧
      (reader.read record).1 = if layout.minFields ≤ record.length then
        some (cell layout record, capabilitiesOf layout record) else none := by
  obtain ⟨column, hcolumn⟩ : ∃ column, layout.columns .pattern = some column := by
    cases hcolumn : layout.columns .pattern with
    | none => simp [Layout.problem?, hcolumn] at h
    | some column => exact ⟨column, rfl⟩
  subst hr
  by_cases hlen : record.length < reader.layout.minFields
  · rw [RecordReader.read, if_pos hlen, if_neg (by omega)]
    exact ⟨rfl, rfl⟩
  · rw [if_pos (by omega)]
    simp [RecordReader.read, hlen, hcolumn, cell, capabilitiesOf, RecordReader.ofLayout]

lemma rows_cons (record : List String) (records : List (List String)) :
    rows layout (record :: records) = if layout.minFields ≤ record.length then
      (cell layout record, capabilitiesOf layout record) :: rows layout records
      else rows layout records := by
  rw [rows, List.filter_cons]
  split <;> simp_all [rows]

/-! ### Compiling a row -/

lemma call_empty (c : Compiler) (capabilities : Capabilities) :
    c.call (callOf ("", capabilities)) = (.error (.unparsable "" none), c) :=
  Compiler.compile_empty c capabilities

section Room

variable {pool : Finset (List Char)} (hcard : pool.card ≤ LiteralRegistry.capacity)

include hcard

/-- The pattern of a row is compiled if it is not empty and there is room for its literals. -/
lemma exists_call_eq_ok {c : Compiler} (hc : c.registry.Within pool)
    {row : String × Capabilities} (hne : row.1 ≠ "")
    (hpool : ∀ t ∈ Pattern.literals (normalize row.1.toList), t ∈ pool) :
    ∃ rule c', c.call (callOf row) = (.ok rule, c') ∧ c'.registry.Within pool := by
  have hne' : Pattern.normalForm row.1 ≠ "" := by
    rwa [Ne, Pattern.normalForm_eq_empty_iff]
  rw [← Pattern.toList_normalForm] at hpool
  obtain ⟨rule, c', h⟩ :=
    Compiler.exists_compile_eq_ok hc hcard hpool (Pattern.collapsed_normalForm row.1) hne' row.2
  have hwithin := Compiler.within_compile hc hpool row.2
  rw [h] at hwithin
  exact ⟨rule, c', h, hwithin⟩

/-! ### Adding the rows -/

/-- The rows are added to the draft, one after the other, unless the pattern of one is empty. -/
theorem addRecords_eq (h : layout.problem? = none) {reader : RecordReader}
    (hr : reader.layout = layout) {draft : CatalogDraft}
    (hd : draft.compiler.registry.Within pool) {records : List (List String)}
    (hpool : ∀ row ∈ rows layout records,
      ∀ t ∈ Pattern.literals (normalize row.1.toList), t ∈ pool) :
    addRecords reader draft records =
      if ∃ row ∈ rows layout records, row.1 = "" then .error (.compile (.unparsable "" none))
      else .ok (draft.after ((rows layout records).map callOf)) := by
  induction records generalizing reader draft with
  | nil => rfl
  | cons record records ih =>
    obtain ⟨hr', hread⟩ := read_eq h hr record
    rcases hreader : reader.read record with ⟨row?, reader'⟩
    rw [hreader] at hr' hread
    rw [addRecords, hreader]
    rw [rows_cons] at hpool ⊢
    by_cases hlen : layout.minFields ≤ record.length
    · rw [if_pos hlen] at hread hpool ⊢
      rw [List.forall_mem_cons] at hpool
      dsimp only at hread hr'
      subst hread
      set row := (cell layout record, capabilitiesOf layout record)
      have hadd : draft.add row.1 row.2 = draft.accept (draft.compiler.call (callOf row)) := rfl
      dsimp only
      by_cases hempty : row.1 = ""
      · -- the first empty pattern ends the loading
        have hcall : draft.compiler.call (callOf row) =
            (.error (.unparsable "" none), draft.compiler) := by
          rw [callOf, hempty]
          exact call_empty draft.compiler row.2
        rw [if_pos ⟨row, List.mem_cons_self, hempty⟩, hadd, hcall]
        rfl
      · obtain ⟨rule, c', hcall, hc'⟩ := exists_call_eq_ok hcard hd hempty hpool.1
        have hrest : (∃ row' ∈ row :: rows layout records, row'.1 = "") ↔
            ∃ row' ∈ rows layout records, row'.1 = "" := by
          simp [hempty]
        rw [hadd, List.map_cons, CatalogDraft.after_cons, CatalogDraft.call_eq, hcall]
        simp only [hrest]
        exact ih hr' hc' hpool.2
    · -- a record of too few fields is skipped
      rw [if_neg hlen] at hread hpool ⊢
      dsimp only at hread hr'
      subst hread
      exact ih hr' hd hpool

end Room

end Loader

end AgentCatalog
