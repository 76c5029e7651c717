import AgentCatalog.Proofs.Layout.Soundness
import AgentCatalog.Proofs.Loader.Expression
import AgentCatalog.Proofs.Loader.Rows
import AgentCatalog.Proofs.Text.Interning
import AgentCatalog.Proofs.Text.Trimming
import Mathlib.Data.List.GetD

/-!
# What a reader takes from records

By a layout without problems every record of enough fields has all the cells that are read. What is
taken from them depends on nothing that was read before. The reader only counts the records and
numbers the values:

* `valueOfCell_eq_iff`: the value of a cell;
* `reads_row`: the values of a record;
* `HasRead.after`: the counts and the numbered values after any records.
-/

namespace AgentCatalog

/-! ### Cells -/

namespace Capabilities

open Text (Trimmed isBlank)

/-- The value that is in a cell: the text between the white space at both ends, and `Unknown` if
there is none. -/
inductive InCell (cell : String) : String → Prop where
  | blank (h : isBlank cell.toList = true) : InCell cell unknownValue
  | between {before text behind : List Char} (h : cell.toList = before ++ (text ++ behind))
      (hbefore : isBlank before = true) (htext : Trimmed text) (hbehind : isBlank behind = true) :
      InCell cell (String.ofList text)

theorem valueOfCell_eq_iff {cell value : String} :
    valueOfCell cell = value ↔ InCell cell value := by
  constructor
  · rintro rfl
    rw [valueOfCell]
    cases hblank : isBlank cell.toList with
    | true => exact .blank hblank
    | false =>
      obtain ⟨before, behind, happend, hbefore, hbehind, htrim⟩ := Text.exists_eq_append_trim hblank
      exact .between happend hbefore htrim hbehind
  · intro h
    rw [valueOfCell]
    cases h with
    | blank h => exact if_pos h
    | @between before text behind h hbefore htext hbehind =>
      have hblank : isBlank cell.toList = false := by
        have hall := htext.isBlank_eq_false
        rw [isBlank] at hall ⊢
        rw [h, List.all_append, List.all_append, hall, Bool.false_and, Bool.and_false]
      rw [hblank, h, Text.trim_append hbefore htext hbehind]
      rfl

lemma trimmed_unknownValue : Trimmed unknownValue.toList :=
  Text.trimmed_of_ends (by decide) (by decide) "nknow".toList

lemma InCell.trimmed {cell value : String} (h : InCell cell value) : Trimmed value.toList := by
  cases h with
  | blank => exact trimmed_unknownValue
  | between _ _ htext _ => rwa [String.toList_ofList]

/-- If each attribute is set once, it has the value to which it is set. -/
lemma get_foldl_set_of_mem {values : List (Attribute × String)} (hnodup : (values.map (·.1)).Nodup)
    {a : Attribute} {value : String} (h : (a, value) ∈ values) (c : Capabilities) :
    (values.foldl (fun c v => c.set v.1 v.2) c).get a = value := by
  induction values generalizing c with
  | nil => cases h
  | cons v values ih =>
    obtain ⟨hv, hnodup⟩ := List.nodup_cons.1 hnodup
    rw [List.foldl_cons]
    rcases List.mem_cons.1 h with rfl | h
    · have hothers : ∀ w ∈ values, w.1 ≠ a := by
        rintro w hw rfl
        exact hv (List.mem_map.2 ⟨w, hw, rfl⟩)
      rw [get_foldl_set hothers, get_set, if_pos rfl]
    · exact ih hnodup h _

end Capabilities

open Capabilities (InCell unknownValue)
open Loader (capabilitiesOf cell rows)

/-! ### Records -/

/-- The pattern and the capabilities are those of a record. Every cell that is read is there. An
attribute has the value of its cell if it has a column from which it is read, and is unknown if it
has none, and the pattern is shown as an expression. -/
structure Layout.Reads (layout : Layout) (record : List String) (raw : String)
    (capabilities : Capabilities) : Prop where
  raw_eq : ∃ column, layout.columns .pattern = some column ∧ record[column]? = some raw
  pattern_eq : capabilities.get .pattern = String.ofList (Pattern.expression raw.toList)
  get_of_column : ∀ a ≠ .pattern, ∀ column, layout.column? a = some column →
    ∃ cell, record[column]? = some cell ∧ InCell cell (capabilities.get a)
  get_of_none : ∀ a ≠ .pattern, layout.column? a = none → capabilities.get a = unknownValue
  trimmed : ∀ a, Text.Trimmed (capabilities.get a).toList

/-- An expression starts with `^` and ends with `$`. -/
lemma Pattern.trimmed_expression (pattern : List Char) : Text.Trimmed (expression pattern) := by
  rw [expression_eq_flatMap]
  exact Text.trimmed_of_ends (by decide) (by decide) _

namespace RecordReader

variable {layout : Layout} {column : Nat}

/-- Every attribute that is read comes once, the pattern included. -/
lemma mem_sources_iff (hcolumn : layout.columns .pattern = some column) {a : Attribute} {i : Nat} :
    (a, i) ∈ sources layout column ↔ layout.column? a = some i := by
  rw [sources, List.mem_cons, List.mem_filter, Layout.mem_readColumns_iff, Prod.mk.injEq]
  by_cases ha : a = .pattern
  · subst ha
    rw [Layout.column?_pattern, hcolumn, Option.some.injEq]
    simp [eq_comm]
  · simp [ha]

lemma nodup_map_sources (layout : Layout) (column : Nat) :
    ((sources layout column).map (·.1)).Nodup := by
  rw [sources, List.map_cons, List.nodup_cons]
  constructor
  · simp
  · exact (layout.nodup_map_readColumns).sublist (List.filter_sublist.map _)

/-- The values that a record gives, by a column for the pattern. -/
def given (layout : Layout) (column : Nat) (record : List String) : List (Attribute × String) :=
  (sources layout column).map fun source => (source.1, valueOf source.1 (record.getD source.2 ""))

lemma nodup_map_given (layout : Layout) (column : Nat) (record : List String) :
    ((given layout column record).map (·.1)).Nodup := by
  rw [given, List.map_map]
  exact nodup_map_sources layout column

lemma read_of_short {r : RecordReader} {record : List String}
    (hlen : record.length < r.layout.minFields) :
    r.read record = (none, { r with skipped := r.skipped + 1 }) := by
  rw [read, if_pos hlen]

lemma read_of_long {r : RecordReader} {record : List String}
    (hlen : ¬record.length < r.layout.minFields)
    (hcolumn : r.layout.columns .pattern = some column) :
    r.read record = (some (record.getD column "",
        (given r.layout column record).foldl (fun c v => c.set v.1 v.2) .unknown),
      { r with
        values :=
          (given r.layout column record).foldl (fun known v => (known.intern v.2).1) r.values
        used := r.used + 1 }) := by
  rw [read, if_neg hlen, hcolumn]
  rfl

/-! ### One record -/

section Record

variable {record : List String} (hlen : ¬record.length < layout.minFields)

include hlen

lemma capabilitiesOf_eq (hcolumn : layout.columns .pattern = some column) :
    capabilitiesOf layout record =
      (given layout column record).foldl (fun c v => c.set v.1 v.2) .unknown := by
  have hlayout : (ofLayout layout).layout = layout := rfl
  rw [capabilitiesOf, read_of_long hlen hcolumn, Option.map_some, Option.getD_some, hlayout]

variable (h : layout.problem? = none)

include h

/-- An attribute with a column has the value of a cell that is there. -/
lemma exists_get_eq_valueOf {a : Attribute} {i : Nat} (ha : layout.column? a = some i) :
    ∃ cell, record[i]? = some cell ∧ (capabilitiesOf layout record).get a = valueOf a cell := by
  obtain ⟨column, hcolumn, -, hcolumns⟩ := Layout.problem?_eq_none_iff.1 h
  have hi : i < record.length := by
    have := hcolumns a i ha
    omega
  refine ⟨record[i], List.getElem?_eq_getElem hi, ?_⟩
  rw [capabilitiesOf_eq hlen hcolumn]
  apply Capabilities.get_foldl_set_of_mem (nodup_map_given layout column record)
  rw [given, List.mem_map]
  refine ⟨(a, i), (mem_sources_iff hcolumn).2 ha, ?_⟩
  rw [List.getD_eq_getElem _ _ hi]

lemma get_eq_unknownValue {a : Attribute} (ha : layout.column? a = none) :
    (capabilitiesOf layout record).get a = unknownValue := by
  obtain ⟨column, hcolumn, -, -⟩ := Layout.problem?_eq_none_iff.1 h
  have hothers : ∀ v ∈ given layout column record, v.1 ≠ a := by
    rintro v hv rfl
    obtain ⟨⟨b, i⟩, hsource, rfl⟩ := List.mem_map.1 hv
    rw [(mem_sources_iff hcolumn).1 hsource] at ha
    cases ha
  rw [capabilitiesOf_eq hlen hcolumn, Capabilities.get_foldl_set hothers,
    Capabilities.get_unknown]

/-- A record of enough fields gives what the layout reads from it. -/
theorem reads_row : layout.Reads record (cell layout record) (capabilitiesOf layout record) := by
  obtain ⟨column, hcolumn, -, -⟩ := Layout.problem?_eq_none_iff.1 h
  have hpattern : layout.column? .pattern = some column := by
    rw [Layout.column?_pattern, hcolumn]
  obtain ⟨raw, hraw, hget⟩ := exists_get_eq_valueOf hlen h hpattern
  have hcell : cell layout record = raw := by
    rw [cell, hcolumn, Option.getD_some, List.getD_eq_getElem?_getD, hraw, Option.getD_some]
  have hvalue : ∀ a ≠ .pattern, ∀ i, layout.column? a = some i →
      ∃ cell, record[i]? = some cell ∧ InCell cell ((capabilitiesOf layout record).get a) := by
    intro a ha i hi
    obtain ⟨cell, hcell, hget⟩ := exists_get_eq_valueOf hlen h hi
    refine ⟨cell, hcell, Capabilities.valueOfCell_eq_iff.1 ?_⟩
    rw [hget]
    cases a <;> first | exact absurd rfl ha | rfl
  refine ⟨⟨column, hcolumn, hcell ▸ hraw⟩, hcell ▸ hget, hvalue,
    fun a _ => get_eq_unknownValue hlen h, fun a => ?_⟩
  by_cases ha : a = .pattern
  · rw [ha, hget, valueOf, String.toList_ofList]
    exact Pattern.trimmed_expression _
  · cases hi : layout.column? a with
    | none =>
      rw [get_eq_unknownValue hlen h hi]
      exact Capabilities.trimmed_unknownValue
    | some i =>
      obtain ⟨cell, -, hin⟩ := hvalue a ha i hi
      exact hin.trimmed

end Record

/-! ### All records -/

/-- The reader after more records. -/
def after (r : RecordReader) (records : List (List String)) : RecordReader :=
  records.foldl (fun r record => (r.read record).2) r

/-- The attributes that are read from a column. -/
def readAttributes (layout : Layout) : List Attribute :=
  Attribute.all.filter fun a => (layout.column? a).isSome

/-- The values of these attributes in all records of enough fields. -/
def valuesRead (layout : Layout) (records : List (List String)) : Finset String :=
  ((rows layout records).flatMap fun row => (readAttributes layout).map row.2.get).toFinset

/-- What a reader has after some records: the layout, the counts of those with enough fields and of
all, and the values. -/
structure HasRead (layout : Layout) (records : List (List String)) (r : RecordReader) : Prop where
  layout_eq : r.layout = layout
  used_eq : r.used = records.countP (layout.minFields ≤ ·.length)
  length_eq : r.used + r.skipped = records.length
  known_eq : r.values.known = valuesRead layout records

lemma hasRead_ofLayout (layout : Layout) : HasRead layout [] (ofLayout layout) :=
  ⟨rfl, rfl, rfl, rfl⟩

lemma rows_append (layout : Layout) (records more : List (List String)) :
    rows layout (records ++ more) = rows layout records ++ rows layout more := by
  rw [rows, rows, rows, List.filter_append, List.map_append]

lemma valuesRead_append (layout : Layout) (records more : List (List String)) :
    valuesRead layout (records ++ more) = valuesRead layout records ∪ valuesRead layout more := by
  rw [valuesRead, rows_append, List.flatMap_append, List.toFinset_append, valuesRead, valuesRead]

/-- The values that a record gives are those of the attributes that are read. -/
lemma toFinset_given {record : List String} (hlen : ¬record.length < layout.minFields)
    (hcolumn : layout.columns .pattern = some column) :
    ((given layout column record).map (·.2)).toFinset = valuesRead layout [record] := by
  have hrows : rows layout [record] = [(cell layout record, capabilitiesOf layout record)] := by
    rw [Loader.rows_cons, if_pos (Nat.le_of_not_lt hlen)]
    rfl
  ext value
  rw [valuesRead, hrows, List.flatMap_singleton, List.mem_toFinset, List.mem_toFinset, List.mem_map,
    List.mem_map]
  constructor
  · rintro ⟨⟨a, value⟩, hgiven, rfl⟩
    refine ⟨a, ?_, ?_⟩
    · obtain ⟨⟨b, i⟩, hsource, heq⟩ := List.mem_map.1 hgiven
      obtain ⟨rfl, -⟩ := Prod.mk.inj heq
      refine List.mem_filter.2 ⟨b.mem_all, ?_⟩
      rw [(mem_sources_iff hcolumn).1 hsource]
      rfl
    · dsimp only
      rw [capabilitiesOf_eq hlen hcolumn]
      exact Capabilities.get_foldl_set_of_mem (nodup_map_given layout column record) hgiven _
  · rintro ⟨a, ha, rfl⟩
    obtain ⟨i, hi⟩ := Option.isSome_iff_exists.1 (List.mem_filter.1 ha).2
    have hgiven : (a, valueOf a (record.getD i "")) ∈ given layout column record :=
      List.mem_map.2 ⟨(a, i), (mem_sources_iff hcolumn).2 hi, rfl⟩
    refine ⟨_, hgiven, ?_⟩
    dsimp only
    rw [capabilitiesOf_eq hlen hcolumn]
    exact (Capabilities.get_foldl_set_of_mem (nodup_map_given layout column record) hgiven _).symm

/-- One more record adds its values, if it has enough fields. -/
lemma HasRead.read (h : layout.problem? = none) {records : List (List String)} {r : RecordReader}
    (hr : HasRead layout records r) (record : List String) :
    HasRead layout (records ++ [record]) (r.read record).2 := by
  obtain ⟨rfl, hused, hlength, hknown⟩ := hr
  obtain ⟨column, hcolumn, -, -⟩ := Layout.problem?_eq_none_iff.1 h
  by_cases hlen : record.length < r.layout.minFields
  · have hrows : rows r.layout [record] = [] := by
      rw [Loader.rows_cons, if_neg (Nat.not_le_of_lt hlen)]
      rfl
    rw [read_of_short hlen]
    refine ⟨rfl, ?_, ?_, ?_⟩
    · rw [List.countP_append, List.countP_singleton, if_neg (by simpa using hlen)]
      exact hused
    · rw [List.length_append]
      exact congrArg (· + 1) hlength
    · have hvalues : valuesRead r.layout [record] = ∅ := by
        rw [valuesRead, hrows]
        rfl
      rw [valuesRead_append, hvalues, Finset.union_empty]
      exact hknown
  · rw [read_of_long hlen hcolumn]
    refine ⟨rfl, ?_, ?_, ?_⟩
    · rw [List.countP_append, List.countP_singleton, if_pos (by simpa using hlen), ← hused]
    · rw [List.length_append, ← hlength]
      dsimp only
      rw [List.length_singleton]
      omega
    · rw [valuesRead_append, ← toFinset_given hlen hcolumn, ← hknown, ← Interner.known_foldl_intern,
        List.foldl_map]

theorem HasRead.after (h : layout.problem? = none) {records : List (List String)}
    {r : RecordReader} (hr : HasRead layout records r) (more : List (List String)) :
    HasRead layout (records ++ more) (r.after more) := by
  induction more generalizing records r with
  | nil => rwa [List.append_nil]
  | cons record more ih =>
    rw [List.append_cons]
    exact ih (hr.read h record)

/-- A layout has no problem if the pattern has a column, and no column that is read lies beyond the
fields that a used record has. Then a reader that has read any records skips those of too few fields
only, takes from each other one what is in its cells, as if it was the first, and has the counts of
the records and the number of distinct values. -/
theorem reading_complete (layout : Layout) :
    (layout.problem? = none ↔ ∃ column, layout.columns .pattern = some column ∧
      column < layout.minFields ∧
        ∀ a column, layout.column? a = some column → column < layout.minFields) ∧
    (layout.problem? = none → ∀ records : List (List String),
      let reader := (ofLayout layout).after records
      (∀ record, (reader.read record).1 = none ↔ record.length < layout.minFields) ∧
      (∀ record raw capabilities, (reader.read record).1 = some (raw, capabilities) →
        ((ofLayout layout).read record).1 = some (raw, capabilities) ∧
          layout.Reads record raw capabilities) ∧
      reader.used = records.countP (layout.minFields ≤ ·.length) ∧
      reader.used + reader.skipped = records.length ∧
      reader.valueCount = (valuesRead layout records).card) := by
  refine ⟨Layout.problem?_eq_none_iff, fun h records => ?_⟩
  intro reader
  have hreader : HasRead layout records reader :=
    (hasRead_ofLayout layout).after h records
  have hread : ∀ record, (reader.read record).1 = if layout.minFields ≤ record.length then
      some (cell layout record, capabilitiesOf layout record) else none :=
    fun record => (Loader.read_eq h hreader.layout_eq record).2
  refine ⟨fun record => ?_, fun record raw capabilities hrow => ?_, hreader.used_eq,
    hreader.length_eq, ?_⟩
  · rw [hread]
    split
    · next hle => simp [Nat.not_lt_of_le hle]
    · next hlt => simp [Nat.lt_of_not_le hlt]
  · have hfirst := (Loader.read_eq h (rfl : (ofLayout layout).layout = layout) record).2
    rw [← hread] at hfirst
    refine ⟨hfirst.trans hrow, ?_⟩
    rw [hread] at hrow
    split at hrow
    · next hle =>
      obtain ⟨rfl, rfl⟩ := Prod.mk.inj (Option.some.inj hrow)
      exact reads_row (Nat.not_lt_of_le hle) h
    · cases hrow
  · rw [valueCount, ← Interner.card_known, hreader.known_eq]

/-- The manufacturer of the device is not read in the basic tier, so its column may be missing. -/
theorem reading_complete_of_blank_cells :
    let layout : Layout := ⟨.basic, 3, fun
      | .pattern => some 0
      | .browser => some 1
      | .platform => some 2
      | .deviceMaker => some 9
      | _ => none⟩
    let reader := (ofLayout layout).after [["a*", " B ", "\t"], ["x"], ["a*", "B", ""]]
    layout.problem? = none ∧ reader.used = 2 ∧ reader.skipped = 1 ∧ reader.valueCount = 3 ∧
      ∃ capabilities, (reader.read ["", "\u3000C", "B"]).1 = some ("", capabilities) ∧
        layout.Reads ["", "\u3000C", "B"] "" capabilities := by
  intro layout reader
  obtain ⟨hproblem, hreading⟩ := reading_complete layout
  have h : layout.problem? = none := by decide
  obtain ⟨hnone, hsome, hused, hlength, hcount⟩ :=
    hreading h [["a*", " B ", "\t"], ["x"], ["a*", "B", ""]]
  have hused' : reader.used = 2 := hused
  have hlength' : reader.used + reader.skipped = 3 := hlength
  have hcard : (valuesRead layout [["a*", " B ", "\t"], ["x"], ["a*", "B", ""]]).card = 3 := by
    decide +kernel
  refine ⟨h, hused', by omega, hcount.trans hcard, ?_⟩
  cases hrow : (reader.read ["", "\u3000C", "B"]).1 with
  | none =>
    have hshort : 3 < 3 := (hnone _).1 hrow
    omega
  | some row =>
    obtain ⟨raw, capabilities⟩ := row
    obtain ⟨-, hreads⟩ := hsome _ _ _ hrow
    obtain ⟨column, hcolumn, hraw⟩ := hreads.raw_eq
    obtain rfl : 0 = column := Option.some.inj hcolumn
    obtain rfl : "" = raw := Option.some.inj hraw
    exact ⟨capabilities, rfl, hreads⟩

end RecordReader

end AgentCatalog
