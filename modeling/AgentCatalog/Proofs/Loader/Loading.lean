import AgentCatalog.Proofs.Catalog.Accepted
import AgentCatalog.Proofs.Catalog.Winner
import AgentCatalog.Proofs.Loader.Rows

/-!
# What is loaded from a source

A source either has a row with an empty pattern, or fails to be read, or gives a catalog. What the
catalog finds for a user agent is said in terms of the rows alone: `Wins` knows nothing of literals,
bytes, handles, sorting and the index.

The main result is `ofRecords_eq`.
-/

namespace AgentCatalog

open Pattern (Matches Precedes OnlyStars normalForm normalize)

namespace Loader

/-! ### The rows with a rule -/

/-- The rows whose patterns are not made of `*` only. -/
def properRows (rows : List (String × Capabilities)) : List (String × Capabilities) :=
  rows.filter fun row => ¬OnlyStars row.1

lemma normalForm_eq_star_iff {raw : String} (hne : raw ≠ "") :
    normalForm raw = "*" ↔ OnlyStars raw := by
  have hne' : raw.toList ≠ [] := by
    rwa [Ne, String.toList_eq_nil_iff]
  rw [← String.toList_inj, Pattern.toList_normalForm]
  refine Pattern.normalize_eq_star_iff.trans ?_
  rw [and_iff_right hne']
  rfl

/-- All rows are added if no pattern is empty and there is room for the literals of all. -/
lemma accepted_callOf {rows : List (String × Capabilities)} (hne : ∀ row ∈ rows, row.1 ≠ "")
    (hroom : (literalPool rows).card ≤ LiteralRegistry.capacity) :
    CatalogDraft.empty.accepted (rows.map callOf) = rows.map callOf := by
  refine CatalogDraft.accepted_eq_self hroom (LiteralRegistry.within_empty _) fun call hcall => ?_
  obtain ⟨row, hrow, rfl⟩ := List.mem_map.1 hcall
  have hpattern : (callOf row).pattern = normalForm row.1 := rfl
  rw [hpattern, Ne, Pattern.normalForm_eq_empty_iff, Pattern.toList_normalForm]
  refine ⟨⟨hne row hrow, ?_⟩, fun t ht => mem_literalPool hrow ht⟩
  rw [← Pattern.toList_normalForm]
  exact Pattern.collapsed_normalForm row.1

/-- The rules that are added have the patterns and capabilities of the rows, in their order. -/
lemma entries_callOf {rows : List (String × Capabilities)} (hne : ∀ row ∈ rows, row.1 ≠ "")
    (hroom : (literalPool rows).card ≤ LiteralRegistry.capacity) :
    (CatalogDraft.empty.after (rows.map callOf)).added.toList.map Rule.entry =
      (properRows rows).map fun row => (normalForm row.1, row.2) := by
  -- on both sides the patterns that come to a lone `*` are dropped
  have hproper : properRows rows = rows.filter fun row => normalForm row.1 ≠ "*" := by
    refine List.filter_congr fun row hrow => ?_
    rw [decide_eq_decide, Ne, normalForm_eq_star_iff (hne row hrow)]
  have hentry : Compiler.Call.entry ∘ callOf = fun row : String × Capabilities =>
      (normalForm row.1, if normalForm row.1 = "*" then .fallback else row.2) := rfl
  rw [CatalogDraft.entries_after_empty, accepted_callOf hne hroom, List.map_map, hentry, hproper]
  simp only [List.filter_map, Function.comp_def]
  refine List.map_congr_left fun row hrow => ?_
  have hstar : normalForm row.1 ≠ "*" := by simpa using (List.mem_filter.1 hrow).2
  rw [if_neg hstar]

/-! ### Winning -/

/-- The user agent is in the language of the pattern of the row, both in lower case. -/
def Takes (row : String × Capabilities) (agent : String) : Prop :=
  Matches (Text.foldCase row.1.toList) (Text.foldCase agent.toList)

/-- The rule is that of a row which takes the user agent, and which precedes every other such row,
or has the same pattern and stands before it. If no row takes it, it is the catch-all rule. -/
def Wins (rows : List (String × Capabilities)) (agent : String) (rule : Rule) : Prop :=
  (rule = .catchAll ∧ ∀ row ∈ rows, ¬Takes row agent) ∨
    ∃ i, ∃ hi : i < rows.length, rule.pattern = normalForm rows[i].1 ∧
      rule.capabilities = rows[i].2 ∧ Takes rows[i] agent ∧
      ∀ j (hj : j < rows.length), Takes rows[j] agent → j = i ∨
        Precedes (normalForm rows[i].1) (normalForm rows[j].1) ∨
        normalForm rows[i].1 = normalForm rows[j].1 ∧ i < j

lemma matches_normalForm_iff {row : String × Capabilities} {agent : String} :
    Matches (normalForm row.1).toList (Text.foldCase agent.toList) ↔ Takes row agent := by
  rw [Pattern.toList_normalForm]
  exact Pattern.matches_collapse_iff

lemma wins_of_map_eq {d : CatalogDraft} (hd : d.Sound) {rows : List (String × Capabilities)}
    (hmap : d.added.toList.map Rule.entry = rows.map fun row => (normalForm row.1, row.2))
    (agent : String) :
    Wins rows agent (d.toCatalog.lookup agent) := by
  have hlen : d.added.toList.length = rows.length := by
    simpa using congrArg List.length hmap
  -- at each position the rule added is that of the row
  have hget : ∀ (i : Nat) (hi : i < d.added.toList.length) (hi' : i < rows.length),
      d.added.toList[i].pattern = normalForm rows[i].1 ∧
        d.added.toList[i].capabilities = rows[i].2 := by
    intro i hi hi'
    have h := congrArg (·[i]?) hmap
    rw [List.getElem?_map, List.getElem?_map, List.getElem?_eq_getElem hi,
      List.getElem?_eq_getElem hi', Option.map_some, Option.map_some, Option.some.injEq] at h
    exact ⟨congrArg Prod.fst h, congrArg Prod.snd h⟩
  rcases hd.lookup_toCatalog_of_sound agent with ⟨hlookup, hnone⟩ | ⟨i, hi, hlookup, hm, hfirst⟩
  · refine .inl ⟨hlookup, fun row hrow htakes => ?_⟩
    obtain ⟨i, hi, rfl⟩ := List.mem_iff_getElem.1 hrow
    have hi' : i < d.added.toList.length := hlen ▸ hi
    refine hnone _ (List.getElem_mem hi') ?_
    rw [(hget i hi' hi).1]
    exact matches_normalForm_iff.2 htakes
  · have hi' : i < rows.length := hlen ▸ hi
    obtain ⟨hpattern, hcapabilities⟩ := hget i hi hi'
    rw [hpattern] at hm hfirst
    refine .inr ⟨i, hi', hlookup ▸ hpattern, hlookup ▸ hcapabilities,
      matches_normalForm_iff.1 hm, fun j hj htakes => ?_⟩
    have hj' : j < d.added.toList.length := hlen ▸ hj
    have hbefore := hfirst j hj'
    rw [(hget j hj' hj).1] at hbefore
    exact hbefore (matches_normalForm_iff.2 htakes)

/-! ### Loading -/

/-- What comes of the records of a source, which may be ended by an error. -/
theorem ofRecords_eq {config : LoadConfig} (hlayout : config.layout.problem? = none)
    {records : List (List String)} (error : Option Csv.Error)
    (hroom : (literalPool (rows config.layout records)).card ≤ LiteralRegistry.capacity) :
    (∀ source : Csv.Source, source.records config.dialect = (records, error) →
      load config (.ok source) = ofRecords config.layout records error) ∧
    ((∃ row ∈ rows config.layout records, row.1 = "") →
      ofRecords config.layout records error = .error (.compile (.unparsable "" none))) ∧
    ((∀ row ∈ rows config.layout records, row.1 ≠ "") →
      (∀ e, error = some e → ofRecords config.layout records error = .error (.ofCsv e)) ∧
      (error = none → ∃ catalog, ofRecords config.layout records error = .ok catalog ∧
        catalog.size = 1 + (properRows (rows config.layout records)).length ∧
        ∀ agent, Wins (properRows (rows config.layout records)) agent (catalog.lookup agent))) := by
  have hrecords := @addRecords_eq config.layout _ hroom hlayout (.ofLayout config.layout) rfl .empty
    (LiteralRegistry.within_empty _) records fun row hrow t ht => mem_literalPool hrow ht
  refine ⟨fun source hsource => ?_, fun hempty => ?_, fun hne => ?_⟩
  · -- the layout passes its check, so the records are read
    simp only [load, LoadConfig.check, hlayout, hsource]
    rfl
  · rw [ofRecords, hrecords, if_pos hempty]
  · have hno : ¬∃ row ∈ rows config.layout records, row.1 = "" := fun ⟨row, hrow, heq⟩ =>
      hne row hrow heq
    have hadded := entries_callOf hne hroom
    rw [if_neg hno] at hrecords
    set draft := CatalogDraft.empty.after ((rows config.layout records).map callOf)
    refine ⟨fun e he => ?_, fun hnone => ⟨draft.toCatalog, ?_, ?_, fun agent => ?_⟩⟩
    · rw [ofRecords, hrecords, he]
    · rw [ofRecords, hrecords, hnone]
    · have hlen := congrArg List.length hadded
      rw [List.length_map, List.length_map] at hlen
      rw [← hlen, Catalog.size, Catalog.size_rules_toCatalog, CatalogDraft.ranked,
        List.length_append, List.length_mergeSort, Nat.add_comm]
      rfl
    · exact wins_of_map_eq (CatalogDraft.sound_after_empty _) hadded agent

/-- A layout with a column for the pattern and nothing else. -/
def patternOnly : Layout :=
  ⟨.basic, 1, fun a => if a = .pattern then some 0 else none⟩

theorem ofRecords_of_patterns : ∃ catalog,
    ofRecords patternOnly [["Opera*"], [], ["**"], ["*é?"]] none = .ok catalog ∧
      catalog.size = 3 ∧ ∀ agent,
        Wins (properRows (rows patternOnly [["Opera*"], [], ["**"], ["*é?"]])) agent
          (catalog.lookup agent) := by
  have hlayout : (LoadConfig.ofLayout patternOnly).layout.problem? = none := by decide
  have hroom : (literalPool (rows patternOnly [["Opera*"], [], ["**"], ["*é?"]])).card
      ≤ LiteralRegistry.capacity := by decide +kernel
  have hne : ∀ row ∈ rows patternOnly [["Opera*"], [], ["**"], ["*é?"]], row.1 ≠ "" := by
    decide +kernel
  have hsize : (properRows (rows patternOnly [["Opera*"], [], ["**"], ["*é?"]])).length = 2 := by
    decide +kernel
  obtain ⟨catalog, hok, hcatalog, hwins⟩ := ((ofRecords_eq hlayout none hroom).2.2 hne).2 rfl
  exact ⟨catalog, hok, hcatalog.trans (congrArg (1 + ·) hsize), hwins⟩

end Loader

end AgentCatalog
