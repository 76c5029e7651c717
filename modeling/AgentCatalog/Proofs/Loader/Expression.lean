import AgentCatalog.Loader.RecordReader
import AgentCatalog.Proofs.Pattern.RawExpression

/-!
# The expressions that records show

A record shows the expression of its raw pattern, and its rule has the normal form of that pattern. So
what is shown is the expression of the rule as far as the two agree. The main result is
`expression_eq_iff`; `expression_of_capitals` has patterns of which they do not.
-/

namespace AgentCatalog

open Pattern (Collapsed expression normalize)

/-- Setting other attributes leaves the value of an attribute as it is. -/
lemma Capabilities.get_foldl_set {a : Attribute} {values : List (Attribute × String)}
    (h : ∀ v ∈ values, v.1 ≠ a) (c : Capabilities) :
    (values.foldl (fun c v => c.set v.1 v.2) c).get a = c.get a := by
  induction values generalizing c with
  | nil => rfl
  | cons v values ih =>
    obtain ⟨hv, hvalues⟩ := List.forall_mem_cons.1 h
    rw [List.foldl_cons, ih hvalues, get_set, if_neg (Ne.symm hv)]

namespace RecordReader

/-- The first value that a record gives is the expression of its pattern, and no other value takes
its place. -/
lemma pattern_of_read_eq_some {reader reader' : RecordReader} {record : List String} {raw : String}
    {capabilities : Capabilities}
    (h : reader.read record = (some (raw, capabilities), reader')) :
    capabilities.pattern = String.ofList (expression raw.toList) := by
  rw [read] at h
  split at h
  · cases h
  · split at h
    · cases h
    · next column hcolumn =>
      obtain ⟨⟨rfl, rfl⟩, -⟩ := h
      have hothers : ∀ v ∈ (reader.layout.readColumns.filter (·.1 ≠ .pattern)).map fun source =>
          (source.1, valueOf source.1 (record.getD source.2 "")), v.1 ≠ .pattern := by
        intro v hv
        obtain ⟨source, hsource, rfl⟩ := List.mem_map.1 hv
        simpa using (List.mem_filter.1 hsource).2
      have hget : ∀ c : Capabilities, c.pattern = c.get .pattern := fun _ => rfl
      rw [hget, sources, List.map_cons, List.foldl_cons]
      refine (Capabilities.get_foldl_set hothers _).trans ?_
      rw [Capabilities.get_set, if_pos rfl, valueOf]

/-- A record shows the expression of its pattern. In this and in the expression of the normal form the
backslashes are at the same places if the pattern has no `İ` and no Kelvin sign. The two expressions
are the same if besides no capital sigma of the pattern ends a word. -/
theorem expression_eq_iff {raw : String} (hraw : Collapsed raw.toList) :
    (∀ (reader reader' : RecordReader) (record : List String) (capabilities : Capabilities),
      reader.read record = (some (raw, capabilities), reader') →
        capabilities.pattern = String.ofList (expression raw.toList)) ∧
    ((expression raw.toList).map (· == '\\') = (expression (normalize raw.toList)).map (· == '\\') ↔
      'İ' ∉ raw.toList ∧ '\u212A' ∉ raw.toList) ∧
    (expression raw.toList = expression (normalize raw.toList) ↔
      'İ' ∉ raw.toList ∧ '\u212A' ∉ raw.toList ∧
        ∀ a b, raw.toList = a ++ 'Σ' :: b → Text.endsWord a b = false) := by
  refine ⟨fun _ _ _ _ => pattern_of_read_eq_some, ?_, ?_⟩
  · have h := Pattern.map_expression_eq_iff (f := (· == '\\')) (by decide) (by decide) hraw
    have hsigmas : ('σ' == '\\') = ('ς' == '\\') := by decide
    rwa [or_iff_left_of_imp fun _ => hsigmas, and_iff_left hsigmas] at h
  · have h := Pattern.map_expression_eq_iff (f := id) (by decide) (by decide) hraw
    rw [List.map_id, List.map_id, or_iff_right (by decide)] at h
    exact h

theorem expression_eq_of_inner_sigma :
    Collapsed "ΑΣΒ.k*".toList ∧
    (∃ capabilities reader', (ofLayout ⟨.basic, 1, fun a => if a = .pattern then some 0 else none⟩).read
      ["ΑΣΒ.k*"] = (some ("ΑΣΒ.k*", capabilities), reader') ∧
      capabilities.pattern = String.ofList "^\\α\\σ\\β\\.k.*?$".toList) ∧
    expression (normalize "ΑΣΒ.k*".toList) = "^\\α\\σ\\β\\.k.*?$".toList ∧
    ∀ a b, "ΑΣΒ.k*".toList = a ++ 'Σ' :: b → Text.endsWord a b = false := by
  have hraw : Collapsed "ΑΣΒ.k*".toList := by decide
  have hexpression : expression "ΑΣΒ.k*".toList = "^\\α\\σ\\β\\.k.*?$".toList := by decide +kernel
  have hnormal : expression (normalize "ΑΣΒ.k*".toList) = "^\\α\\σ\\β\\.k.*?$".toList := by
    decide +kernel
  obtain ⟨capabilities, reader', hread⟩ : ∃ capabilities reader',
      (ofLayout ⟨.basic, 1, fun a => if a = .pattern then some 0 else none⟩).read ["ΑΣΒ.k*"]
        = (some ("ΑΣΒ.k*", capabilities), reader') := ⟨_, _, rfl⟩
  obtain ⟨hshown, -, hiff⟩ := expression_eq_iff hraw
  refine ⟨hraw, ⟨capabilities, reader', hread, ?_⟩, hnormal,
    (hiff.1 (hexpression.trans hnormal.symm)).2.2⟩
  rw [hshown _ _ _ _ hread, hexpression]

/-- The Kelvin sign becomes a `k` behind a backslash, `İ` an `i` behind one, and the sigma of `ΑΣ` ends
the word only where there is no backslash before it. -/
theorem expression_of_capitals :
    (Collapsed ['\u212A'] ∧ expression ['\u212A'] = "^\\k$".toList ∧
      expression (normalize ['\u212A']) = "^k$".toList) ∧
    (Collapsed ['İ'] ∧ expression ['İ'] = "^\\i\u0307$".toList ∧
      expression (normalize ['İ']) = "^i\\\u0307$".toList) ∧
    Collapsed ['Α', 'Σ'] ∧ expression ['Α', 'Σ'] = "^\\α\\σ$".toList ∧
      expression (normalize ['Α', 'Σ']) = "^\\α\\ς$".toList := by
  decide +kernel

end RecordReader

end AgentCatalog
