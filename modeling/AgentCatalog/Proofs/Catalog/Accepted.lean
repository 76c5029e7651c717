import AgentCatalog.Proofs.Catalog.Enumeration
import AgentCatalog.Proofs.Rule.References

/-!
# The calls that succeed

A call that fails leaves literals behind, but no rule. The rules of a draft are thus those of the calls
that succeed, one for each, with its pattern and its capabilities. A call succeeds if its pattern is in
order and its literals have room, so calls that succeed do so again among themselves: in whatever order,
and without those that fail, they need no literals that there has not been room for.

* `call_eq_error`: a call that fails adds nothing and is not counted;
* `entries_after_empty`: the rules of a draft, by the calls that succeed;
* `accepted_eq_self_of_subset`: calls that succeed do so again.
-/

namespace AgentCatalog

open Pattern (Collapsed)

/-- What a rule is made of: its pattern and its capabilities. -/
def Rule.entry (rule : Rule) : String × Capabilities :=
  (rule.pattern, rule.capabilities)

/-- What the rule of a call is made of. The lone `*` has capabilities of its own. -/
def Compiler.Call.entry (call : Call) : String × Capabilities :=
  (call.pattern, if call.pattern = "*" then .fallback else call.capabilities)

namespace CatalogDraft

/-- The calls that succeed, in their order. -/
def accepted (d : CatalogDraft) : List Compiler.Call → List Compiler.Call
  | [] => []
  | call :: calls =>
    if (d.call call).1.isOk then call :: (d.call call).2.accepted calls
    else (d.call call).2.accepted calls

variable {d : CatalogDraft}

/-! ### One call -/

lemma isOk_call (d : CatalogDraft) (call : Compiler.Call) :
    (d.call call).1.isOk = (d.compiler.call call).1.isOk := by
  rw [call_eq]
  rcases d.compiler.call call with ⟨e | rule, c⟩ <;> rfl

/-- A call that fails adds nothing, and only the uses of its literals are counted. -/
lemma call_eq_error {d' : CatalogDraft} {call : Compiler.Call} {e : CompileError}
    (h : d.call call = (.error e, d')) :
    d'.added = d.added ∧ d'.counts = { d.counts with literalUses := d'.counts.literalUses } := by
  rw [call_eq] at h
  rcases hcall : d.compiler.call call with ⟨e' | rule, c⟩
  · rw [hcall] at h
    cases h
    rw [Compiler.call_eq] at hcall
    exact ⟨rfl, Compiler.counts_of_compile_eq_error hcall⟩
  · rw [hcall] at h
    cases h

/-! ### The rules of the calls -/

lemma accepted_sublist (d : CatalogDraft) (calls : List Compiler.Call) :
    (d.accepted calls).Sublist calls := by
  induction calls generalizing d with
  | nil => exact .slnil
  | cons call calls ih =>
    rw [accepted]
    split
    · exact (ih _).cons_cons call
    · exact (ih _).cons call

/-- Every call that succeeds has a rule with what the call is made of. -/
theorem map_entry_rulesOf (d : CatalogDraft) (calls : List Compiler.Call) :
    (d.compiler.rulesOf calls).map Rule.entry =
      (d.accepted calls).map Compiler.Call.entry := by
  induction calls generalizing d with
  | nil => rfl
  | cons call calls ih =>
    have hrest := ih (d.call call).2
    rw [(call_snd_eq d call).1] at hrest
    rw [Compiler.rulesOf, List.map_append, hrest, accepted, isOk_call]
    rcases hcall : d.compiler.call call with ⟨e | rule, c⟩
    · rfl
    · rw [Compiler.call_eq] at hcall
      obtain ⟨-, hpattern, hcapabilities⟩ := Compiler.compiled_of_compile_eq_ok hcall
      have hentry : rule.entry = call.entry := Prod.ext hpattern hcapabilities
      simp [Except.toOption, Except.isOk, Except.toBool, hentry]

/-- The rules of a draft are those of the calls that succeed, but for a lone `*`. -/
lemma entries_after_empty (calls : List Compiler.Call) :
    (empty.after calls).added.toList.map Rule.entry =
      ((empty.accepted calls).map Compiler.Call.entry).filter fun entry => entry.1 ≠ "*" := by
  have hfilter : (fun rule : Rule => decide (rule.pattern ≠ "*")) =
      (fun entry : String × Capabilities => decide (entry.1 ≠ "*")) ∘ Rule.entry := rfl
  rw [added_after_empty, Compiler.addedBy_eq_filter, hfilter, ← List.filter_map]
  exact congrArg _ (map_entry_rulesOf empty calls)

/-! ### Calls that succeed again -/

/-- The pattern of a call that succeeds is in order, and the registry has its literals in the end. -/
lemma grammar_of_mem_accepted {calls : List Compiler.Call} {call : Compiler.Call}
    (h : call ∈ d.accepted calls) :
    (call.pattern ≠ "" ∧ Collapsed call.pattern.toList) ∧
      ∀ t ∈ Pattern.literals call.pattern.toList, t ∈ (d.after calls).compiler.registry.pool := by
  have hentry := List.mem_map_of_mem (f := Compiler.Call.entry) h
  rw [← map_entry_rulesOf] at hentry
  obtain ⟨rule, hrule, heq⟩ := List.mem_map.1 hentry
  have hcompiled := Compiler.compiled_of_mem_rulesOf hrule
  have hpattern : rule.pattern = call.pattern := congrArg Prod.fst heq
  rw [← hpattern, (after_eq d calls).1]
  exact ⟨hcompiled.grammar, hcompiled.literals_subset_pool⟩

/-- Calls whose patterns are in order all succeed if there is room for their literals. -/
lemma accepted_eq_self {pool : Finset (List Char)} (hcard : pool.card ≤ LiteralRegistry.capacity)
    (hd : d.compiler.registry.Within pool) {calls : List Compiler.Call}
    (hcalls : ∀ call ∈ calls, (call.pattern ≠ "" ∧ Collapsed call.pattern.toList) ∧
      ∀ t ∈ Pattern.literals call.pattern.toList, t ∈ pool) :
    d.accepted calls = calls := by
  induction calls generalizing d with
  | nil => rfl
  | cons call calls ih =>
    obtain ⟨⟨⟨hne, hcollapsed⟩, hpool⟩, hrest⟩ := List.forall_mem_cons.1 hcalls
    obtain ⟨rule, c, hok⟩ :=
      Compiler.exists_compile_eq_ok hd hcard hpool hcollapsed hne call.capabilities
    have hwithin := Compiler.within_compile hd hpool call.capabilities
    rw [← Compiler.call_eq, ← (call_snd_eq d call).1] at hwithin
    have hisOk : (d.call call).1.isOk = true := by
      rw [isOk_call, Compiler.call_eq, hok]
      rfl
    rw [accepted, if_pos hisOk, ih hwithin hrest]

/-- Calls that succeed in one run succeed in every run in which there are no others. -/
theorem accepted_eq_self_of_subset {calls calls' : List Compiler.Call}
    (h : ∀ call ∈ calls', call ∈ empty.accepted calls) : empty.accepted calls' = calls' := by
  have hsize : (empty.after calls).compiler.registry.size ≤ LiteralRegistry.capacity := by
    rw [(after_eq empty calls).1]
    exact Compiler.size_after_le (Nat.zero_le _) calls
  exact accepted_eq_self ((LiteralRegistry.card_pool _).le.trans hsize)
    (LiteralRegistry.within_empty _) fun call hcall => grammar_of_mem_accepted (h call hcall)

end CatalogDraft

end AgentCatalog
