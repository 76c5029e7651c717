import AgentCatalog.Proofs.Literal.Ranks
import AgentCatalog.Proofs.Rule.Interning

/-!
# Runs of calls for handles

A compiler is asked for the handles of texts, and some of these calls may fail. Along the whole run
texts and handles determine each other, and the table of the registry has the texts under the
handles that were returned, whatever was put into it later:

* `run_internText`: what one call returns, and what it does to the registry;
* `ranked_internEach`: a run of calls returns the ranks of the texts;
* `numbering_internEach`: what follows for a new compiler.
-/

namespace AgentCatalog.Compiler

/-- A call for the handle of a text. -/
def internText (c : Compiler) (text : String) : Except CompileError Handle × Compiler :=
  (intern text.toList).run c

/-- What calls for the handles of texts return, one after the other, and the compiler behind them. A
call that fails does not keep those behind it from being made. -/
def internEach (c : Compiler) : List String → List (Except CompileError Handle) × Compiler
  | [] => ([], c)
  | text :: texts =>
    let (result, c) := c.internText text
    let (results, c) := c.internEach texts
    (result :: results, c)

/-- The rank of a text as its handle, if there is such a handle. -/
def handleOfRank (texts : List String) (text : String) : Except CompileError Handle :=
  if rank texts text < LiteralRegistry.capacity then .ok (rank texts text)
  else .error .tooManyLiterals

variable {c : Compiler} {texts before : List String} {text : String} {handle : Handle}

lemma handleOfRank_eq_ok_iff : handleOfRank texts text = .ok handle ↔
    rank texts text = handle ∧ handle < LiteralRegistry.capacity := by
  rw [handleOfRank]
  split
  · next h =>
    rw [Except.ok.injEq]
    exact ⟨fun heq => ⟨heq, heq ▸ h⟩, fun heq => heq.1⟩
  · next h =>
    simp only [reduceCtorEq, false_iff, not_and]
    rintro rfl
    exact h

/-! ### One call -/

/-- A call fails if there is no room for its text, and then it leaves the registry as it is. -/
lemma internText_eq_error {e : CompileError} (h : (c.internText text).1 = .error e) :
    c.registry.intern? text = none ∧ e = .tooManyLiterals ∧
      (c.internText text).2.registry = c.registry := by
  rw [internText, run_intern, String.ofList_toList] at h ⊢
  cases hi : c.registry.intern? text with
  | none =>
    rw [hi] at h
    exact ⟨rfl, (Except.error.inj h).symm, rfl⟩
  | some found =>
    rw [hi] at h
    cases h

/-- A call fails if its text is new and there is no room for it, and only then. -/
lemma exists_internText_eq_error_iff (h : c.registry.Ranked texts) (text : String) :
    (∃ e, (c.internText text).1 = .error e) ↔
      c.registry.interner.handle? text = none ∧ c.registry.size = LiteralRegistry.capacity := by
  rw [← h.intern?_eq_none_iff_full]
  refine ⟨fun ⟨e, he⟩ => (internText_eq_error he).1, fun hnone => ⟨.tooManyLiterals, ?_⟩⟩
  rw [internText, run_intern, String.ofList_toList, hnone]

/-- A call returns the rank of its text. -/
lemma run_internText (h : c.registry.Ranked texts) (text : String) :
    (c.internText text).1 = handleOfRank (texts ++ [text]) text ∧
      (c.internText text).2.registry.Ranked (texts ++ [text]) := by
  have hnext := h.put text
  by_cases hroom : rank (texts ++ [text]) text < LiteralRegistry.capacity
  · have hsome := h.intern?_eq_some hroom
    rw [internText, run_intern, String.ofList_toList, hsome, handleOfRank, if_pos hroom]
    exact ⟨rfl, hnext⟩
  · have hnone := h.intern?_eq_none (Nat.le_of_not_lt hroom)
    rw [LiteralRegistry.put, hnone] at hnext
    rw [internText, run_intern, String.ofList_toList, hnone, handleOfRank, if_neg hroom]
    exact ⟨rfl, hnext⟩

/-! ### A run of calls -/

/-- Calls return the ranks of their texts among all texts so far. -/
theorem ranked_internEach (h : c.registry.Ranked before) (texts : List String) :
    (c.internEach texts).1 = texts.map (handleOfRank (before ++ texts)) ∧
      (c.internEach texts).2.registry.Ranked (before ++ texts) := by
  induction texts generalizing c before with
  | nil =>
    rw [List.append_nil]
    exact ⟨rfl, h⟩
  | cons text texts ih =>
    obtain ⟨hresult, hregistry⟩ := run_internText h text
    obtain ⟨hresults, hranked⟩ := ih hregistry
    have hrank : handleOfRank (before ++ [text] ++ texts) text =
        handleOfRank (before ++ [text]) text := by
      rw [handleOfRank, handleOfRank, rank_append (List.mem_append_right _ List.mem_cons_self)]
    rw [← List.append_cons] at hresults hranked hrank
    rw [internEach, List.map_cons, hrank, ← hresult]
    exact ⟨congrArg _ hresults, hranked⟩

/-- The text of a call that has returned a handle. -/
lemma exists_of_handleOfRank {i : Nat}
    (h : (texts.map (handleOfRank texts))[i]? = some (.ok handle)) :
    ∃ text, texts[i]? = some text ∧ text ∈ texts ∧ rank texts text = handle ∧
      handle < LiteralRegistry.capacity := by
  rw [List.getElem?_map, Option.map_eq_some_iff] at h
  obtain ⟨text, htext, hhandle⟩ := h
  exact ⟨text, htext, List.mem_of_getElem? htext, handleOfRank_eq_ok_iff.1 hhandle⟩

/-- More calls leave the texts under their handles. -/
lemma text?_internEach (h : c.registry.Ranked texts) (ht : text ∈ texts)
    (hlt : rank texts text < LiteralRegistry.capacity) (later : List String) :
    (c.internEach later).2.registry.text? (rank texts text) = some text := by
  have hlater := (ranked_internEach h later).2
  have hrank := rank_append ht later
  rw [← hrank]
  exact hlater.text?_rank (List.mem_append_left later ht) (hrank ▸ hlt)

/-- The texts have been put into a new registry, one after the other, with these results. -/
structure Numbering (texts : List String) (results : List (Except CompileError Handle))
    (c : Compiler) : Prop where
  /-- The handles count the different texts in the order in which they come first, up to the last
  handle that there is. -/
  results_eq : results = texts.map (handleOfRank texts)
  /-- Two calls return the same handle for the same text, and only then. -/
  handle_eq_iff : ∀ (i j : Nat) (handle handle' : Handle), results[i]? = some (.ok handle) →
    results[j]? = some (.ok handle') → (handle = handle' ↔ texts[i]? = texts[j]?)
  /-- Whatever is put into the registry later, a handle has its text in it and in its table. -/
  keeps : ∀ (later : List String) (i : Nat) (handle : Handle), results[i]? = some (.ok handle) →
    (c.internEach later).2.registry.text? handle = texts[i]? ∧
    ((c.internEach later).2.registry.toTable.get? handle).map (·.text) = texts[i]?
  /-- The table has as many literals as there are different texts, up to its capacity. -/
  size_eq : c.registry.toTable.size = min texts.toFinset.card LiteralRegistry.capacity
  /-- If no call has failed it has all of them. -/
  size_eq_card : (∀ result ∈ results, ∃ handle, result = .ok handle) →
    c.registry.toTable.size = texts.toFinset.card
  /-- The next call fails if its text is not in the registry and the registry is full, and only
  then. -/
  fails_iff : ∀ text : String, (∃ e, (c.internText text).1 = .error e) ↔
    c.registry.interner.handle? text = none ∧ c.registry.size = LiteralRegistry.capacity
  /-- A call that fails says that there is no room, and leaves the registry as it is. -/
  unchanged : ∀ (text : String) (e : CompileError), (c.internText text).1 = .error e →
    e = .tooManyLiterals ∧ (c.internText text).2.registry = c.registry

/-- Calls to a new compiler number the texts. -/
theorem numbering_internEach (texts : List String) :
    Numbering texts (empty.internEach texts).1 (empty.internEach texts).2 := by
  obtain ⟨hresults, hranked⟩ := ranked_internEach (c := empty) LiteralRegistry.ranked_empty texts
  rw [List.nil_append] at hresults hranked
  rw [hresults]
  generalize (empty.internEach texts).2 = c at hranked
  refine ⟨rfl, fun i j handle handle' hi hj => ?_, fun later i handle hi => ?_,
    (Array.size_map ..).trans hranked.size_eq, fun hok => (Array.size_map ..).trans ?_,
    exists_internText_eq_error_iff hranked, fun text e he => (internText_eq_error he).2⟩
  · obtain ⟨t, ht, hmem, rfl, hlt⟩ := exists_of_handleOfRank hi
    obtain ⟨t', ht', hmem', rfl, -⟩ := exists_of_handleOfRank hj
    rw [ht, ht', Option.some.injEq]
    exact ⟨hranked.eq_of_rank_eq hmem hmem' hlt, fun heq => heq ▸ rfl⟩
  · obtain ⟨t, ht, hmem, rfl, hlt⟩ := exists_of_handleOfRank hi
    have hkept := text?_internEach hranked hmem hlt later
    rw [ht, LiteralRegistry.get?_toTable, hkept]
    exact ⟨rfl, rfl⟩
  · refine hranked.size_eq_card fun t ht => ?_
    obtain ⟨handle, hhandle⟩ := hok (handleOfRank texts t) (List.mem_map_of_mem ht)
    obtain ⟨rfl, hlt⟩ := handleOfRank_eq_ok_iff.1 hhandle
    exact hlt

/-- A text that comes again, between two others. -/
example : (empty.internEach ["b", "", "b", "é", ""]).1 = [.ok 0, .ok 1, .ok 0, .ok 2, .ok 1] := by
  decide +kernel

end AgentCatalog.Compiler
