import AgentCatalog.Proofs.Rule.Interning

/-!
# What compiling a pattern gives

The handles of a compiled rule stand for the texts of its pattern, and the texts spell the pattern.
`Compiled` says so, and it stays true when more is compiled. The main results are

* `outcome_compile`: the ways in which compiling a pattern may end;
* `compiled_of_compile_eq_ok`: a pattern that is accepted has become a compiled rule;
* `exists_compile_eq_ok`: a pattern is accepted if it is collapsed, not empty, and there is room for
  its literals;
* `counts_of_compile_eq_error`: a pattern that is refused is not counted;
* `accepts_encode_iff`: a compiled rule matches the bytes of the texts that are in the language of
  its pattern.
-/

namespace AgentCatalog

open Utf8 (encode)
open Pattern (Matches Segment split)

/-- The texts of a pattern, from left to right. -/
def Pattern.literals (p : List Char) : List (List Char) :=
  (split p).filterMap Segment.text?

/-! ### Compiled rules -/

namespace Rule

/-- The rule of a pattern whose texts have been interned. -/
def ofShape (pattern : String) (capabilities : Capabilities) (texts : Shape (List Char))
    (shape : Shape Handle) : Rule where
  shape
  pattern
  capabilities
  specificity := .ofPattern pattern.toList
  minLength := (texts.literals.flatMap encode).length

/-- The handles of the rule stand for texts that spell its pattern, and what else it has is that of
its pattern. -/
structure CompiledAs (rule : Rule) (r : LiteralRegistry) (texts : Shape (List Char)) : Prop where
  ofSegments?_eq : Shape.ofSegments? (split rule.pattern.toList) = some texts
  render_eq : texts.render = rule.pattern.toList
  resolve?_eq : rule.shape.resolve? r.chars? = some texts
  specificity_eq : rule.specificity = .ofPattern rule.pattern.toList
  minLength_eq : rule.minLength = (texts.literals.flatMap encode).length

/-- The rule is compiled, with its literals in the registry. -/
def Compiled (rule : Rule) (r : LiteralRegistry) : Prop :=
  ∃ texts, rule.CompiledAs r texts

lemma compiled_catchAll (r : LiteralRegistry) : catchAll.Compiled r :=
  ⟨.catchAll, rfl, rfl, rfl, rfl, rfl⟩

variable {rule : Rule} {r s : LiteralRegistry} {texts : Shape (List Char)}

lemma CompiledAs.plain (h : rule.CompiledAs r texts) : texts.Plain :=
  Shape.plain_ofSegments? h.ofSegments?_eq

lemma Compiled.mono (h : rule.Compiled r) (hrs : r.Extends s) : rule.Compiled s := by
  obtain ⟨texts, hseg, hrender, hresolve, hspec, hmin⟩ := h
  exact ⟨texts, hseg, hrender, Shape.resolve?_mono hrs.chars? hresolve, hspec, hmin⟩

/-- Only the lone `*` is compiled to a rule that catches all. -/
lemma Compiled.isCatchAll_iff (h : rule.Compiled r) :
    rule.isCatchAll = true ↔ rule.pattern = "*" := by
  obtain ⟨texts, h⟩ := h
  rw [isCatchAll, beq_iff_eq, Shape.eq_catchAll_iff_of_resolve? h.resolve?_eq]
  have hseg := h.ofSegments?_eq
  rw [← String.toList_inj]
  refine Iff.trans ?_ Shape.ofSegments?_split_eq_catchAll_iff
  rw [hseg, Option.some.injEq]

lemma CompiledAs.literalShape?_eq (h : rule.CompiledAs r texts) :
    rule.literalShape? r.toTable = some texts.toLiterals := by
  have hget : r.toTable.get? = fun handle =>
      (r.chars? handle).map fun t => Literal.ofText (String.ofList t) :=
    funext fun _ => LiteralRegistry.get?_toTable_of_chars?
  rw [literalShape?, hget, Shape.resolve?_map, h.resolve?_eq]
  rfl

/-- A compiled rule matches the texts in the language of its pattern. In particular no such text is
too short for it. -/
theorem Compiled.accepts_encode_iff (h : rule.Compiled r) (subject : List Char) :
    rule.accepts r.toTable (encode subject) = true ↔ Matches rule.pattern.toList subject := by
  obtain ⟨texts, h⟩ := h
  rw [accepts, h.literalShape?_eq, Option.any_some, Shape.accepts_encode h.plain,
    Bool.and_eq_true, decide_eq_true_eq, Shape.acceptsText_iff h.plain, h.render_eq, h.minLength_eq]
  constructor
  · exact fun hm => hm.2
  · intro hm
    refine ⟨Shape.length_flatMap_encode_le h.plain ?_, hm⟩
    rwa [h.render_eq]

end Rule

/-! ### Compiling a pattern -/

namespace Compiler

lemma compile_of_ofSegments?_eq_none {pattern : String}
    (h : Shape.ofSegments? (split pattern.toList) = none) (c : Compiler)
    (capabilities : Capabilities) :
    c.compile pattern capabilities = (.error (.unparsable pattern none), c) := by
  rw [compile, compileStep, h, String.ofList_toList]
  rfl

lemma compile_of_ofSegments?_eq_catchAll {pattern : String}
    (h : Shape.ofSegments? (split pattern.toList) = some .catchAll) (c : Compiler)
    (capabilities : Capabilities) :
    c.compile pattern capabilities =
      (.ok .catchAll, { c with counts := c.counts.count (.catchAll : Shape Handle) }) := by
  rw [compile, compileStep, h]
  rfl

/-- Any other pattern has its literals interned before it is refused or accepted. -/
lemma compile_of_ofSegments?_eq_some {pattern : String} {texts : Shape (List Char)}
    (h : Shape.ofSegments? (split pattern.toList) = some texts) (hne : texts ≠ .catchAll)
    (c : Compiler) (capabilities : Capabilities) :
    c.compile pattern capabilities =
      match (internShape texts).run c with
      | (.error e, c') => (.error e, c')
      | (.ok shape, c') =>
        if texts.render = pattern.toList then
          (.ok (.ofShape pattern capabilities texts shape),
            { c' with counts := c'.counts.count shape })
        else (.error (.unparsable pattern (some (String.ofList texts.render))), c') := by
  have hstep : compileStep pattern.toList capabilities = do
      let shape ← internShape texts
      if texts.render ≠ pattern.toList then
        throw (.unparsable pattern (some (String.ofList texts.render)))
      modify fun c => { c with counts := c.counts.count shape }
      return .ofShape pattern capabilities texts shape := by
    rw [compileStep, h, String.ofList_toList]
    cases texts with
    | catchAll => exact absurd rfl hne
    | exact t => rfl
    | structured first inner last => rfl
  rw [compile, hstep]
  rcases hrun : (internShape texts).run c with ⟨e | shape, c'⟩
  · rw [run_bind_error hrun]
  · rw [run_bind_ok hrun]
    by_cases hrender : texts.render = pattern.toList
    · rw [if_neg (not_not_intro hrender)]
      simp only [hrender, if_true]
      rfl
    · rw [if_pos hrender]
      simp only [hrender, if_false]
      rfl

/-- What becomes of a pattern, and of the compiler. A pattern that has segments, and is not a lone
`*`, has its literals interned. Then it is refused if they find no room, or if its shape spells another
pattern. -/
inductive Outcome (c : Compiler) (pattern : String) (capabilities : Capabilities) :
    Except CompileError Rule × Compiler → Prop where
  | empty (hseg : Shape.ofSegments? (split pattern.toList) = none) :
    Outcome c pattern capabilities (.error (.unparsable pattern none), c)
  | catchAll (hseg : Shape.ofSegments? (split pattern.toList) = some .catchAll) :
    Outcome c pattern capabilities
      (.ok .catchAll, { c with counts := c.counts.count (.catchAll : Shape Handle) })
  | full {texts : Shape (List Char)} {e : CompileError} {c' : Compiler}
      (hseg : Shape.ofSegments? (split pattern.toList) = some texts)
      (hrun : (internShape texts).run c = (.error e, c')) :
    Outcome c pattern capabilities (.error e, c')
  | refused {texts : Shape (List Char)} {shape : Shape Handle} {c' : Compiler}
      (hseg : Shape.ofSegments? (split pattern.toList) = some texts)
      (hrun : (internShape texts).run c = (.ok shape, c')) (hrender : texts.render ≠ pattern.toList) :
    Outcome c pattern capabilities
      (.error (.unparsable pattern (some (String.ofList texts.render))), c')
  | compiled {texts : Shape (List Char)} {shape : Shape Handle} {c' : Compiler}
      (hseg : Shape.ofSegments? (split pattern.toList) = some texts) (hne : texts ≠ .catchAll)
      (hrun : (internShape texts).run c = (.ok shape, c')) (hrender : texts.render = pattern.toList) :
    Outcome c pattern capabilities
      (.ok (.ofShape pattern capabilities texts shape), { c' with counts := c'.counts.count shape })

theorem outcome_compile (c : Compiler) (pattern : String) (capabilities : Capabilities) :
    Outcome c pattern capabilities (c.compile pattern capabilities) := by
  rcases hseg : Shape.ofSegments? (split pattern.toList) with _ | texts
  · rw [compile_of_ofSegments?_eq_none hseg]
    exact .empty hseg
  · by_cases hne : texts = .catchAll
    · subst hne
      rw [compile_of_ofSegments?_eq_catchAll hseg]
      exact .catchAll hseg
    · rw [compile_of_ofSegments?_eq_some hseg hne]
      rcases hrun : (internShape texts).run c with ⟨e | shape, c'⟩
      · exact .full hseg hrun
      · by_cases hrender : texts.render = pattern.toList
        · simp only [hrender, if_true]
          exact .compiled hseg hne hrun hrender
        · simp only [hrender, if_false]
          exact .refused hseg hrun hrender

lemma Outcome.of_eq {c : Compiler} {pattern : String} {capabilities : Capabilities}
    {result : Except CompileError Rule × Compiler}
    (h : c.compile pattern capabilities = result) : Outcome c pattern capabilities result :=
  h ▸ outcome_compile c pattern capabilities

/-- A pattern changes the registry by its literals, if at all, and whether it is refused or not. -/
lemma registry_compile (c : Compiler) (pattern : String) (capabilities : Capabilities) :
    (c.compile pattern capabilities).2.registry = c.registry ∨
      ∃ texts, Shape.ofSegments? (split pattern.toList) = some texts ∧
        (c.compile pattern capabilities).2.registry = ((internShape texts).run c).2.registry := by
  generalize hcompile : c.compile pattern capabilities = result
  cases Outcome.of_eq hcompile with
  | empty | catchAll => exact .inl rfl
  | full hseg hrun | refused hseg hrun | compiled hseg _ hrun =>
    exact .inr ⟨_, hseg, by rw [hrun]⟩

theorem extends_compile (c : Compiler) (pattern : String) (capabilities : Capabilities) :
    c.registry.Extends (c.compile pattern capabilities).2.registry := by
  rcases registry_compile c pattern capabilities with h | ⟨texts, -, h⟩
  · rw [h]
    exact .refl c.registry
  · rw [h]
    exact (interns_internShape fun _ => List.mem_toFinset.2).grows c

/-- Compiling a pattern puts no more literals into the registry than it can hold. -/
lemma size_compile_le {c : Compiler} (hc : c.registry.size ≤ LiteralRegistry.capacity)
    (pattern : String) (capabilities : Capabilities) :
    (c.compile pattern capabilities).2.registry.size ≤ LiteralRegistry.capacity := by
  rcases registry_compile c pattern capabilities with h | ⟨texts, -, h⟩
  · rwa [h]
  · rw [h]
    exact size_internShape_le texts hc

theorem within_compile {c : Compiler} {pool : Finset (List Char)} (hc : c.registry.Within pool)
    {pattern : String} (hpool : ∀ t ∈ Pattern.literals pattern.toList, t ∈ pool)
    (capabilities : Capabilities) :
    (c.compile pattern capabilities).2.registry.Within pool := by
  rcases registry_compile c pattern capabilities with h | ⟨texts, hseg, h⟩
  · rwa [h]
  · rw [h]
    refine (interns_internShape fun t ht => hpool t ?_).within c hc
    rwa [Pattern.literals, ← Shape.literals_ofSegments? hseg]

/-- A pattern that is accepted has become a compiled rule. -/
theorem compiled_of_compile_eq_ok {c c' : Compiler} {pattern : String}
    {capabilities : Capabilities} {rule : Rule}
    (h : c.compile pattern capabilities = (.ok rule, c')) :
    rule.Compiled c'.registry ∧ rule.pattern = pattern ∧
      rule.capabilities = if pattern = "*" then .fallback else capabilities := by
  cases Outcome.of_eq h with
  | catchAll hseg =>
    have hpattern : pattern = "*" :=
      String.toList_inj.1 (Shape.ofSegments?_split_eq_catchAll_iff.1 hseg)
    exact ⟨Rule.compiled_catchAll _, hpattern.symm, by rw [if_pos hpattern]; rfl⟩
  | @compiled texts shape c'' hseg hne hrun hrender =>
    -- any pool will do, as only what the handles stand for is asked
    have hstands := (interns_internShape fun _ => List.mem_toFinset.2).stands c shape
      (congrArg Prod.fst hrun)
    rw [hrun] at hstands
    have hpattern : pattern ≠ "*" := by
      rintro rfl
      exact hne (Option.some.inj hseg).symm
    exact ⟨⟨texts, hseg, hrender, hstands, rfl, rfl⟩, rfl, (if_neg hpattern).symm⟩

/-- A pattern that is refused leaves a count of its literals, but none of its own. -/
theorem counts_of_compile_eq_error {c c' : Compiler} {pattern : String}
    {capabilities : Capabilities} {e : CompileError}
    (h : c.compile pattern capabilities = (.error e, c')) :
    c'.counts = { c.counts with literalUses := c'.counts.literalUses } := by
  cases Outcome.of_eq h with
  | empty => rfl
  | @full texts _ _ _ hrun =>
    have hcounts := counts_internShape texts c
    rwa [hrun] at hcounts
  | @refused texts _ _ _ hrun =>
    have hcounts := counts_internShape texts c
    rwa [hrun] at hcounts

/-- A pattern is accepted if it is collapsed and not empty, and there is room for its literals. -/
theorem exists_compile_eq_ok {c : Compiler} {pool : Finset (List Char)}
    (hc : c.registry.Within pool) (hcard : pool.card ≤ LiteralRegistry.capacity) {pattern : String}
    (hpool : ∀ t ∈ Pattern.literals pattern.toList, t ∈ pool)
    (hcollapsed : Pattern.Collapsed pattern.toList) (hne : pattern ≠ "")
    (capabilities : Capabilities) : ∃ rule c', c.compile pattern capabilities = (.ok rule, c') := by
  generalize hcompile : c.compile pattern capabilities = result
  cases Outcome.of_eq hcompile with
  | empty hseg =>
    rw [Shape.ofSegments?_eq_none_iff, Pattern.split_eq_nil_iff, String.toList_eq_nil_iff] at hseg
    exact absurd hseg hne
  | full hseg hrun =>
    rw [Pattern.literals, ← Shape.literals_ofSegments? hseg] at hpool
    obtain ⟨shape, hshape⟩ := (interns_internShape hpool).returns c hc hcard
    rw [hrun] at hshape
    cases hshape
  | refused hseg _ hrender =>
    -- a collapsed pattern is spelled again from its shape
    rw [Shape.render_ofSegments? (Pattern.alternating_split hcollapsed) hseg,
      Pattern.join_split] at hrender
    exact absurd rfl hrender
  | catchAll | compiled => exact ⟨_, _, rfl⟩

lemma compile_empty (c : Compiler) (capabilities : Capabilities) :
    c.compile "" capabilities = (.error (.unparsable "" none), c) :=
  compile_of_ofSegments?_eq_none rfl c capabilities

/-! ### Runs -/

/-- A pattern to be compiled: its normal form or as it stands. -/
inductive Call where
  | normal (raw : String) (capabilities : Capabilities)
  | verbatim (pattern : String) (capabilities : Capabilities)

namespace Call

/-- The pattern that is compiled. -/
def pattern : Call → String
  | .normal raw _ => String.ofList (Pattern.normalize raw.toList)
  | .verbatim pattern _ => pattern

/-- The capabilities that come with the pattern. -/
def capabilities : Call → Capabilities
  | .normal _ capabilities => capabilities
  | .verbatim _ capabilities => capabilities

end Call

/-- Compile the pattern of a call. -/
def call (c : Compiler) : Call → Except CompileError Rule × Compiler
  | .normal raw capabilities => c.compileNormal raw capabilities
  | .verbatim pattern capabilities => c.compile pattern capabilities

/-- The compiler after some calls, whether they succeed or not. -/
def after (c : Compiler) (calls : List Call) : Compiler :=
  calls.foldl (fun c call => (c.call call).2) c

lemma call_eq (c : Compiler) (call : Call) :
    c.call call = c.compile call.pattern call.capabilities := by
  cases call <;> rfl

lemma extends_after (c : Compiler) (calls : List Call) :
    c.registry.Extends (c.after calls).registry := by
  induction calls generalizing c with
  | nil => exact .refl c.registry
  | cons call calls ih =>
    have hcall := extends_compile c call.pattern call.capabilities
    rw [← call_eq] at hcall
    exact hcall.trans (ih (c.call call).2)

lemma size_after_le {c : Compiler} (hc : c.registry.size ≤ LiteralRegistry.capacity)
    (calls : List Call) : (c.after calls).registry.size ≤ LiteralRegistry.capacity := by
  induction calls generalizing c with
  | nil => exact hc
  | cons call calls ih =>
    have hcall := size_compile_le hc call.pattern call.capabilities
    rw [← call_eq] at hcall
    exact ih hcall

end Compiler

/-- A pattern that is accepted is matched by the texts in its language, also with the literals of
what is compiled later. -/
theorem Rule.accepts_after_iff {c c' : Compiler} {pattern : String} {capabilities : Capabilities}
    {rule : Rule} (h : c.compile pattern capabilities = (.ok rule, c'))
    (later : List Compiler.Call) (subject : List Char) :
    rule.accepts (c'.after later).registry.toTable (encode subject) = true ↔
      Matches pattern.toList subject := by
  obtain ⟨hcompiled, rfl, -⟩ := Compiler.compiled_of_compile_eq_ok h
  exact (hcompiled.mono (Compiler.extends_after c' later)).accepts_encode_iff subject

theorem Rule.accepts_after_of_two_bytes : ∃ rule c',
    Compiler.empty.compile "ab*?a" .unknown = (.ok rule, c') ∧
      rule.accepts (c'.after [.normal "*B?**" .unknown]).registry.toTable
        (encode ['a', 'b', 'é', 'a']) = true := by
  have hok : (Compiler.empty.compile "ab*?a" .unknown).1.isOk = true := by rfl
  rcases h : Compiler.empty.compile "ab*?a" .unknown with ⟨e | rule, c'⟩
  · rw [h] at hok
    cases hok
  · refine ⟨rule, c', rfl, (Rule.accepts_after_iff h _ _).2 ?_⟩
    have hend : Matches ['*', '?', 'a'] ['é', 'a'] :=
      .run [] (.any 'é' (.same (by decide) (by decide) .nil))
    exact .same (by decide) (by decide) (.same (by decide) (by decide) hend)

end AgentCatalog
