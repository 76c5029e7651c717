import AgentCatalog.Proofs.Pattern.Decomposition
import AgentCatalog.Proofs.Pattern.Normal
import AgentCatalog.Proofs.Rule.Compilation

/-!
# The grammar of a compiler

A compiler accepts the patterns that are not empty and have no two `*` next to each other, and it
says so of the pattern when it refuses another one. Its only other reason to refuse is that a literal
finds no room, and then the registry is full. A normal form has no two `*` next to each other, so of
the raw patterns only the empty one is refused, and never because it was spelled differently.

The main result is `compile_decides_grammar`.
-/

namespace AgentCatalog

open Pattern (Collapsed normalForm split)

/-! ### Want of room -/

lemma LiteralRegistry.capacity_le_of_intern?_eq_none {r : LiteralRegistry} {text : String}
    (h : r.intern? text = none) : capacity ≤ r.size := by
  rw [intern?, ite_eq_right_iff] at h
  by_contra hroom
  exact absurd (h (by simp [Nat.lt_of_not_le hroom])) (by simp)

namespace Compiler

/-- The step fails only when the registry is full. -/
def FailsWhenFull {α : Type} (x : Step α) : Prop :=
  ∀ (c : Compiler) (e : CompileError), (x.run c).1 = .error e →
    e = .tooManyLiterals ∧ LiteralRegistry.capacity ≤ (x.run c).2.registry.size

lemma FailsWhenFull.pure {α : Type} (a : α) : FailsWhenFull (pure a) := by
  intro c e h
  cases h

lemma FailsWhenFull.bind {α β : Type} {x : Step α} {f : α → Step β} (hx : FailsWhenFull x)
    (hf : ∀ a, FailsWhenFull (f a)) : FailsWhenFull (x >>= f) := by
  intro c e h
  have hfails := hx c
  rcases hrun : x.run c with ⟨e' | a, c'⟩
  · rw [run_bind_error hrun] at h ⊢
    rw [hrun] at hfails
    obtain rfl := Except.error.inj h
    exact hfails e' rfl
  · rw [run_bind_ok hrun] at h ⊢
    exact hf a c' e h

lemma failsWhenFull_intern (text : List Char) : FailsWhenFull (intern text) := by
  intro c e h
  rw [run_intern] at h ⊢
  cases hi : c.registry.intern? (String.ofList text) with
  | some found => simp [hi] at h
  | none =>
    rw [hi] at h
    obtain rfl := Except.error.inj h
    exact ⟨rfl, LiteralRegistry.capacity_le_of_intern?_eq_none hi⟩

lemma OnlyInterns.failsWhenFull {α : Type} {x : Step α} (hx : OnlyInterns x) :
    FailsWhenFull x := by
  induction hx with
  | pure a => exact .pure a
  | intern_bind text _ ih => exact (failsWhenFull_intern text).bind ih

end Compiler

/-! ### The texts of a rule -/

namespace Rule

/-- The shape of the rule over the texts of its literals. -/
def texts? (rule : Rule) (table : LiteralTable) : Option (Shape (List Char)) :=
  rule.shape.resolve? fun handle => (table.get? handle).map (·.text.toList)

lemma spelledPattern?_eq (rule : Rule) (table : LiteralTable) :
    rule.spelledPattern? table = (rule.texts? table).map (String.ofList ·.render) := by
  rw [spelledPattern?, ← texts?]
  cases rule.texts? table <;> rfl

variable {rule : Rule} {r : LiteralRegistry} {texts : Shape (List Char)}

lemma CompiledAs.texts?_eq (h : rule.CompiledAs r texts) : rule.texts? r.toTable = some texts := by
  have hget : (fun handle => (r.toTable.get? handle).map (·.text.toList)) = r.chars? := by
    funext handle
    rw [LiteralRegistry.get?_toTable, LiteralRegistry.chars?, Option.map_map]
    rfl
  rw [texts?, hget, h.resolve?_eq]

lemma CompiledAs.spelledPattern?_eq (h : rule.CompiledAs r texts) :
    rule.spelledPattern? r.toTable = some rule.pattern := by
  rw [Rule.spelledPattern?_eq, h.texts?_eq, Option.map_some, h.render_eq, String.ofList_toList]

/-- The pattern of a compiled rule is collapsed and not empty. -/
lemma Compiled.grammar (h : rule.Compiled r) :
    rule.pattern ≠ "" ∧ Collapsed rule.pattern.toList := by
  obtain ⟨texts, h⟩ := h
  refine ⟨fun hempty => ?_, (Shape.render_eq_iff_collapsed h.ofSegments?_eq).1 h.render_eq⟩
  have hseg := h.ofSegments?_eq
  rw [hempty] at hseg
  cases hseg

/-- The literals of a compiled rule are cut from its pattern at the `*`. -/
lemma Compiled.cutsAtStars (h : rule.Compiled r) :
    ∃ texts, rule.texts? r.toTable = some texts ∧ texts.CutsAtStars rule.pattern.toList := by
  obtain ⟨texts, h⟩ := h
  exact ⟨texts, h.texts?_eq, Shape.cutsAtStars_of_render_eq h.ofSegments?_eq h.render_eq⟩

end Rule

/-! ### Accepting and refusing -/

namespace Compiler

variable {c c' : Compiler} {pattern : String} {capabilities : Capabilities} {e : CompileError}

/-- Why a pattern is refused: it is empty, or its shape spells another one, or there is no room. -/
lemma compile_error_cases (h : c.compile pattern capabilities = (.error e, c')) :
    (e = .unparsable pattern none ∧ pattern = "") ∨
      ((∃ spelled, e = .unparsable pattern (some spelled)) ∧ ¬Collapsed pattern.toList) ∨
      (e = .tooManyLiterals ∧ LiteralRegistry.capacity ≤ c'.registry.size) := by
  cases Outcome.of_eq h with
  | empty hseg =>
    rw [Shape.ofSegments?_eq_none_iff, Pattern.split_eq_nil_iff, String.toList_eq_nil_iff] at hseg
    exact .inl ⟨rfl, hseg⟩
  | @full texts _ _ _ hrun =>
    have hfull := (onlyInterns_internShape texts).failsWhenFull c
    rw [hrun] at hfull
    exact .inr (.inr (hfull e rfl))
  | refused hseg _ hrender =>
    refine .inr (.inl ⟨⟨_, rfl⟩, fun hcollapsed => ?_⟩)
    exact hrender ((Shape.render_eq_iff_collapsed hseg).2 hcollapsed)

lemma exists_compile_eq_ok_iff
    (room : (c.compile pattern capabilities).2.registry.size < LiteralRegistry.capacity) :
    (∃ rule c', c.compile pattern capabilities = (.ok rule, c')) ↔
      pattern ≠ "" ∧ Collapsed pattern.toList := by
  constructor
  · rintro ⟨rule, c', h⟩
    obtain ⟨hcompiled, rfl, -⟩ := compiled_of_compile_eq_ok h
    exact hcompiled.grammar
  · rintro ⟨hne, hcollapsed⟩
    rcases h : c.compile pattern capabilities with ⟨e | rule, c'⟩
    · rw [h] at room
      rcases compile_error_cases h with ⟨-, hempty⟩ | ⟨-, hnot⟩ | ⟨-, hfull⟩
      · exact absurd hempty hne
      · exact absurd hcollapsed hnot
      · exact absurd room (Nat.not_lt_of_le hfull)
    · exact ⟨rule, c', rfl⟩

lemma compileNormal_eq (c : Compiler) (raw : String) (capabilities : Capabilities) :
    c.compileNormal raw capabilities = c.compile (normalForm raw) capabilities := rfl

/-- A raw pattern is compiled unless it is empty, if there is room for its literals. -/
lemma exists_compileNormal_eq_ok_iff {raw : String}
    (room : (c.compileNormal raw capabilities).2.registry.size < LiteralRegistry.capacity) :
    (∃ rule c', c.compileNormal raw capabilities = (.ok rule, c')) ↔ raw ≠ "" := by
  rw [compileNormal_eq] at room ⊢
  rw [exists_compile_eq_ok_iff room, Ne, Pattern.normalForm_eq_empty_iff]
  exact and_iff_left (Pattern.collapsed_normalForm raw)

/-- With room for its literals a pattern is compiled if it is collapsed and not empty, and refused by
its name otherwise. The literals of the rule spell the pattern and are cut from it at the `*`. A raw
pattern is compiled unless it is empty, and no warning comes of it, whether there is room or not. -/
theorem compile_decides_grammar (c : Compiler) (capabilities : Capabilities) :
    (∀ pattern : String,
      (c.compile pattern capabilities).2.registry.size < LiteralRegistry.capacity →
      ((∃ rule c', c.compile pattern capabilities = (.ok rule, c')) ↔
        pattern ≠ "" ∧ Collapsed pattern.toList) ∧
      (∀ e c', c.compile pattern capabilities = (.error e, c') →
        ∃ spelled?, e = .unparsable pattern spelled?) ∧
      ∀ rule c', c.compile pattern capabilities = (.ok rule, c') →
        rule.pattern = pattern ∧ rule.spelledPattern? c'.registry.toTable = some pattern ∧
          ∃ texts, rule.texts? c'.registry.toTable = some texts ∧
            texts.CutsAtStars pattern.toList) ∧
    ∀ raw : String,
      ((c.compileNormal raw capabilities).2.registry.size < LiteralRegistry.capacity →
        ((∃ rule c', c.compileNormal raw capabilities = (.ok rule, c')) ↔ raw ≠ "")) ∧
      ∀ e c', c.compileNormal raw capabilities = (.error e, c') → e.warning? = none := by
  refine ⟨fun pattern room => ⟨exists_compile_eq_ok_iff room, fun e c' h => ?_,
    fun rule c' h => ?_⟩, fun raw => ⟨exists_compileNormal_eq_ok_iff, fun e c' h => ?_⟩⟩
  · rw [h] at room
    rcases compile_error_cases h with ⟨he, -⟩ | ⟨⟨spelled, he⟩, -⟩ | ⟨-, hfull⟩
    · exact ⟨none, he⟩
    · exact ⟨some spelled, he⟩
    · exact absurd room (Nat.not_lt_of_le hfull)
  · obtain ⟨hcompiled, rfl, -⟩ := compiled_of_compile_eq_ok h
    obtain ⟨texts, htexts⟩ := id hcompiled
    exact ⟨rfl, htexts.spelledPattern?_eq, hcompiled.cutsAtStars⟩
  · rw [compileNormal_eq] at h
    rcases compile_error_cases h with ⟨rfl, -⟩ | ⟨-, hnot⟩ | ⟨rfl, -⟩
    · rfl
    · exact absurd (Pattern.collapsed_normalForm raw) hnot
    · rfl

theorem compile_decides_grammar_of_inner_text :
    (∃ rule c', empty.compile "*é?*b" .unknown = (.ok rule, c') ∧
      rule.spelledPattern? c'.registry.toTable = some "*é?*b" ∧
      ∃ texts, rule.texts? c'.registry.toTable = some texts ∧
        texts.CutsAtStars ['*', 'é', '?', '*', 'b']) ∧
    (¬∃ rule c', empty.compile "a**b" .unknown = (.ok rule, c')) ∧
    ∃ rule c', empty.compileNormal "A**B" .unknown = (.ok rule, c') := by
  have hroom : (empty.compile "*é?*b" .unknown).2.registry.size < LiteralRegistry.capacity := by
    decide +kernel
  have hroom' : (empty.compile "a**b" .unknown).2.registry.size < LiteralRegistry.capacity := by
    decide +kernel
  have hroom'' :
      (empty.compileNormal "A**B" .unknown).2.registry.size < LiteralRegistry.capacity := by
    decide +kernel
  obtain ⟨haccepts, -, hrule⟩ := (compile_decides_grammar empty .unknown).1 "*é?*b" hroom
  obtain ⟨rule, c', h⟩ := haccepts.2 (by decide)
  refine ⟨⟨rule, c', h, (hrule rule c' h).2⟩, fun hok => ?_, ?_⟩
  · exact absurd (((compile_decides_grammar empty .unknown).1 "a**b" hroom').1.1 hok) (by decide)
  · exact (((compile_decides_grammar empty .unknown).2 "A**B").1 hroom'').2 (by decide)

end Compiler

end AgentCatalog
