import AgentCatalog.Proofs.Literal.Registry
import AgentCatalog.Proofs.Rule.Matching
import AgentCatalog.Rule.Compiler

/-!
# How a compiler interns texts

The literals of a shape are interned one after the other, the last before the inner ones. Such a
step of a compiler only adds to the registry, whether it fails or not, and what it returns stands
for the texts in every later registry. `Interns` collects this. What is kept whenever a single text
is interned is kept by the whole step, for which `OnlyInterns` has the induction. The main results are

* `OnlyInterns.rel_run`: what a step keeps, from what each of its texts keeps;
* `interns_internShape`: interning a shape gives handles that stand for its texts.
-/

namespace AgentCatalog.Compiler

/-! ### Steps -/

lemma run_bind_ok {α β : Type} {x : Step α} {f : α → Step β} {c c' : Compiler} {a : α}
    (h : x.run c = (.ok a, c')) : (x >>= f).run c = (f a).run c' := by
  show (x.run >>= ExceptT.bindCont f) c = _
  show (ExceptT.bindCont f (x.run c).1) (x.run c).2 = _
  rw [h]
  rfl

lemma run_bind_error {α β : Type} {x : Step α} {f : α → Step β} {c c' : Compiler}
    {e : CompileError} (h : x.run c = (.error e, c')) : (x >>= f).run c = (.error e, c') := by
  show (ExceptT.bindCont f (x.run c).1) (x.run c).2 = _
  rw [h]
  rfl

/-- The step interns texts of the pool: it keeps the handles that there are and adds no texts from
outside the pool. What it returns then stands for something, and it returns unless there is no room
for the pool. -/
structure Interns {α : Type} (pool : Finset (List Char)) (x : Step α)
    (Stands : LiteralRegistry → α → Prop) : Prop where
  grows : ∀ c : Compiler, c.registry.Extends (x.run c).2.registry
  stands : ∀ (c : Compiler) (a : α), (x.run c).1 = .ok a → Stands (x.run c).2.registry a
  within : ∀ c : Compiler, c.registry.Within pool → (x.run c).2.registry.Within pool
  returns : ∀ c : Compiler, c.registry.Within pool → pool.card ≤ LiteralRegistry.capacity →
    ∃ a, (x.run c).1 = .ok a

section Rules

variable {α β : Type} {pool : Finset (List Char)}

lemma Interns.pure {a : α} {Stands : LiteralRegistry → α → Prop} (h : ∀ r, Stands r a) :
    Interns pool (pure a) Stands where
  grows c := .refl c.registry
  stands c b hb := by
    obtain rfl := Except.ok.inj hb
    exact h _
  within _ hc := hc
  returns _ _ _ := ⟨a, rfl⟩

/-- One step after the other. What the first returns keeps standing for what it does. -/
lemma Interns.bind {x : Step α} {f : α → Step β} {Stands : LiteralRegistry → α → Prop}
    {Stands' : LiteralRegistry → β → Prop} (hx : Interns pool x Stands)
    (keeps : ∀ {r s : LiteralRegistry}, r.Extends s → ∀ a, Stands r a → Stands s a)
    (hf : ∀ a, Interns pool (f a) fun r b => Stands r a → Stands' r b) :
    Interns pool (x >>= f) Stands' where
  grows c := by
    have hgrows := hx.grows c
    rcases h : x.run c with ⟨e | a, c'⟩
    · rw [run_bind_error h]
      rwa [h] at hgrows
    · rw [run_bind_ok h]
      rw [h] at hgrows
      exact hgrows.trans ((hf a).grows c')
  stands c b hb := by
    have hstands := hx.stands c
    rcases h : x.run c with ⟨e | a, c'⟩
    · rw [run_bind_error h] at hb
      cases hb
    · rw [run_bind_ok h] at hb ⊢
      rw [h] at hstands
      exact (hf a).stands c' b hb (keeps ((hf a).grows c') a (hstands a rfl))
  within c hc := by
    have hwithin := hx.within c hc
    rcases h : x.run c with ⟨e | a, c'⟩
    · rw [run_bind_error h]
      rwa [h] at hwithin
    · rw [run_bind_ok h]
      rw [h] at hwithin
      exact (hf a).within c' hwithin
  returns c hc hcard := by
    obtain ⟨a, ha⟩ := hx.returns c hc hcard
    have h : x.run c = (.ok a, (x.run c).2) := Prod.ext ha rfl
    rw [run_bind_ok h]
    exact (hf a).returns _ (hx.within c hc) hcard

end Rules

/-! ### One text -/

lemma run_intern (text : List Char) (c : Compiler) : (intern text).run c =
    match c.registry.intern? (String.ofList text) with
    | some (registry, handle) =>
      (.ok handle, ⟨registry, { c.counts with literalUses := c.counts.literalUses + 1 }⟩)
    | none =>
      (.error .tooManyLiterals, { c with counts.literalUses := c.counts.literalUses + 1 }) := by
  show (match c.registry.intern? (String.ofList text) with
    | some (registry, handle) => _
    | none => _ : Step Handle).run _ = _
  cases c.registry.intern? (String.ofList text) <;> rfl

/-! ### Steps that do nothing else -/

/-- The step interns texts, one after the other, and does nothing else to the compiler. -/
inductive OnlyInterns {α : Type} : Step α → Prop where
  /-- Nothing is interned. -/
  | pure (a : α) : OnlyInterns (pure a)
  /-- A text is interned, and what follows may depend on its handle. -/
  | intern_bind (text : List Char) {f : Handle → Step α} :
      (∀ handle, OnlyInterns (f handle)) → OnlyInterns (intern text >>= f)

namespace OnlyInterns

variable {α β : Type}

protected lemma bind {x : Step α} {f : α → Step β} (hx : OnlyInterns x)
    (hf : ∀ a, OnlyInterns (f a)) : OnlyInterns (x >>= f) := by
  induction hx with
  | pure a =>
    rw [pure_bind]
    exact hf a
  | intern_bind text _ ih =>
    rw [bind_assoc]
    exact .intern_bind text ih

/-- What each interning of a text keeps, the whole step keeps. -/
theorem rel_run {R : Compiler → Compiler → Prop} (refl : ∀ c, R c c)
    (trans : ∀ {a b c}, R a b → R b c → R a c) (step : ∀ text c, R c ((intern text).run c).2)
    {x : Step α} (hx : OnlyInterns x) (c : Compiler) : R c (x.run c).2 := by
  induction hx generalizing c with
  | pure a => exact refl c
  | intern_bind text _ ih =>
    have htext := step text c
    rcases hrun : (intern text).run c with ⟨e | handle, c'⟩
    · rw [run_bind_error hrun]
      rwa [hrun] at htext
    · rw [run_bind_ok hrun]
      rw [hrun] at htext
      exact trans htext (ih handle c')

end OnlyInterns

lemma onlyInterns_option_mapM (text? : Option (List Char)) : OnlyInterns (text?.mapM intern) := by
  cases text? with
  | none => exact .pure none
  | some text =>
    rw [Option.mapM_some, map_eq_pure_bind]
    exact .intern_bind text fun handle => .pure _

lemma onlyInterns_mapM (texts : List (List Char)) : OnlyInterns (texts.mapM intern) := by
  induction texts with
  | nil => exact .pure []
  | cons text texts ih =>
    rw [List.mapM_cons]
    exact .intern_bind text fun handle => ih.bind fun handles => .pure _

lemma onlyInterns_internShape (texts : Shape (List Char)) : OnlyInterns (internShape texts) := by
  cases texts with
  | catchAll => exact .pure Shape.catchAll
  | exact text => exact .intern_bind text fun handle => .pure _
  | structured first inner last =>
    refine (onlyInterns_option_mapM first).bind fun first' => ?_
    refine (onlyInterns_option_mapM last).bind fun last' => ?_
    exact (onlyInterns_mapM inner).bind fun inner' => .pure _

/-- Interning counts uses of literals, but no patterns. -/
lemma counts_internShape (texts : Shape (List Char)) (c : Compiler) :
    ((internShape texts).run c).2.counts =
      { c.counts with literalUses := ((internShape texts).run c).2.counts.literalUses } := by
  refine (onlyInterns_internShape texts).rel_run
    (R := fun c c' => c'.counts = { c.counts with literalUses := c'.counts.literalUses })
    (fun c => rfl) (fun hab hbc => ?_) (fun text c => ?_) c
  · rw [hbc, hab]
  · rw [run_intern]
    cases c.registry.intern? (String.ofList text) <;> rfl

/-- Interning puts no more literals into the registry than it can hold. -/
lemma size_internShape_le (texts : Shape (List Char)) {c : Compiler}
    (hc : c.registry.size ≤ LiteralRegistry.capacity) :
    ((internShape texts).run c).2.registry.size ≤ LiteralRegistry.capacity := by
  refine (onlyInterns_internShape texts).rel_run
    (R := fun c c' => c.registry.size ≤ LiteralRegistry.capacity →
      c'.registry.size ≤ LiteralRegistry.capacity)
    (fun c => id) (fun hab hbc ha => hbc (hab ha)) (fun text c hc => ?_) c hc
  rw [run_intern]
  cases h : c.registry.intern? (String.ofList text) with
  | none => exact hc
  | some found => exact LiteralRegistry.size_le_capacity_of_intern? h hc

/-! ### What handles stand for -/

variable {pool : Finset (List Char)}

lemma interns_intern {text : List Char} (ht : text ∈ pool) :
    Interns pool (intern text) fun r handle => r.chars? handle = some text where
  grows c := by
    rw [run_intern]
    cases h : c.registry.intern? (String.ofList text) with
    | none => exact .refl _
    | some found => exact (LiteralRegistry.intern?_eq_some h).1
  stands c handle hc := by
    rw [run_intern] at hc ⊢
    cases h : c.registry.intern? (String.ofList text) with
    | none => simp [h] at hc
    | some found =>
      rw [h] at hc
      obtain rfl := Except.ok.inj hc
      have htext := (LiteralRegistry.intern?_eq_some h).2.1
      show (found.1.text? found.2).map String.toList = some text
      rw [htext, Option.map_some, String.toList_ofList]
  within c hc := by
    rw [run_intern]
    cases h : c.registry.intern? (String.ofList text) with
    | none => exact hc
    | some found => exact hc.intern? h (by rwa [String.toList_ofList])
  returns c hc hcard := by
    have hmem : (String.ofList text).toList ∈ pool := by rwa [String.toList_ofList]
    obtain ⟨registry, handle, h⟩ := LiteralRegistry.exists_intern?_of_within hc hcard hmem
    exact ⟨handle, by rw [run_intern, h]⟩

/-! ### The texts of a shape -/

lemma interns_option_mapM {text? : Option (List Char)} (ht : ∀ text ∈ text?, text ∈ pool) :
    Interns pool (text?.mapM intern) fun r handle? => handle?.mapM r.chars? = some text? := by
  cases text? with
  | none => exact .pure fun r => rfl
  | some text =>
    rw [Option.mapM_some, map_eq_pure_bind]
    refine (interns_intern (ht text rfl)).bind (fun h _ => h.chars?) fun handle => .pure ?_
    intro r hr
    rw [Option.mapM_some, hr]
    rfl

lemma interns_mapM {texts : List (List Char)} (ht : ∀ text ∈ texts, text ∈ pool) :
    Interns pool (texts.mapM intern) fun r handles => handles.mapM r.chars? = some texts := by
  induction texts with
  | nil => exact .pure fun r => rfl
  | cons text texts ih =>
    rw [List.forall_mem_cons] at ht
    rw [List.mapM_cons]
    refine (interns_intern ht.1).bind (fun h _ => h.chars?) fun handle => ?_
    refine (ih ht.2).bind (fun h _ => Shape.mapM_mono h.chars?) fun handles => .pure ?_
    intro r hrest hr
    rw [List.mapM_cons, hr, hrest]
    rfl

/-- Interning a shape gives handles that stand for its texts. -/
theorem interns_internShape {texts : Shape (List Char)}
    (ht : ∀ text ∈ texts.literals, text ∈ pool) :
    Interns pool (internShape texts) fun r shape => shape.resolve? r.chars? = some texts := by
  cases texts with
  | catchAll => exact .pure fun r => rfl
  | exact text =>
    refine (interns_intern (ht text (by simp [Shape.literals]))).bind (fun h _ => h.chars?)
      fun handle => .pure ?_
    intro r hr
    rw [Shape.resolve?, hr]
    rfl
  | structured first inner last =>
    simp only [Shape.literals, List.forall_mem_append, Option.mem_toList] at ht
    obtain ⟨⟨hfirst, hinner⟩, hlast⟩ := ht
    -- in the order of the step, the last text before the inner ones
    refine (interns_option_mapM hfirst).bind (fun h _ => Shape.option_mapM_mono h.chars?)
      fun first' => ?_
    refine (interns_option_mapM hlast).bind (fun h _ => Shape.option_mapM_mono h.chars?)
      fun last' => ?_
    refine (interns_mapM hinner).bind (fun h _ => Shape.mapM_mono h.chars?) fun inner' => .pure ?_
    intro r hinner' hlast' hfirst'
    rw [Shape.resolve?, hfirst', hinner', hlast']
    rfl

end AgentCatalog.Compiler
