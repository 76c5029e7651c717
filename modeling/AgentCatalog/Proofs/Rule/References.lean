import AgentCatalog.Proofs.Catalog.Draft
import AgentCatalog.Proofs.Rule.Grammar
import Mathlib.Algebra.GroupWithZero.Nat

/-!
# Rules and their handles

A rule has handles in the place of texts. In the registry in which it has been compiled, and in every
later one, handles and texts determine each other. So the texts are found from the handles and the
handles from the texts, and rules that are made at different times have the same handles in the same
places if they have the same pattern:

* `resolve?_inverse`: the references of a shape, from what they stand for;
* `Compiled.readsFrom`: what the table of a registry has of a compiled rule;
* `rules_stay_valid`: all rules of a run, read from the table in the end.
-/

namespace AgentCatalog

open Utf8 (encode)

namespace Shape

variable {α β : Type} {find? : α → Option β}

/-! ### Looking up the references of a shape -/

lemma option_mapM_eq_some_iff {a? : Option α} {b? : Option β} :
    a?.mapM find? = some b? ↔ a?.map find? = b?.map some := by
  cases a? with
  | none => cases b? <;> simp
  | some a => cases b? <;> simp

lemma mapM_eq_some_iff {as : List α} {bs : List β} :
    as.mapM find? = some bs ↔ as.map find? = bs.map some := by
  induction as generalizing bs with
  | nil => cases bs <;> simp
  | cons a as ih =>
    simp only [List.mapM_cons, Option.bind_eq_bind, Option.bind_eq_some_iff, ih]
    constructor
    · rintro ⟨b, hb, bs', hbs, hcons⟩
      obtain rfl := Option.some.inj hcons
      rw [List.map_cons, List.map_cons, hb, hbs]
    · intro h
      cases bs with
      | nil => cases h
      | cons b bs =>
        obtain ⟨hb, hbs⟩ := List.cons.inj h
        exact ⟨b, hb, bs, hbs, rfl⟩

/-- The references of a shape stand for literals if each of them does. -/
lemma resolve?_eq_some_iff {shape : Shape α} {found : Shape β} :
    shape.resolve? find? = some found ↔ shape.map find? = found.map some := by
  cases shape with
  | catchAll => cases found <;> simp [resolve?, map]
  | exact a => cases found <;> simp [resolve?, map]
  | structured first inner last =>
    simp only [resolve?, Option.bind_eq_bind, Option.bind_eq_some_iff, option_mapM_eq_some_iff,
      mapM_eq_some_iff]
    constructor
    · rintro ⟨first', hfirst, inner', hinner, last', hlast, hfound⟩
      obtain rfl := Option.some.inj hfound
      rw [map, map, hfirst, hinner, hlast]
    · intro h
      cases found with
      | structured first' inner' last' =>
        obtain ⟨hfirst, hinner, hlast⟩ := structured.inj h
        exact ⟨first', hfirst, inner', hinner, last', hlast, rfl⟩
      | catchAll | exact => cases h

lemma literals_map (f : α → β) (shape : Shape α) :
    (shape.map f).literals = shape.literals.map f := by
  cases shape with
  | catchAll => rfl
  | exact a => rfl
  | structured first inner last => cases first <;> cases last <;> simp [map, literals]

/-- From left to right the references stand for the literals. -/
lemma map_literals_of_resolve? {shape : Shape α} {found : Shape β}
    (h : shape.resolve? find? = some found) :
    shape.literals.map find? = found.literals.map some := by
  rw [← literals_map, ← literals_map, resolve?_eq_some_iff.1 h]

section Inverse

variable {back? : β → Option α} (h : ∀ {a b}, find? a = some b → back? b = some a)

include h

lemma option_map_inverse {a? : Option α} {b? : Option β} (ha : a?.map find? = b?.map some) :
    b?.map back? = a?.map some := by
  cases a? with
  | none => cases b? <;> simp_all
  | some a =>
    cases b? with
    | none => cases ha
    | some b => rw [Option.map_some, Option.map_some, h (Option.some.inj ha)]

lemma map_inverse {as : List α} {bs : List β} (ha : as.map find? = bs.map some) :
    bs.map back? = as.map some := by
  induction bs generalizing as with
  | nil => simp_all
  | cons b bs ih =>
    cases as with
    | nil => cases ha
    | cons a as =>
      obtain ⟨hb, hbs⟩ := List.cons.inj ha
      rw [List.map_cons, List.map_cons, h hb, ih hbs]

/-- The references of a shape are found again from the literals that they stand for. -/
theorem resolve?_inverse {shape : Shape α} {found : Shape β}
    (hs : shape.resolve? find? = some found) : found.resolve? back? = some shape := by
  rw [resolve?_eq_some_iff] at hs ⊢
  cases shape with
  | catchAll => cases found <;> simp_all [map]
  | exact a =>
    cases found with
    | exact b => rw [map, map, h (exact.inj hs)]
    | catchAll | structured => cases hs
  | structured first inner last =>
    cases found with
    | structured first' inner' last' =>
      obtain ⟨hfirst, hinner, hlast⟩ := structured.inj hs
      rw [map, map, option_map_inverse h hfirst, map_inverse h hinner, option_map_inverse h hlast]
    | catchAll | exact => cases hs

end Inverse

end Shape

namespace Rule

variable {rule other : Rule} {r : LiteralRegistry} {texts : Shape (List Char)}

/-! ### The literals of a rule -/

/-- The table has the literals of the rule: texts without `*` that spell its pattern, and that have
as many bytes as every match takes at least. -/
structure ReadsFrom (rule : Rule) (table : LiteralTable) : Prop where
  literal_of_mem : ∀ handle ∈ rule.shape.literals, handle < table.size ∧
    ∃ literal, table.get? handle = some literal ∧ literal.text ≠ "" ∧ '*' ∉ literal.text.toList
  spelledPattern?_eq : rule.spelledPattern? table = some rule.pattern
  minLength_eq : rule.minLength =
    ((rule.shape.literals.filterMap table.get?).map (·.bytes.length)).sum

/-- The texts of the pattern of a compiled rule are in the registry. -/
lemma Compiled.literals_subset_pool (h : rule.Compiled r) :
    ∀ t ∈ Pattern.literals rule.pattern.toList, t ∈ r.pool := by
  obtain ⟨texts, h⟩ := h
  intro t ht
  rw [Pattern.literals, ← Shape.literals_ofSegments? h.ofSegments?_eq] at ht
  have hmem : some t ∈ rule.shape.literals.map r.chars? := by
    rw [Shape.map_literals_of_resolve? h.resolve?_eq]
    exact List.mem_map_of_mem ht
  obtain ⟨handle, -, hhandle⟩ := List.mem_map.1 hmem
  exact LiteralRegistry.mem_pool_of_chars? hhandle

lemma CompiledAs.map_get? (h : rule.CompiledAs r texts) :
    rule.shape.literals.map r.toTable.get? =
      texts.literals.map fun t => some (Literal.ofText (String.ofList t)) := by
  have hget : r.toTable.get? =
      Option.map (fun t => Literal.ofText (String.ofList t)) ∘ r.chars? :=
    funext fun _ => LiteralRegistry.get?_toTable_of_chars?
  rw [hget, ← List.map_map, Shape.map_literals_of_resolve? h.resolve?_eq, List.map_map]
  rfl

/-- A compiled rule is read from the table of its registry. -/
theorem Compiled.readsFrom (h : rule.Compiled r) : rule.ReadsFrom r.toTable := by
  obtain ⟨texts, h⟩ := h
  have hmap := h.map_get?
  refine ⟨fun handle hhandle => ?_, h.spelledPattern?_eq, ?_⟩
  · have hmem := List.mem_map_of_mem (f := r.toTable.get?) hhandle
    rw [hmap] at hmem
    obtain ⟨t, ht, hget⟩ := List.mem_map.1 hmem
    obtain ⟨hne, hstar⟩ := h.plain t ht
    refine ⟨(Array.getElem?_eq_some_iff.1 hget.symm).1, _, hget.symm, ?_, ?_⟩
    · rwa [Literal.ofText, Ne, ← String.toList_eq_nil_iff, String.toList_ofList]
    · rwa [Literal.ofText, String.toList_ofList]
  · have hfound : rule.shape.literals.filterMap r.toTable.get? =
        texts.literals.map fun t => Literal.ofText (String.ofList t) := by
      have hid := congrArg (List.filterMap id) hmap
      simpa [List.filterMap_map, Function.comp_def] using hid
    rw [hfound, h.minLength_eq, List.length_flatMap, List.map_map]
    simp [Function.comp_def, Literal.ofText]

/-- Compiled rules with the same pattern have the same handles in the same places. -/
theorem Compiled.shape_eq_iff (h : rule.Compiled r) (h' : other.Compiled r) :
    rule.shape = other.shape ↔ rule.pattern = other.pattern := by
  obtain ⟨texts, h⟩ := h
  obtain ⟨texts', h'⟩ := h'
  constructor
  · intro hshape
    have htexts : texts = texts' := by
      have hresolve := h'.resolve?_eq
      rw [← hshape, h.resolve?_eq] at hresolve
      exact Option.some.inj hresolve
    rw [← String.toList_inj, ← h.render_eq, ← h'.render_eq, htexts]
  · intro hpattern
    have htexts : texts = texts' := by
      have hseg := h'.ofSegments?_eq
      rw [← hpattern, h.ofSegments?_eq] at hseg
      exact Option.some.inj hseg
    -- every text has one handle, so the handles are found from the texts
    have hshape := Shape.resolve?_inverse LiteralRegistry.handle?_eq_some_of_chars? h.resolve?_eq
    have hshape' := Shape.resolve?_inverse LiteralRegistry.handle?_eq_some_of_chars? h'.resolve?_eq
    rw [← htexts, hshape] at hshape'
    exact Option.some.inj hshape'

end Rule

namespace Compiler

/-- Whatever a compiler compiles and refuses, all its rules are read from the table that it has in the
end, and two of them have the same handles in the same places if they have the same pattern. -/
theorem rules_stay_valid (c : Compiler) (calls : List Call) {rule : Rule}
    (h : rule ∈ c.rulesOf calls) :
    rule.ReadsFrom (c.after calls).registry.toTable ∧
      ∀ other ∈ c.rulesOf calls, rule.shape = other.shape ↔ rule.pattern = other.pattern :=
  ⟨(compiled_of_mem_rulesOf h).readsFrom, fun _ hother =>
    (compiled_of_mem_rulesOf h).shape_eq_iff (compiled_of_mem_rulesOf hother)⟩

theorem rules_stay_valid_of_refused_between :
    let calls : List Call := [.verbatim "é**ab" .unknown, .normal "A*?é*" .unknown,
      .verbatim "" .unknown, .normal "AB" .unknown, .verbatim "a*?é*" .fallback]
    (empty.rulesOf calls).map (·.pattern) = ["a*?é*", "ab", "a*?é*"] ∧
      ∃ rule ∈ empty.rulesOf calls, rule.pattern = "a*?é*" ∧
        rule.ReadsFrom (empty.after calls).registry.toTable ∧
        ∀ other ∈ empty.rulesOf calls, rule.shape = other.shape ↔ "a*?é*" = other.pattern := by
  intro calls
  have hpatterns : (empty.rulesOf calls).map (·.pattern) = ["a*?é*", "ab", "a*?é*"] := by
    decide +kernel
  obtain ⟨rule, hrule, hpattern⟩ := List.mem_map.1 (hpatterns ▸ List.mem_cons_self)
  obtain ⟨hreads, hothers⟩ := rules_stay_valid empty calls hrule
  rw [hpattern] at hothers
  exact ⟨hpatterns, rule, hrule, hpattern, hreads, hothers⟩

end Compiler

end AgentCatalog
