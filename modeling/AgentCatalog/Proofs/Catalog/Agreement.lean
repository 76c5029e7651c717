import AgentCatalog.Proofs.Catalog.Accepted
import AgentCatalog.Proofs.Catalog.Winner

/-!
# Catalogs that agree

A rule has handles, and which ones depends on everything that has been compiled before it, also on
what has been refused. Nothing that a catalog shows depends on them. What a rule shows in its catalog
is determined by its entry, and so is its place in the order of rules and what it matches. Two drafts
thus become catalogs that show the same if they have the same entries, as long as those with the same
pattern are in the same order. The main results are

* `Sound.agree`: two drafts whose entries of every pattern are the same become catalogs that agree;
* `refused_leave_no_trace`: the calls that are refused might as well not have been made;
* `agree_of_rearranged`: calls with different patterns may be made in any order.
-/

namespace AgentCatalog

open Utf8 (encode)
open Pattern (Matches)

/-! ### What a rule shows -/

/-- What a rule shows, its literals taken from a table. -/
structure RuleView where
  pattern : String
  specificity : Specificity
  capabilities : Capabilities
  minLength : Nat
  spelled? : Option String

namespace Rule

/-- What the rule shows. -/
def view (rule : Rule) (table : LiteralTable) : RuleView where
  pattern := rule.pattern
  specificity := rule.specificity
  capabilities := rule.capabilities
  minLength := rule.minLength
  spelled? := rule.spelledPattern? table

/-- What a compiled rule shows, by its entry. -/
def entryView (entry : String × Capabilities) : RuleView where
  pattern := entry.1
  specificity := .ofPattern entry.1.toList
  capabilities := entry.2
  minLength := ((Pattern.literals entry.1.toList).flatMap encode).length
  spelled? := some entry.1

/-- The order of compiled rules, by their entries. -/
def compareEntries (a b : String × Capabilities) : Ordering :=
  ((Specificity.ofPattern a.1.toList).compare (.ofPattern b.1.toList)).then (Ord.compare a.1 b.1)

instance : Std.TransCmp compareEntries :=
  inferInstanceAs <| Std.TransCmp <|
    compareLex (compareOn fun entry : String × Capabilities => Specificity.ofPattern entry.1.toList)
      (compareOn Prod.fst)

/-- Entries are equal in the order if they have the same pattern, and only then. -/
lemma compareEntries_eq_eq_iff {a b : String × Capabilities} :
    compareEntries a b = .eq ↔ a.1 = b.1 := by
  rw [compareEntries, Ordering.then_eq_eq]
  constructor
  · exact fun h => Std.LawfulEqOrd.eq_of_compare h.2
  · intro h
    rw [h]
    exact ⟨Std.ReflOrd.compare_self (a := Specificity.ofPattern b.1.toList),
      Std.ReflOrd.compare_self⟩

variable {rule other : Rule} {r s : LiteralRegistry}

lemma Compiled.view_eq (h : rule.Compiled r) : rule.view r.toTable = entryView rule.entry := by
  obtain ⟨texts, h⟩ := h
  rw [view, h.specificity_eq, h.minLength_eq, h.spelledPattern?_eq,
    Shape.literals_ofSegments? h.ofSegments?_eq]
  rfl

lemma Compiled.compare_eq (h : rule.Compiled r) (h' : other.Compiled s) :
    rule.compare other = compareEntries rule.entry other.entry := by
  obtain ⟨texts, h⟩ := h
  obtain ⟨texts', h'⟩ := h'
  rw [compare, h.specificity_eq, h'.specificity_eq]
  rfl

end Rule

namespace Catalog

/-- What the rules show, in the order in which they are tried. -/
def views (c : Catalog) : List RuleView :=
  c.rules.toList.map (·.view c.table)

/-- The catalogs show the same: rule by rule, and in the answer to every user agent. -/
structure Agree (c c' : Catalog) : Prop where
  size_eq : c.size = c'.size
  views_eq : c.views = c'.views
  pattern_eq : ∀ agent, (c.lookup agent).pattern = (c'.lookup agent).pattern
  capabilities_eq : ∀ agent, (c.lookup agent).capabilities = (c'.lookup agent).capabilities

end Catalog

/-! ### What a catalog shows -/

namespace CatalogDraft

variable {d d' : CatalogDraft}

namespace Sound

/-- The rules of a catalog are sorted as their entries are. -/
lemma map_entry_ranked (h : d.Sound) :
    d.ranked.map Rule.entry =
      (d.added.toList.map Rule.entry).mergeSort (fun a b => (Rule.compareEntries a b).isLE) ++
        [Rule.catchAll.entry] := by
  have hsort : ∀ a ∈ d.added.toList, ∀ b ∈ d.added.toList, (a.compare b).isLE =
      (Rule.compareEntries a.entry b.entry).isLE := fun a ha b hb => by
    rw [(h.compiled a ha).compare_eq (h.compiled b hb)]
  rw [ranked, List.map_append,
    List.map_mergeSort (s := fun a b => (Rule.compareEntries a b).isLE) hsort]
  rfl

lemma views_eq (h : d.Sound) :
    d.toCatalog.views = (d.ranked.map Rule.entry).map Rule.entryView := by
  rw [List.map_map]
  exact List.map_congr_left fun rule hrule => (h.compiled_of_mem_ranked hrule).view_eq

open Classical in
/-- The rule that is looked up has the first entry whose pattern matches. -/
lemma entry_lookup (h : d.Sound) (agent : String) :
    some (d.toCatalog.lookup agent).entry = (d.ranked.map Rule.entry).find? fun entry =>
      decide (Matches entry.1.toList (Text.foldCase agent.toList)) := by
  have hmatch : d.ranked.filter (d.toCatalog.accepts · agent) =
      d.ranked.filter ((fun entry => decide (Matches entry.1.toList (Text.foldCase agent.toList)))
        ∘ Rule.entry) := by
    refine List.filter_congr fun rule hrule => ?_
    rw [Bool.eq_iff_iff, Catalog.accepts_iff (h.compiled_of_mem_ranked hrule)]
    exact decide_eq_true_iff.symm
  rw [← Option.map_some, ← find?_ranked d agent, ← List.head?_filter, hmatch, ← List.head?_map,
    ← List.filter_map, List.head?_filter]

section SameEntries

variable (h : d.Sound) (h' : d'.Sound)
  (heq : ∀ pattern, ((d.added.toList.map Rule.entry).filter fun entry => entry.1 == pattern) =
    (d'.added.toList.map Rule.entry).filter fun entry => entry.1 == pattern)

include h h' heq

lemma map_entry_ranked_eq : d.ranked.map Rule.entry = d'.ranked.map Rule.entry := by
  -- the entries of a pattern are those that are equal in the order
  have hequal : ∀ k : String × Capabilities, (fun entry => Rule.compareEntries entry k == .eq) =
      fun entry => entry.1 == k.1 := by
    intro k
    ext entry
    rw [Bool.eq_iff_iff, beq_iff_eq, beq_iff_eq, Rule.compareEntries_eq_eq_iff]
  rw [h.map_entry_ranked, h'.map_entry_ranked, mergeSort_eq_of_filter_eq Rule.compareEntries]
  intro k
  rw [hequal]
  exact heq k.1

/-- Drafts whose entries of every pattern are the same, in the same order, become catalogs that
agree. -/
theorem agree : d.toCatalog.Agree d'.toCatalog := by
  have hranked := map_entry_ranked_eq h h' heq
  have hlookup : ∀ agent, (d.toCatalog.lookup agent).entry = (d'.toCatalog.lookup agent).entry := by
    intro agent
    rw [← Option.some.injEq, h.entry_lookup, h'.entry_lookup, hranked]
  refine ⟨?_, ?_, fun agent => ?_, fun agent => ?_⟩
  · have hlength := congrArg List.length hranked
    rwa [List.length_map, List.length_map] at hlength
  · rw [h.views_eq, h'.views_eq, hranked]
  · exact congrArg Prod.fst (hlookup agent)
  · exact congrArg Prod.snd (hlookup agent)

end SameEntries

end Sound

/-- Of calls that all succeed it only matters in which order those with the same pattern are. -/
lemma filter_entries_of_accepted {calls : List Compiler.Call} (h : empty.accepted calls = calls)
    (pattern : String) :
    (((empty.after calls).added.toList.map Rule.entry).filter fun entry => entry.1 == pattern) =
      ((calls.filter fun call => call.pattern == pattern).map Compiler.Call.entry).filter
        fun entry => entry.1 ≠ "*" := by
  have hpattern : (fun call : Compiler.Call => call.pattern == pattern) =
      (fun entry : String × Capabilities => entry.1 == pattern) ∘ Compiler.Call.entry := rfl
  rw [entries_after_empty, h, hpattern, ← List.filter_map, List.filter_filter, List.filter_filter]
  exact List.filter_congr fun entry _ => Bool.and_comm _ _

/-! ### Refused calls -/

/-- A call that is refused leaves the number of rules and the counts of patterns as they are. The
calls that succeed all do so again when those that are refused are left out, and the catalog is then
one that agrees. -/
theorem refused_leave_no_trace (calls : List Compiler.Call) :
    (∀ (d d' : CatalogDraft) (call : Compiler.Call) (e : CompileError),
      d.call call = (.error e, d') → d'.size = d.size ∧ d'.isEmpty = d.isEmpty ∧
        d'.counts = { d.counts with literalUses := d'.counts.literalUses }) ∧
    empty.accepted (empty.accepted calls) = empty.accepted calls ∧
    (empty.after calls).toCatalog.Agree (empty.after (empty.accepted calls)).toCatalog := by
  have hagain : empty.accepted (empty.accepted calls) = empty.accepted calls :=
    accepted_eq_self_of_subset fun _ hcall => hcall
  refine ⟨fun d d' call e h => ?_, hagain, ?_⟩
  · obtain ⟨hadded, hcounts⟩ := call_eq_error h
    exact ⟨congrArg Array.size hadded, congrArg Array.isEmpty hadded, hcounts⟩
  · refine (sound_after_empty _).agree (sound_after_empty _) fun _ => ?_
    rw [entries_after_empty, entries_after_empty, hagain]

theorem refused_leave_no_trace_of_adjacent_stars :
    let calls : List Compiler.Call := [.normal "A*" .unknown, .verbatim "x**y" .unknown,
      .normal "" .unknown, .normal "X?Y" .fallback]
    let first := empty.after [.normal "A*" .unknown]
    (∃ e d', first.call (.verbatim "x**y" .unknown) = (.error e, d') ∧ d'.size = first.size ∧
      d'.isEmpty = first.isEmpty ∧
        d'.counts = { first.counts with literalUses := d'.counts.literalUses }) ∧
    (empty.accepted calls).map (·.pattern) = ["a*", "x?y"] ∧
    (empty.after calls).compiler.registry.size = 4 ∧
    (empty.after (empty.accepted calls)).compiler.registry.size = 2 ∧
    (empty.after calls).toCatalog.Agree (empty.after (empty.accepted calls)).toCatalog := by
  intro calls first
  obtain ⟨hrefused, -, hagree⟩ := refused_leave_no_trace calls
  refine ⟨?_, by decide +kernel, by decide +kernel, by decide +kernel, hagree⟩
  have hisOk : (first.call (.verbatim "x**y" .unknown)).1.isOk = false := by decide +kernel
  rcases h : first.call (.verbatim "x**y" .unknown) with ⟨e | _, d'⟩
  · exact ⟨e, d', rfl, hrefused first d' _ e h⟩
  · rw [h] at hisOk
    cases hisOk

/-! ### Calls in another order -/

/-- The same calls in another order, but for those with the same pattern. -/
structure Rearranged (calls calls' : List Compiler.Call) : Prop where
  perm : calls.Perm calls'
  in_order : ∀ pattern, (calls.filter fun call => call.pattern == pattern) =
    calls'.filter fun call => call.pattern == pattern

/-- Two neighbours with different patterns may change places. -/
lemma Rearranged.swap {call call' : Compiler.Call} (h : call.pattern ≠ call'.pattern)
    (calls : List Compiler.Call) : Rearranged (call :: call' :: calls) (call' :: call :: calls) := by
  refine ⟨.swap call' call calls, fun pattern => ?_⟩
  by_cases hpattern : call.pattern = pattern
  · have hother : ¬call'.pattern = pattern := fun hother => h (hpattern.trans hother.symm)
    simp [hpattern, hother]
  · simp [List.filter_cons, hpattern]

/-- Calls that succeed do so in any order. The catalogs agree if calls with the same pattern keep
their order. -/
theorem agree_of_rearranged {calls calls' : List Compiler.Call} (h : Rearranged calls calls')
    (hcalls : empty.accepted calls = calls) :
    empty.accepted calls' = calls' ∧
      (empty.after calls).toCatalog.Agree (empty.after calls').toCatalog := by
  have hmem : ∀ call ∈ calls', call ∈ empty.accepted calls := by
    intro call hcall
    rw [hcalls]
    exact h.perm.mem_iff.2 hcall
  have hcalls' : empty.accepted calls' = calls' := accepted_eq_self_of_subset hmem
  refine ⟨hcalls', (sound_after_empty _).agree (sound_after_empty _) fun pattern => ?_⟩
  rw [filter_entries_of_accepted hcalls, filter_entries_of_accepted hcalls', h.in_order]

theorem agree_of_rearranged_of_same_pattern :
    let bot : Compiler.Call := .normal "*Bot*" .unknown
    let bot' : Compiler.Call := .normal "*BOT**" .fallback
    let x : Compiler.Call := .normal "X/?*" .unknown
    Rearranged [bot, x, bot'] [x, bot, bot'] ∧ empty.accepted [bot, x, bot'] = [bot, x, bot'] ∧
      (empty.after [bot, x, bot']).toCatalog.Agree (empty.after [x, bot, bot']).toCatalog := by
  intro bot bot' x
  have hrearranged : Rearranged [bot, x, bot'] [x, bot, bot'] := .swap (by decide +kernel) [bot']
  have haccepted : empty.accepted [bot, x, bot'] = [bot, x, bot'] := by rfl
  exact ⟨hrearranged, haccepted, (agree_of_rearranged hrearranged haccepted).2⟩

end CatalogDraft

end AgentCatalog
