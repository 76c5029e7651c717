import AgentCatalog.Proofs.Catalog.Enumeration
import AgentCatalog.Proofs.Catalog.Index

/-!
# Looking up a user agent

Only the candidates of the index are tried. They are in the order of the rules, no rule that matches
is left out, and the catch-all rule is always among them. So the rule that is found is the first of
all rules that matches:

* `exists_isFirstMatch`: there is a first rule that matches;
* `IsFirstMatch.lookup_eq`: it is the rule that is looked up;
* `lookup_toCatalog`: both, for the catalog of any calls, and that the rule is found among the
  candidates.
-/

namespace AgentCatalog

/-- From positions in ascending order that have the first place of a kind, that place is taken. -/
lemma findSome?_filter_eq_of_first {α : Type} {xs : Array α} {P : α → Bool} {is : List Nat}
    (hsorted : is.Pairwise (· < ·)) {i : Nat} (hi : i < xs.size) (hmem : i ∈ is)
    (hP : P xs[i] = true) (hfirst : ∀ j (hj : j < i), P xs[j] = false) :
    (is.findSome? fun j => xs[j]?.filter P) = some xs[i] := by
  induction is with
  | nil => simp at hmem
  | cons j is ih =>
    rw [List.pairwise_cons] at hsorted
    rw [List.findSome?_cons]
    rcases List.mem_cons.1 hmem with rfl | hmem
    · have hget : xs[i]?.filter P = some xs[i] := by
        rw [Array.getElem?_eq_getElem hi, Option.filter_some, if_pos hP]
      rw [hget]
    · have hlt := hsorted.1 i hmem
      have hget : xs[j]?.filter P = none := by
        rw [Array.getElem?_eq_getElem (hlt.trans hi), Option.filter_some, hfirst j hlt]
        rfl
      rw [hget]
      exact ih hsorted.2 hmem

namespace Catalog

/-- What is found among the candidates of the index. -/
def findCandidate? (c : Catalog) (agent : String) : Option Rule :=
  (c.index.candidates (subject agent)).findSome? fun position =>
    c.rules[position]?.filter (·.accepts c.table (subject agent))

lemma lookup_eq (c : Catalog) (agent : String) :
    c.lookup agent = (c.findCandidate? agent).getD c.lastRule := rfl

/-- The rule at position `i` is the first one that matches the user agent. -/
structure IsFirstMatch (c : Catalog) (agent : String) (i : Nat) : Prop where
  lt_size : i < c.rules.size
  accepts_eq_true : c.accepts c.rules[i] agent = true
  eq_false_of_lt : ∀ j (hj : j < i), c.accepts c.rules[j] agent = false

section Draft

variable (d : CatalogDraft) (agent : String)

lemma size_rules_toCatalog : d.toCatalog.rules.size = d.ranked.length := rfl

/-- The index leaves out no rule that matches. -/
lemma mem_candidates_of_accepts {i : Nat} (hi : i < d.toCatalog.rules.size)
    (h : d.toCatalog.accepts d.toCatalog.rules[i] agent = true) :
    i ∈ d.toCatalog.index.candidates (subject agent) := by
  set table := d.compiler.registry.toTable
  refine FirstByteIndex.mem_candidates_iff.2 ⟨d.toCatalog.rules[i].firstByte? table, ?_, ?_⟩
  · rw [List.getElem?_map, List.getElem?_eq_getElem (size_rules_toCatalog d ▸ hi)]
    rfl
  · cases hb : d.toCatalog.rules[i].firstByte? table with
    | none => exact .inl rfl
    | some b => exact .inr (Rule.head?_eq_of_accepts hb h).symm

/-- Every user agent has a match, as the catch-all rule is one of the rules. -/
lemma exists_isFirstMatch : ∃ i, d.toCatalog.IsFirstMatch agent i := by
  have hlt : d.ranked.findIdx (d.toCatalog.accepts · agent) < d.ranked.length :=
    List.findIdx_lt_length_of_exists
      ⟨.catchAll, CatalogDraft.mem_ranked.2 (.inr rfl), by simp [accepts, Rule.accepts_catchAll]⟩
  refine ⟨d.ranked.findIdx (d.toCatalog.accepts · agent), hlt, ?_, fun j hj => ?_⟩
  · exact @List.findIdx_getElem _ (d.toCatalog.accepts · agent) d.ranked hlt
  · exact @List.not_of_lt_findIdx _ (d.toCatalog.accepts · agent) d.ranked j hj

end Draft

/-- What is found among the candidates is the first rule that matches. -/
lemma IsFirstMatch.findCandidate?_eq {d : CatalogDraft} {agent : String} {i : Nat}
    (h : d.toCatalog.IsFirstMatch agent i) :
    d.toCatalog.findCandidate? agent = d.toCatalog.rules[i]? := by
  have hi := h.lt_size
  rw [Array.getElem?_eq_getElem hi]
  exact findSome?_filter_eq_of_first (FirstByteIndex.pairwise_candidates _ _) hi
    (mem_candidates_of_accepts d agent hi h.accepts_eq_true) h.accepts_eq_true h.eq_false_of_lt

lemma IsFirstMatch.lookup_eq {d : CatalogDraft} {agent : String} {i : Nat}
    (h : d.toCatalog.IsFirstMatch agent i) :
    d.toCatalog.rules[i]? = some (d.toCatalog.lookup agent) := by
  have hi := h.lt_size
  rw [Catalog.lookup_eq, h.findCandidate?_eq, Array.getElem?_eq_getElem hi, Option.getD_some]

/-- The catch-all rule is the first match if no other rule matches. -/
lemma IsFirstMatch.isCatchAll_iff {d : CatalogDraft} (hd : d.Sound) {agent : String} {i : Nat}
    (h : d.toCatalog.IsFirstMatch agent i) :
    (d.toCatalog.lookup agent).isCatchAll = true ↔
      ∀ rule ∈ d.toCatalog.rules, rule.isCatchAll = false →
        d.toCatalog.accepts rule agent = false := by
  have hi := h.lt_size
  have hlookup : d.toCatalog.rules[i] = d.toCatalog.lookup agent := by
    rw [← Option.some.injEq, ← Array.getElem?_eq_getElem hi]
    exact h.lookup_eq
  have hlast : ∀ j (hj : j < d.toCatalog.rules.size),
      d.toCatalog.rules[j].isCatchAll = true ↔ j + 1 = d.toCatalog.rules.size :=
    hd.isCatchAll_getElem_ranked
  rw [← hlookup]
  constructor
  · -- the first match is at the last position, and all other rules stand before it
    intro hcatch rule hrule hother
    obtain ⟨j, hj, rfl⟩ := Array.mem_iff_getElem.1 hrule
    have hne : j + 1 ≠ d.toCatalog.rules.size := fun hend => by
      rw [(hlast j hj).2 hend] at hother
      cases hother
    have hend := (hlast i hi).1 hcatch
    exact h.eq_false_of_lt j (by omega)
  · intro hnone
    by_contra hcatch
    have hfalse := hnone _ (Array.getElem_mem hi) (Bool.eq_false_iff.2 hcatch)
    rw [h.accepts_eq_true] at hfalse
    cases hfalse

/-- A compiled rule matches the user agents that are, in lower case, in the language of its
pattern. -/
lemma accepts_iff {d : CatalogDraft} {rule : Rule} (h : rule.Compiled d.compiler.registry)
    (agent : String) :
    d.toCatalog.accepts rule agent = true ↔
      Pattern.Matches rule.pattern.toList (Text.foldCase agent.toList) :=
  h.accepts_encode_iff (Text.foldCase agent.toList)

lemma compiled_getElem {d : CatalogDraft} (hd : d.Sound) {i : Nat}
    (hi : i < d.toCatalog.rules.size) : d.toCatalog.rules[i].Compiled d.compiler.registry :=
  hd.compiled_of_mem_ranked (List.getElem_mem (l := d.ranked) hi)

/-! ### Positions -/

lemma exists_getElem_of_mem_ranked {d : CatalogDraft} {rule : Rule} (h : rule ∈ d.ranked) :
    ∃ i, ∃ hi : i < d.toCatalog.rules.size, d.toCatalog.rules[i].pattern = rule.pattern := by
  obtain ⟨i, hi, hget⟩ := List.mem_iff_getElem.1 h
  exact ⟨i, hi, congrArg Rule.pattern hget⟩

/-- Every rule added has a position. -/
lemma exists_getElem_of_mem_added {d : CatalogDraft} {pattern : String}
    (h : pattern ∈ d.added.toList.map (·.pattern)) :
    ∃ i, ∃ hi : i < d.toCatalog.rules.size, d.toCatalog.rules[i].pattern = pattern := by
  obtain ⟨rule, hrule, rfl⟩ := List.mem_map.1 h
  exact exists_getElem_of_mem_ranked (CatalogDraft.mem_ranked.2 (.inl hrule))

/-- A rule stands before those that it comes before in the order of rules. -/
lemma lt_of_compare_eq_lt {d : CatalogDraft} (hd : d.Sound) {i j : Nat}
    (hi : i < d.toCatalog.rules.size) (hj : j < d.toCatalog.rules.size)
    (h : d.toCatalog.rules[i].compare d.toCatalog.rules[j] = .lt) : i < j := by
  by_contra hle
  have hge : (d.toCatalog.rules[j].compare d.toCatalog.rules[i]).isLE = true := by
    rcases Nat.lt_or_eq_of_le (Nat.le_of_not_lt hle) with hlt | rfl
    · exact List.pairwise_iff_getElem.1 hd.pairwise_ranked j i hj hi hlt
    · have hself : d.toCatalog.rules[j].compare d.toCatalog.rules[j] = .eq :=
        Std.ReflCmp.compare_self
      rw [hself]
      rfl
  exact Std.OrientedCmp.not_lt_of_isLE hge h

section Before

variable {d : CatalogDraft} {i : Nat} {pattern : String}

/-- A rule stands before all rules of a pattern that it comes before. -/
lemma lt_of_pattern_eq (hd : d.Sound) (hi : i < d.toCatalog.rules.size)
    (h : ∀ rule ∈ d.ranked, rule.pattern = pattern → d.toCatalog.rules[i].compare rule = .lt)
    {j : Nat} (hj : j < d.toCatalog.rules.size) (hpattern : d.toCatalog.rules[j].pattern = pattern) :
    i < j :=
  lt_of_compare_eq_lt hd hi hj (h _ (List.getElem_mem (l := d.ranked) hj) hpattern)

/-- What a rule matches is never answered by rules that it comes before. -/
lemma lookup_pattern_ne (hd : d.Sound) (hi : i < d.toCatalog.rules.size)
    (h : ∀ rule ∈ d.ranked, rule.pattern = pattern → d.toCatalog.rules[i].compare rule = .lt)
    {agent : String} (haccepts : d.toCatalog.accepts d.toCatalog.rules[i] agent = true) :
    (d.toCatalog.lookup agent).pattern ≠ pattern := by
  intro hpattern
  obtain ⟨k, hfirst⟩ := exists_isFirstMatch d agent
  have hk := hfirst.lt_size
  have hlookup := hfirst.lookup_eq
  rw [Array.getElem?_eq_getElem hk, Option.some.injEq] at hlookup
  rw [← hlookup] at hpattern
  -- the rule that is found would stand behind another one that matches
  have hfalse := hfirst.eq_false_of_lt i (lt_of_pattern_eq hd hi h hk hpattern)
  rw [haccepts] at hfalse
  cases hfalse

end Before

/-- The rule that is looked up is the first of all rules that matches. It is among the candidates
of the index, so the last rule is never fallen back on. It is the catch-all rule if no other
matches. -/
theorem lookup_toCatalog (calls : List Compiler.Call) (agent : String) :
    let c := (CatalogDraft.empty.after calls).toCatalog
    (∃ i, c.IsFirstMatch agent i ∧ i ∈ c.index.candidates (subject agent) ∧
      c.rules[i]? = some (c.lookup agent)) ∧
    c.findCandidate? agent = some (c.lookup agent) ∧
    ((c.lookup agent).isCatchAll = true ↔
      ∀ rule ∈ c.rules, rule.isCatchAll = false → c.accepts rule agent = false) := by
  intro c
  obtain ⟨i, h⟩ := exists_isFirstMatch (CatalogDraft.empty.after calls) agent
  have hmem := mem_candidates_of_accepts _ agent h.lt_size h.accepts_eq_true
  refine ⟨⟨i, h, hmem, h.lookup_eq⟩, h.findCandidate?_eq.trans h.lookup_eq, ?_⟩
  exact h.isCatchAll_iff (CatalogDraft.sound_after_empty calls)

end Catalog

end AgentCatalog
