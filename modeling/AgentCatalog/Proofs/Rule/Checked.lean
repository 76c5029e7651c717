import AgentCatalog.Proofs.Literal.Checked
import AgentCatalog.Proofs.Rule.References

/-!
# Matching a rule with every access checked

A rule is matched on whatever bytes there are. Its handles are looked up in a table, and from one
literal to the next the offset moves inwards from both ends: the first literal ends within the
subject, the last one starts behind it, and every inner one is searched and found between the two.
So no access is a fault:

* `gives_checkedMatch`: whether a rule matches, by lookups, indices and slices;
* `placesInRange`: the offsets, from the start of the subject to its end;
* `matching_stays_in_range`: both for all rules of a run.
-/

namespace AgentCatalog

open Checked (Gives gives_failure gives_pure)
open Literal (FindsFirst)

/-- The literal of a handle, which is a fault if the table ends before it. -/
def LiteralTable.checkedGet (table : LiteralTable) (handle : Handle) : Checked Literal :=
  match table.get? handle with
  | some literal => pure literal
  | none => Checked.fault (.index handle table.size)

namespace Rule

/-- Where the first literal ends. -/
def checkedStart (table : LiteralTable) (subject : List UInt8) : Option Handle → Checked Nat
  | none => return 0
  | some handle => do
    let literal ← table.checkedGet handle
    literal.checkedMatchFrom subject 0

/-- Where the last literal starts. -/
def checkedLimit (table : LiteralTable) (subject : List UInt8) (start : Nat) :
    Option Handle → Checked Nat
  | none => return subject.length
  | some handle => do
    let literal ← table.checkedGet handle
    literal.checkedMatchEnd subject start

/-- Where the last of some inner literals ends. -/
def checkedInner (find : List UInt8 → List UInt8 → Option Nat) (table : LiteralTable)
    (subject : List UInt8) (limit : Nat) : List Handle → Nat → Checked Nat
  | [], start => return start
  | handle :: inner, start => do
    let literal ← table.checkedGet handle
    let stop ← literal.checkedSearch find subject start limit
    checkedInner find table subject limit inner stop

/-- The rule is matched with every access checked. -/
def checkedMatch (find : List UInt8 → List UInt8 → Option Nat) (rule : Rule) (table : LiteralTable)
    (subject : List UInt8) : Checked Unit :=
  if subject.length < rule.minLength then failure
  else
    match rule.shape with
    | .catchAll => return ()
    | .exact handle => do
      let literal ← table.checkedGet handle
      literal.checkedTakesAll subject
    | .structured first inner last => do
      let start ← checkedStart table subject first
      let limit ← checkedLimit table subject start last
      let _ ← checkedInner find table subject limit inner start
      return ()

/-- The rule matches, unless an access fails. -/
def checkedAccepts (find : List UInt8 → List UInt8 → Option Nat) (rule : Rule)
    (table : LiteralTable) (subject : List UInt8) : Except Fault Bool :=
  (rule.checkedMatch find table subject).run.map Option.isSome

end Rule

/-! ### Offsets -/

namespace Shape

/-- Where the first literal of a shape ends. -/
def start? (first : Option Literal) (subject : List UInt8) : Option Nat :=
  first.elim (some 0) (·.matchFrom subject 0)

/-- Where the last literal of a shape starts. -/
def limit? (last : Option Literal) (subject : List UInt8) (start : Nat) : Option Nat :=
  last.elim (some subject.length) (·.matchEnd subject start)

/-- Where the last of some literals ends, each searched from the end of the one before it on. -/
def place? (searched : List Literal) (subject : List UInt8) (start limit : Nat) : Option Nat :=
  searched.foldlM (fun start (literal : Literal) => literal.search subject start limit) start

/-- The offsets at which a shape is matched are in order and within the subject. Those of the inner
literals are between the first and the last literal before every search and after it. -/
structure PlacesInRange (first : Option Literal) (inner : List Literal) (last : Option Literal)
    (subject : List UInt8) : Prop where
  accepts_iff : (Shape.structured first inner last).accepts subject = true ↔
    ∃ start limit place, start? first subject = some start ∧
      limit? last subject start = some limit ∧ place? inner subject start limit = some place
  start_le : ∀ start, start? first subject = some start → start ≤ subject.length
  limit_bounds : ∀ start limit, start? first subject = some start →
    limit? last subject start = some limit → start ≤ limit ∧ limit ≤ subject.length
  place_bounds : ∀ start limit, start? first subject = some start →
    limit? last subject start = some limit → ∀ searched, searched <+: inner →
      ∀ place, place? searched subject start limit = some place → start ≤ place ∧ place ≤ limit

variable {first last : Option Literal} {inner : List Literal} {subject : List UInt8}
  {start limit place : Nat}

lemma start_le_length (h : start? first subject = some start) : start ≤ subject.length := by
  cases first with
  | none =>
    obtain rfl := Option.some.inj h
    exact Nat.zero_le _
  | some literal =>
    have hmatch : literal.matchFrom subject 0 = some start := h
    exact (Literal.matchFrom_bounds hmatch).2

lemma limit_bounds (hstart : start ≤ subject.length) (h : limit? last subject start = some limit) :
    start ≤ limit ∧ limit ≤ subject.length := by
  cases last with
  | none =>
    obtain rfl := Option.some.inj h
    exact ⟨hstart, Nat.le_refl _⟩
  | some literal =>
    have hmatch : literal.matchEnd subject start = some limit := h
    obtain ⟨hle, hlen⟩ := Literal.matchEnd_bounds hmatch
    exact ⟨hle, Nat.le_trans (Nat.le_add_right _ _) hlen⟩

lemma place?_cons (literal : Literal) (searched : List Literal) :
    place? (literal :: searched) subject start limit =
      (literal.search subject start limit).bind fun stop => place? searched subject stop limit :=
  rfl

/-- A search moves the place forwards and leaves it before the limit. -/
lemma place_bounds (hlimit : limit ≤ subject.length) (hstart : start ≤ limit)
    (h : place? inner subject start limit = some place) : start ≤ place ∧ place ≤ limit := by
  induction inner generalizing start with
  | nil =>
    obtain rfl := Option.some.inj h
    exact ⟨Nat.le_refl _, hstart⟩
  | cons literal inner ih =>
    rw [place?_cons, Option.bind_eq_some_iff] at h
    obtain ⟨stop, hstop, h⟩ := h
    obtain ⟨hmin, hle⟩ := Literal.search_bounds hlimit hstop
    obtain ⟨hplace, hlast⟩ := ih hle h
    exact ⟨by omega, hlast⟩

lemma accepts_eq_isSome (first : Option Literal) (inner : List Literal) (last : Option Literal)
    (subject : List UInt8) : (Shape.structured first inner last).accepts subject =
      ((start? first subject).bind fun start => (limit? last subject start).bind fun limit =>
        place? inner subject start limit).isSome :=
  accepts_structured first inner last subject

theorem placesInRange (first : Option Literal) (inner : List Literal) (last : Option Literal)
    (subject : List UInt8) : PlacesInRange first inner last subject where
  accepts_iff := by
    rw [accepts_eq_isSome, Option.isSome_iff_exists]
    simp only [Option.bind_eq_some_iff]
    constructor
    · rintro ⟨place, start, hstart, limit, hlimit, hplace⟩
      exact ⟨start, limit, place, hstart, hlimit, hplace⟩
    · rintro ⟨start, limit, place, hstart, hlimit, hplace⟩
      exact ⟨place, start, hstart, limit, hlimit, hplace⟩
  start_le _ := start_le_length
  limit_bounds _ _ hstart := limit_bounds (start_le_length hstart)
  place_bounds _ _ hstart hlimit _ _ _ := by
    obtain ⟨hle, hlen⟩ := limit_bounds (start_le_length hstart) hlimit
    exact place_bounds hlen hle

end Shape

/-! ### Accesses -/

namespace Rule

variable {find : List UInt8 → List UInt8 → Option Nat} {table : LiteralTable}
  {subject : List UInt8} {start limit : Nat}

lemma gives_checkedGet {handle : Handle} {literal : Literal} (h : table.get? handle = some literal) :
    Gives (table.checkedGet handle) (some literal) := by
  rw [LiteralTable.checkedGet, h]
  exact gives_pure literal

lemma gives_checkedStart {first : Option Handle} {first' : Option Literal}
    (h : first.map table.get? = first'.map some) (subject : List UInt8) :
    Gives (checkedStart table subject first) (Shape.start? first' subject) := by
  cases first with
  | none =>
    cases first' with
    | none => exact gives_pure 0
    | some literal => cases h
  | some handle =>
    cases first' with
    | none => cases h
    | some literal =>
      exact (gives_checkedGet (Option.some.inj h)).bind_some
        (Literal.gives_checkedMatchFrom literal subject 0)

lemma gives_checkedLimit {last : Option Handle} {last' : Option Literal}
    (h : last.map table.get? = last'.map some) (subject : List UInt8) (start : Nat) :
    Gives (checkedLimit table subject start last) (Shape.limit? last' subject start) := by
  cases last with
  | none =>
    cases last' with
    | none => exact gives_pure _
    | some literal => cases h
  | some handle =>
    cases last' with
    | none => cases h
    | some literal =>
      exact (gives_checkedGet (Option.some.inj h)).bind_some
        (Literal.gives_checkedMatchEnd literal subject start)

lemma gives_checkedInner (hfind : FindsFirst find) (hlimit : limit ≤ subject.length)
    {inner : List Handle} {inner' : List Literal} (h : inner.map table.get? = inner'.map some)
    (start : Nat) :
    Gives (checkedInner find table subject limit inner start)
      (Shape.place? inner' subject start limit) := by
  induction inner generalizing inner' start with
  | nil =>
    cases inner' with
    | nil => exact gives_pure start
    | cons => cases h
  | cons handle inner ih =>
    cases inner' with
    | nil => cases h
    | cons literal inner' =>
      obtain ⟨hliteral, hinner⟩ := List.cons.inj h
      have hsearch := Literal.gives_checkedSearch hfind literal start hlimit
      rw [Shape.place?_cons]
      exact (gives_checkedGet hliteral).bind_some (hsearch.bind fun stop _ => ih hinner stop)

/-- If the table has the literals of a rule, the rule is matched without faults. -/
theorem gives_checkedMatch (hfind : FindsFirst find) {rule : Rule} {shape : Shape Literal}
    (hshape : rule.literalShape? table = some shape) (subject : List UInt8) :
    Gives (rule.checkedMatch find table subject)
      (if rule.accepts table subject then some () else none) := by
  rw [checkedMatch, accepts, hshape, Option.any_some]
  rw [literalShape?, Shape.resolve?_eq_some_iff] at hshape
  split
  · next hshort =>
    rw [decide_eq_false (Nat.not_le_of_lt hshort)]
    exact gives_failure
  · next hlong =>
    rw [decide_eq_true (Nat.le_of_not_lt hlong), Bool.true_and]
    cases hrule : rule.shape with
    | catchAll =>
      rw [hrule] at hshape
      cases shape with
      | catchAll => exact gives_pure ()
      | exact | structured => cases hshape
    | exact handle =>
      rw [hrule] at hshape
      cases shape with
      | exact literal =>
        exact (gives_checkedGet (Shape.exact.inj hshape)).bind_some
          (Literal.gives_checkedTakesAll literal subject)
      | catchAll | structured => cases hshape
    | structured first inner last =>
      rw [hrule] at hshape
      cases shape with
      | structured first' inner' last' =>
        obtain ⟨hfirst, hinner, hlast⟩ := Shape.structured.inj hshape
        have hoption : ∀ place? : Option Nat, (if place?.isSome then some () else none) =
            place?.bind fun _ => some () := by
          rintro (_ | place) <;> rfl
        rw [Shape.accepts_eq_isSome, hoption, Option.bind_assoc]
        refine (gives_checkedStart hfirst subject).bind fun start hstart => ?_
        rw [Option.bind_assoc]
        refine (gives_checkedLimit hlast subject start).bind fun limit hlimit => ?_
        have hlen := (Shape.limit_bounds (Shape.start_le_length hstart) hlimit).2
        exact (gives_checkedInner hfind hlen hinner start).bind fun _ _ => gives_pure ()
      | catchAll | exact => cases hshape

lemma checkedAccepts_eq (hfind : FindsFirst find) {rule : Rule} {shape : Shape Literal}
    (hshape : rule.literalShape? table = some shape) (subject : List UInt8) :
    rule.checkedAccepts find table subject = .ok (rule.accepts table subject) := by
  have hrun : (rule.checkedMatch find table subject).run = .ok _ :=
    gives_checkedMatch hfind hshape subject
  rw [checkedAccepts, hrun]
  cases rule.accepts table subject <;> rfl

end Rule

/-- On the bytes of the subject no access of the literal is a fault, as long as the limit of a search
is within them. What is found takes no fewer bytes than the literal has, and ends within the subject
and before the limit. -/
structure Literal.InRange (find : List UInt8 → List UInt8 → Option Nat) (l : Literal)
    (subject : List UInt8) : Prop where
  gives_matchFrom : ∀ start, Gives (l.checkedMatchFrom subject start) (l.matchFrom subject start)
  matchFrom_bounds : ∀ start stop, l.matchFrom subject start = some stop →
    start + l.minLength ≤ stop ∧ stop ≤ subject.length
  gives_search : ∀ start limit, limit ≤ subject.length →
    Gives (l.checkedSearch find subject start limit) (l.search subject start limit)
  search_bounds : ∀ start limit, limit ≤ subject.length → ∀ stop,
    l.search subject start limit = some stop → start + l.minLength ≤ stop ∧ stop ≤ limit

namespace Compiler

/-- The rules that a compiler returns are matched on any bytes without a fault, with the table that it
has in the end, and the offsets stay within the subject. -/
theorem matching_stays_in_range {find : List UInt8 → List UInt8 → Option Nat}
    (hfind : FindsFirst find) (c : Compiler) (calls : List Call) {rule : Rule}
    (h : rule ∈ c.rulesOf calls) (subject : List UInt8) :
    rule.checkedAccepts find (c.after calls).registry.toTable subject =
      .ok (rule.accepts (c.after calls).registry.toTable subject) ∧
    (∀ first inner last,
      rule.literalShape? (c.after calls).registry.toTable = some (.structured first inner last) →
        Shape.PlacesInRange first inner last subject) ∧
    ∀ l : Literal, l.InRange find subject := by
  obtain ⟨texts, hcompiled⟩ := compiled_of_mem_rulesOf h
  refine ⟨Rule.checkedAccepts_eq hfind hcompiled.literalShape?_eq subject,
    fun first inner last _ => Shape.placesInRange first inner last subject, fun l => ?_⟩
  exact ⟨Literal.gives_checkedMatchFrom l subject, fun _ _ => Literal.matchFrom_bounds,
    fun start _ => Literal.gives_checkedSearch hfind l start,
    fun _ _ hlimit _ => Literal.search_bounds hlimit⟩

/-- A first byte that promises a second one, a byte that continues nothing, and one that no character
has. -/
theorem matching_stays_in_range_of_malformed :
    let calls : List Call := [.verbatim "a?**" .unknown, .normal "A?*B*?C" .unknown]
    let subject : List UInt8 := [0x61, 0xC3, 0xFF, 0x62, 0x80, 0xFF, 0x63]
    ∃ rule ∈ empty.rulesOf calls, rule.pattern = "a?*b*?c" ∧
      rule.checkedAccepts Literal.indexOf? (empty.after calls).registry.toTable subject = .ok true ∧
      ∃ first inner last, rule.literalShape? (empty.after calls).registry.toTable =
          some (.structured first inner last) ∧ Shape.PlacesInRange first inner last subject := by
  intro calls subject
  have hpatterns : (empty.rulesOf calls).map (·.pattern) = ["a?*b*?c"] := by decide +kernel
  obtain ⟨rule, hrule, hpattern⟩ := List.mem_map.1 (hpatterns ▸ List.mem_cons_self)
  obtain ⟨hchecked, hplaces, -⟩ :=
    matching_stays_in_range Literal.indexOf?_findsFirst empty calls hrule subject
  have haccepts : ∀ rule ∈ empty.rulesOf calls,
      rule.accepts (empty.after calls).registry.toTable subject = true := by decide +kernel
  have htexts : ∀ rule ∈ empty.rulesOf calls,
      (rule.literalShape? (empty.after calls).registry.toTable).map (Shape.map (·.text)) =
        some (.structured (some "a?") ["b"] (some "?c")) := by decide +kernel
  rw [haccepts rule hrule] at hchecked
  obtain ⟨shape, hshape, hmap⟩ := Option.map_eq_some_iff.1 (htexts rule hrule)
  cases shape with
  | structured first inner last =>
    exact ⟨rule, hrule, hpattern, hchecked, first, inner, last, hshape, hplaces _ _ _ hshape⟩
  | catchAll | exact => cases hmap

end Compiler

end AgentCatalog
