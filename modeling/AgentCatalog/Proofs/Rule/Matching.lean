import AgentCatalog.Proofs.Literal.Search
import AgentCatalog.Proofs.Pattern.Segments
import AgentCatalog.Rule.Basic

/-!
# Matching a shape

A shape is matched on bytes from both ends inwards, each inner literal at its first place. The same
on characters is `acceptsText`, and the main results are

* `accepts_encode`: on the bytes of a text a shape is matched as on its characters;
* `acceptsText_iff`: on characters, a shape is matched by the language of the pattern it spells.
-/

namespace AgentCatalog

open Utf8 (encode)
open Pattern (Matches Covers front? back? behindFirst? starred)

namespace Shape

/-! ### Shapes over other references -/

/-- The shape over what its references are mapped to. -/
def map {α β : Type} (f : α → β) : Shape α → Shape β
  | .catchAll => .catchAll
  | .exact literal => .exact (f literal)
  | .structured first inner last => .structured (first.map f) (inner.map f) (last.map f)

lemma mapM_option_map {α β γ : Type} (find? : α → Option β) (f : β → γ) (xs : List α) :
    xs.mapM (fun x => (find? x).map f) = (xs.mapM find?).map (List.map f) := by
  induction xs with
  | nil => rfl
  | cons x xs ih =>
    rw [List.mapM_cons, List.mapM_cons, ih]
    cases find? x <;> cases xs.mapM find? <;> rfl

lemma resolve?_map {α β γ : Type} (find? : α → Option β) (f : β → γ) (shape : Shape α) :
    shape.resolve? (fun x => (find? x).map f) = (shape.resolve? find?).map (map f) := by
  cases shape with
  | catchAll => rfl
  | exact literal => cases h : find? literal <;> simp [resolve?, map, h]
  | structured first inner last =>
    simp only [resolve?, mapM_option_map]
    have hend : ∀ x? : Option α, (x?.mapM fun x => (find? x).map f)
        = (x?.mapM find?).map (Option.map f) := by
      rintro (_ | x)
      · rfl
      · cases h : find? x <;> simp [h]
    rw [hend, hend]
    cases first.mapM find? <;> cases inner.mapM find? <;> cases last.mapM find? <;> rfl

lemma eq_catchAll_iff_of_resolve? {α β : Type} {find? : α → Option β} {shape : Shape α}
    {found : Shape β} (h : shape.resolve? find? = some found) :
    shape = .catchAll ↔ found = .catchAll := by
  cases shape with
  | catchAll =>
    obtain rfl := Option.some.inj h
    exact ⟨fun _ => rfl, fun _ => rfl⟩
  | exact a =>
    rw [resolve?, Option.map_eq_some_iff] at h
    obtain ⟨b, -, rfl⟩ := h
    simp
  | structured first inner last =>
    simp only [resolve?, Option.bind_eq_bind, Option.bind_eq_some_iff] at h
    obtain ⟨first', -, inner', -, last', -, h⟩ := h
    obtain rfl := Option.some.inj h
    simp

section Mono

variable {α β : Type} {find? find?' : α → Option β}
  (h : ∀ {a : α} {b : β}, find? a = some b → find?' a = some b)

include h

lemma option_mapM_mono {a? : Option α} {b? : Option β} (ha : a?.mapM find? = some b?) :
    a?.mapM find?' = some b? := by
  cases a? with
  | none => exact ha
  | some a =>
    rw [Option.mapM_some, Option.map_eq_map, Option.map_eq_some_iff] at ha ⊢
    obtain ⟨b, hb, rfl⟩ := ha
    exact ⟨b, h hb, rfl⟩

lemma mapM_mono {as : List α} {bs : List β} (ha : as.mapM find? = some bs) :
    as.mapM find?' = some bs := by
  induction as generalizing bs with
  | nil => exact ha
  | cons a as ih =>
    simp only [List.mapM_cons, Option.bind_eq_bind, Option.bind_eq_some_iff] at ha ⊢
    obtain ⟨b, hb, bs', hbs, hcons⟩ := ha
    exact ⟨b, h hb, bs', ih hbs, hcons⟩

lemma resolve?_mono {shape : Shape α} {found : Shape β} (hs : shape.resolve? find? = some found) :
    shape.resolve? find?' = some found := by
  cases shape with
  | catchAll => exact hs
  | exact a =>
    rw [resolve?, Option.map_eq_some_iff] at hs ⊢
    obtain ⟨b, hb, rfl⟩ := hs
    exact ⟨b, h hb, rfl⟩
  | structured first inner last =>
    simp only [resolve?, Option.bind_eq_bind, Option.bind_eq_some_iff] at hs ⊢
    obtain ⟨first', hfirst, inner', hinner, last', hlast, hs⟩ := hs
    exact ⟨first', option_mapM_mono h hfirst, inner', mapM_mono h hinner, last',
      option_mapM_mono h hlast, hs⟩

end Mono

/-! ### Matching on characters -/

/-- The text has the shape, matched from both ends inwards, each inner text at its first place. -/
def acceptsText (shape : Shape (List Char)) (s : List Char) : Bool :=
  match shape with
  | .catchAll => true
  | .exact t => front? t s == some []
  | .structured first inner last =>
    ((front? (first.getD []) s).bind fun rest =>
      (back? (last.getD []) rest).bind fun middle =>
        inner.foldlM (fun s t => behindFirst? t s) middle).isSome

theorem acceptsText_iff {shape : Shape (List Char)} (h : shape.Plain) (s : List Char) :
    shape.acceptsText s = true ↔ Matches shape.render s := by
  cases shape with
  | catchAll => simp [acceptsText, render, Pattern.matches_star]
  | exact t =>
    have ht := (h t (List.mem_singleton_self t)).2
    simp only [acceptsText, render, beq_iff_eq, Pattern.front?_eq_some_iff, List.append_nil,
      Pattern.matches_iff_covers ht]
    constructor
    · rintro ⟨a, rfl, hc⟩
      exact hc
    · exact fun hc => ⟨s, rfl, hc⟩
  | structured first inner last =>
    have hfirst := h.star_notMem_first
    have hlast := h.star_notMem_last
    have hinner : ∀ t ∈ inner, t ≠ [] ∧ '*' ∉ t := fun _ => h.of_mem_inner
    have hrender : render (.structured first inner last)
        = first.getD [] ++ (starred inner ++ last.getD []) := by
      simp [render, starred]
    -- the ends are covered from outside, which leaves the middle to the inner texts
    rw [hrender, Pattern.matches_append_iff]
    simp only [acceptsText, Option.isSome_iff_exists, Option.bind_eq_some_iff,
      Pattern.front?_eq_some_iff, Pattern.back?_eq_some_iff]
    constructor
    · rintro ⟨stop, rest, ⟨a, rfl, ha⟩, middle, ⟨b, rfl, hb⟩, hstop⟩
      refine ⟨a, middle ++ b, rfl, (Pattern.matches_iff_covers hfirst).2 ha,
        Pattern.matches_append_iff.2 ⟨middle, b, rfl, ?_, (Pattern.matches_iff_covers hlast).2 hb⟩⟩
      exact (Pattern.foldlM_behindFirst?_isSome_iff hinner middle).1 (by rw [hstop]; rfl)
    · rintro ⟨a, rest, rfl, ha, hrest⟩
      obtain ⟨middle, b, rfl, hmiddle, hb⟩ := Pattern.matches_append_iff.1 hrest
      obtain ⟨stop, hstop⟩ := Option.isSome_iff_exists.1
        ((Pattern.foldlM_behindFirst?_isSome_iff hinner middle).2 hmiddle)
      exact ⟨stop, middle ++ b, ⟨a, rfl, (Pattern.matches_iff_covers hfirst).1 ha⟩, middle,
        ⟨b, rfl, (Pattern.matches_iff_covers hlast).1 hb⟩, hstop⟩

/-! ### Matching on bytes -/

/-- The shape over the literals of its texts. -/
def toLiterals (texts : Shape (List Char)) : Shape Literal :=
  texts.map fun t => .ofText (String.ofList t)

lemma accepts_structured (first : Option Literal) (inner : List Literal) (last : Option Literal)
    (subject : List UInt8) :
    (Shape.structured first inner last).accepts subject =
      ((first.elim (some 0) (·.matchFrom subject 0)).bind fun start =>
        (last.elim (some subject.length) (·.matchEnd subject start)).bind fun limit =>
          inner.foldlM (fun start (literal : Literal) => literal.search subject start limit)
            start).isSome := by
  cases first <;> cases last <;> rfl

lemma elim_matchFrom_encode (first : Option (List Char)) (s : List Char) :
    (first.map fun t => Literal.ofText (String.ofList t)).elim (some 0) (·.matchFrom (encode s) 0)
      = (front? (first.getD []) s).map fun left => (encode s).length - (encode left).length := by
  cases first with
  | none => simp [front?]
  | some t =>
    have h := Literal.matchFrom_encode (String.ofList t) [] s
    rwa [String.toList_ofList] at h

lemma elim_matchEnd_encode (last : Option (List Char)) (a s : List Char) :
    (last.map fun t => Literal.ofText (String.ofList t)).elim (some (encode (a ++ s)).length)
        (·.matchEnd (encode (a ++ s)) (encode a).length)
      = (back? (last.getD []) s).map fun m => (encode (a ++ m)).length := by
  cases last with
  | none => simp [back?, front?]
  | some t =>
    have h := Literal.matchEnd_encode (String.ofList t) a s
    rwa [String.toList_ofList] at h

/-- Between the start `a` and the end `z` of a text the inner literals are found at the places where
their texts are. -/
lemma foldlM_search_encode {ts : List (List Char)} (hts : ∀ t ∈ ts, t ≠ []) (a s z : List Char) :
    (ts.map fun t => Literal.ofText (String.ofList t)).foldlM (fun start (literal : Literal) =>
        literal.search (encode (a ++ s ++ z)) start (encode (a ++ s)).length) (encode a).length
      = (ts.foldlM (fun s t => behindFirst? t s) s).map fun left =>
        (encode (a ++ s)).length - (encode left).length := by
  induction ts generalizing a s with
  | nil => simp
  | cons t ts ih =>
    have hsearch := Literal.search_encode (t := String.ofList t)
      (by simpa using hts t List.mem_cons_self) a s z
    rw [String.toList_ofList] at hsearch
    rw [List.map_cons, List.foldlM_cons, List.foldlM_cons, hsearch]
    cases hr : behindFirst? t s with
    | none => rfl
    | some r =>
      -- the other texts are searched behind `a ++ x ++ b`, in the rest `r`
      obtain ⟨x, b, rfl, -⟩ := Pattern.exists_of_behindFirst? hr
      have hrest := ih (fun u hu => hts u (List.mem_cons_of_mem t hu)) (a ++ x ++ b) r
      have hstart : (encode (a ++ (x ++ b ++ r))).length - (encode r).length
          = (encode (a ++ x ++ b)).length := by
        simp only [Utf8.encode_append, List.length_append]
        omega
      simp only [List.append_assoc] at hrest hstart ⊢
      simp only [Option.map_some, Option.bind_eq_bind, Option.bind_some, hstart]
      exact hrest

/-- On the bytes of a text a shape is matched as on its characters. -/
theorem accepts_encode {texts : Shape (List Char)} (h : texts.Plain) (s : List Char) :
    texts.toLiterals.accepts (encode s) = texts.acceptsText s := by
  cases texts with
  | catchAll => rfl
  | exact t =>
    have ht := Literal.takesAll_encode (String.ofList t) s
    rwa [String.toList_ofList] at ht
  | structured first inner last =>
    have hinner : ∀ t ∈ inner, t ≠ [] := fun _ ht => (h.of_mem_inner ht).1
    rw [toLiterals, map, accepts_structured, elim_matchFrom_encode, acceptsText]
    cases hfront : front? (first.getD []) s with
    | none => rfl
    | some rest =>
      obtain ⟨a, rfl, -⟩ := Pattern.front?_eq_some_iff.1 hfront
      have hstart : (encode (a ++ rest)).length - (encode rest).length = (encode a).length := by
        simp
      rw [Option.map_some, Option.bind_some, Option.bind_some, hstart, elim_matchEnd_encode]
      cases hback : back? (last.getD []) rest with
      | none => rfl
      | some middle =>
        obtain ⟨b, rfl, -⟩ := Pattern.back?_eq_some_iff.1 hback
        rw [Option.map_some, Option.bind_some, Option.bind_some, ← List.append_assoc,
          foldlM_search_encode hinner, Option.isSome_map]

/-! ### Least lengths -/

/-- A text has no fewer bytes than the characters of the pattern besides `*`. -/
lemma length_encode_filter_le {p s : List Char} (h : Matches p s) :
    (encode (p.filter (· ≠ '*'))).length ≤ (encode s).length := by
  induction h with
  | nil => simp
  | run taken _ ih =>
    rw [List.filter_cons_of_neg (by simp), Utf8.encode_append, List.length_append]
    omega
  | any c _ ih =>
    have := c.utf8Size_pos
    rw [List.filter_cons_of_pos (by simp), Utf8.encode_cons, Utf8.encode_cons,
      Literal.encodeChar_any, List.length_append, List.length_append,
      String.length_utf8EncodeChar, List.length_singleton]
    omega
  | same hstar _ _ ih =>
    rw [List.filter_cons_of_pos (by simpa using hstar), Utf8.encode_cons, Utf8.encode_cons,
      List.length_append, List.length_append]
    omega

lemma filter_eq_self_of_plain {t : List Char} (h : '*' ∉ t) : t.filter (· ≠ '*') = t := by
  rw [List.filter_eq_self]
  intro c hc
  simpa using fun hstar : c = '*' => h (hstar ▸ hc)

/-- The texts of a shape are what it spells besides `*`. -/
lemma flatten_literals {texts : Shape (List Char)} (h : texts.Plain) :
    texts.literals.flatten = texts.render.filter (· ≠ '*') := by
  cases texts with
  | catchAll => rfl
  | exact t =>
    have ht := (h t (List.mem_singleton_self t)).2
    simp only [literals, render, List.flatten_singleton, filter_eq_self_of_plain ht]
  | structured first inner last =>
    have hend : ∀ x? : Option (List Char), (∀ t ∈ x?, '*' ∉ t) →
        (x?.getD []).filter (· ≠ '*') = x?.toList.flatten := by
      rintro (_ | t) hx
      · rfl
      · rw [Option.getD_some, filter_eq_self_of_plain (hx t rfl)]
        simp
    have hinner : (inner.flatMap ('*' :: ·)).filter (· ≠ '*') = inner.flatten := by
      rw [List.filter_flatMap, ← List.flatMap_id]
      refine List.flatMap_congr fun t ht => ?_
      have hplain := (h.of_mem_inner ht).2
      rw [List.filter_cons_of_neg (by simp), filter_eq_self_of_plain hplain]
      rfl
    rw [literals, render, List.flatten_append, List.flatten_append, List.filter_append,
      List.filter_append, List.filter_cons_of_neg (by simp), hinner,
      hend first fun t ht => (h t (by simp_all [literals])).2,
      hend last fun t ht => (h t (by simp_all [literals])).2]

/-- Every text that a shape matches has room for the bytes of its texts. -/
lemma length_flatMap_encode_le {texts : Shape (List Char)} (h : texts.Plain) {s : List Char}
    (hs : Matches texts.render s) :
    (texts.literals.flatMap encode).length ≤ (encode s).length := by
  have henc : texts.literals.flatMap encode = encode texts.literals.flatten := by
    rw [encode, List.flatten_eq_flatMap, List.flatMap_assoc]
    rfl
  rw [henc, flatten_literals h]
  exact length_encode_filter_le hs

end Shape

lemma Rule.accepts_catchAll (table : LiteralTable) (subject : List UInt8) :
    Rule.catchAll.accepts table subject = true := rfl

end AgentCatalog
