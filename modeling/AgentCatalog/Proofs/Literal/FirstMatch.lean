import AgentCatalog.Proofs.Literal.Search
import AgentCatalog.Proofs.Text.Boundary

/-!
# The first match of a literal in a window

The search of a literal is compared with the matches that start at a boundary of the text, at
`start` or later, and end at `limit` or before (`MatchesWithin`). Whatever finds the bytes of a
literal, as long as it finds the first place of them,

* `searchWith_eq`: does not matter to what is found;
* `firstMatchEnd_searchWith`: what is found is the end of the first match, there is one if there is
  a match, and no match ends before it.

That only boundaries count makes a difference for literals that start with `?`, which takes a single
byte within a character: a literal with a first byte matches at boundaries only
(`boundary_of_matchFrom`).
-/

namespace AgentCatalog.Literal

open Utf8 (encode CutOff Boundary)
open Pattern (Covers front? behindFirst?)

/-! ### Finders of bytes -/

/-- What is asked of a finder of bytes: of the places where they occur it finds the first. Nothing
is said of no bytes, which occur at every place. -/
def FindsFirst (find : List UInt8 → List UInt8 → Option Nat) : Prop :=
  ∀ bytes window, bytes ≠ [] → ∀ i, find bytes window = some i ↔
    bytes <+: window.drop i ∧ ∀ j < i, ¬ bytes <+: window.drop j

lemma indexOf?_findsFirst : FindsFirst indexOf? := by
  intro bytes window _ i
  constructor
  · exact fun h => (indexOf?_eq_some h).2
  · rintro ⟨hp, hfirst⟩
    cases hi : indexOf? bytes window with
    | none => exact absurd hp (indexOf?_eq_none hi i)
    | some k =>
      obtain ⟨-, hk, hkfirst⟩ := indexOf?_eq_some hi
      rcases Nat.lt_trichotomy i k with hlt | rfl | hlt
      · exact absurd hp (hkfirst i hlt)
      · rfl
      · exact absurd hk (hfirst k hlt)

variable {find : List UInt8 → List UInt8 → Option Nat}

lemma FindsFirst.eq_indexOf? (hfind : FindsFirst find) {bytes : List UInt8} (hb : bytes ≠ [])
    (window : List UInt8) : find bytes window = indexOf? bytes window := by
  ext i
  rw [hfind bytes window hb i, indexOf?_findsFirst bytes window hb i]

/-- The search for the bytes before the first `?`, with any finder. -/
def searchHeadWith (find : List UInt8 → List UInt8 → Option Nat) (l : Literal)
    (window : List UInt8) : Option Nat :=
  match window with
  | [] => none
  | b :: rest =>
    match find l.head (b :: rest) with
    | none => none
    | some i =>
      match takeFront? l.bytes ((b :: rest).drop i) with
      | some left => some (rest.length + 1 - left.length)
      | none => (searchHeadWith find l (rest.drop i)).map (· + (i + 1))
termination_by window.length
decreasing_by simp only [List.length_drop, List.length_cons]; omega

/-- The search, with any finder: from character to character if the literal starts with `?`, at the
places of the bytes before its first `?` if it has one, and else at the first place of its bytes. -/
def searchWith (find : List UInt8 → List UInt8 → Option Nat) (l : Literal) (subject : List UInt8)
    (start limit : Nat) : Option Nat :=
  if limit < start ∨ limit - start < l.minLength then none
  else
    let window := (subject.take limit).drop start
    let length? :=
      if l.head.isEmpty then l.searchChars window
      else if l.hasAnyChar then l.searchHeadWith find window
      else (find l.bytes window).map (· + l.bytes.length)
    length?.map (start + ·)

lemma searchHeadWith_eq (hfind : FindsFirst find) {l : Literal} (hl : l.head ≠ [])
    (window : List UInt8) : l.searchHeadWith find window = l.searchHead window := by
  induction window using searchHead.induct l with
  | case1 => rw [searchHeadWith, searchHead]
  | case2 b rest hi =>
    rw [searchHeadWith, searchHead, hfind.eq_indexOf? hl, hi]
  | case3 b rest i hi left hleft =>
    rw [searchHeadWith, searchHead, hfind.eq_indexOf? hl, hi]
    simp only [hleft]
  | case4 b rest i hi hnone ih =>
    rw [searchHeadWith, searchHead, hfind.eq_indexOf? hl, hi]
    simp only [hnone, ih]

/-- Finders that find the first place are as good as each other. -/
theorem searchWith_eq (hfind : FindsFirst find) (l : Literal) :
    l.searchWith find = l.search := by
  funext subject start limit
  have hhead : ∀ window, l.head.isEmpty = false →
      l.searchHeadWith find window = l.searchHead window := by
    intro window h
    exact searchHeadWith_eq hfind (by simpa using h) window
  rw [searchWith, search]
  split
  · rfl
  · dsimp only
    cases h : l.head.isEmpty with
    | true => rfl
    | false =>
      have hbytes : l.bytes ≠ [] := by
        intro hnil
        simp [head, hnil] at h
      rw [hhead _ h, hfind.eq_indexOf? hbytes]

/-! ### Matches -/

/-- The literal takes the text from the offset `place`, which is a boundary, up to the offset `stop`,
and the window from `start` to `limit` has both. -/
structure MatchesWithin (l : Literal) (s : List Char) (start limit place stop : Nat) : Prop where
  boundary : Boundary s place
  matchFrom_eq : l.matchFrom (encode s) place = some stop
  start_le : start ≤ place
  stop_le : stop ≤ limit

/-- What is found is the end of the first match in the window, if there is a match, and the least end
of any match behind `start`. -/
structure FirstMatchEnd (l : Literal) (s : List Char) (start limit : Nat) (found : Option Nat) :
    Prop where
  eq_some_iff : ∀ stop, found = some stop ↔ ∃ place, l.MatchesWithin s start limit place stop ∧
    ∀ place' < place, ∀ stop', ¬ l.MatchesWithin s start limit place' stop'
  eq_none_iff : found = none ↔ ∀ place stop, ¬ l.MatchesWithin s start limit place stop
  le_of_matchFrom : ∀ stop, found = some stop → ∀ place stop', Boundary s place → start ≤ place →
    l.matchFrom (encode s) place = some stop' → stop ≤ stop'

variable {t : String}

/-- From a boundary on the literal takes the bytes of what its characters cover. -/
lemma matchFrom_boundary_iff {s : List Char} {place stop : Nat} :
    Boundary s place ∧ (ofText t).matchFrom (encode s) place = some stop ↔
      ∃ x u z, s = x ++ u ++ z ∧ Covers t.toList u ∧ (encode x).length = place ∧
        (encode (x ++ u)).length = stop := by
  constructor
  · rintro ⟨⟨x, y, rfl, rfl⟩, h⟩
    rw [matchFrom_encode, Option.map_eq_some_iff] at h
    obtain ⟨z, hz, rfl⟩ := h
    obtain ⟨u, rfl, hu⟩ := Pattern.front?_eq_some_iff.1 hz
    refine ⟨x, u, z, by simp, hu, rfl, ?_⟩
    simp only [Utf8.encode_append, List.length_append]
    omega
  · rintro ⟨x, u, z, rfl, hu, rfl, rfl⟩
    rw [List.append_assoc]
    refine ⟨Utf8.boundary_append x (u ++ z), ?_⟩
    rw [matchFrom_encode, Pattern.front?_eq_some_iff.2 ⟨u, rfl, hu⟩, Option.map_some,
      Option.some.injEq]
    simp only [Utf8.encode_append, List.length_append]
    omega

/-- A literal with a first byte takes nothing from within a character. -/
theorem boundary_of_matchFrom {l : Literal} (hl : l.firstByte? ≠ none) {s : List Char}
    {place stop : Nat} (h : l.matchFrom (encode s) place = some stop) : Boundary s place := by
  obtain ⟨text, bytes, rfl⟩ := l
  change (ofText text).firstByte? ≠ none at hl
  change (ofText text).matchFrom (encode s) place = some stop at h
  rw [matchFrom_eq, Option.ite_none_left_eq_some, Option.map_eq_some_iff] at h
  obtain ⟨hle, left, hleft, -⟩ := h
  refine Utf8.boundary_iff.2 ⟨Nat.le_of_not_lt hle, ?_⟩
  by_contra hcont
  rw [Bool.not_eq_false, Option.any_eq_true] at hcont
  obtain ⟨b, hb, hcont⟩ := hcont
  obtain ⟨rest, hrest⟩ := List.head?_eq_some_iff.1 hb
  cases hp : text.toList with
  | nil => simp [firstByte?, hp] at hl
  | cons p t' =>
    have hne : p ≠ '?' := by
      rintro rfl
      simp [firstByte?, hp, encodeChar_any] at hl
    rw [hrest, takeFront?_of_isContinuation hp hne hcont] at hleft
    cases hleft

/-- Within a character a `?` takes the single byte that it finds. -/
example : (ofText "?").matchFrom (encode "中".toList) 1 = some 2 := by decide

/-! ### In a window -/

/-- Behind the text `a`, the text `m` is what the window up to the offset `limit` holds of `b`. -/
structure Holds (a b : List Char) (limit : Nat) (m : List Char) : Prop where
  isPrefix : m <+: b
  fits : (encode (a ++ m)).length ≤ limit
  longest : ∀ c, c <+: b → (encode (a ++ c)).length ≤ limit → c <+: m

/-- The bytes of a window are those of the text that it holds, and some of the next character. -/
lemma exists_holds {a : List Char} {limit : Nat} (hle : (encode a).length ≤ limit) (b : List Char) :
    ∃ m part, ((encode (a ++ b)).take limit).drop (encode a).length = encode m ++ part ∧
      CutOff part ∧ Holds a b limit m := by
  obtain ⟨m, part, htake, hpart, hm, hlongest⟩ :=
    Utf8.exists_take_encode b (limit - (encode a).length)
  refine ⟨m, part, ?_, hpart, hm, ?_, fun c hc hfits => hlongest c hc ?_⟩
  · rw [List.drop_take, Utf8.encode_append, List.drop_left, htake]
  · have := congrArg List.length htake
    simp only [List.length_take, List.length_append, Utf8.encode_append] at this ⊢
    omega
  · rw [Utf8.encode_append, List.length_append] at hfits
    omega

variable {a b m : List Char} {limit : Nat}

/-- The matches in a window are those in the text that it holds. -/
lemma Holds.matchesWithin_iff (h : Holds a b limit m) {place stop : Nat} :
    (ofText t).MatchesWithin (a ++ b) (encode a).length limit place stop ↔
      ∃ x u z, m = x ++ u ++ z ∧ Covers t.toList u ∧ (encode (a ++ x)).length = place ∧
        (encode (a ++ (x ++ u))).length = stop := by
  constructor
  · rintro ⟨hb, hmatch, hstart, hstop⟩
    obtain ⟨y, u, z, hs, hu, rfl, rfl⟩ := matchFrom_boundary_iff.1 ⟨hb, hmatch⟩
    rw [List.append_assoc] at hs
    rw [Utf8.length_encode_append_le_iff hs] at hstart
    obtain ⟨x, rfl⟩ := List.prefix_of_prefix_length_le ⟨b, rfl⟩ ⟨u ++ z, hs.symm⟩ hstart
    rw [List.append_assoc, List.append_cancel_left_eq] at hs
    rw [List.append_assoc] at hstop ⊢
    obtain ⟨z', hz⟩ := h.longest (x ++ u) ⟨z, by simp [hs]⟩ hstop
    exact ⟨x, u, z', hz.symm, hu, rfl, rfl⟩
  · rintro ⟨x, u, z, rfl, hu, rfl, rfl⟩
    obtain ⟨r, rfl⟩ := h.isPrefix
    obtain ⟨hb, hmatch⟩ := (matchFrom_boundary_iff (t := t)).2
      ⟨a ++ x, u, z ++ r, rfl, hu, rfl, rfl⟩
    have hs : a ++ (x ++ u ++ z ++ r) = a ++ x ++ u ++ (z ++ r) := by simp
    have hfits := h.fits
    rw [hs]
    refine ⟨hb, ?_, by simp, ?_⟩
    · rw [hmatch, List.append_assoc]
    · simp only [Utf8.encode_append, List.length_append] at hfits ⊢
      omega

/-- Behind `a`, of two texts that start the same text the one with fewer characters ends first. -/
lemma length_encode_le_iff {x y x' y' : List Char} (h : x ++ y = x' ++ y') :
    (encode (a ++ x)).length ≤ (encode (a ++ x')).length ↔ x.length ≤ x'.length := by
  rw [Utf8.encode_append, Utf8.encode_append, List.length_append, List.length_append,
    Nat.add_le_add_iff_left, Utf8.length_encode_append_le_iff h]

/-- The first place in the text that a window holds is that of the first match in the window. -/
lemma Holds.map_behindFirst?_eq_some_iff (ht : t.toList ≠ []) (h : Holds a b limit m) {stop : Nat} :
    ((behindFirst? t.toList m).map fun left =>
        (encode a).length + ((encode m).length - (encode left).length)) = some stop ↔
      ∃ place, (ofText t).MatchesWithin (a ++ b) (encode a).length limit place stop ∧
        ∀ place' < place, ∀ stop',
          ¬ (ofText t).MatchesWithin (a ++ b) (encode a).length limit place' stop' := by
  have hplaces : ∀ {x u z x' u' z'}, m = x ++ u ++ z → m = x' ++ u' ++ z' →
      ((encode (a ++ x)).length ≤ (encode (a ++ x')).length ↔ x.length ≤ x'.length) := by
    intro x u z x' u' z' hm hm'
    rw [List.append_assoc] at hm hm'
    exact length_encode_le_iff (hm.symm.trans hm')
  rw [Option.map_eq_some_iff]
  constructor
  · rintro ⟨left, hleft, rfl⟩
    obtain ⟨x, u, hm, hu, hfirst⟩ := (Pattern.behindFirst?_eq_some_iff ht).1 hleft
    refine ⟨_, h.matchesWithin_iff.2 ⟨x, u, left, hm, hu, rfl, ?_⟩, fun place' hlt stop' hmatch => ?_⟩
    · simp only [hm, Utf8.encode_append, List.length_append]
      omega
    · obtain ⟨x', u', z', hm', hu', rfl, -⟩ := h.matchesWithin_iff.1 hmatch
      have := (hplaces hm hm').2 (hfirst x' u' z' hm' hu')
      omega
  · rintro ⟨place, hmatch, hfirst⟩
    obtain ⟨x, u, z, hm, hu, rfl, rfl⟩ := h.matchesWithin_iff.1 hmatch
    refine ⟨z, (Pattern.behindFirst?_eq_some_iff ht).2 ⟨x, u, hm, hu, fun x' u' z' hm' hu' => ?_⟩, ?_⟩
    · rw [← hplaces hm hm']
      by_contra hlt
      exact hfirst _ (Nat.lt_of_not_le hlt) _ (h.matchesWithin_iff.2 ⟨x', u', z', hm', hu', rfl, rfl⟩)
    · simp only [hm, Utf8.encode_append, List.length_append]
      omega

/-- Behind a window that holds a text the first match has the least end. -/
lemma Holds.le_of_matchesWithin (h : Holds a b limit m) {place stop place' stop' : Nat}
    (hmatch : (ofText t).MatchesWithin (a ++ b) (encode a).length limit place stop)
    (hmatch' : (ofText t).MatchesWithin (a ++ b) (encode a).length limit place' stop')
    (hle : place ≤ place') : stop ≤ stop' := by
  obtain ⟨x, u, z, hm, hu, rfl, rfl⟩ := h.matchesWithin_iff.1 hmatch
  obtain ⟨x', u', z', hm', hu', rfl, rfl⟩ := h.matchesWithin_iff.1 hmatch'
  rw [length_encode_le_iff (hm.symm.trans hm')]
  rw [List.append_assoc] at hm hm'
  rw [length_encode_le_iff (hm.symm.trans hm')] at hle
  -- as many characters are taken at both places
  have := hu.length_eq
  have := hu'.length_eq
  simp only [List.length_append]
  omega

lemma Holds.behindFirst?_eq_none_iff (ht : t.toList ≠ []) (h : Holds a b limit m) :
    behindFirst? t.toList m = none ↔
      ∀ place stop, ¬ (ofText t).MatchesWithin (a ++ b) (encode a).length limit place stop := by
  rw [Pattern.behindFirst?_eq_none_iff ht]
  constructor
  · intro hnone place stop hmatch
    obtain ⟨x, u, z, hm, hu, -, -⟩ := h.matchesWithin_iff.1 hmatch
    exact hnone x u z hm hu
  · intro hnone x u z hm hu
    exact hnone _ _ (h.matchesWithin_iff.2 ⟨x, u, z, hm, hu, rfl, rfl⟩)

/-- The first place in the text that a window holds is what has to be found. -/
lemma Holds.firstMatchEnd (ht : t.toList ≠ []) (h : Holds a b limit m) :
    (ofText t).FirstMatchEnd (a ++ b) (encode a).length limit
      ((behindFirst? t.toList m).map fun left =>
        (encode a).length + ((encode m).length - (encode left).length)) where
  eq_some_iff _ := h.map_behindFirst?_eq_some_iff ht
  eq_none_iff := by rw [Option.map_eq_none_iff, h.behindFirst?_eq_none_iff ht]
  le_of_matchFrom stop hfound place' stop' hb hstart hmatch := by
    obtain ⟨place, hfirst, hnone⟩ := (h.map_behindFirst?_eq_some_iff ht).1 hfound
    rcases Nat.lt_or_ge limit stop' with hstop | hstop
    · exact Nat.le_of_lt (Nat.lt_of_le_of_lt hfirst.stop_le hstop)
    · have hwithin : (ofText t).MatchesWithin (a ++ b) (encode a).length limit place' stop' :=
        ⟨hb, hmatch, hstart, hstop⟩
      exact h.le_of_matchesWithin hfirst hwithin
        (Nat.le_of_not_lt fun hlt => hnone place' hlt stop' hwithin)

/-! ### What is found -/

lemma MatchesWithin.start_le_limit {s : List Char} {start place stop : Nat}
    (h : (ofText t).MatchesWithin s start limit place stop) : start ≤ limit := by
  obtain ⟨x, u, z, -, -, rfl, rfl⟩ := matchFrom_boundary_iff.1 ⟨h.boundary, h.matchFrom_eq⟩
  have := h.start_le
  have := h.stop_le
  simp only [Utf8.encode_append, List.length_append] at *
  omega

/-- Nothing is to be found in a window that ends before it starts. -/
lemma firstMatchEnd_none {s : List Char} {start : Nat} (hlt : limit < start) :
    (ofText t).FirstMatchEnd s start limit none := by
  have hempty : ∀ place stop, ¬ (ofText t).MatchesWithin s start limit place stop :=
    fun _ _ h => absurd h.start_le_limit (Nat.not_le_of_lt hlt)
  constructor
  · simp [hempty]
  · simp [hempty]
  · simp

/-- Whatever finder of first places is used, the search finds the end of the first match. -/
theorem firstMatchEnd_searchWith {find : List UInt8 → List UInt8 → Option Nat}
    (hfind : FindsFirst find) {l : Literal} (hl : l.text ≠ "") {s : List Char} {start limit : Nat}
    (hstart : Boundary s start) (hlimit : limit ≤ (encode s).length) :
    l.searchWith find (encode s) start limit = l.search (encode s) start limit ∧
      l.FirstMatchEnd s start limit (l.search (encode s) start limit) := by
  refine ⟨by rw [searchWith_eq hfind], ?_⟩
  obtain ⟨text, bytes, rfl⟩ := l
  change (ofText text).FirstMatchEnd s start limit ((ofText text).search (encode s) start limit)
  have ht : text.toList ≠ [] := fun h => hl (String.toList_injective h)
  obtain ⟨a, b, rfl, rfl⟩ := hstart
  rcases Nat.lt_or_ge limit (encode a).length with hlt | hle
  · rw [search, if_pos (.inl hlt)]
    exact firstMatchEnd_none hlt
  · obtain ⟨m, part, hw, hpart, hm⟩ := exists_holds hle b
    rw [search_of_window ht hle hlimit hpart hw]
    exact hm.firstMatchEnd ht

/-- The window ends within the `é`, and the match behind `v1x` in it. -/
theorem firstMatchEnd_searchWith_of_cut_window :
    (ofText "v?.").search (encode "中v1x v2.é".toList) 3 11 = some 10 ∧
      (ofText "v?.").FirstMatchEnd "中v1x v2.é".toList 3 11
        ((ofText "v?.").search (encode "中v1x v2.é".toList) 3 11) :=
  ⟨by cbv, (firstMatchEnd_searchWith indexOf?_findsFirst (l := ofText "v?.") (by decide)
    (by decide) (by decide)).2⟩

end AgentCatalog.Literal
