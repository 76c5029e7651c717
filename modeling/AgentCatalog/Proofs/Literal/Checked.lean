import AgentCatalog.Proofs.Literal.Bounds
import AgentCatalog.Proofs.Literal.FirstMatch

/-!
# Matching with every access checked

A matcher that works on offsets reads a byte at an index, cuts a slice, and subtracts one offset from
another. Here it is written with these three accesses as they are: each is a fault where there is
no such byte, no such slice, or less than what is subtracted. That a literal does not match is no
fault. Where the byte at an offset may be missing, and is only asked for, there is none either.

* `gives_checkedMatchFrom`, `gives_checkedTakesAll` and `gives_checkedMatchEnd`: matching on any bytes
  is without faults and comes out as it does on lists;
* `gives_checkedSearch`: so does the search, up to a limit within the subject.
-/

namespace AgentCatalog

/-! ### Accesses -/

/-- An access to what is not there. -/
inductive Fault where
  /-- A row of this length has nothing at the index. -/
  | index (i length : Nat)
  /-- Bytes of this length have no such slice. -/
  | slice (start stop length : Nat)
  /-- There is less than what is subtracted from it. -/
  | difference (m n : Nat)
deriving DecidableEq, Repr

/-- Something that is looked for with every access checked. It is there or not, or an access
fails. -/
abbrev Checked (α : Type) := OptionT (Except Fault) α

namespace Checked

variable {α β : Type}

/-- What is found without an access. -/
def ofOption (found? : Option α) : Checked α :=
  OptionT.mk (.ok found?)

/-- An access that fails. -/
def fault (f : Fault) : Checked α :=
  OptionT.mk (.error f)

/-- The byte at an index. -/
def byteAt (bytes : List UInt8) (i : Nat) : Checked UInt8 :=
  match bytes[i]? with
  | some b => pure b
  | none => fault (.index i bytes.length)

/-- The bytes from one offset up to another. -/
def slice (bytes : List UInt8) (start stop : Nat) : Checked (List UInt8) :=
  if start ≤ stop ∧ stop ≤ bytes.length then pure ((bytes.take stop).drop start)
  else fault (.slice start stop bytes.length)

/-- The difference of two offsets. -/
def minus (m n : Nat) : Checked Nat :=
  if n ≤ m then pure (m - n) else fault (.difference m n)

/-- No access fails, and what is found is told. -/
def Gives (x : Checked α) (found? : Option α) : Prop :=
  x.run = .ok found?

lemma gives_pure (a : α) : Gives (pure a) (some a) := rfl

lemma gives_failure : Gives (failure : Checked α) none := rfl

lemma gives_ite {p q : Prop} [Decidable p] [Decidable q] (h : p ↔ q) (a : α) :
    Gives (if p then pure a else failure) (if q then some a else none) := by
  by_cases hp : p
  · rw [if_pos hp, if_pos (h.1 hp)]
    exact gives_pure a
  · rw [if_neg hp, if_neg fun hq => hp (h.2 hq)]
    exact gives_failure

lemma gives_ofOption (found? : Option α) : Gives (ofOption found?) found? := rfl

section Rules

variable {x y : Checked α} {f : α → Checked β}

lemma Gives.bind_some {a : α} {found? : Option β} (hx : Gives x (some a))
    (hf : Gives (f a) found?) : Gives (x >>= f) found? := by
  have hrun : x.run = .ok (some a) := hx
  rw [Gives, OptionT.run_bind, hrun]
  exact hf

lemma Gives.bind_none (hx : Gives x none) : Gives (x >>= f) none := by
  have hrun : x.run = .ok none := hx
  rw [Gives, OptionT.run_bind, hrun]
  rfl

/-- One step after the other. The second has to give something only for what the first one finds. -/
lemma Gives.bind {found? : Option α} {g : α → Option β} (hx : Gives x found?)
    (hf : ∀ a, found? = some a → Gives (f a) (g a)) : Gives (x >>= f) (found?.bind g) := by
  cases found? with
  | none => exact hx.bind_none
  | some a => exact hx.bind_some (hf a rfl)

lemma Gives.orElse_some {a : α} (hx : Gives x (some a)) : Gives (x <|> y) (some a) := by
  have hrun : x.run = .ok (some a) := hx
  show (x.run >>= fun _ => _) = _
  rw [hrun]
  rfl

lemma Gives.orElse_none {found? : Option α} (hx : Gives x none) (hy : Gives y found?) :
    Gives (x <|> y) found? := by
  have hrun : x.run = .ok none := hx
  show (x.run >>= fun _ => _) = _
  rw [hrun]
  exact hy

end Rules

lemma gives_byteAt {bytes : List UInt8} {i : Nat} {b : UInt8} (h : bytes[i]? = some b) :
    Gives (byteAt bytes i) (some b) := by
  rw [byteAt, h]
  exact gives_pure b

lemma gives_slice {bytes : List UInt8} {start stop : Nat} (hstart : start ≤ stop)
    (hstop : stop ≤ bytes.length) :
    Gives (slice bytes start stop) (some ((bytes.take stop).drop start)) := by
  rw [slice, if_pos ⟨hstart, hstop⟩]
  exact gives_pure _

lemma gives_minus {m n : Nat} (h : n ≤ m) : Gives (minus m n) (some (m - n)) := by
  rw [minus, if_pos h]
  exact gives_pure _

end Checked

namespace Literal

open Checked
open Utf8 (isContinuation skipBack width)

/-! ### Matching by offsets -/

/-- Where the bytes of a literal end if they are matched from an offset on. Each byte of the subject
may be missing, so there are no faults. -/
def walkFront (subject : List UInt8) : List UInt8 → Nat → Option Nat
  | [], place => some place
  | b :: bytes, place =>
    if b = anyByte then
      match subject[place]? with
      | some first =>
        if place + width first ≤ subject.length then walkFront subject bytes (place + width first)
        else none
      | none => none
    else if subject[place]? = some b then walkFront subject bytes (place + 1)
    else none

/-- `matchFrom` by offsets. -/
def checkedMatchFrom (l : Literal) (subject : List UInt8) (start : Nat) : Checked Nat :=
  if l.hasAnyChar then ofOption (walkFront subject l.bytes start)
  else if start + l.bytes.length ≤ subject.length then do
    let bytes ← slice subject start (start + l.bytes.length)
    if bytes = l.bytes then return start + l.bytes.length else failure
  else failure

/-- `takesAll` by offsets. -/
def checkedTakesAll (l : Literal) (subject : List UInt8) : Checked Unit :=
  if l.hasAnyChar then do
    let stop ← l.checkedMatchFrom subject 0
    if stop = subject.length then return () else failure
  else if subject = l.bytes then return () else failure

/-- The offset of the character whose last byte is at an index. -/
def charStart (subject : List UInt8) : Nat → Checked Nat
  | 0 => return 0
  | i + 1 => do
    let b ← byteAt subject (i + 1)
    if isContinuation b then charStart subject i else return i + 1

/-- Where the bytes of a literal, given in reverse order, start if they end at an offset. -/
def walkBack (subject : List UInt8) : List UInt8 → Nat → Checked Nat
  | [], place => return place
  | b :: bytes, place =>
    if place = 0 then failure
    else do
      let i ← minus place 1
      if b = anyByte then do
        let start ← charStart subject i
        walkBack subject bytes start
      else do
        let c ← byteAt subject i
        if c = b then walkBack subject bytes i else failure

/-- `matchEnd` by offsets. -/
def checkedMatchEnd (l : Literal) (subject : List UInt8) (floor : Nat) : Checked Nat :=
  if l.hasAnyChar then do
    let start ← walkBack subject l.bytes.reverse subject.length
    if floor ≤ start then return start else failure
  else if l.bytes.length ≤ subject.length then do
    let start ← minus subject.length l.bytes.length
    if floor ≤ start ∧ l.bytes <:+ subject then return start else failure
  else failure

/-- The search of a literal that starts with `?`, from an offset on: from character to character. -/
def charsFrom (l : Literal) (window : List UInt8) (start : Nat) : Checked Nat :=
  if start < window.length then
    l.checkedMatchFrom window start <|> do
      let first ← byteAt window start
      l.charsFrom window (start + width first)
  else failure
termination_by window.length - start
decreasing_by have := Utf8.width_pos first; omega

/-- The search of a literal with bytes before its first `?`, from an offset on: at the places where a
finder has these bytes. -/
def headFrom (find : List UInt8 → List UInt8 → Option Nat) (l : Literal) (window : List UInt8)
    (start : Nat) : Checked Nat :=
  if start < window.length then do
    let rest ← slice window start window.length
    let i ← ofOption (find l.head rest)
    l.checkedMatchFrom window (start + i) <|> l.headFrom find window (start + i + 1)
  else failure
termination_by window.length - start

/-- `searchWith` by offsets. -/
def checkedSearch (find : List UInt8 → List UInt8 → Option Nat) (l : Literal)
    (subject : List UInt8) (start limit : Nat) : Checked Nat :=
  if limit < start then failure
  else do
    let room ← minus limit start
    if room < l.minLength then failure
    else
      let window ← slice subject 0 limit
      if l.head.isEmpty then l.charsFrom window start
      else if l.hasAnyChar then l.headFrom find window start
      else
        let rest ← slice window start window.length
        let i ← ofOption (find l.bytes rest)
        return start + i + l.bytes.length

/-! ### From the front -/

variable {l : Literal} {subject window : List UInt8} {start floor limit : Nat}

lemma walkFront_eq {place : Nat} (h : place ≤ subject.length) (bytes : List UInt8) :
    walkFront subject bytes place
      = (takeFront? bytes (subject.drop place)).map (subject.length - ·.length) := by
  induction bytes generalizing place with
  | nil =>
    simp only [walkFront, takeFront?, Option.map_some, List.length_drop, Option.some.injEq]
    omega
  | cons b bytes ih =>
    rw [walkFront]
    rcases Nat.eq_or_lt_of_le h with rfl | hlt
    · -- at the end there is no byte to be taken
      rw [List.getElem?_eq_none (Nat.le_refl _), List.drop_length]
      by_cases hb : b = anyByte
      · rw [if_pos hb, hb, takeFront?_any_cons]
        rfl
      · rw [if_neg hb, takeFront?_cons_nil hb]
        rfl
    · rw [List.getElem?_eq_getElem hlt, List.drop_eq_getElem_cons hlt]
      by_cases hb : b = anyByte
      · subst hb
        have hwidth := Utf8.width_pos subject[place]
        have hlen : (subject.drop (place + 1)).length + 1 = subject.length - place := by
          rw [List.length_drop]
          omega
        rw [if_pos rfl, takeFront?_any_cons, Utf8.skipFront?, hlen]
        dsimp only
        by_cases hroom : place + width subject[place] ≤ subject.length
        · rw [if_pos hroom, if_pos (by omega), Option.bind_some, ih hroom, List.drop_drop]
          congr 3
          omega
        · rw [if_neg hroom, if_neg (by omega)]
          rfl
      · rw [if_neg hb, takeFront?_cons_cons hb]
        by_cases hc : subject[place] = b
        · rw [if_pos (congrArg some hc), if_pos hc, ih hlt]
        · rw [if_neg fun h => hc (Option.some.inj h), if_neg hc]
          rfl

lemma walkFront_of_lt {place : Nat} (h : subject.length < place) {bytes : List UInt8}
    (hne : bytes ≠ []) : walkFront subject bytes place = none := by
  obtain ⟨b, bytes, rfl⟩ := List.exists_cons_of_ne_nil hne
  rw [walkFront, List.getElem?_eq_none (Nat.le_of_lt h)]
  split <;> rfl

theorem gives_checkedMatchFrom (l : Literal) (subject : List UInt8) (start : Nat) :
    Gives (l.checkedMatchFrom subject start) (l.matchFrom subject start) := by
  rw [checkedMatchFrom]
  by_cases hany : l.hasAnyChar = true
  · rw [if_pos hany, matchFrom_eq]
    split
    · next hlt =>
      have hne : l.bytes ≠ [] := List.ne_nil_of_mem (hasAnyChar_eq_true_iff.1 hany)
      rw [walkFront_of_lt hlt hne]
      exact gives_ofOption none
    · next hle =>
      rw [walkFront_eq (Nat.le_of_not_lt hle)]
      exact gives_ofOption _
  · rw [if_neg hany, matchFrom, if_neg hany]
    split
    · next hroom =>
      have hle : ¬subject.length < start := by omega
      rw [if_neg hle]
      refine (gives_slice (Nat.le_add_right start _) hroom).bind_some (gives_ite ?_ _)
      rw [List.isPrefixOf_iff_prefix, List.prefix_iff_eq_take, List.drop_take,
        Nat.add_sub_cancel_left, eq_comm]
    · next hroom =>
      -- without room for its bytes the literal is not found either
      split
      · exact gives_failure
      · rw [if_neg fun hp => ?_]
        · exact gives_failure
        · have := (List.isPrefixOf_iff_prefix.1 hp).length_le
          rw [List.length_drop] at this
          omega

theorem gives_checkedTakesAll (l : Literal) (subject : List UInt8) :
    Gives (l.checkedTakesAll subject) (if l.takesAll subject then some () else none) := by
  rw [checkedTakesAll, takesAll]
  split
  · have hmatch := gives_checkedMatchFrom l subject 0
    cases h : l.matchFrom subject 0 with
    | none =>
      rw [h] at hmatch
      exact hmatch.bind_none
    | some stop =>
      rw [h] at hmatch
      exact hmatch.bind_some (gives_ite (by rw [beq_iff_eq, Option.some.injEq]) ())
  · exact gives_ite beq_iff_eq.symm ()

/-! ### From the back -/

lemma reverse_take_succ {i : Nat} (hi : i < subject.length) :
    (subject.take (i + 1)).reverse = subject[i] :: (subject.take i).reverse := by
  rw [← List.take_append_getElem hi, List.reverse_append]
  rfl

/-- What is left of the bytes before an offset, in reverse order, is all that is before another. -/
lemma reverse_take_of_suffix {place : Nat} {left : List UInt8}
    (h : left <:+ (subject.take place).reverse) : (subject.take left.length).reverse = left := by
  have hprefix : left.reverse <+: subject :=
    (List.reverse_suffix.1 (by rwa [List.reverse_reverse])).trans (List.take_prefix place subject)
  rw [← List.length_reverse, ← List.prefix_iff_eq_take.1 hprefix, List.reverse_reverse]

lemma gives_charStart {i : Nat} (hi : i < subject.length) :
    Gives (charStart subject i) (some (skipBack (subject.take (i + 1)).reverse).length) := by
  induction i with
  | zero =>
    have hlt := Utf8.length_skipBack_lt subject[0] []
    rw [reverse_take_succ hi, List.take_zero, List.reverse_nil]
    rw [Nat.lt_one_iff.1 hlt]
    exact gives_pure 0
  | succ i ih =>
    rw [charStart, reverse_take_succ hi, skipBack]
    refine (gives_byteAt (List.getElem?_eq_getElem hi)).bind_some ?_
    split
    · exact ih (Nat.lt_of_succ_lt hi)
    · rw [List.length_reverse, List.length_take, Nat.min_eq_left (Nat.le_of_lt hi)]
      exact gives_pure _

lemma gives_walkBack {place : Nat} (h : place ≤ subject.length) (bytes : List UInt8) :
    Gives (walkBack subject bytes place)
      ((takeBack? bytes (subject.take place).reverse).map List.length) := by
  induction bytes generalizing place with
  | nil =>
    rw [walkBack, takeBack?, Option.map_some, List.length_reverse, List.length_take,
      Nat.min_eq_left h]
    exact gives_pure place
  | cons b bytes ih =>
    cases place with
    | zero => exact gives_failure
    | succ i =>
      rw [walkBack, if_neg (Nat.succ_ne_zero i)]
      refine (gives_minus (Nat.le_add_left 1 i)).bind_some ?_
      rw [Nat.add_sub_cancel, reverse_take_succ h, takeBack?, ← reverse_take_succ h]
      by_cases hb : b = anyByte
      · rw [if_pos hb, if_pos hb]
        refine (gives_charStart h).bind_some ?_
        have hsuffix := Utf8.skipBack_suffix (subject.take (i + 1)).reverse
        have hle := hsuffix.length_le
        rw [List.length_reverse, List.length_take] at hle
        have hrest := ih (Nat.le_trans hle (Nat.min_le_right _ _))
        rwa [reverse_take_of_suffix hsuffix] at hrest
      · rw [if_neg hb, if_neg hb]
        refine (gives_byteAt (List.getElem?_eq_getElem h)).bind_some ?_
        split
        · exact ih (Nat.le_of_succ_le h)
        · exact gives_failure

theorem gives_checkedMatchEnd (l : Literal) (subject : List UInt8) (floor : Nat) :
    Gives (l.checkedMatchEnd subject floor) (l.matchEnd subject floor) := by
  rw [checkedMatchEnd]
  by_cases hany : l.hasAnyChar = true
  · have hwalk := gives_walkBack (Nat.le_refl subject.length) l.bytes.reverse
    rw [if_pos hany, matchEnd_eq]
    rw [List.take_length] at hwalk
    cases hleft : takeBack? l.bytes.reverse subject.reverse with
    | none =>
      rw [hleft] at hwalk
      exact hwalk.bind_none
    | some left =>
      rw [hleft] at hwalk
      rw [Option.map_some, Option.filter_some]
      exact hwalk.bind_some (gives_ite decide_eq_true_iff.symm _)
  · rw [if_neg hany, matchEnd, if_neg hany]
    by_cases hsuffix : l.bytes <:+ subject
    · have hlen := hsuffix.length_le
      rw [if_pos hlen, if_pos (List.isSuffixOf_iff_suffix.2 hsuffix), Option.filter_some]
      refine (gives_minus hlen).bind_some (gives_ite ?_ _)
      rw [and_iff_left hsuffix, decide_eq_true_iff]
    · rw [if_neg fun hs => hsuffix (List.isSuffixOf_iff_suffix.1 hs)]
      split
      · next hlen =>
        refine (gives_minus hlen).bind_some ?_
        rw [if_neg fun hs => hsuffix hs.2]
        exact gives_failure
      · exact gives_failure

/-! ### Searching -/

lemma gives_checkedMatchFrom_of_le (l : Literal) (hstart : start ≤ window.length) :
    Gives (l.checkedMatchFrom window start)
      ((takeFront? l.bytes (window.drop start)).map (window.length - ·.length)) := by
  have hmatch := gives_checkedMatchFrom l window start
  rwa [matchFrom_eq, if_neg (Nat.not_lt_of_le hstart)] at hmatch

/-- Where a match ends, from the start of a search at or before it. -/
lemma stop_eq {place : Nat} {left : List UInt8} (hplace : start ≤ place)
    (hlt : start < window.length) (hleft : takeFront? l.bytes (window.drop place) = some left) :
    window.length - left.length = start + ((window.drop (start + 1)).length + 1 - left.length) := by
  have hlen := length_add_le_of_takeFront? hleft
  rw [List.length_drop] at hlen ⊢
  omega

lemma add_comp_add (start k : Nat) : (start + ·) ∘ (· + k) = (start + k + ·) := by
  funext i
  show start + (i + k) = start + k + i
  omega

lemma gives_charsFrom (l : Literal) (window : List UInt8) (start : Nat) :
    Gives (l.charsFrom window start) ((l.searchChars (window.drop start)).map (start + ·)) := by
  -- on what is left of the window, from one character to the next
  induction hn : window.length - start using Nat.strongRecOn generalizing start with
  | ind n ih =>
    rw [charsFrom]
    split
    · next hlt =>
      have hdrop := List.drop_eq_getElem_cons hlt
      have hmatch := gives_checkedMatchFrom_of_le l (Nat.le_of_lt hlt)
      rw [hdrop, searchChars, ← hdrop]
      cases hleft : takeFront? l.bytes (window.drop start) with
      | some left =>
        rw [hleft, Option.map_some, stop_eq (Nat.le_refl start) hlt hleft] at hmatch
        exact hmatch.orElse_some
      | none =>
        have hpos := Utf8.width_pos window[start]
        have hnext : start + 1 + (Utf8.width window[start] - 1) = start + Utf8.width window[start] := by
          omega
        rw [hleft] at hmatch
        refine hmatch.orElse_none ((gives_byteAt (List.getElem?_eq_getElem hlt)).bind_some ?_)
        rw [List.drop_drop, hnext, Option.map_map, add_comp_add]
        exact ih _ (by omega) _ rfl
    · next hge =>
      rw [List.drop_eq_nil_of_le (Nat.le_of_not_lt hge), searchChars]
      exact gives_failure

variable {find : List UInt8 → List UInt8 → Option Nat}

lemma gives_headFrom (hfind : FindsFirst find) {l : Literal} (hl : l.head ≠ [])
    (window : List UInt8) (start : Nat) :
    Gives (l.headFrom find window start) ((l.searchHead (window.drop start)).map (start + ·)) := by
  -- on what is left of the window, from one place of the head to the next
  induction hn : window.length - start using Nat.strongRecOn generalizing start with
  | ind n ih =>
    rw [headFrom]
    split
    · next hlt =>
      have hdrop := List.drop_eq_getElem_cons hlt
      refine (gives_slice (Nat.le_of_lt hlt) (Nat.le_refl _)).bind_some ?_
      rw [List.take_length, hfind.eq_indexOf? hl, hdrop, searchHead, ← hdrop]
      cases hi : indexOf? l.head (window.drop start) with
      | none => exact (gives_ofOption none).bind_none
      | some i =>
        have hle := (indexOf?_eq_some hi).1
        rw [List.length_drop] at hle
        have hstart : start + i ≤ window.length := by omega
        have hmatch := gives_checkedMatchFrom_of_le l hstart
        refine (gives_ofOption (some i)).bind_some ?_
        dsimp only
        rw [List.drop_drop]
        cases hleft : takeFront? l.bytes (window.drop (start + i)) with
        | some left =>
          rw [hleft, Option.map_some, stop_eq (Nat.le_add_right start i) hlt hleft] at hmatch
          exact hmatch.orElse_some
        | none =>
          have hnext : start + 1 + i = start + i + 1 := by omega
          rw [hleft] at hmatch
          refine hmatch.orElse_none ?_
          rw [List.drop_drop, hnext, Option.map_map, add_comp_add]
          exact ih _ (by omega) _ rfl
    · next hge =>
      rw [List.drop_eq_nil_of_le (Nat.le_of_not_lt hge), searchHead]
      exact gives_failure

/-- The search up to a limit within the subject is without faults, whatever finder of first places
is used. -/
theorem gives_checkedSearch (hfind : FindsFirst find) (l : Literal) {subject : List UInt8}
    (start : Nat) {limit : Nat} (hlimit : limit ≤ subject.length) :
    Gives (l.checkedSearch find subject start limit) (l.search subject start limit) := by
  rw [checkedSearch, search]
  by_cases hlt : limit < start
  · rw [if_pos hlt, if_pos (.inl hlt)]
    exact gives_failure
  · have hle := Nat.le_of_not_lt hlt
    rw [if_neg hlt]
    refine (gives_minus hle).bind_some ?_
    split
    · next hshort =>
      rw [if_pos (.inr hshort)]
      exact gives_failure
    · next hroom =>
      rw [if_neg (not_or.2 ⟨hlt, hroom⟩)]
      refine (gives_slice (Nat.zero_le limit) hlimit).bind_some ?_
      rw [List.drop_zero]
      dsimp only
      split
      · exact gives_charsFrom l _ start
      · next hhead =>
        have hl : l.head ≠ [] := by simpa using hhead
        split
        · exact gives_headFrom hfind hl _ start
        · have hbytes : l.bytes ≠ [] := by
            intro hnil
            exact hl (by rw [head, hnil]; rfl)
          have hwindow : start ≤ (subject.take limit).length := by
            rwa [List.length_take, Nat.min_eq_left hlimit]
          refine (gives_slice hwindow (Nat.le_refl _)).bind_some ?_
          rw [List.take_length, hfind.eq_indexOf? hbytes]
          cases hi : indexOf? l.bytes ((subject.take limit).drop start) with
          | none => exact (gives_ofOption none).bind_none
          | some i =>
            refine (gives_ofOption (some i)).bind_some ?_
            rw [Option.map_some, Option.map_some, ← Nat.add_assoc]
            exact gives_pure _

end Literal

end AgentCatalog
