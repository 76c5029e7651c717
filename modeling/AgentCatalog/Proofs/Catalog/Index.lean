import AgentCatalog.Catalog.FirstByteIndex
import AgentCatalog.Proofs.Rule.Matching

/-!
# What the index leaves out

The index gives the positions of the rules without a first byte and of those that have the first
byte of the subject, and it gives them in ascending order. A rule that it leaves out has another
first byte than the subject, so it matches none:

* `mem_candidates_iff` and `pairwise_candidates`: the positions that are given, and their order;
* `head?_eq_of_accepts`: what a rule matches starts with the first byte of the rule.
-/

namespace AgentCatalog

namespace FirstByteIndex

/-! ### The lists of the index -/

lemma bucket_eq (index : FirstByteIndex) (b : UInt8) (hb : b.toNat < 256) :
    index.bucket b = index.buckets[b.toNat] := rfl

lemma bucket_empty (b : UInt8) : empty.bucket b = [] := by
  rw [bucket_eq _ _ b.toNat_lt]
  exact Vector.getElem_replicate _

lemma bucket_insert_some (index : FirstByteIndex) (i : Nat) (b b' : UInt8) :
    (index.insert i (some b')).bucket b =
      if b' = b then i :: index.bucket b else index.bucket b := by
  rw [bucket_eq _ _ b.toNat_lt, insert, Vector.getElem_set]
  simp only [UInt8.toNat_inj]
  split
  · next h => rw [h]
  · rfl

lemma bucket_foldr_insert (firstBytes : List (Option UInt8)) (k : Nat) (b : UInt8) :
    ((firstBytes.zipIdx k).foldr (fun (b?, i) index => index.insert i b?) empty).bucket b
      = firstBytes.findIdxs (· == some b) k := by
  induction firstBytes generalizing k with
  | nil => exact bucket_empty b
  | cons b? firstBytes ih =>
    rw [List.zipIdx_cons, List.foldr_cons, List.findIdxs_cons, ← ih]
    cases b? with
    | none => rfl
    | some b' => simp only [bucket_insert_some, beq_iff_eq, Option.some.injEq]

lemma others_foldr_insert (firstBytes : List (Option UInt8)) (k : Nat) :
    ((firstBytes.zipIdx k).foldr (fun (b?, i) index => index.insert i b?) empty).others
      = firstBytes.findIdxs (· == none) k := by
  induction firstBytes generalizing k with
  | nil => rfl
  | cons b? firstBytes ih =>
    rw [List.zipIdx_cons, List.foldr_cons, List.findIdxs_cons, ← ih]
    cases b? <;> rfl

/-- The positions with the first byte of the subject, which no subject without bytes has. -/
def bucketOf (firstBytes : List (Option UInt8)) (subject : List UInt8) : List Nat :=
  match subject with
  | [] => []
  | b :: _ => firstBytes.findIdxs (· == some b)

lemma mem_bucketOf_iff {firstBytes : List (Option UInt8)} {subject : List UInt8} {i : Nat} :
    i ∈ bucketOf firstBytes subject ↔
      ∃ b, firstBytes[i]? = some (some b) ∧ some b = subject.head? := by
  cases subject with
  | nil => simp [bucketOf]
  | cons b subject =>
    simp [bucketOf, List.getElem?_eq_some_iff]

lemma pairwise_bucketOf (firstBytes : List (Option UInt8)) (subject : List UInt8) :
    (bucketOf firstBytes subject).Pairwise (· < ·) := by
  cases subject with
  | nil => exact .nil
  | cons b subject => exact List.pairwise_findIdxs

/-! ### Candidates -/

lemma pairwise_merge_of_ne {xs ys : List Nat} (hxs : xs.Pairwise (· < ·))
    (hys : ys.Pairwise (· < ·)) (hne : ∀ x ∈ xs, ∀ y ∈ ys, x ≠ y) :
    (xs.merge ys (· < ·)).Pairwise (· < ·) := by
  -- no number is in both lists, so the merge does not see whether it compares by `<` or by `≤`
  have hmerge : xs.merge ys (· < ·) = xs.merge ys (· ≤ ·) := by
    have h : (xs.merge ys (· < ·)).map id = (xs.map id).merge (ys.map id) (· ≤ ·) :=
      List.map_merge fun a ha b hb => by
        have := hne a ha b hb
        simp only [id_eq, decide_eq_decide]
        omega
    simpa using h
  have hle : (xs.merge ys (· ≤ ·)).Pairwise fun a b => decide (a ≤ b) = true := by
    refine List.pairwise_merge ?_ ?_ xs ys (hxs.imp ?_) (hys.imp ?_)
    · simp only [decide_eq_true_eq]
      intro a b c
      exact Nat.le_trans
    · simp only [Bool.or_eq_true, decide_eq_true_eq]
      exact Nat.le_total
    · exact fun h => decide_eq_true (Nat.le_of_lt h)
    · exact fun h => decide_eq_true (Nat.le_of_lt h)
  have hnodup : (xs.merge ys (· ≤ ·)).Nodup := by
    rw [(List.merge_perm_append _).nodup_iff, List.nodup_append]
    exact ⟨hxs.imp Nat.ne_of_lt, hys.imp Nat.ne_of_lt, hne⟩
  rw [hmerge]
  exact (hle.and hnodup).imp fun h => Nat.lt_of_le_of_ne (of_decide_eq_true h.1) h.2

lemma candidates_eq (firstBytes : List (Option UInt8)) (subject : List UInt8) :
    (ofFirstBytes firstBytes).candidates subject =
      (bucketOf firstBytes subject).merge (firstBytes.findIdxs (· == none)) (· < ·) := by
  have hothers : (ofFirstBytes firstBytes).others = firstBytes.findIdxs (· == none) :=
    others_foldr_insert firstBytes 0
  rw [← hothers]
  cases subject with
  | nil => rfl
  | cons b subject =>
    have hbucket : (ofFirstBytes firstBytes).bucket b = firstBytes.findIdxs (· == some b) :=
      bucket_foldr_insert firstBytes 0 b
    rw [bucketOf, ← hbucket]
    rfl

theorem mem_candidates_iff {firstBytes : List (Option UInt8)} {subject : List UInt8} {i : Nat} :
    i ∈ (ofFirstBytes firstBytes).candidates subject ↔
      ∃ b?, firstBytes[i]? = some b? ∧ (b? = none ∨ b? = subject.head?) := by
  rw [candidates_eq, List.mem_merge, mem_bucketOf_iff, List.mem_findIdxs_iff_exists_getElem_pos]
  constructor
  · rintro (⟨b, hb, hhead⟩ | ⟨hi, hb⟩)
    · exact ⟨some b, hb, .inr hhead⟩
    · exact ⟨none, by simpa [List.getElem?_eq_some_iff] using ⟨hi, by simpa using hb⟩, .inl rfl⟩
  · rintro ⟨_ | b, hb, hhead⟩
    · obtain ⟨hi, hb⟩ := List.getElem?_eq_some_iff.1 hb
      exact .inr ⟨hi, by simp [hb]⟩
    · exact .inl ⟨b, hb, hhead.resolve_left (by simp)⟩

/-- The candidates are in ascending order, and none of them comes twice. -/
theorem pairwise_candidates (firstBytes : List (Option UInt8)) (subject : List UInt8) :
    ((ofFirstBytes firstBytes).candidates subject).Pairwise (· < ·) := by
  have hne : ∀ i ∈ bucketOf firstBytes subject, ∀ j ∈ firstBytes.findIdxs (· == none), i ≠ j := by
    rintro i hi _ hj rfl
    obtain ⟨b, hb, -⟩ := mem_bucketOf_iff.1 hi
    obtain ⟨hlt, hnone⟩ := List.mem_findIdxs_iff_exists_getElem_pos.1 hj
    rw [List.getElem?_eq_getElem hlt, Option.some.injEq] at hb
    simp [hb] at hnone
  rw [candidates_eq]
  exact pairwise_merge_of_ne (pairwise_bucketOf firstBytes subject) List.pairwise_findIdxs hne

end FirstByteIndex

/-! ### First bytes -/

lemma Literal.head?_eq_of_takeFront? {l : Literal} {b : UInt8} (hb : l.firstByte? = some b)
    {subject left : List UInt8} (h : takeFront? l.bytes subject = some left) :
    subject.head? = some b := by
  rw [firstByte?, Option.filter_eq_some_iff, List.head?_eq_some_iff] at hb
  obtain ⟨⟨bytes, hbytes⟩, hany⟩ := hb
  have hplain : anyByte ∉ [b] := by
    rw [List.mem_singleton]
    rintro rfl
    simp at hany
  rw [hbytes, ← List.singleton_append] at h
  obtain ⟨rest, rfl, -⟩ := (takeFront?_append_eq_some_iff hplain).1 h
  rfl

namespace Rule

variable {rule : Rule} {table : LiteralTable} {b : UInt8} {subject : List UInt8}

/-- What a rule matches starts with the first byte of the rule, if it has one. -/
theorem head?_eq_of_accepts (hb : rule.firstByte? table = some b)
    (h : rule.accepts table subject = true) : subject.head? = some b := by
  rw [accepts, Bool.and_eq_true, Option.any_eq_true] at h
  obtain ⟨-, shape, hshape, haccepts⟩ := h
  rw [literalShape?] at hshape
  rw [firstByte?] at hb
  split at hb
  · next handle hexact =>
    rw [Option.bind_eq_some_iff] at hb
    obtain ⟨literal, hliteral, hfirst⟩ := hb
    rw [hexact, Shape.resolve?, hliteral, Option.map_some, Option.some.injEq] at hshape
    subst hshape
    rw [Shape.accepts, Literal.takesAll_eq, beq_iff_eq] at haccepts
    exact Literal.head?_eq_of_takeFront? hfirst haccepts
  · next handle inner last hstructured =>
    -- the first literal is matched at the start of the subject, whatever follows it
    rw [Option.bind_eq_some_iff] at hb
    obtain ⟨literal, hliteral, hfirst⟩ := hb
    rw [hstructured, Shape.resolve?] at hshape
    simp only [Option.mapM_some, hliteral, Option.bind_eq_bind, Option.bind_eq_some_iff] at hshape
    obtain ⟨first', hfirst', inner', -, last', -, hshape⟩ := hshape
    obtain rfl : some literal = first' := Option.some.inj hfirst'
    obtain rfl := Option.some.inj hshape
    rw [Shape.accepts_structured, Option.elim_some, Option.isSome_iff_exists] at haccepts
    obtain ⟨stop, hstop⟩ := haccepts
    obtain ⟨start, hstart, -⟩ := Option.bind_eq_some_iff.1 hstop
    rw [Literal.matchFrom_eq, if_neg (Nat.not_lt_zero _), List.drop_zero,
      Option.map_eq_some_iff] at hstart
    obtain ⟨left, hleft, -⟩ := hstart
    exact Literal.head?_eq_of_takeFront? hfirst hleft
  · cases hb

end Rule

end AgentCatalog
