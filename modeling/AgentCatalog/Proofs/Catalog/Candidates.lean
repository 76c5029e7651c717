import AgentCatalog.Proofs.Catalog.Index

/-!
# The positions in an index

Whatever the rules are and in whichever order they come, an index has the position of each of them
once, in one of the buckets or among the others. The candidates for a subject are those of a bucket
and the others, in ascending order, and a rule that is no candidate matches no such subject:

* `positions_insert`: what one more rule adds;
* `positions_ofFirstBytes`: the positions in the index of all rules;
* `candidates_exact`: which of them the candidates are, and what the others cannot match.
-/

namespace AgentCatalog

namespace FirstByteIndex

open scoped List

/-- The positions in all buckets, from the first byte to the last, and the others. -/
def positions (index : FirstByteIndex) : List Nat :=
  index.buckets.toList.flatten ++ index.others

lemma length_positions (index : FirstByteIndex) :
    index.positions.length = index.bucketCount + index.otherCount :=
  List.length_append

/-! ### One more rule -/

/-- A number that is put before one of some lists is one more number in all of them. -/
lemma flatten_set_perm (lists : List (List Nat)) (i : Nat) {k : Nat} (hk : k < lists.length) :
    (lists.set k (i :: lists[k])).flatten ~ i :: lists.flatten := by
  induction lists generalizing k with
  | nil => cases hk
  | cons ns lists ih =>
    cases k with
    | zero => exact .refl _
    | succ k =>
      have hk' : k < lists.length := Nat.lt_of_succ_lt_succ hk
      calc ns ++ (lists.set k (i :: lists[k])).flatten
          ~ ns ++ i :: lists.flatten := (ih hk').append_left ns
        _ ~ i :: (ns ++ lists.flatten) := List.perm_middle

lemma positions_insert (index : FirstByteIndex) (i : Nat) (b? : Option UInt8) :
    (index.insert i b?).positions ~ i :: index.positions := by
  cases b? with
  | none => exact List.perm_middle
  | some b =>
    have hb : b.toNat < index.buckets.toList.length := by
      rw [Vector.length_toList]
      exact b.toNat_lt
    have hinsert : (index.insert i (some b)).buckets.toList =
        index.buckets.toList.set b.toNat (i :: index.buckets.toList[b.toNat]) := by
      rw [insert, Vector.toList_set, bucket_eq _ _ b.toNat_lt, Vector.getElem_toList]
    rw [positions, hinsert]
    exact (flatten_set_perm index.buckets.toList i hb).append_right index.others

/-! ### All rules -/

lemma positions_empty : empty.positions = [] := by
  rw [positions, empty, Vector.toList_replicate, List.flatten_replicate_nil, List.append_nil]

lemma positions_foldr_insert (firstBytes : List (Option UInt8)) (k : Nat) :
    ((firstBytes.zipIdx k).foldr (fun (b?, i) index => index.insert i b?) empty).positions ~
      List.range' k firstBytes.length := by
  induction firstBytes generalizing k with
  | nil =>
    rw [List.zipIdx_nil, List.foldr_nil, positions_empty]
    exact .nil
  | cons b? firstBytes ih =>
    rw [List.zipIdx_cons, List.foldr_cons, List.length_cons, List.range'_succ]
    exact (positions_insert _ k b?).trans ((ih (k + 1)).cons k)

/-- Every position is in one of the lists, and in one only. -/
theorem positions_ofFirstBytes (firstBytes : List (Option UInt8)) :
    (ofFirstBytes firstBytes).positions ~ List.range firstBytes.length := by
  rw [List.range_eq_range']
  exact positions_foldr_insert firstBytes 0

variable {rules : List Rule} {table : LiteralTable} {subject : List UInt8}

lemma mem_candidates_ofRules_iff {i : Nat} :
    i ∈ (ofRules rules table).candidates subject ↔ ∃ rule, rules[i]? = some rule ∧
      (rule.firstByte? table = none ∨ rule.firstByte? table = subject.head?) := by
  rw [ofRules, mem_candidates_iff]
  simp only [List.getElem?_map, Option.map_eq_some_iff, exists_exists_and_eq_and]

/-- A rule that is no candidate does not match: it has a first byte, and the subject another or
none. -/
lemma accepts_eq_false_of_notMem {i : Nat} {rule : Rule} (hrule : rules[i]? = some rule)
    (h : i ∉ (ofRules rules table).candidates subject) : rule.accepts table subject = false := by
  rw [← Bool.not_eq_true]
  intro haccepts
  refine h (mem_candidates_ofRules_iff.2 ⟨rule, hrule, ?_⟩)
  cases hb : rule.firstByte? table with
  | none => exact .inl rfl
  | some b => exact .inr (Rule.head?_eq_of_accepts hb haccepts).symm

/-- The index of any rules has each position once. For any bytes the candidates are the positions of
the rules without a first byte and of those that have the first of the bytes, in ascending order and
none of them twice. No other rule matches the bytes. -/
theorem candidates_exact (rules : List Rule) (table : LiteralTable) :
    let index := ofRules rules table
    index.positions ~ List.range rules.length ∧
      index.bucketCount + index.otherCount = rules.length ∧
      ∀ subject : List UInt8,
        (index.candidates subject).Pairwise (· < ·) ∧
        (∀ i, i ∈ index.candidates subject ↔ ∃ rule, rules[i]? = some rule ∧
          (rule.firstByte? table = none ∨ rule.firstByte? table = subject.head?)) ∧
        ∀ i rule, rules[i]? = some rule → i ∉ index.candidates subject →
          rule.accepts table subject = false := by
  intro index
  have hpositions : index.positions ~ List.range rules.length := by
    have h := positions_ofFirstBytes (rules.map (·.firstByte? table))
    rwa [List.length_map] at h
  refine ⟨hpositions, ?_, fun subject => ⟨?_, fun i => ?_, fun i rule => ?_⟩⟩
  · rw [← length_positions, hpositions.length_eq, List.length_range]
  · exact pairwise_candidates _ subject
  · exact mem_candidates_ofRules_iff
  · exact accepts_eq_false_of_notMem

end FirstByteIndex

end AgentCatalog
