import AgentCatalog.Rule.Basic

/-!
# Index of rules by first byte

Most patterns start with a text, and only subjects that start with its first byte can match. The
index has the positions of such rules in buckets, one for each byte, and the positions of all other
rules apart. For a subject it gives the positions of the rules that its first byte does not rule
out, in ascending order.
-/

namespace AgentCatalog

/-- The positions of rules by first byte, all in ascending order. -/
structure FirstByteIndex where
  buckets : Vector (List Nat) 256
  others : List Nat

namespace FirstByteIndex

/-- The index of no rules. -/
def empty : FirstByteIndex :=
  ⟨Vector.replicate 256 [], []⟩

/-- The positions of the rules with the given first byte. -/
def bucket (index : FirstByteIndex) (b : UInt8) : List Nat :=
  index.buckets.get ⟨b.toNat, b.toNat_lt⟩

/-- The index with one more rule, which stands before all others. -/
def insert (index : FirstByteIndex) (position : Nat) : Option UInt8 → FirstByteIndex
  | none => { index with others := position :: index.others }
  | some b =>
    { index with
      buckets := index.buckets.set b.toNat (position :: index.bucket b) b.toNat_lt }

/-- The index of rules with the given first bytes. -/
def ofFirstBytes (firstBytes : List (Option UInt8)) : FirstByteIndex :=
  firstBytes.zipIdx.foldr (fun (b?, position) index => index.insert position b?) empty

/-- The index of rules. -/
def ofRules (rules : List Rule) (table : LiteralTable) : FirstByteIndex :=
  ofFirstBytes (rules.map (·.firstByte? table))

/-- The positions of the rules that may match the subject. -/
def candidates (index : FirstByteIndex) (subject : List UInt8) : List Nat :=
  let bucket := match subject with
    | [] => []
    | b :: _ => index.bucket b
  bucket.merge index.others (· < ·)

/-- The number of rules with a first byte of their own. -/
def bucketCount (index : FirstByteIndex) : Nat :=
  index.buckets.toList.flatten.length

/-- The number of rules without a first byte of their own. -/
def otherCount (index : FirstByteIndex) : Nat :=
  index.others.length

end FirstByteIndex

end AgentCatalog
