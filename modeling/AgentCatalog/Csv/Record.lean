/-!
# Records of a delimited file

A record is a row of fields with a delimiter byte between them, and ends at a line break. A field
that starts with a quote goes on to the next quote that stands alone, whatever is in between; two
quotes there are one of the field. What follows the closing quote still belongs to the field. The
fields are bytes; nothing is assumed about their encoding.

The quote is looked for before the delimiter at the start of a field, and the delimiter before the
line break everywhere, which decides what happens when one byte is several of them.
-/

namespace AgentCatalog.Csv

/-- The fields of a record, as bytes. -/
abbrev RawRecord := List (List UInt8)

/-- The byte of the quote. -/
def quoteByte : UInt8 :=
  0x22

/-- The bytes that end a line: a line feed or a carriage return. -/
def isLineBreak (b : UInt8) : Bool :=
  b == 0x0A || b == 0x0D

/-- Where in a field the reader stands. -/
inductive Place where
  /-- At its first byte. -/
  | start
  /-- Behind a byte outside quotes. -/
  | plain
  /-- Behind the opening quote. -/
  | quoted
  /-- Behind a quote inside quotes, which closes them unless another quote follows. -/
  | behindQuote
deriving DecidableEq, Repr

/-- What becomes of a byte. -/
inductive Action where
  /-- It belongs to the field. -/
  | keep (next : Place)
  /-- It is dropped. -/
  | drop (next : Place)
  /-- It ends the field. -/
  | endField
  /-- It ends the field and the record. -/
  | endRecord
deriving DecidableEq, Repr

/-- What becomes of a byte at a place outside quotes. -/
def plainAction (delimiter b : UInt8) : Action :=
  if b = delimiter then .endField else if isLineBreak b then .endRecord else .keep .plain

/-- What becomes of a byte at the given place. -/
def action (delimiter : UInt8) (place : Place) (b : UInt8) : Action :=
  match place with
  | .start => if b = quoteByte then .drop .quoted else plainAction delimiter b
  | .plain => plainAction delimiter b
  | .quoted => if b = quoteByte then .drop .behindQuote else .keep .quoted
  | .behindQuote => if b = quoteByte then .keep .quoted else plainAction delimiter b

/-- The fields of the record that the reader stands in, and the bytes behind its line break. There
are no such bytes if the input ends before a line break. `field` has the bytes of the current field
so far, the last one first. -/
def scan (delimiter : UInt8) (place : Place) (field : List UInt8) :
    List UInt8 → RawRecord × Option (List UInt8)
  | [] => ([field.reverse], none)
  | b :: rest =>
    match action delimiter place b with
    | .keep next => scan delimiter next (b :: field) rest
    | .drop next => scan delimiter next field rest
    | .endField =>
      let (fields, rest) := scan delimiter .start [] rest
      (field.reverse :: fields, rest)
    | .endRecord => ([field.reverse], some rest)

/-- What is read from the start of a record on. -/
inductive Reading where
  /-- There are only line breaks left. -/
  | none
  /-- A record that ends at a line break, and the bytes behind that. -/
  | complete (record : RawRecord) (rest : List UInt8)
  /-- A record that the input ends in. -/
  | unfinished (record : RawRecord)
deriving DecidableEq, Repr

/-- Read a record. Line breaks before it, which are those of empty lines, are passed over. -/
def readRecord (delimiter : UInt8) (input : List UInt8) : Reading :=
  match input.dropWhile isLineBreak with
  | [] => .none
  | b :: rest =>
    match scan delimiter .start [] (b :: rest) with
    | (record, some rest) => .complete record rest
    | (record, none) => .unfinished record

/-- A record that ends at a line break leaves fewer bytes. -/
theorem scan_length {delimiter : UInt8} {place : Place} {field input rest : List UInt8}
    (h : (scan delimiter place field input).2 = some rest) : rest.length < input.length := by
  induction input generalizing place field with
  | nil => simp [scan] at h
  | cons b input ih =>
    rw [scan] at h
    split at h
    · exact Nat.lt_succ_of_lt (ih h)
    · exact Nat.lt_succ_of_lt (ih h)
    · exact Nat.lt_succ_of_lt (ih h)
    · simp_all

theorem readRecord_length {delimiter : UInt8} {input rest : List UInt8} {record : RawRecord}
    (h : readRecord delimiter input = .complete record rest) : rest.length < input.length := by
  have passed : (input.dropWhile isLineBreak).length ≤ input.length :=
    (List.dropWhile_sublist _).length_le
  unfold readRecord at h
  split at h
  · simp at h
  · next b tail eq =>
    split at h
    · next scanned rest' hs =>
      obtain ⟨rfl, rfl⟩ := Reading.complete.inj h
      have := scan_length (by rw [hs] : (scan delimiter .start [] (b :: tail)).2 = some rest')
      rw [eq] at passed
      omega
    · simp at h

end AgentCatalog.Csv
