import AgentCatalog.Csv.Record
import AgentCatalog.Text.Utf8

/-!
# Sources of records

A source is a file that is read piece by piece, and whose reading may fail in the end. It yields its
records as texts, one after the other, up to its end or to the first failure: a record that is not
well-formed UTF-8, or the failure of the file itself, in which an unfinished record is lost.

A byte order mark at the start of the file is dropped if the first piece has all of it. A piece
without bytes is the end of the file, and so is a first piece that holds the mark and nothing else.
-/

namespace AgentCatalog

/-- The kinds of failure of a file that are told apart. -/
inductive IoKind where
  | notFound
  | permissionDenied
  | timedOut
  | invalidData
  | other
deriving DecidableEq, Repr

/-- The failure of a file, with the message of the system. -/
structure IoError where
  kind : IoKind
  message : String
deriving DecidableEq, Repr

namespace Csv

/-- How records are written in a file: with which delimiter, and whether the first record has the
names of the columns. -/
structure Dialect where
  delimiter : UInt8
  hasHeaders : Bool
deriving DecidableEq, Repr

/-- The bytes of a file, the most of them that are read at once, and how reading fails behind them
if it does. -/
structure Source where
  bytes : List UInt8
  chunk : Option Nat
  failure : Option IoError

/-- The source that has all bytes at hand. -/
def Source.ofBytes (bytes : List UInt8) : Source :=
  ⟨bytes, none, none⟩

/-- A place in a file: the number of records, lines and bytes before it. Lines count from one and
end with a line feed. -/
structure Position where
  record : Nat
  line : Nat
  byte : Nat
deriving DecidableEq, Repr

/-- The place in a file before the bytes `left`, when that many records have been read. -/
def Position.before (bytes left : List UInt8) (record : Nat) : Position :=
  let passed := bytes.take (bytes.length - left.length)
  { record, line := passed.count 0x0A + 1, byte := passed.length }

/-- A field that is not well-formed UTF-8, the place where the reading of its record began, and the
number of bytes before the first malformed sequence. -/
structure InvalidUtf8 where
  position : Position
  field : Nat
  index : Nat
deriving DecidableEq, Repr

/-- The message of an ill-formed field. -/
def InvalidUtf8.message (e : InvalidUtf8) : String :=
  "CSV parse error: record " ++ toString e.position.record
    ++ " (line " ++ toString e.position.line
    ++ ", field: " ++ toString e.field
    ++ ", byte: " ++ toString e.position.byte
    ++ "): invalid utf-8: invalid UTF-8 in field " ++ toString e.field
    ++ " near byte index " ++ toString e.index

/-- Why no further record is read. -/
inductive Error where
  | invalidUtf8 (cause : InvalidUtf8)
  | io (cause : IoError)
deriving DecidableEq, Repr

/-- The bytes of a byte order mark. -/
def byteOrderMark : List UInt8 :=
  [0xEF, 0xBB, 0xBF]

/-- The bytes behind the byte order mark, if they start with one. -/
def dropByteOrderMark (bytes : List UInt8) : List UInt8 :=
  if byteOrderMark.isPrefixOf bytes then bytes.drop byteOrderMark.length else bytes

example : dropByteOrderMark [0xEF, 0xBB, 0xBF, 0x61] = [0x61] := by decide

example : dropByteOrderMark [0xEF, 0xBB] = [0xEF, 0xBB] := by decide

/-- The piece that is read at first, and the bytes that are left behind it. -/
def Source.firstPiece (s : Source) : List UInt8 × List UInt8 :=
  match s.chunk with
  | none => (s.bytes, [])
  | some size => s.bytes.splitAt size

/-- The bytes of the source behind its byte order mark, and how reading fails behind them if it
does. -/
def Source.content (s : Source) : List UInt8 × Option IoError :=
  let (piece, left) := s.firstPiece
  let opening := dropByteOrderMark piece
  if opening.isEmpty && !s.bytes.isEmpty then ([], none) else (opening ++ left, s.failure)

example (failure : Option IoError) :
    Source.content ⟨[0xEF, 0xBB, 0xBF, 0x61], some 3, failure⟩ = ([], none) := rfl

example (failure : Option IoError) :
    Source.content ⟨[0xEF, 0xBB, 0xBF, 0x61], some 4, failure⟩ = ([0x61], failure) := rfl

/-- A record with the place where its reading began: the bytes that were left there, and the number
of records before it. -/
structure PlacedRecord where
  input : List UInt8
  number : Nat
  record : RawRecord

/-- The records of the input, of which the first has the given number, and the failure that ends
them, if there is one. -/
def rawRecords (delimiter : UInt8) (failure : Option IoError) (number : Nat)
    (input : List UInt8) : List PlacedRecord × Option IoError :=
  match _h : readRecord delimiter input with
  | .none => ([], failure)
  | .unfinished record =>
    match failure with
    | some e => ([], some e)
    | none => ([⟨input, number, record⟩], none)
  | .complete record rest =>
    let (records, failure) := rawRecords delimiter failure (number + 1) rest
    (⟨input, number, record⟩ :: records, failure)
termination_by input.length
decreasing_by exact readRecord_length _h

/-- The reading of the first record begins at the start of the file: what stands before it, a byte
order mark or a header, is read together with it. -/
def fromStart (bytes : List UInt8) : List PlacedRecord → List PlacedRecord
  | [] => []
  | first :: rest => { first with input := bytes, number := 0 } :: rest

/-- The fields of a record as texts. -/
def decodeRecord (bytes : List UInt8) (placed : PlacedRecord) : Except InvalidUtf8 (List String) :=
  placed.record.zipIdx.mapM fun (field, i) =>
    match Utf8.decode field with
    | .ok text => .ok (String.ofList text)
    | .error index => .error ⟨.before bytes placed.input placed.number, i, index⟩

/-- The records as texts up to the first that is ill-formed, and the failure that ends them. -/
def decodeRecords (bytes : List UInt8) (failure : Option IoError) :
    List PlacedRecord → List (List String) × Option Error
  | [] => ([], failure.map .io)
  | placed :: rest =>
    match decodeRecord bytes placed with
    | .error e => ([], some (.invalidUtf8 e))
    | .ok fields =>
      let (records, error) := decodeRecords bytes failure rest
      (fields :: records, error)

/-- The records of a source, and what ends them before their end, if something does. -/
def Source.records (s : Source) (dialect : Dialect) : List (List String) × Option Error :=
  let (content, failure) := s.content
  let (records, failure) := rawRecords dialect.delimiter failure 0 content
  let records := if dialect.hasHeaders then records.tail else records
  decodeRecords s.bytes failure (fromStart s.bytes records)

end Csv

end AgentCatalog
