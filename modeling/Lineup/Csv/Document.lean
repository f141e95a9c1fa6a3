import Lineup.Csv.Scan
import Lineup.Text.Blank
import Lineup.Text.Utf8
/-!
# Document — comma-separated values as a header and rows of text

The first record is the header.  Every further record must have as many fields as the header, and every field must be
UTF-8; the first record that breaks one of the two rules is reported, its field count first.  Fields are trimmed of
blank characters.
-/
namespace Lineup.Csv

inductive Error where
  | unequalLengths (position : Position) (expected found : Nat)
  /-- A field is not UTF-8 from the byte after its first `valid` bytes on. -/
  | invalidUtf8 (position : Position) (field valid : Nat)
  | unreadable (reason : String)
  deriving DecidableEq, Repr

def Error.message : Error → String
  | .unequalLengths p expected found =>
    s!"CSV error: record {p.record} (line: {p.line}, byte: {p.byte}): " ++
      s!"found record with {found} fields, but the previous record has {expected} fields"
  | .invalidUtf8 p field valid =>
    s!"CSV parse error: record {p.record} (line {p.line}, field: {field}, byte: {p.byte}): " ++
      s!"invalid utf-8: invalid UTF-8 in field {field} near byte index {valid}"
  | .unreadable reason => reason

structure Document where
  header : List String
  rows : List (List String)
  deriving DecidableEq, Repr

/-- The blank bytes below 0x80: tab, line feed, form feed, carriage return and space. -/
def isBlankByte (b : UInt8) : Bool := b = 0x09 || b = 0x0A || b = 0x0C || b = 0x0D || b = 0x20

def trimBytes (field : List UInt8) : List UInt8 :=
  ((field.dropWhile isBlankByte).reverse.dropWhile isBlankByte).reverse

def decodeFields (position : Position) : (index : Nat) → List (List UInt8) → Except Error (List String)
  | _, [] => .ok []
  | index, field :: fields =>
    match Text.Utf8.decode field with
    | .error valid => .error (.invalidUtf8 position index valid)
    | .ok text => (decodeFields position (index + 1) fields).map (String.ofList (Text.trim text) :: ·)

/-- A row under a header of `width` fields.  Where a field is malformed is counted without the blank bytes before it. -/
def decodeRow (width : Nat) (r : RawRecord) : Except Error (List String) :=
  if r.fields.length = width then decodeFields r.position 0 (r.fields.map trimBytes)
  else .error (.unequalLengths r.position width r.fields.length)

/-- Reads a document.  No record at all is a document without columns. -/
def read (bytes : List UInt8) : Except Error Document :=
  match scan bytes with
  | [] => .ok ⟨[], []⟩
  | header :: records => do
    let names ← decodeFields header.position 0 header.fields
    let rows ← records.mapM (decodeRow header.fields.length)
    return ⟨names, rows⟩

end Lineup.Csv
