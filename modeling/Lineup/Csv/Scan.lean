/-!
# Scan — cutting comma-separated values into records of raw fields

A record is a line of fields with commas between.  A field that starts with a quote runs to the next quote that is not
doubled, over commas and line breaks; a doubled quote inside stands for one quote, and text after the closing quote is
appended.  A quote anywhere else is a character like others, and a quote that is never closed runs to the end of the
input.  A line feed or a carriage return ends a record, and further ones before the next record are skipped, so that
blank lines and the second byte of a two-byte line break count for nothing.

The reader keeps its place: the number of the record, the line and the bytes used so far, with which errors are
reported.
-/
namespace Lineup.Csv

structure Position where
  /-- Records read so far, the header being number 0. -/
  record : Nat
  /-- One more than the line feeds used so far. -/
  line : Nat
  byte : Nat
  deriving DecidableEq, Repr

def Position.start : Position := ⟨0, 1, 0⟩

def Position.advance (p : Position) (b : UInt8) : Position :=
  { p with line := if b = 0x0A then p.line + 1 else p.line, byte := p.byte + 1 }

/-- A record as it stands in the input, and the place where the reader set out for it. -/
structure RawRecord where
  position : Position
  fields : List (List UInt8)
  deriving DecidableEq, Repr

def comma : UInt8 := 0x2C

def quote : UInt8 := 0x22

def isBreak (b : UInt8) : Bool := b = 0x0A || b = 0x0D

/-- Where a field stands: nothing of it read yet, in plain text, inside quotes, or just after a quote inside quotes. -/
inductive Place where
  | start
  | plain
  | quoted
  | closed
  deriving DecidableEq, Repr

/-- Reads the fields of one record from the middle of a field, whose bytes so far are given backwards.  Gives the
fields, the place after the byte that ends the record and the bytes from there. -/
def readFields : Place → (field : List UInt8) → Position → List UInt8 → List (List UInt8) × Position × List UInt8
  | _, field, pos, [] => ([field.reverse], pos, [])
  | .quoted, field, pos, b :: bs =>
    if b = quote then readFields .closed field (pos.advance b) bs
    else readFields .quoted (b :: field) (pos.advance b) bs
  | place, field, pos, b :: bs =>
    if b = quote ∧ place = .start then readFields .quoted field (pos.advance b) bs
    else if b = quote ∧ place = .closed then readFields .quoted (quote :: field) (pos.advance b) bs
    else if b = comma then
      let (fields, next, rest) := readFields .start [] (pos.advance b) bs
      (field.reverse :: fields, next, rest)
    else if isBreak b then ([field.reverse], pos.advance b, bs)
    else readFields .plain (b :: field) (pos.advance b) bs

def skipBreaks : Position → List UInt8 → Position × List UInt8
  | pos, [] => (pos, [])
  | pos, b :: bs => if isBreak b then skipBreaks (pos.advance b) bs else (pos, b :: bs)

/-- Reads at most `fuel` records; each takes one byte at least. -/
def readRecords : (fuel : Nat) → Position → List UInt8 → List RawRecord
  | 0, _, _ => []
  | fuel + 1, pos, bs =>
    match skipBreaks pos bs with
    | (_, []) => []
    | (first, b :: rest) =>
      let (fields, next, left) := readFields .start [] first (b :: rest)
      ⟨pos, fields⟩ :: readRecords fuel { next with record := next.record + 1 } left

def skipMark : Position → List UInt8 → Position × List UInt8
  | pos, 0xEF :: 0xBB :: 0xBF :: bs => ({ pos with byte := pos.byte + 3 }, bs)
  | pos, bs => (pos, bs)

/-- The records of an input.  The first one sets out from the very start, byte-order mark and blank lines included. -/
def scan (bytes : List UInt8) : List RawRecord :=
  let (first, rest) := skipMark .start bytes
  match readRecords bytes.length first rest with
  | [] => []
  | header :: records => { header with position := .start } :: records

end Lineup.Csv
