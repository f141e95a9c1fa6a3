import Lineup.Number.Hexadecimal
import Lineup.Text.Case
import Lineup.Text.Split
/-!
# Address — where a service listens

A host is named by an address of version 4, four numbers below 256 with points between, or of version 6, eight groups of
up to four hexadecimal digits with colons between.  In version 6 two colons together may stand for one or more groups of
zeros, once, and the last two groups may be written as an address of version 4.  An address is written in the shortest
such form.
-/
namespace Lineup

inductive Host where
  | v4 (octets : Vector UInt8 4)
  | v6 (groups : Vector UInt16 8)
  deriving DecidableEq, Repr

structure Endpoint where
  host : Host
  port : UInt16
  deriving DecidableEq, Repr

namespace Host

/-- A number below 256 in decimal digits, without leading zeros. -/
def octet? (cs : List Char) : Option UInt8 :=
  if cs ≠ [] ∧ cs.all Char.isDigit ∧ (cs.head? = some '0' → cs = ['0']) ∧ Nat.ofDigitChars 10 cs 0 < 256 then
    some (UInt8.ofNat (Nat.ofDigitChars 10 cs 0))
  else none

def octets? (cs : List Char) : Option (Vector UInt8 4) :=
  match (cs.splitOn '.').mapM octet? with
  | some [a, b, c, d] => some #v[a, b, c, d]
  | _ => none

def group? (cs : List Char) : Option UInt16 :=
  if 1 ≤ cs.length ∧ cs.length ≤ 4 then (Number.readHex? cs).map UInt16.ofNat else none

def groups? : List Char → Option (List UInt16)
  | [] => some []
  | cs => (cs.splitOn ':').mapM group?

def pair (high low : UInt8) : UInt16 := UInt16.ofNat (high.toNat * 256 + low.toNat)

/-- The groups of a text that may end in an address of version 4. -/
def tailGroups? (cs : List Char) : Option (List UInt16) :=
  let pieces := cs.splitOn ':'
  match octets? (pieces.getLastD []) with
  | some octets =>
    (pieces.dropLast.mapM group?).map (· ++ [pair octets[0] octets[1], pair octets[2] octets[3]])
  | none => groups? cs

def ofGroups? (groups : List UInt16) : Option Host :=
  if h : groups.length = 8 then some (.v6 ⟨groups.toArray, by simpa using h⟩) else none

def readV6? (cs : List Char) : Option Host :=
  match Text.cut? [':', ':'] cs with
  | none => tailGroups? cs >>= ofGroups?
  | some (before, after) => do
    let front ← groups? before
    let back ← tailGroups? after
    if front.length + back.length < 8 then
      ofGroups? (front ++ List.replicate (8 - (front.length + back.length)) 0 ++ back)
    else none

def read? (s : String) : Option Host :=
  match octets? s.toList with
  | some octets => some (.v4 octets)
  | none => readV6? s.toList

/-- The host that a setting names: an address, or the name of this machine. -/
def named? (s : String) : Option Host :=
  if Text.sameName s "localhost" then some (.v4 #v[127, 0, 0, 1]) else read? s

def dotted (octets : List Nat) : String := ".".intercalate (octets.map Nat.repr)

def colons (groups : List Nat) : String := ":".intercalate (groups.map Number.hexText)

/-- The place and the length of the longest run of zeros, the first of them if several are as long. -/
def longestZeros (groups : List Nat) : Nat × Nat :=
  (List.range groups.length).foldl (fun best start =>
    let length := ((groups.drop start).takeWhile (· = 0)).length
    if best.2 < length then (start, length) else best) (0, 0)

/-- Eight groups as text.  An address of version 4 that is mapped into version 6 keeps its points; a run of two or more
zeros becomes two colons. -/
def groupsText : List Nat → String
  | [0, 0, 0, 0, 0, 0xffff, g, h] => "::ffff:" ++ dotted [g / 256, g % 256, h / 256, h % 256]
  | groups =>
    let (start, length) := longestZeros groups
    if 1 < length then colons (groups.take start) ++ "::" ++ colons (groups.drop (start + length)) else colons groups

end Host

/-- The endpoint as text; brackets keep the colons of a host apart from the port. -/
def Endpoint.text (e : Endpoint) : String :=
  match e.host with
  | .v4 octets => s!"{Host.dotted (octets.toList.map UInt8.toNat)}:{e.port.toNat}"
  | .v6 groups => s!"[{Host.groupsText (groups.toList.map UInt16.toNat)}]:{e.port.toNat}"

end Lineup
