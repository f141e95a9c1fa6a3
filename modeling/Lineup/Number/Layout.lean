import Lineup.Number.Shortest
/-!
# Layout — how numbers are written

Three texts of a double are in use, and a `Layout` fixes the two that show its shortest digits: `exchange`, for reports
that programs read, and `plain`, for messages.  `fixed` writes a set number of decimal places, for tables.
-/
namespace Lineup.Number

/-- How the shortest digits of a double are set out.  The magnitude of a number is the exponent of ten of its first
digit. -/
structure Layout where
  /-- The magnitudes written without an exponent, lowest and highest; none given means all. -/
  positional : Option (Int × Int)
  keepsPoint : Bool
  tie : Tie

/-- The layout of exchanged reports: positional from `1e-5` to below `1e16`, and a point in every such number. -/
def exchange : Layout := ⟨some (-5, 15), true, .toEven⟩

/-- The layout of messages: never an exponent, and a point only where digits follow it. -/
def plain : Layout := ⟨none, false, .up⟩

def zeros (n : Nat) : List Char := List.replicate n '0'

/-- The digits with the point set `point` places after their start. -/
def setPoint (keepsPoint : Bool) (ds : List Char) (point : Int) : List Char :=
  if point ≤ 0 then '0' :: '.' :: zeros (-point).toNat ++ ds
  else if (ds.length : Int) ≤ point then
    ds ++ zeros (point.toNat - ds.length) ++ (if keepsPoint then ['.', '0'] else [])
  else ds.take point.toNat ++ '.' :: ds.drop point.toNat

def scientific (ds : List Char) (magnitude : Int) : List Char :=
  let head := ds.take 1
  let tail := ds.drop 1
  let sign := if magnitude < 0 then '-' else '+'
  head ++ (if tail.isEmpty then [] else '.' :: tail) ++ 'e' :: sign :: Nat.toDigits 10 magnitude.natAbs

def Layout.write (l : Layout) (s : Scaled) : List Char :=
  let ds := Nat.toDigits 10 s.digits
  let magnitude := (ds.length : Int) - 1 + s.exponent
  let fits := match l.positional with
    | none => true
    | some (least, greatest) => least ≤ magnitude && magnitude ≤ greatest
  if fits then setPoint l.keepsPoint ds (magnitude + 1) else scientific ds magnitude

def withSign (negative : Bool) (cs : List Char) : String :=
  String.ofList (if negative then '-' :: cs else cs)

def notFinite (x : Float) : String :=
  if x.isNaN then "NaN" else if x < 0 then "-inf" else "inf"

def Layout.text (l : Layout) (x : Float) : String :=
  match parts? x with
  | none => notFinite x
  | some p =>
    withSign p.negative
      (if p.significand = 0 then l.write ⟨0, 0⟩ else l.write (shortest l.tie p.significand p.exponent))

/-- The number with `places` decimal places, one at least, rounded from its exact value. -/
def fixed (places : Nat) (x : Float) : String :=
  match parts? x with
  | none => notFinite x
  | some p =>
    let n := roundAt places p.significand p.exponent
    let one := Nat.pow 10 places
    let fraction := Nat.toDigits 10 (n % one)
    withSign p.negative (Nat.toDigits 10 (n / one) ++ '.' :: zeros (places - fraction.length) ++ fraction)

end Lineup.Number
