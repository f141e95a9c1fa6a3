import Lineup.Json.Skip
import Lineup.Number.Whole
import Lineup.Selection
/-!
# Body — what a request to the service carries

A body is a JSON record whose members may stand in any order.  Members that are not known are passed over, a known one
must not come twice, and some may be left out.  A list holds the same values in a fixed order.  Reading goes from front
to end and stops at the first fault: either the text is no JSON there, or it is JSON of another shape.  What follows the
value is not looked at.
-/
namespace Lineup.Service

open Json (Token)

inductive Rejection where
  | notJson
  | wrongShape
  deriving DecidableEq, Repr

/-- A reader takes a value from the front and gives what follows it. -/
abbrev Reader (α : Type) := List Token → Except Rejection (α × List Token)

def mismatch : List Token → Rejection
  | .number n _ :: _ => if n.toFloat.isFinite then .wrongShape else .notJson
  | .text (some _) :: _ | .null :: _ | .bool _ :: _ | .openList :: _ | .openRecord :: _ => .wrongShape
  | _ => .notJson

/-! ## Values -/

def readText : Reader String
  | .text (some s) :: ts => .ok (s, ts)
  | ts => .error (mismatch ts)

def readFlag : Reader Bool
  | .bool b :: ts => .ok (b, ts)
  | ts => .error (mismatch ts)

/-- A size is a whole number of at most 64 bits, written without sign, point and exponent. -/
def readSize : Reader Nat
  | .number n plain :: ts =>
    if plain ∧ !n.negative ∧ n.significand < Number.sizeLimit then .ok (n.significand, ts)
    else .error (mismatch (.number n plain :: ts))
  | ts => .error (mismatch ts)

def labelled (label : String) : Reader Mode := fun ts =>
  match Mode.ofLabel? label with
  | some mode => .ok (mode, ts)
  | none => .error .wrongShape

/-- A mode is given by its label, or by a record whose only member has the label for a name and holds nothing. -/
def readMode : Reader Mode
  | .text (some label) :: ts => labelled label ts
  | .openRecord :: ts => do
    let (label, ts) ← readText ts
    let (mode, ts) ← labelled label ts
    match ts with
    | .colon :: .null :: .closeRecord :: ts => return (mode, ts)
    | .colon :: .null :: _ => .error .notJson
    | .colon :: ts => .error (mismatch ts)
    | _ => .error .notJson
  | _ => .error .notJson

def readOptional {α : Type} (read : Reader α) : Reader (Option α)
  | .null :: ts => .ok (none, ts)
  | ts => (read ts).map fun (a, ts) => (some a, ts)

/-! ## Records -/

/-- A member that a reader of records knows: its name, whether a draft has it, and how it is read into a draft. -/
structure Field (δ : Type) where
  name : String
  isPresent : δ → Bool
  read : δ → Reader δ

/-- The value of a member: after a colon, read into the draft if the member is known. -/
def readMember {δ : Type} (fields : List (Field δ)) (draft : δ) (name : String) : Reader δ := fun ts =>
  match fields.find? (·.name = name), ts with
  | some field, ts =>
    if field.isPresent draft then .error .wrongShape
    else match ts with
      | .colon :: ts => field.read draft ts
      | _ => .error .notJson
  | none, .colon :: ts =>
    match Json.skip? ts with
    | some ts => .ok (draft, ts)
    | none => .error .notJson
  | none, _ => .error .notJson

def readMembers {δ : Type} (fields : List (Field δ)) : (fuel : Nat) → δ → List Token → Except Rejection δ
  | fuel + 1, draft, .text (some name) :: ts => do
    let (draft, ts) ← readMember fields draft name ts
    match ts with
    | .comma :: ts => readMembers fields fuel draft ts
    | .closeRecord :: _ => return draft
    | _ => .error .notJson
  | _, _, _ => .error .notJson

/-- Reads values for the fields in their order, up to the end of the list. -/
def readElements {δ : Type} : (fields : List (Field δ)) → δ → List Token → Except Rejection δ
  | [], _, _ => .error .notJson
  | field :: fields, draft, ts => do
    let (draft, ts) ← field.read draft ts
    match ts with
    | .closeList :: _ => return draft
    | .comma :: ts => readElements fields draft ts
    | _ => .error .notJson

def readFields {δ : Type} (fields : List (Field δ)) (draft : δ) : List Token → Except Rejection δ
  | .openRecord :: .closeRecord :: _ | .openList :: .closeList :: _ => .ok draft
  | .openRecord :: ts => readMembers fields ts.length draft ts
  | .openList :: ts => readElements fields draft ts
  | ts => .error (mismatch ts)

/-! ## Bodies -/

structure SelectionBody where
  csv : String
  criteria : String
  bounds : Option String
  size : Option Nat
  unbounded : Bool
  mode : Option Mode
  deriving DecidableEq, Repr

/-- What has been read of a body; the outer option tells whether a member has been read. -/
structure Draft where
  csv : Option String := none
  criteria : Option String := none
  bounds : Option (Option String) := none
  size : Option (Option Nat) := none
  unbounded : Option Bool := none
  mode : Option (Option Mode) := none

def field {α : Type} (name : String) (get : Draft → Option α) (set : Draft → α → Draft)
    (read : Reader α) : Field Draft :=
  ⟨name, fun d => (get d).isSome, fun d ts => (read ts).map fun (a, ts) => (set d a, ts)⟩

def csvField : Field Draft := field "csv" (·.csv) (fun d a => { d with csv := some a }) readText

/-- The fields of a request for a selection, in the order of a list. -/
def selectionFields : List (Field Draft) :=
  [csvField,
    field "criteria" (·.criteria) (fun d a => { d with criteria := some a }) readText,
    field "constraints" (·.bounds) (fun d a => { d with bounds := some a }) (readOptional readText),
    field "team_size" (·.size) (fun d a => { d with size := some a }) (readOptional readSize),
    field "unbounded" (·.unbounded) (fun d a => { d with unbounded := some a }) readFlag,
    field "mode" (·.mode) (fun d a => { d with mode := some a }) (readOptional readMode)]

def required {α : Type} : Option α → Except Rejection α
  | some a => .ok a
  | none => .error .wrongShape

def SelectionBody.read (text : String) : Except Rejection SelectionBody := do
  let d ← readFields selectionFields {} (Json.scan text)
  return ⟨← required d.csv, ← required d.criteria, d.bounds.join, d.size.join, d.unbounded.getD false, d.mode.join⟩

def SelectionBody.request (b : SelectionBody) : Request :=
  ⟨b.criteria, b.bounds, Roster.ofRequest b.size b.unbounded, b.mode⟩

def readCatalogBody (text : String) : Except Rejection String := do
  let d ← readFields [csvField] {} (Json.scan text)
  required d.csv

end Lineup.Service
