/-!
# Utf8 — reading bytes as text

`next?` reads one scalar value from the front of a byte string, in its only well-formed encoding: no longer form than
needed, no surrogate, nothing above U+10FFFF.  `decode` reads the whole string, or tells how many bytes stand before the
first place where no scalar value can be read.
-/
namespace Lineup.Text.Utf8

def isTail (b : UInt8) : Bool := 0x80 ≤ b && b ≤ 0xBF

def low6 (b : UInt8) : Nat := b.toNat % 0x40

/-- The least second byte that a first byte allows: smaller ones would encode a value too long. -/
def secondFrom (first : UInt8) : UInt8 :=
  if first = 0xE0 then 0xA0 else if first = 0xF0 then 0x90 else 0x80

/-- The greatest second byte that a first byte allows: greater ones would be surrogates or beyond U+10FFFF. -/
def secondTo (first : UInt8) : UInt8 :=
  if first = 0xED then 0x9F else if first = 0xF4 then 0x8F else 0xBF

def next? : List UInt8 → Option (Char × Nat)
  | [] => none
  | a :: rest =>
    if a < 0x80 then some (Char.ofNat a.toNat, 1)
    else if a < 0xC2 then none
    else if a < 0xE0 then
      match rest with
      | b :: _ => if isTail b then some (Char.ofNat (a.toNat % 0x20 * 0x40 + low6 b), 2) else none
      | _ => none
    else if a < 0xF0 then
      match rest with
      | b :: c :: _ =>
        if secondFrom a ≤ b && b ≤ secondTo a && isTail c then
          some (Char.ofNat ((a.toNat % 0x10 * 0x40 + low6 b) * 0x40 + low6 c), 3)
        else none
      | _ => none
    else if a < 0xF5 then
      match rest with
      | b :: c :: d :: _ =>
        if secondFrom a ≤ b && b ≤ secondTo a && isTail c && isTail d then
          some (Char.ofNat (((a.toNat % 8 * 0x40 + low6 b) * 0x40 + low6 c) * 0x40 + low6 d), 4)
        else none
      | _ => none
    else none

/-- Reads on from byte position `pos`; at most `fuel` scalar values. -/
def decodeFrom : (fuel : Nat) → (pos : Nat) → List UInt8 → Except Nat (List Char)
  | _, _, [] => .ok []
  | 0, pos, _ => .error pos
  | fuel + 1, pos, bytes =>
    match next? bytes with
    | none => .error pos
    | some (c, width) => (decodeFrom fuel (pos + width) (bytes.drop width)).map (c :: ·)

/-- The text of the bytes, or the number of bytes before the first malformed place. -/
def decode (bytes : List UInt8) : Except Nat (List Char) := decodeFrom bytes.length 0 bytes

def encode (text : String) : List UInt8 := text.toUTF8.data.toList

end Lineup.Text.Utf8
