import Mathlib
/-!
# Canonical — doubles taken apart and put together again

The core library defines the arithmetic of doubles on their parts: a double is unpacked into a sign, a significand and
an exponent, and the result is packed.  Unpacking and packing are inverse to each other on the parts that the format has
room for, so what is computed on parts is said of doubles.
-/
namespace Lineup.Number

open Float.Model (UnpackedFloat Format)
open Float.Model.UnpackedFloat

/-- Parts that the format has room for: at most 53 bits, and fewer only under the least exponent. -/
def Canonical : UnpackedFloat → Prop
  | .finite _ m e _ => m < 2 ^ 53 ∧ -1074 ≤ e ∧ e ≤ 971 ∧ (2 ^ 52 ≤ m ∨ e = -1074)
  | _ => True

theorem toNat_implicit (m : BitVec 52) : (1#1 ++ m).toNat = 2 ^ 52 + m.toNat := by
  rw [BitVec.toNat_append, ← Nat.shiftLeft_add_eq_or_of_lt m.isLt]
  rfl

def ofFields (s : Sign) (e m : Nat) : UnpackedFloat :=
  if e = 2047 then if m = 0 then .infinity s else .notANumber
  else if e = 0 then if h : m = 0 then .zero s else .finite s m (-1074) (Nat.pos_of_ne_zero h)
  else .finite s (2 ^ 52 + m) ((e : Int) - 1075) (by omega)

theorem finite_congr {s : Sign} {m m' : Nat} {e e' : Int} {hm : 0 < m} {hm' : 0 < m'} (h : m = m') (he : e = e') :
    UnpackedFloat.finite s m e hm = .finite s m' e' hm' := by
  subst h he
  rfl

theorem unpack_eq_ofFields (b : BitVec 64) :
    UnpackedFloat.unpack Format.binary64 b = ofFields (Sign.ofBitVec (@unpackSign Format.binary64 b))
      (@unpackExponent Format.binary64 b).toNat (@unpackMantissa Format.binary64 b).toNat := by
  have hE : ∀ E : BitVec 11, E = -1#11 ↔ E.toNat = 2047 := fun E =>
    ⟨fun h => by rw [h]; rfl, fun h => BitVec.eq_of_toNat_eq (by rw [h]; rfl)⟩
  have hE0 : ∀ E : BitVec 11, E = 0#11 ↔ E.toNat = 0 := fun E =>
    ⟨fun h => by rw [h]; rfl, fun h => BitVec.eq_of_toNat_eq (by rw [h]; rfl)⟩
  have hM0 : ∀ M : BitVec 52, M = 0#52 ↔ M.toNat = 0 := fun M =>
    ⟨fun h => by rw [h]; rfl, fun h => BitVec.eq_of_toNat_eq (by rw [h]; rfl)⟩
  unfold UnpackedFloat.unpack ofFields
  refine if_congr (hE _) (if_congr (hM0 _) rfl rfl) (if_ctx_congr (hE0 _) (fun h => ?_) fun _ => ?_)
  · exact dite_congr (propext (hM0 _)) (fun _ => rfl) fun _ => finite_congr rfl (by rw [h]; rfl)
  · exact finite_congr (toNat_implicit _) rfl

theorem unpack_packComponents (s : Sign) (e : BitVec 11) (m : BitVec 52) :
    UnpackedFloat.unpack Format.binary64 (packComponents Format.binary64 s e m) = ofFields s e.toNat m.toNat := by
  rw [unpack_eq_ofFields, unpackSign_packComponents, unpackExponent_packComponents, unpackMantissa_packComponents,
    Sign.ofBitVec_toBitVec]

theorem canonical_ofFields (s : Sign) {e m : Nat} (he : e < 2 ^ 11) (hm : m < 2 ^ 52) : Canonical (ofFields s e m) := by
  unfold ofFields
  by_cases h2047 : e = 2047
  · rw [if_pos h2047]
    by_cases h0 : m = 0
    · rw [if_pos h0]
      trivial
    · rw [if_neg h0]
      trivial
  rw [if_neg h2047]
  by_cases he0 : e = 0
  · rw [if_pos he0]
    by_cases h0 : m = 0
    · rw [dif_pos h0]
      trivial
    · rw [dif_neg h0]
      exact ⟨by omega, by omega, by omega, Or.inr rfl⟩
  · rw [if_neg he0]
    exact ⟨by omega, by omega, by omega, Or.inl (by omega)⟩

theorem canonical_unpack (x : Float.Model) : Canonical x.unpack := by
  unfold Float.Model.unpack
  rw [unpack_eq_ofFields]
  exact canonical_ofFields _ (BitVec.isLt _) (BitVec.isLt _)

theorem pack_finite (s : Sign) (m : Nat) (e : Int) (hm : 0 < m) :
    UnpackedFloat.pack Format.binary64 (.finite s m e hm) =
      if 2 ^ 11 ≤ (e + 1075).toNat + 1 then packedInfinity Format.binary64 s
      else if m.log2 + 1 = 53 then
        packComponents Format.binary64 s (BitVec.ofNat 11 (e + 1075).toNat) (BitVec.ofNat 52 m)
      else packComponents Format.binary64 s 0#11 (BitVec.ofNat 52 m) := by
  have hbias : e + Format.binary64.exponentBias + (52 : Nat) = e + 1075 := by
    simp only [Format.exponentBias]; omega
  unfold UnpackedFloat.pack
  rw [← hbias]
  rfl

/-- **Unpacking undoes packing**, on canonical parts. -/
theorem unpack_pack {u : UnpackedFloat} (h : Canonical u) : (Float.Model.pack u).unpack = u := by
  change UnpackedFloat.unpack Format.binary64 (UnpackedFloat.pack Format.binary64 u) = u
  cases u with
  | notANumber => rfl
  | infinity s => exact unpack_packComponents s _ _
  | zero s => exact unpack_packComponents s _ _
  | finite s m e hm =>
    obtain ⟨hm53, hlo, hhi, hlead⟩ := h
    rw [pack_finite, if_neg (by omega)]
    by_cases hn : 2 ^ 52 ≤ m
    · have hlog : m.log2 = 52 := (Nat.log2_eq_iff (by omega)).2 ⟨hn, hm53⟩
      rw [if_pos (by omega), unpack_packComponents, BitVec.toNat_ofNat, BitVec.toNat_ofNat]
      have he : (e + 1075).toNat % 2 ^ 11 = (e + 1075).toNat := Nat.mod_eq_of_lt (by omega)
      have hm' : 2 ^ 52 + m % 2 ^ 52 = m := by omega
      unfold ofFields
      rw [he, if_neg (by omega), if_neg (by omega)]
      exact finite_congr hm' (by omega)
    · have hlog : m.log2 < 52 := (Nat.log2_lt (by omega)).2 (by omega)
      have hmant : (BitVec.ofNat 52 m).toNat = m := by rw [BitVec.toNat_ofNat, Nat.mod_eq_of_lt (by omega)]
      rw [if_neg (by omega), unpack_packComponents, hmant]
      obtain rfl : e = -1074 := hlead.resolve_left hn
      unfold ofFields
      rw [if_neg (by decide), if_pos (by decide), dif_neg (by omega)]

theorem unpack_pack_of_large (s : Sign) (m : Nat) (e : Int) (hm : 0 < m) (he : 972 ≤ e) :
    (Float.Model.pack (.finite s m e hm)).unpack = .infinity s := by
  change UnpackedFloat.unpack Format.binary64 (UnpackedFloat.pack Format.binary64 (.finite s m e hm)) = _
  rw [pack_finite, if_pos (by omega)]
  exact unpack_packComponents s _ _

/-- **Packing undoes unpacking**: a double has one form, a NaN too. -/
theorem pack_unpack (x : Float.Model) : Float.Model.pack x.unpack = x := by
  have hbits : UnpackedFloat.pack Format.binary64 x.unpack = x.toBits.toBitVec := pack_unpack_of_valid x.valid
  cases x
  unfold Float.Model.pack
  rw [Float.Model.mk.injEq, hbits]

theorem eq_of_unpack_eq {x y : Float.Model} (h : x.unpack = y.unpack) : x = y := by
  rw [← pack_unpack x, h, pack_unpack y]

end Lineup.Number
