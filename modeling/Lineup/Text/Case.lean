/-!
# Case — comparison up to the case of ASCII letters

Column names, markers of a missing cell, modes and the names of settings are compared without regard to the case of the
letters `a` to `z`.  No other letter is folded: `É` and `é` are different names.
-/
namespace Lineup.Text

/-- The text with `A` to `Z` replaced by `a` to `z`. -/
def lower (s : String) : String := String.ofList (s.toList.map Char.toLower)

def sameName (s t : String) : Bool := lower s == lower t

theorem sameName_iff {s t : String} : sameName s t = true ↔ lower s = lower t := by
  simp [sameName]

theorem sameName_refl (s : String) : sameName s s = true := by
  simp [sameName]

end Lineup.Text
