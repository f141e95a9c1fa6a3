import Lineup.Number.Numeral
import Lineup.Proofs.Text.Trimming
/-!
# Numerals — what a number can be written with

A numeral is made of digits, signs, a point and the letter of an exponent, so it holds none of the characters that stand
between numbers and names.  Blank characters around it make no difference.
-/
namespace Lineup.Number

def inNumeral (c : Char) : Bool := c.isDigit || ['+', '-', '.', 'e', 'E'].contains c

theorem mem_takeSign {c : Char} : ∀ {cs : List Char}, c ∈ cs → inNumeral c = true ∨ c ∈ (takeSign cs).2 := by
  intro cs h
  unfold takeSign
  split
  · rcases List.mem_cons.1 h with rfl | h
    · exact Or.inl rfl
    · exact Or.inr h
  · rcases List.mem_cons.1 h with rfl | h
    · exact Or.inl rfl
    · exact Or.inr h
  · exact Or.inr h

theorem mem_readExponent? {cs : List Char} {n : Int} (h : readExponent? cs = some n) {c : Char} (hc : c ∈ cs) :
    inNumeral c = true := by
  unfold readExponent? at h
  split at h
  · cases hc
  · rename_i first rest
    split at h
    · rename_i hletter
      dsimp only at h
      split at h
      · cases h
      · rename_i hdigits
        rcases List.mem_cons.1 hc with rfl | hc
        · rcases hletter with rfl | rfl <;> rfl
        · rcases mem_takeSign hc with hsign | hdigit
          · exact hsign
          · have hall : ∀ d ∈ (takeSign rest).2, d.isDigit = true := by simp at hdigits; exact hdigits.2
            simp [inNumeral, hall c hdigit]
    · cases h

theorem mem_takeDigits {c : Char} {cs : List Char} (hc : c ∈ cs) : inNumeral c = true ∨ c ∈ (takeDigits cs).2.2 := by
  have hdigit : ∀ {ds : List Char}, c ∈ ds.takeWhile Char.isDigit → inNumeral c = true := fun h => by
    simp [inNumeral, List.mem_takeWhile_imp h]
  rw [← List.takeWhile_append_dropWhile (p := Char.isDigit) (l := cs)] at hc
  rcases List.mem_append.1 hc with hc | hc
  · exact Or.inl (hdigit hc)
  · unfold takeDigits
    split
    · rename_i rest hrest
      rw [hrest] at hc
      rcases List.mem_cons.1 hc with rfl | hc
      · exact Or.inl rfl
      · rw [← List.takeWhile_append_dropWhile (p := Char.isDigit) (l := rest)] at hc
        exact (List.mem_append.1 hc).imp_left hdigit
    · exact Or.inr hc

theorem Numeral.mem_read? {cs : List Char} {n : Numeral} (h : Numeral.read? cs = some n) {c : Char} (hc : c ∈ cs) :
    inNumeral c = true := by
  unfold Numeral.read? at h
  dsimp only at h
  split at h
  · cases h
  · obtain ⟨exponent, hexponent, -⟩ := Option.map_eq_some_iff.1 h
    rcases mem_takeSign hc with hc | hc
    · exact hc
    · exact (mem_takeDigits hc).elim id (mem_readExponent? hexponent)

theorem readFinite?_congr {cs ds : List Char} (h : Text.trim cs = Text.trim ds) : readFinite? cs = readFinite? ds := by
  unfold readFinite?
  rw [h]

theorem mem_readFinite? {cs : List Char} {x : Float} (h : readFinite? cs = some x) {c : Char} (hc : c ∈ cs) :
    inNumeral c = true ∨ Text.isBlank c = true := by
  obtain ⟨s, t, hs, ht, hpad⟩ := Text.exists_pad cs
  rw [hpad] at hc
  rcases List.mem_append.1 hc with hc | hc
  · rcases List.mem_append.1 hc with hc | hc
    · exact Or.inr (List.all_eq_true.1 hs c hc)
    · obtain ⟨n, hn, -⟩ := Option.map_eq_some_iff.1 (Option.filter_eq_some_iff.1 h).1
      exact Or.inl (Numeral.mem_read? hn hc)
  · exact Or.inr (List.all_eq_true.1 ht c hc)

theorem not_mem_of_readFinite? {cs : List Char} {x : Float} (h : readFinite? cs = some x) {c : Char}
    (hnumeral : inNumeral c = false) (hblank : Text.isBlank c = false) : c ∉ cs := by
  intro hc
  rcases mem_readFinite? h hc with hin | hin
  · exact Bool.false_ne_true (hnumeral.symm.trans hin)
  · exact Bool.false_ne_true (hblank.symm.trans hin)

theorem trim_ne_nil_of_readFinite? {cs : List Char} {x : Float} (h : readFinite? cs = some x) : Text.trim cs ≠ [] := by
  intro hnil
  unfold readFinite? at h
  rw [hnil] at h
  cases h

end Lineup.Number
