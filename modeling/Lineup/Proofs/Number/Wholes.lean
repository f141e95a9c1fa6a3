import Lineup.Number.Whole
import Mathlib.Data.Nat.Digits.Defs
/-!
# Wholes — which texts denote a whole number

A whole number is written in digits after an optional plus sign, with as many zeros in front as one likes.  A reader
with a limit takes exactly the texts of numbers below the limit: the limit bounds the number, not the length of its
text.
-/
namespace Lineup.Number

/-- The text is one or more digits after an optional plus sign, and the number is what the digits denote in base ten. -/
def Denotes (cs : List Char) (n : Nat) : Prop :=
  ∃ sign digits : List Char, (sign = [] ∨ sign = ['+']) ∧ cs = sign ++ digits ∧ digits ≠ [] ∧
    (∀ d ∈ digits, d.isDigit = true) ∧ n = Nat.ofDigits 10 (digits.reverse.map fun d => d.toNat - '0'.toNat)

theorem ofDigitChars_eq_ofDigits (ds : List Char) :
    Nat.ofDigitChars 10 ds 0 = Nat.ofDigits 10 (ds.reverse.map fun d => d.toNat - '0'.toNat) := by
  rw [Nat.ofDigitChars_eq_foldl, List.foldl_eq_foldr_reverse, Nat.ofDigits_eq_foldr, List.foldr_map]
  simp only [Nat.cast_id, Nat.add_comm]

theorem dropPlus_append {sign digits : List Char} (hsign : sign = [] ∨ sign = ['+'])
    (hdigits : ∀ d ∈ digits, d.isDigit = true) : dropPlus (sign ++ digits) = digits := by
  rcases hsign with rfl | rfl
  · unfold dropPlus
    split
    · rename_i rest heq
      rw [List.nil_append] at heq
      exact absurd (hdigits '+' (heq ▸ List.mem_cons_self)) (by decide)
    · rfl
  · rfl

theorem exists_sign_append_dropPlus (cs : List Char) :
    ∃ sign, (sign = [] ∨ sign = ['+']) ∧ cs = sign ++ dropPlus cs := by
  unfold dropPlus
  split
  · exact ⟨['+'], Or.inr rfl, rfl⟩
  · exact ⟨[], Or.inl rfl, rfl⟩

/-- **A reader takes exactly the texts that denote a number below its limit.** -/
theorem readWhole?_eq_some_iff {limit n : Nat} {cs : List Char} :
    readWhole? limit cs = some n ↔ Denotes cs n ∧ n < limit := by
  unfold readWhole?
  dsimp only
  constructor
  · intro h
    split at h
    · rename_i hread
      cases h
      obtain ⟨hne, hdigits, hlt⟩ := hread
      obtain ⟨sign, hsign, hcs⟩ := exists_sign_append_dropPlus cs
      exact ⟨⟨sign, dropPlus cs, hsign, hcs, hne, List.all_eq_true.1 hdigits, ofDigitChars_eq_ofDigits _⟩, hlt⟩
    · cases h
  · rintro ⟨⟨sign, digits, hsign, rfl, hne, hdigits, hn⟩, hlt⟩
    rw [← ofDigitChars_eq_ofDigits] at hn
    rw [dropPlus_append hsign hdigits, if_pos ⟨hne, List.all_eq_true.2 hdigits, hn ▸ hlt⟩, hn]

example : readWhole? 100 "+007".toList = some 7 ∧ readWhole? 100 "100".toList = none := by decide

theorem Denotes.mem {cs : List Char} {n : Nat} (h : Denotes cs n) {c : Char} (hc : c ∈ cs) :
    c = '+' ∨ c.isDigit = true := by
  obtain ⟨sign, digits, hsign, rfl, -, hdigits, -⟩ := h
  rcases List.mem_append.1 hc with hc | hc
  · rcases hsign with rfl | rfl
    · cases hc
    · exact Or.inl (List.mem_singleton.1 hc)
  · exact Or.inr (hdigits c hc)

theorem Denotes.toLower_eq {cs : List Char} {n : Nat} (h : Denotes cs n) {c : Char} (hc : c ∈ cs) : c.toLower = c := by
  rcases h.mem hc with rfl | hdigit
  · decide
  · unfold Char.toLower
    refine dif_neg fun hletter => ?_
    simp only [Char.isDigit, Bool.and_eq_true, decide_eq_true_iff] at hdigit
    exact absurd (UInt32.le_trans hletter.1 hdigit.2) (by decide)

end Lineup.Number
