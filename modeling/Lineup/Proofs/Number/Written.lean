import Lineup.Number.Layout
/-!
# Written — the characters of written numbers

A whole number is written in digits, and no two are written alike.  A number with a fixed count of decimal places is
written in digits, a point and perhaps a sign, unless it is one of the few words for what is not finite.
-/
namespace Lineup.Number

theorem not_mem_toDigits {c : Char} (h : c.isDigit = false) (n : Nat) : c ∉ Nat.toDigits 10 n := fun hc =>
  Bool.false_ne_true (h.symm.trans (Nat.isDigit_of_mem_toDigits (by decide) (by decide) hc))

theorem toDigits_injective {m n : Nat} (h : Nat.toDigits 10 m = Nat.toDigits 10 n) : m = n :=
  calc
    m = Nat.ofDigitChars 10 (Nat.toDigits 10 m) 0 := Nat.ofDigitChars_ten_toDigits.symm
    _ = Nat.ofDigitChars 10 (Nat.toDigits 10 n) 0 := by rw [h]
    _ = n := Nat.ofDigitChars_ten_toDigits

def inPlaces (c : Char) : Bool := c.isDigit || ['-', '.', 'N', 'a', 'i', 'n', 'f'].contains c

theorem inPlaces_of_mem_toDigits {c : Char} {n : Nat} (h : c ∈ Nat.toDigits 10 n) : inPlaces c = true := by
  unfold inPlaces
  rw [Nat.isDigit_of_mem_toDigits (by decide) (by decide) h, Bool.true_or]

theorem inPlaces_of_mem_notFinite {c : Char} {x : Float} (h : c ∈ (notFinite x).toList) : inPlaces c = true := by
  have hwords : ∀ word ∈ ["NaN", "-inf", "inf"], word.toList.all inPlaces = true := by decide
  refine List.all_eq_true.1 (hwords (notFinite x) ?_) c h
  unfold notFinite
  split
  · decide
  · split <;> decide

theorem inPlaces_of_mem_withSign {c : Char} {negative : Bool} {cs : List Char} (hcs : ∀ c ∈ cs, inPlaces c = true)
    (h : c ∈ (withSign negative cs).toList) : inPlaces c = true := by
  unfold withSign at h
  rw [String.toList_ofList] at h
  split at h
  · rcases List.mem_cons.1 h with rfl | h
    · decide
    · exact hcs c h
  · exact hcs c h

theorem inPlaces_of_mem_fixed {c : Char} {places : Nat} {x : Float} (h : c ∈ (fixed places x).toList) :
    inPlaces c = true := by
  unfold fixed at h
  split at h
  · exact inPlaces_of_mem_notFinite h
  · refine inPlaces_of_mem_withSign (fun c hc => ?_) h
    rw [List.append_assoc, List.mem_append, List.cons_append, List.mem_cons, List.mem_append] at hc
    rcases hc with hc | rfl | hc | hc
    · exact inPlaces_of_mem_toDigits hc
    · decide
    · rw [List.eq_of_mem_replicate hc]
      decide
    · exact inPlaces_of_mem_toDigits hc

theorem not_mem_fixed {c : Char} (h : inPlaces c = false) (places : Nat) (x : Float) : c ∉ (fixed places x).toList :=
  fun hc => Bool.false_ne_true (h.symm.trans (inPlaces_of_mem_fixed hc))

end Lineup.Number
