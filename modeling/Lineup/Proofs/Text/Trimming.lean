import Mathlib.Data.List.DropRight
import Lineup.Text.Blank
/-!
# Trimming — what trimming leaves, and what it takes away

A text is what is left of it after trimming, with blank characters on either side; what is left has none at its ends.
So blank characters around a text make no difference to anything that reads it trimmed.
-/
namespace Lineup.Text

structure Tight (cs : List Char) : Prop where
  first : ∀ c ∈ cs.head?, isBlank c = false
  last : ∀ c ∈ cs.getLast?, isBlank c = false

theorem not_mem_of_blank {c : Char} {cs : List Char} (h : cs.all isBlank = true) (hc : isBlank c = false) : c ∉ cs :=
  fun hmem => Bool.false_ne_true (hc.symm.trans (List.all_eq_true.1 h c hmem))

theorem trimEnd_eq_rdropWhile (cs : List Char) : trimEnd cs = cs.rdropWhile isBlank := rfl

theorem trimStart_append {s : List Char} (hs : s.all isBlank = true) (cs : List Char) :
    trimStart (s ++ cs) = trimStart cs :=
  List.dropWhile_append_of_pos (List.all_eq_true.1 hs)

theorem trimEnd_append {t : List Char} (ht : t.all isBlank = true) (cs : List Char) :
    trimEnd (cs ++ t) = trimEnd cs := by
  unfold trimEnd
  rw [List.reverse_append, List.dropWhile_append_of_pos fun c hc => List.all_eq_true.1 ht c (List.mem_reverse.1 hc)]

theorem trim_eq_nil_iff {cs : List Char} : trim cs = [] ↔ cs.all isBlank = true := by
  rw [trim, trimEnd_eq_rdropWhile, List.rdropWhile_eq_nil_iff, trimStart, List.all_eq_true]
  constructor
  · intro h
    have hnone : cs.dropWhile isBlank = [] := by
      rw [← List.dropWhile_idempotent, List.dropWhile_eq_nil_iff]
      exact h
    exact List.dropWhile_eq_nil_iff.1 hnone
  · intro h c hc
    rw [List.dropWhile_eq_nil_iff.2 h] at hc
    cases hc

theorem trimmed_eq_empty_iff {s : String} : trimmed s = "" ↔ allBlank s = true := by
  unfold trimmed allBlank
  rw [← trim_eq_nil_iff, String.ofList_eq_empty_iff]

/-- **Blank characters around a text make no difference.** -/
theorem trim_pad {s t : List Char} (hs : s.all isBlank = true) (ht : t.all isBlank = true) (cs : List Char) :
    trim (s ++ cs ++ t) = trim cs := by
  rw [List.append_assoc, trim, trimStart_append hs]
  by_cases hblank : cs.all isBlank = true
  · have hall : (cs ++ t).all isBlank = true := by simp [hblank, ht]
    exact (trim_eq_nil_iff.2 hall).trans (trim_eq_nil_iff.2 hblank).symm
  · have hne : (cs.dropWhile isBlank).isEmpty = false := by
      rw [List.isEmpty_eq_false_iff, Ne, List.dropWhile_eq_nil_iff]
      simpa using hblank
    rw [trimStart, List.dropWhile_append, hne, if_neg Bool.false_ne_true, trimEnd_append ht]
    rfl

theorem tight_trim (cs : List Char) : Tight (trim cs) := by
  constructor
  · intro c hc
    obtain ⟨t, ht⟩ : trim cs <+: trimStart cs := List.rdropWhile_prefix isBlank _
    have hhead : (trimStart cs).head? = some c := by rw [← ht, List.head?_append, hc]; rfl
    have := List.head?_dropWhile_not isBlank cs
    rw [show (cs.dropWhile isBlank).head? = some c from hhead] at this
    simpa using this
  · intro c hc
    obtain ⟨hne, rfl⟩ := List.mem_getLast?_eq_getLast hc
    exact Bool.eq_false_iff.2 (List.rdropWhile_last_not isBlank (trimStart cs) hne)

theorem trim_of_tight {cs : List Char} (h : Tight cs) : trim cs = cs := by
  have hstart : trimStart cs = cs := by
    unfold trimStart
    rw [List.dropWhile_eq_self_iff]
    intro hl
    have := h.first cs[0] (by rw [List.head?_eq_getElem?, List.getElem?_eq_getElem hl]; rfl)
    simp [this]
  rw [trim, hstart, trimEnd_eq_rdropWhile, List.rdropWhile_eq_self_iff]
  intro hne
  have := h.last (cs.getLast hne) (List.getLast?_eq_some_getLast hne)
  simp [this]

theorem exists_pad (cs : List Char) :
    ∃ s t, s.all isBlank = true ∧ t.all isBlank = true ∧ cs = s ++ trim cs ++ t := by
  refine ⟨cs.takeWhile isBlank, (trimStart cs).rtakeWhile isBlank, List.all_takeWhile, ?_, ?_⟩
  · rw [List.all_eq_true]
    intro c hc
    exact List.mem_rtakeWhile_imp hc
  · rw [List.append_assoc, trim, trimEnd_eq_rdropWhile, List.rdropWhile_append_rtakeWhile]
    exact List.takeWhile_append_dropWhile.symm

theorem mem_of_mem_trim {c : Char} {cs : List Char} (h : c ∈ trim cs) : c ∈ cs := by
  obtain ⟨s, t, -, -, hpad⟩ := exists_pad cs
  rw [hpad]
  exact List.mem_append_left t (List.mem_append_right s h)

theorem length_trim_le (cs : List Char) : (trim cs).length ≤ cs.length := by
  obtain ⟨s, t, -, -, hpad⟩ := exists_pad cs
  have := congrArg List.length hpad
  rw [List.length_append, List.length_append] at this
  omega

theorem Tight.append {xs ys : List Char} (hx : Tight xs) (hy : Tight ys) (hxs : xs ≠ []) (hys : ys ≠ [])
    (between : List Char) : Tight (xs ++ between ++ ys) := by
  constructor
  · intro c hc
    rw [List.append_assoc, List.head?_append_of_ne_nil _ hxs] at hc
    exact hx.first c hc
  · intro c hc
    rw [List.getLast?_append_of_ne_nil _ hys] at hc
    exact hy.last c hc

end Lineup.Text
