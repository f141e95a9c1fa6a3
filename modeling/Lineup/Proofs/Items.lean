import Lineup.Expression
import Lineup.Proofs.Number.Numerals
import Lineup.Proofs.Text.Pieces
/-!
# Items — lists of items, and items that name a metric and a number

The items of a text are its pieces between commas, trimmed.  An item that is written with a name, a token and a number
falls into two sides at the token, from which the name and the number can be read again, however many blank characters
stand around them.
-/
namespace Lineup

open Text (Tight isBlank trim)

/-! ## Lists -/

variable {onBlank e : ExpressionError} {text : String}

theorem exists_blank_of_allBlank (h : Text.allBlank text = true) :
    ∃ piece ∈ text.toList.splitOn ',', piece.all isBlank = true := by
  refine ⟨text.toList, ?_, h⟩
  rw [List.splitOn_eq_singleton (Text.not_mem_of_blank h (by decide))]
  exact List.mem_singleton_self _

theorem any_isEmpty_iff {pieces : List (List Char)} :
    (pieces.map trim).any List.isEmpty = true ↔ ∃ piece ∈ pieces, piece.all isBlank = true := by
  simp [Text.trim_eq_nil_iff]

/-- **A list is accepted when none of its items is blank.** -/
theorem items_eq_ok_iff {found : List (List Char)} : items onBlank text = .ok found ↔
    (∀ piece ∈ text.toList.splitOn ',', piece.all isBlank = false) ∧ found = (text.toList.splitOn ',').map trim := by
  unfold items
  split
  · rename_i hblank
    obtain ⟨piece, hpiece, hall⟩ := exists_blank_of_allBlank hblank
    simp only [reduceCtorEq, false_iff, not_and]
    intro h
    exact absurd hall (by simp [h piece hpiece])
  · dsimp only
    split
    · rename_i hany
      obtain ⟨piece, hpiece, hall⟩ := any_isEmpty_iff.1 hany
      simp only [reduceCtorEq, false_iff, not_and]
      intro h
      exact absurd hall (by simp [h piece hpiece])
    · rename_i hany
      rw [any_isEmpty_iff] at hany
      constructor
      · intro h
        cases h
        exact ⟨fun piece hpiece => Bool.eq_false_iff.2 fun hall => hany ⟨piece, hpiece, hall⟩, rfl⟩
      · rintro ⟨-, rfl⟩
        rfl

/-- **A list is refused as a whole** when it is blank, or else when one of its items is. -/
theorem items_eq_error_iff : items onBlank text = .error e ↔
    (Text.allBlank text = true ∧ e = onBlank) ∨
      (Text.allBlank text = false ∧ (∃ piece ∈ text.toList.splitOn ',', piece.all isBlank = true) ∧
        e = .malformedItem (Text.trimmed text)) := by
  unfold items
  by_cases hblank : Text.allBlank text = true
  · rw [if_pos hblank, Except.error.injEq]
    simp [hblank, @eq_comm _ onBlank]
  · rw [if_neg hblank]
    dsimp only
    by_cases hany : ((text.toList.splitOn ',').map trim).any List.isEmpty = true
    · rw [if_pos hany, Except.error.injEq]
      constructor
      · rintro rfl
        exact Or.inr ⟨Bool.eq_false_iff.2 hblank, any_isEmpty_iff.1 hany, rfl⟩
      · rintro (⟨h, -⟩ | ⟨-, -, h⟩)
        · exact absurd h hblank
        · exact h.symm
    · rw [if_neg hany]
      simp only [reduceCtorEq, false_iff]
      rintro (⟨h, -⟩ | ⟨-, h, -⟩)
      · exact hblank h
      · exact hany (any_isEmpty_iff.2 h)

/-! ## Items -/

/-- An item as it may be written: a name, a token and a number, with blank characters around each of them. -/
def Spelled (token name number item : List Char) : Prop :=
  ∃ a b c d : List Char, a.all isBlank = true ∧ b.all isBlank = true ∧ c.all isBlank = true ∧ d.all isBlank = true ∧
    item = a ++ name ++ b ++ token ++ c ++ number ++ d

namespace Spelled

variable {token name number item : List Char} {x : Float}

theorem not_mem (h : Spelled token name number item) (hnumber : Number.readFinite? number = some x) {c : Char}
    (hname : c ∉ name) (htoken : c ∉ token) (hnumeral : Number.inNumeral c = false) (hblank : isBlank c = false) :
    c ∉ item := by
  obtain ⟨s, t, u, v, hs, ht, hu, hv, rfl⟩ := h
  have hnot : ∀ {cs : List Char}, cs.all isBlank = true → c ∉ cs := fun h => Text.not_mem_of_blank h hblank
  simp [hname, htoken, Number.not_mem_of_readFinite? hnumber hnumeral hblank, hnot hs, hnot ht, hnot hu, hnot hv]

theorem not_blank (h : Spelled token name number item) (htight : Tight name) (hne : name ≠ []) :
    item.all isBlank = false := by
  obtain ⟨first, rest, rfl⟩ := List.exists_cons_of_ne_nil hne
  have hfirst := htight.first first rfl
  obtain ⟨s, t, u, v, -, -, -, -, rfl⟩ := h
  simp [hfirst]

theorem sides (h : Spelled token name number item) (htight : Tight name) (hne : name ≠ [])
    (hnumber : Number.readFinite? number = some x) :
    ∃ left right, trim item = left ++ token ++ right ∧ trim left = name ∧ Number.readFinite? right = some x ∧
      ∀ c, c ∉ name → isBlank c = false → c ∉ left := by
  obtain ⟨s, t, u, v, hs, ht, hu, hv, rfl⟩ := h
  obtain ⟨p, q, hp, hq, hpad⟩ := Text.exists_pad number
  refine ⟨name ++ t, u ++ p ++ trim number, ?_, ?_, ?_, ?_⟩
  · have hwhole : s ++ name ++ t ++ token ++ u ++ number ++ v =
        s ++ (name ++ (t ++ token ++ u ++ p) ++ trim number) ++ (q ++ v) := by
      conv => lhs; rw [hpad]
      simp
    -- from the name to the number nothing is trimmed, as both are tight
    have hcore : Tight (name ++ (t ++ token ++ u ++ p) ++ trim number) :=
      htight.append (Text.tight_trim number) hne (Number.trim_ne_nil_of_readFinite? hnumber) _
    rw [hwhole, Text.trim_pad hs (by simp [hq, hv]), Text.trim_of_tight hcore]
    simp
  · have := Text.trim_pad (s := []) rfl ht name
    rwa [List.nil_append, Text.trim_of_tight htight] at this
  · have := Text.trim_pad (s := u ++ p) (t := []) (by simp [hu, hp]) rfl (trim number)
    rw [List.append_nil, Text.trim_of_tight (Text.tight_trim number)] at this
    rw [Number.readFinite?_congr this, hnumber]
  · intro c hname hblank
    rw [List.mem_append, not_or]
    exact ⟨hname, Text.not_mem_of_blank ht hblank⟩

end Spelled

end Lineup
