import Mathlib.Data.List.Infix
import Lineup.Text.Split
/-!
# Pieces — the pieces of a text, and the place of a cut

Splitting and joining undo one another where no piece holds the separator.  A cut is made where the token first occurs,
and only a text without the token is not cut.
-/
namespace Lineup.Text

theorem not_mem_of_mem_splitOn {sep : Char} : ∀ {cs piece : List Char}, piece ∈ cs.splitOn sep → sep ∉ piece
  | [], piece, h => by
    obtain rfl : piece = [] := by simpa using h
    exact List.not_mem_nil
  | c :: cs, piece, h => by
    rw [List.splitOn_cons_eq_if_modifyHead] at h
    by_cases hc : c = sep
    · rw [if_pos (beq_iff_eq.2 hc)] at h
      rcases List.mem_cons.1 h with rfl | h
      · exact List.not_mem_nil
      · exact not_mem_of_mem_splitOn h
    · rw [if_neg (by simpa using hc)] at h
      cases hs : cs.splitOn sep with
      | nil => exact absurd hs (List.splitOn_ne_nil sep cs)
      | cons first pieces =>
        rw [hs] at h
        rcases List.mem_cons.1 h with rfl | h
        · have := not_mem_of_mem_splitOn (hs ▸ List.mem_cons_self : first ∈ cs.splitOn sep)
          simp [Ne.symm hc, this]
        · exact not_mem_of_mem_splitOn (hs ▸ List.mem_cons_of_mem first h)

/-! ## Cuts -/

theorem cut?_eq_none_iff {token : List Char} : ∀ {cs : List Char}, cut? token cs = none ↔ ¬ token <:+: cs
  | [] => by simp [cut?, List.infix_nil]
  | c :: cs => by
    rw [cut?, List.infix_cons_iff]
    by_cases h : token <+: c :: cs
    · simp [h]
    · rw [if_neg (by simpa using h), Option.map_eq_none_iff, cut?_eq_none_iff]
      simp [h]

theorem pair_infix_append_iff {a b : Char} {xs ys : List Char} :
    [a, b] <:+: xs ++ ys ↔ [a, b] <:+: xs ∨ [a, b] <:+: ys ∨ (xs.getLast? = some a ∧ ys.head? = some b) := by
  rw [List.infix_append_iff]
  constructor
  · rintro (h | h | ⟨front, back, hpair, hsuffix, hprefix⟩)
    · exact Or.inl h
    · exact Or.inr (Or.inl h)
    · match front, back, hpair with
      | [], _, rfl => exact Or.inr (Or.inl hprefix.isInfix)
      | [_], _, rfl =>
        obtain ⟨before, rfl⟩ := hsuffix
        obtain ⟨after, rfl⟩ := hprefix
        exact Or.inr (Or.inr ⟨List.getLast?_concat, rfl⟩)
      | [_, _], _, rfl => exact Or.inl hsuffix.isInfix
  · rintro (h | h | ⟨hlast, hhead⟩)
    · exact Or.inl h
    · exact Or.inr (Or.inl h)
    · obtain ⟨before, rfl⟩ := List.getLast?_eq_some_iff.1 hlast
      obtain ⟨after, rfl⟩ := List.head?_eq_some_iff.1 hhead
      exact Or.inr (Or.inr ⟨[a], [b], rfl, List.suffix_append before [a], List.prefix_append [b] after⟩)

theorem dropLast_prefix {token left right : List Char} : left ++ token.dropLast <+: left ++ token ++ right := by
  rw [List.append_assoc, List.prefix_append_right_inj]
  exact (List.dropLast_prefix token).trans (List.prefix_append token right)

theorem not_infix_of_cut? {token : List Char} (hne : token ≠ []) : ∀ {cs left right : List Char},
    cut? token cs = some (left, right) → ¬ token <:+: left ++ token.dropLast
  | [], left, right, h => by simp [cut?, hne] at h
  | c :: cs, left, right, h => by
    rw [cut?] at h
    by_cases hfront : token <+: c :: cs
    · rw [if_pos (by simpa using hfront)] at h
      cases h
      intro hin
      have := hin.length_le
      have := List.length_pos_iff.2 hne
      simp at *
      omega
    · rw [if_neg (by simpa using hfront)] at h
      obtain ⟨⟨before, after⟩, hcut, hpair⟩ := Option.map_eq_some_iff.1 h
      cases hpair
      rw [List.cons_append, List.infix_cons_iff, not_or]
      refine ⟨fun hin => hfront (hin.trans ?_), not_infix_of_cut? hne hcut⟩
      rw [eq_of_cut? hcut, List.prefix_cons_inj]
      exact dropLast_prefix

/-- Of two occurrences of a token the earlier one ends before the later one. -/
theorem infix_of_earlier {token left right left' right' : List Char}
    (h : left ++ token ++ right = left' ++ token ++ right') (hlt : left.length < left'.length) :
    token <:+: left' ++ token.dropLast := by
  have hearly : left ++ token <+: left' ++ token.dropLast := by
    refine List.prefix_of_prefix_length_le (List.prefix_append _ right) (h ▸ dropLast_prefix) ?_
    simp
    omega
  exact (List.suffix_append left token).isInfix.trans hearly.isInfix

/-- **A text is cut where the token first occurs**: it does not occur before its last character there. -/
theorem cut?_eq_some_iff {token cs left right : List Char} (hne : token ≠ []) :
    cut? token cs = some (left, right) ↔ cs = left ++ token ++ right ∧ ¬ token <:+: left ++ token.dropLast := by
  refine ⟨fun h => ⟨eq_of_cut? h, not_infix_of_cut? hne h⟩, ?_⟩
  rintro ⟨rfl, hfirst⟩
  cases hcut : cut? token (left ++ token ++ right) with
  | none => exact absurd (List.infix_append left token right) (cut?_eq_none_iff.1 hcut)
  | some sides =>
    obtain ⟨left', right'⟩ := sides
    have heq := eq_of_cut? hcut
    -- if one of the cuts were earlier, the token would occur before the other
    have hlength : left.length = left'.length := by
      rcases Nat.lt_trichotomy left.length left'.length with hlt | hsame | hgt
      · exact absurd (infix_of_earlier heq hlt) (not_infix_of_cut? hne hcut)
      · exact hsame
      · exact absurd (infix_of_earlier heq.symm hgt) hfirst
    rw [List.append_assoc, List.append_assoc] at heq
    obtain ⟨rfl, hrest⟩ := List.append_inj heq hlength
    rw [List.append_cancel_left hrest]

theorem cut?_singleton_iff {c : Char} {cs left right : List Char} :
    cut? [c] cs = some (left, right) ↔ cs = left ++ c :: right ∧ c ∉ left := by
  rw [cut?_eq_some_iff (List.cons_ne_nil c []), List.append_assoc]
  simp [List.singleton_infix_iff]

theorem eq_of_last {c : Char} {xs ys xs' ys' : List Char} (h : xs ++ c :: ys = xs' ++ c :: ys') (hys : c ∉ ys)
    (hys' : c ∉ ys') : xs = xs' ∧ ys = ys' := by
  -- reversed, it is the first place
  have hreverse : ys.reverse ++ c :: xs.reverse = ys'.reverse ++ c :: xs'.reverse := by
    simpa using congrArg List.reverse h
  have hcut := cut?_singleton_iff.2 ⟨hreverse, mt List.mem_reverse.1 hys'⟩
  rw [cut?_singleton_iff.2 ⟨rfl, mt List.mem_reverse.1 hys⟩, Option.some.injEq, Prod.mk.injEq, List.reverse_inj,
    List.reverse_inj] at hcut
  exact ⟨hcut.2, hcut.1⟩

end Lineup.Text
