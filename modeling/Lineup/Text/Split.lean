/-!
# Split — cutting a text at a separator

A text is cut at every occurrence of a character by `List.splitOn`, which always gives at least one piece; `cut?` cuts
at the first occurrence of a token and gives what stands before it and what stands after it.
-/
namespace Lineup.Text

-- cutting at every occurrence stands beside cutting at the first
export List (splitOn)

/-- The text before and after the first occurrence of `token`, if there is one. -/
def cut? (token : List Char) : List Char → Option (List Char × List Char)
  | [] => if token.isEmpty then some ([], []) else none
  | c :: cs =>
    if token.isPrefixOf (c :: cs) then some ([], (c :: cs).drop token.length)
    else (cut? token cs).map fun (before, after) => (c :: before, after)

/-- A cut loses nothing: what it gives, with the token between, is the text. -/
theorem eq_of_cut? {token : List Char} : ∀ {cs before after : List Char},
    cut? token cs = some (before, after) → cs = before ++ token ++ after
  | [], before, after, h => by
    unfold cut? at h
    split at h
    next ht => cases h; simp_all
    next => cases h
  | c :: cs, before, after, h => by
    unfold cut? at h
    split at h
    next hp =>
      cases h
      obtain ⟨rest, hrest⟩ := List.isPrefixOf_iff_prefix.1 hp
      rw [← hrest]; simp
    next =>
      match hc : cut? token cs with
      | none => simp [hc] at h
      | some (b, a) =>
        simp only [hc, Option.map_some, Option.some.injEq, Prod.mk.injEq] at h
        obtain ⟨rfl, rfl⟩ := h
        rw [eq_of_cut? hc]; simp

end Lineup.Text
