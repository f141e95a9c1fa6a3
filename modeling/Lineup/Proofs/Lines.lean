import Lineup.Proofs.Number.Written
import Lineup.Proofs.Text.Pieces
import Lineup.Report.Text
import Mathlib.Order.Bounds.Basic
/-!
# Lines — what a report shows people, line by line

A report is as many lines as it has things to show, in their order, as long as no name or label brings a line feed of
its own.  The names stand in a column as wide as the longest of them, so the scores stand below each other; a line shows
a share exactly when shares were chosen, and a check is marked exactly when it is among the violations.
-/
namespace Lineup

namespace Text

/-- The lines of a text: what stands before its line feeds, and what follows the last of them if it is not empty. -/
def linesOf (s : String) : List String :=
  let pieces := (s.toList.splitOn '\n').map String.ofList
  if pieces.getLast? = some "" then pieces.dropLast else pieces

theorem intercalate_append_nil (sep : List Char) : ∀ pieces : List (List Char),
    sep.intercalate (pieces ++ [[]]) = pieces.flatMap (· ++ sep)
  | [] => rfl
  | piece :: pieces => by
    have hne : pieces ++ [[]] ≠ [] := List.append_ne_nil_of_right_ne_nil _ (List.cons_ne_nil _ _)
    rw [List.cons_append, List.intercalate_cons_of_ne_nil hne, intercalate_append_nil sep pieces, List.flatMap_cons]

theorem linesOf_join {lines : List String} (h : ∀ line ∈ lines, '\n' ∉ line.toList) :
    linesOf (String.join (lines.map (· ++ "\n"))) = lines := by
  have htext : (String.join (lines.map (· ++ "\n"))).toList =
      ['\n'].intercalate (lines.map String.toList ++ [[]]) := by
    rw [intercalate_append_nil, String.toList_join, List.flatMap_map, List.flatMap_map]
    simp
  have hpieces : ∀ piece ∈ lines.map String.toList ++ [[]], '\n' ∉ piece := by
    intro piece hpiece
    rcases List.mem_append.1 hpiece with hmem | hempty
    · obtain ⟨line, hline, rfl⟩ := List.mem_map.1 hmem
      exact h line hline
    · rw [List.mem_singleton.1 hempty]
      exact List.not_mem_nil
  unfold linesOf
  rw [htext, List.splitOn_intercalate '\n' hpieces (List.append_ne_nil_of_right_ne_nil _ (List.cons_ne_nil _ _))]
  simp

/-! ## Padding and endings -/

theorem not_mem_padRight {c : Char} {s : String} (hblank : c ≠ ' ') (h : c ∉ s.toList) (width : Nat) :
    c ∉ (padRight width s).toList := by
  simp [padRight, h, hblank]

theorem not_mem_padLeft {c : Char} {s : String} (hblank : c ≠ ' ') (h : c ∉ s.toList) (width : Nat) :
    c ∉ (padLeft width s).toList := by
  simp [padLeft, h, hblank]

theorem suffix_append (s t : String) : t.toList <:+ (s ++ t).toList := by
  rw [String.toList_append]
  exact List.suffix_append _ _

theorem not_suffix_of_last {word s t : String} {last : Char} (hword : word.toList.getLast? = some last)
    (ht : t.toList ≠ []) (hmem : last ∉ t.toList) : ¬ word.toList <:+ (s ++ t).toList := by
  rintro ⟨before, hbefore⟩
  have hlast := congrArg List.getLast? hbefore
  rw [String.toList_append, List.getLast?_append_of_ne_nil _ ht, List.getLast?_append, hword, Option.some_or] at hlast
  exact hmem (List.mem_of_getLast? hlast.symm)

end Text

namespace Report

open Text (padLeft padRight linesOf)

variable {r : Report} {mode : Mode} {width place : Nat} {x : Ranked} {c : Check}

/-! ## Where there is no line feed -/

theorem not_mem_amount {c : Char} (h : Number.inPlaces c = false) (x : Float) : c ∉ (amount x).toList :=
  Number.not_mem_fixed h 3 x

theorem lineFeed_not_mem_candidateLine (h : '\n' ∉ x.name.toList) :
    '\n' ∉ (candidateLine mode width place x).toList := by
  have hplace := Text.not_mem_padLeft (c := '\n') (by decide)
    (Nat.toList_repr ▸ Number.not_mem_toDigits rfl (place + 1)) 3
  have hname := Text.not_mem_padRight (by decide) h width
  have hscore := Text.not_mem_padLeft (c := '\n') (by decide) (not_mem_amount rfl x.score) 10
  have hvalue : '\n' ∉ (amount x.value).toList := not_mem_amount rfl x.value
  unfold candidateLine
  cases mode <;> simp [hplace, hname, hscore, hvalue, toString]

theorem lineFeed_not_mem_checkLine (h : '\n' ∉ c.label.toList) : '\n' ∉ (checkLine c).toList := by
  have hlabel := Text.not_mem_padRight (by decide) h 20
  have hachieved := Text.not_mem_padLeft (c := '\n') (by decide) (not_mem_amount rfl c.achieved) 10
  have hthreshold := Text.not_mem_padRight (c := '\n') (by decide) (not_mem_amount rfl c.threshold) 10
  unfold checkLine
  cases c.sense <;> cases c.satisfied <;> simp [hlabel, hachieved, hthreshold, Sense.symbol]

theorem lineFeed_not_mem_lines (hnames : ∀ x ∈ r.team, '\n' ∉ x.name.toList)
    (hlabels : ∀ c ∈ r.checks, '\n' ∉ c.label.toList) : ∀ line ∈ r.lines, '\n' ∉ line.toList := by
  have hamount : ∀ x : Float, '\n' ∉ (amount x).toList := not_mem_amount rfl
  have hcount : ∀ n : Nat, '\n' ∉ Nat.toDigits 10 n := Number.not_mem_toDigits rfl
  have hroster : '\n' ∉ r.roster.describe.toList := by
    cases r.roster <;> simp [Roster.describe, hcount, toString]
  have hmode : '\n' ∉ r.mode.label.toList := by
    cases r.mode <;> decide
  intro line hline
  unfold lines at hline
  rw [List.mem_append, List.mem_append, List.mem_cons] at hline
  rcases hline with ((rfl | hcandidate) | htotal) | hcheck
  · simp [hmode, hroster, toString]
  · obtain ⟨⟨x, place⟩, hx, rfl⟩ := List.mem_map.1 hcandidate
    exact lineFeed_not_mem_candidateLine (hnames x (List.fst_mem_of_mem_zipIdx hx))
  · simp only [List.mem_cons, List.not_mem_nil, or_false] at htotal
    rcases htotal with rfl | rfl | rfl <;> simp [hamount, hcount, toString]
  · split at hcheck
    · cases hcheck
    · rcases List.mem_cons.1 hcheck with rfl | hcheck
      · decide
      · obtain ⟨c, hc, rfl⟩ := List.mem_map.1 hcheck
        exact lineFeed_not_mem_checkLine (hlabels c hc)

theorem linesOf_text (hnames : ∀ x ∈ r.team, '\n' ∉ x.name.toList) (hlabels : ∀ c ∈ r.checks, '\n' ∉ c.label.toList) :
    linesOf r.text = r.lines :=
  Text.linesOf_join (lineFeed_not_mem_lines hnames hlabels)

/-! ## Where each line stands -/

theorem length_lines (r : Report) :
    r.lines.length = 4 + r.team.length + (if r.checks = [] then 0 else 1 + r.checks.length) := by
  unfold lines
  split <;> simp <;> omega

theorem getElem?_lines_candidate {i : Nat} (h : r.team[i]? = some x) :
    r.lines[i + 1]? = some (candidateLine r.mode (nameWidth r.team) i x) := by
  obtain ⟨hlt, -⟩ := List.getElem?_eq_some_iff.1 h
  unfold lines
  rw [List.append_assoc, List.cons_append, List.getElem?_cons_succ, List.getElem?_append_left (by simpa using hlt),
    List.getElem?_map, List.getElem?_zipIdx, h, Option.map_some, Option.map_some, Nat.zero_add]

theorem getElem?_lines_check {i : Nat} (h : r.checks[i]? = some c) :
    r.lines[r.team.length + 5 + i]? = some (checkLine c) := by
  have hne : r.checks ≠ [] := by
    intro hnil
    rw [hnil] at h
    cases h
  obtain ⟨before, hlines, hlength⟩ : ∃ before, r.lines = before ++ "Constraint checks:" :: r.checks.map checkLine ∧
      before.length = r.team.length + 4 := by
    unfold lines
    rw [if_neg hne]
    exact ⟨_, rfl, by simp⟩
  have hindex : r.team.length + 5 + i - before.length = i + 1 := by
    omega
  rw [hlines, List.getElem?_append_right (by omega), hindex, List.getElem?_cons_succ, List.getElem?_map, h,
    Option.map_some]

/-! ## What each line shows -/

theorem isGreatest_foldl_max : ∀ (xs : List Nat) (a : Nat), IsGreatest (insert a {n | n ∈ xs}) (xs.foldl max a)
  | [], a => by simp [IsGreatest, upperBounds]
  | x :: xs, a => by
    obtain ⟨hmem, hupper⟩ := isGreatest_foldl_max xs (max a x)
    rw [List.foldl_cons]
    constructor
    · rcases hmem with heq | hmem
      · rw [heq]
        rcases Nat.le_total a x with hle | hle <;> simp [hle]
      · exact Or.inr (List.mem_cons_of_mem x hmem)
    · have hmax := hupper (Set.mem_insert (max a x) _)
      rintro n (rfl | hn)
      · exact (le_max_left n x).trans hmax
      · rcases List.mem_cons.1 hn with rfl | hn
        · exact (le_max_right a n).trans hmax
        · exact hupper (Set.mem_insert_of_mem _ hn)

theorem isGreatest_nameWidth (team : List Ranked) :
    IsGreatest (insert 4 {n | ∃ x ∈ team, x.name.length = n}) (nameWidth team) := by
  simpa [nameWidth] using isGreatest_foldl_max (team.map fun x => x.name.length) 4

/-- What the line of the candidate at a place, counted from 1, shows.  Up to place 999 the score starts where the column
of names, after the place and a point, has ended. -/
structure ShowsCandidate (mode : Mode) (width place : Nat) (x : Ranked) (line : String) : Prop where
  fits : x.name.length ≤ width
  name : ∃ rest, line = padLeft 3 place.repr ++ ". " ++ x.name ++
    String.ofList (List.replicate (width - x.name.length) ' ') ++ "  " ++ rest
  score : place < 1000 → (padLeft 10 (amount x.score)).toList <+: line.toList.drop (width + 7)
  share : mode = .fractional → ("  (value " ++ amount x.value ++ ")").toList <:+ line.toList
  no_share : mode = .binary → ∀ text : String, ¬ ("(value " ++ text ++ ")").toList <:+ line.toList

structure ShowsCheck (r : Report) (c : Check) (line : String) : Prop where
  label : ∃ rest, line = "  " ++ c.label ++ rest
  violated : "VIOLATED".toList <:+ line.toList ↔ c ∈ r.violations
  ok : "ok".toList <:+ line.toList ↔ c ∉ r.violations

def front (width place : Nat) (name : String) : String := padLeft 3 place.repr ++ ". " ++ padRight width name ++ "  "

def share (x : Ranked) : Mode → String
  | .binary => ""
  | .fractional => "  (value " ++ amount x.value ++ ")"

theorem candidateLine_eq :
    candidateLine mode width place x =
      front width (place + 1) x.name ++ padLeft 10 (amount x.score) ++ share x mode := by
  cases mode <;> rfl

theorem length_front {name : String} (hfits : name.length ≤ width) (hplace : place < 1000) :
    (front width place name).length = width + 7 := by
  have hdigits : place.repr.length ≤ 3 := (Nat.length_repr_le_iff (by decide)).2 hplace
  have hpoint : (". " : String).length = 2 := rfl
  have hgap : ("  " : String).length = 2 := rfl
  simp only [front, String.length_append, Text.length_padLeft, Text.length_padRight]
  omega

theorem candidateLine_shows (hfits : x.name.length ≤ width) :
    ShowsCandidate mode width (place + 1) x (candidateLine mode width place x) := by
  rw [candidateLine_eq]
  refine ⟨hfits, ⟨padLeft 10 (amount x.score) ++ share x mode, ?_⟩, fun hplace => ?_, ?_, ?_⟩
  · simp only [front, padRight, String.append_assoc]
  · rw [String.append_assoc, String.toList_append, String.toList_append, ← length_front hfits hplace,
      ← String.length_toList, List.drop_left]
    exact List.prefix_append _ _
  · rintro rfl
    rw [share]
    exact Text.suffix_append _ _
  · rintro rfl text
    have hne : (padLeft 10 (amount x.score)).toList ≠ [] := by
      rw [← List.length_pos_iff, String.length_toList, Text.length_padLeft]
      omega
    have hnone : ')' ∉ (padLeft 10 (amount x.score)).toList :=
      Text.not_mem_padLeft (by decide) (not_mem_amount rfl x.score) 10
    have hlast : ("(value " ++ text ++ ")").toList.getLast? = some ')' := by
      rw [String.toList_append, List.getLast?_append]
      rfl
    rw [share, String.append_empty]
    exact Text.not_suffix_of_last hlast hne hnone

theorem checkLine_shows (hc : c ∈ r.checks) : ShowsCheck r c (checkLine c) := by
  have hviolated : c ∈ r.violations ↔ c.satisfied = false := by
    simp [violations, hc]
  obtain ⟨middle, hline⟩ : ∃ middle,
      checkLine c = "  " ++ c.label ++ middle ++ (if c.satisfied then "ok" else "VIOLATED") :=
    ⟨String.ofList (List.replicate (20 - c.label.length) ' ') ++ " " ++ padLeft 10 (amount c.achieved) ++ " " ++
      c.sense.symbol ++ " " ++ padRight 10 (amount c.threshold) ++ " ",
      by simp only [checkLine, padRight, String.append_assoc]⟩
  rw [hline]
  refine ⟨⟨_, String.append_assoc⟩, ?_, ?_⟩
  · cases hsatisfied : c.satisfied with
    | false => exact iff_of_true (Text.suffix_append _ _) (hviolated.2 hsatisfied)
    | true =>
      rw [if_pos rfl]
      exact iff_of_false (Text.not_suffix_of_last rfl (by decide) (by decide)) fun h =>
        absurd (hviolated.1 h) (by simp [hsatisfied])
  · cases hsatisfied : c.satisfied with
    | false =>
      rw [if_neg Bool.false_ne_true]
      exact iff_of_false (Text.not_suffix_of_last rfl (by decide) (by decide)) (not_not_intro (hviolated.2 hsatisfied))
    | true =>
      exact iff_of_true (Text.suffix_append _ _) fun h => absurd (hviolated.1 h) (by simp [hsatisfied])

/-- **A report shows people all that it has, line by line.**  There are four lines and one for each candidate of the
team, and if there are checks, a line for each of them and one more.  The candidates stand in the order of the team,
with their names in full in a column as wide as the longest of them; the checks stand in their order, each marked as
what it is. -/
theorem text_shows (r : Report) (hnames : ∀ x ∈ r.team, '\n' ∉ x.name.toList)
    (hlabels : ∀ c ∈ r.checks, '\n' ∉ c.label.toList) :
    (linesOf r.text).length = 4 + r.team.length + (if r.checks = [] then 0 else 1 + r.checks.length) ∧
    (∃ width, IsGreatest (insert 4 {n | ∃ x ∈ r.team, x.name.length = n}) width ∧
      ∀ i x, r.team[i]? = some x →
        ∃ line, (linesOf r.text)[i + 1]? = some line ∧ ShowsCandidate r.mode width (i + 1) x line) ∧
    ∀ i c, r.checks[i]? = some c →
      ∃ line, (linesOf r.text)[r.team.length + 5 + i]? = some line ∧ ShowsCheck r c line := by
  rw [linesOf_text hnames hlabels]
  refine ⟨length_lines r, ⟨nameWidth r.team, isGreatest_nameWidth r.team, fun i x hx => ?_⟩, fun i c hc => ?_⟩
  · have hfits : x.name.length ≤ nameWidth r.team :=
      (isGreatest_nameWidth r.team).2 (Or.inr ⟨x, List.mem_of_getElem? hx, rfl⟩)
    exact ⟨_, getElem?_lines_candidate hx, candidateLine_shows hfits⟩
  · exact ⟨_, getElem?_lines_check hc, checkLine_shows (List.mem_of_getElem? hc)⟩

/-- Of a name longer than the other, with letters of more than one byte, and of a check that the team fails. -/
theorem text_shows_of_shares :
    let r : Report := ⟨.fractional, .fixed 2, [⟨4, "Zoë Åkerström", 12.5, 0.75⟩, ⟨1, "Bo", 3.0, 1.0⟩], 15.5, 12.375,
      5, [], [⟨"fouls_max_0", .atMost, 10.0, 12.0, false⟩, ⟨"team_size", .equal, 2.0, 2.0, true⟩]⟩
    (∀ x ∈ r.team, '\n' ∉ x.name.toList) ∧ (∀ c ∈ r.checks, '\n' ∉ c.label.toList) ∧ (linesOf r.text).length = 9 ∧
      (∃ line, (linesOf r.text)[2]? = some line ∧ ShowsCandidate .fractional 13 2 ⟨1, "Bo", 3.0, 1.0⟩ line) ∧
      ∃ line, (linesOf r.text)[7]? = some line ∧ "VIOLATED".toList <:+ line.toList := by
  intro r
  have hnames : ∀ x ∈ r.team, '\n' ∉ x.name.toList := by decide
  have hlabels : ∀ c ∈ r.checks, '\n' ∉ c.label.toList := by decide
  obtain ⟨hlength, ⟨width, ⟨hmem, hupper⟩, hteam⟩, hchecks⟩ := text_shows r hnames hlabels
  have hwidth : width = 13 := by
    have hzoe : 13 ≤ width := hupper (Or.inr ⟨⟨4, "Zoë Åkerström", 12.5, 0.75⟩, List.mem_cons_self, rfl⟩)
    rcases hmem with rfl | ⟨x, hx, rfl⟩
    · omega
    · simp only [r, List.mem_cons, List.not_mem_nil, or_false] at hx
      rcases hx with rfl | rfl
      · rfl
      · exact absurd hzoe (by decide)
  subst hwidth
  obtain ⟨line, hline, hshows⟩ := hchecks 0 ⟨"fouls_max_0", .atMost, 10.0, 12.0, false⟩ rfl
  exact ⟨hnames, hlabels, hlength, hteam 1 _ rfl, line, hline, hshows.violated.2 (by simp [r, violations])⟩

end Report

end Lineup
