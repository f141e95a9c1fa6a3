import Lineup.Proofs.Integral
import Lineup.Proofs.Linear.Search
import Lineup.Proofs.Optimum
/-!
# Agreement — engines that are exact agree

A reply of a backend is exact when what it says of the problem is true.  Two exact replies to one problem have one
status and one value.  For a program of integers the exhaustive engine is exact too, as it goes through all points of
zeros and ones and no sum on the way is rounded; so it agrees with any engine whose backend is.
-/
namespace Lineup

open Linear (Outcome Problem)
open Number

/-! ## Exact replies -/

namespace Engine

/-- A reply is the truth about the problem: the values are those of an optimum, to the last bit. -/
def Reply.Exact (mode : Mode) (p : Problem) : Reply → Prop
  | .solved values => ∃ x, values.mapM toRat? = some x ∧ (Outcome.optimal x).Exact mode p
  | .infeasible => Outcome.infeasible.Exact mode p
  | .unbounded => ∀ limit : Rat, ∃ x, p.feasible mode x = true ∧ limit < p.value x
  | .failed _ => False

section Replies

variable {mode : Mode} {p : Problem} {reply reply' : Reply} {values values' : List Float}

theorem Reply.exact_solved_iff : (Reply.solved values).Exact mode p ↔
    (∀ x ∈ values, x.isFinite = true) ∧ (Outcome.optimal (values.map Number.exact)).Exact mode p := by
  unfold Exact
  simp only [mapM_toRat?_eq_some]
  constructor
  · rintro ⟨_, ⟨hfinite, rfl⟩, hexact⟩
    exact ⟨hfinite, hexact⟩
  · rintro ⟨hfinite, hexact⟩
    exact ⟨_, ⟨hfinite, rfl⟩, hexact⟩

/-- **An exact reply gives an optimum, or says that there is none**, since values are bounded. -/
theorem Reply.Exact.solved_or_infeasible (h : reply.Exact mode p) :
    (∃ values, reply = .solved values) ∨ reply = .infeasible := by
  cases reply with
  | solved values => exact Or.inl ⟨values, rfl⟩
  | infeasible => exact Or.inr rfl
  | unbounded =>
    obtain ⟨x, hx, hlimit⟩ := h (Problem.positiveSum p.objective)
    exact absurd (Problem.value_le_of_feasible hx) (not_le.2 hlimit)
  | failed reason => exact h.elim

theorem Reply.Exact.solved_of_feasible (h : reply.Exact mode p) {x : List Rat} (hx : p.feasible mode x = true) :
    ∃ values, reply = .solved values := by
  refine h.solved_or_infeasible.resolve_right ?_
  rintro rfl
  exact Bool.false_ne_true ((h x).symm.trans hx)

theorem Reply.Exact.status_eq (h : reply.Exact mode p) (h' : reply'.Exact mode p) :
    reply.answer.status = reply'.answer.status := by
  rcases h.solved_or_infeasible with ⟨values, rfl⟩ | rfl
  · obtain ⟨-, hfeasible, -⟩ := Reply.exact_solved_iff.1 h
    obtain ⟨values', rfl⟩ := h'.solved_of_feasible hfeasible
    rfl
  · rcases h'.solved_or_infeasible with ⟨values', rfl⟩ | rfl
    · obtain ⟨-, hfeasible, -⟩ := Reply.exact_solved_iff.1 h'
      exact absurd hfeasible (Bool.eq_false_iff.1 (h _))
    · rfl

theorem Reply.Exact.value_eq (h : (Reply.solved values).Exact mode p) (h' : (Reply.solved values').Exact mode p) :
    p.value (values.map Number.exact) = p.value (values'.map Number.exact) := by
  obtain ⟨-, hfeasible, hbest⟩ := Reply.exact_solved_iff.1 h
  obtain ⟨-, hfeasible', hbest'⟩ := Reply.exact_solved_iff.1 h'
  exact le_antisymm (hbest' _ hfeasible) (hbest _ hfeasible')

theorem Reply.exact_ofOutcome {outcome : Outcome} (h : outcome.Exact mode p)
    (hround : ∀ x, outcome = .optimal x → ∀ v ∈ x, toRat? (ofRat v) = some v) : (ofOutcome outcome).Exact mode p := by
  cases outcome with
  | optimal x =>
    refine ⟨x, mapM_toRat?_eq_some.2 ⟨List.forall_mem_map.2 fun v hv => ?_, ?_⟩, h⟩
    · exact (toRat?_eq_some.1 (hround x rfl v hv)).1
    · rw [List.map_map]
      exact (List.map_congr_left fun v hv => (toRat?_eq_some.1 (hround x rfl v hv)).2).trans (List.map_id x)
  | infeasible => exact h
  | undecided => exact h.elim

/-- **The solver that is used is a backend whose replies are exact in binary mode**: zeros and ones are not rounded. -/
theorem backendOf_solve_exact (h : p.Sized) : (backendOf Linear.solve .binary p).Exact .binary p := by
  have hexact := Linear.solve_binary_exact h
  refine Reply.exact_ofOutcome hexact fun x hx v hv => ?_
  rw [hx] at hexact
  obtain ⟨-, hall, -⟩ := Problem.feasible_iff.1 hexact.1
  rcases Problem.allowed_iff_of_binary.1 (List.all_eq_true.1 hall v hv) with rfl | rfl <;> decide +kernel

end Replies

theorem ofBackend_eq {p : Program} (h : p.Integral) (backend : Backend) :
    ofBackend backend p = (backend p.mode p.problem).answer := by
  unfold ofBackend
  rw [Program.toProblem?_eq h]

/-! ## The exhaustive engine -/

theorem exists_mask {x : List Rat} (h : x.all (Problem.allowed .binary) = true) :
    ∃ mask < 2 ^ x.length, x = (pointOf x.length mask).map Number.exact := by
  refine ⟨Nat.ofBits fun k : Fin x.length => decide (x[k] = 1), Nat.ofBits_lt_two_pow _, List.ext_getElem? fun k => ?_⟩
  by_cases hk : k < x.length
  · have hbit := Problem.allowed_iff_of_binary.1 (List.all_eq_true.1 h x[k] (List.getElem_mem hk))
    rw [List.getElem?_map, getElem?_pointOf hk, Nat.testBit_ofBits_lt _ k hk, List.getElem?_eq_getElem hk,
      Option.map_some, Option.some_inj]
    simp only [Fin.getElem_fin, decide_eq_true_eq]
    rw [Number.exact_ite]
    rcases hbit with hzero | hone
    · rw [hzero, if_neg zero_ne_one]
    · rw [hone, if_pos rfl]
  · rw [List.getElem?_eq_none (by omega), List.getElem?_eq_none (by rw [List.length_map, length_pointOf]; omega)]

section Exhaustive

variable {p : Program} (h : p.Integral)
include h

theorem meets_iff (mask : Nat) :
    Meets p mask ↔ p.problem.feasible .binary ((pointOf p.ids.length mask).map Number.exact) = true := by
  have hbits := all_isBit_pointOf p.ids.length mask
  rw [← Program.admits_iff h (List.all_eq_true.1 (all_isFinite_pointOf _ mask))]
  unfold Meets feasible
  rw [List.all_eq_true, Program.rows_hold_iff h hbits isSlight_exhaustiveTolerance,
    ← Program.rows_hold_iff h hbits isSlight_zero]
  exact ⟨fun hrows => ⟨length_pointOf _ mask, hbits, hrows⟩, fun hadmits => hadmits.rows⟩

theorem isFinite_valueOf (mask : Nat) : (valueOf p mask).isFinite = true :=
  Program.isFinite_objectiveValue h (all_isBit_pointOf p.ids.length mask)

/-- **The exhaustive engine is exact** for binary programs of integers. -/
theorem exhaustive_exact (hmode : p.mode = .binary) :
    ∃ reply : Reply, exhaustive p = reply.answer ∧ reply.Exact .binary p.problem := by
  have hbest := bestOf_bestBelow (p := p) (2 ^ p.ids.length) fun mask _ _ =>
    notNaN_of_isFinite (isFinite_valueOf h mask)
  have hpoint : ∀ y, p.problem.feasible .binary y = true →
      ∃ mask < 2 ^ p.ids.length, y = (pointOf p.ids.length mask).map Number.exact := by
    intro y hy
    obtain ⟨hlength, hall, -⟩ := Problem.feasible_iff.1 hy
    obtain ⟨mask, hmask, heq⟩ := exists_mask hall
    rw [hlength] at hmask heq
    exact ⟨mask, hmask, heq⟩
  cases hsearch : bestBelow p (2 ^ p.ids.length) with
  | none =>
    rw [hsearch] at hbest
    refine ⟨.infeasible, exhaustive_of_none hmode hsearch, fun y => Bool.eq_false_iff.2 fun hy => ?_⟩
    obtain ⟨mask, hmask, rfl⟩ := hpoint y hy
    exact hbest mask hmask ((meets_iff h mask).2 hy)
  | some found =>
    obtain ⟨value, values⟩ := found
    rw [hsearch] at hbest
    obtain ⟨mask, -, hvalues, hvalue, hmeets, hgreatest, -⟩ := hbest
    refine ⟨.solved values, exhaustive_of_some hmode hsearch, Reply.exact_solved_iff.2 ?_⟩
    rw [hvalues]
    refine ⟨List.all_eq_true.1 (all_isFinite_pointOf _ mask), (meets_iff h mask).1 hmeets, fun y hy => ?_⟩
    obtain ⟨other, hother, rfl⟩ := hpoint y hy
    have hle := hgreatest other hother ((meets_iff h other).2 hy)
    rw [hvalue, lt_iff_exact (isFinite_valueOf h mask) (isFinite_valueOf h other), not_lt] at hle
    unfold valueOf at hle
    rwa [Program.exact_objectiveValue h (all_isBit_pointOf _ other),
      Program.exact_objectiveValue h (all_isBit_pointOf _ mask)] at hle

end Exhaustive

/-! ## What exact replies say of a program -/

theorem rows_hold_of_exact {p : Program} {mode : Mode} {values : List Float}
    (hexact : (Reply.solved values).Exact mode p.problem) :
    ∀ row ∈ p.rows, row.constraint.holds (values.map Number.exact) = true := by
  obtain ⟨-, hfeasible, -⟩ := Reply.exact_solved_iff.1 hexact
  obtain ⟨-, -, hrows⟩ := Problem.feasible_iff.1 hfeasible
  exact fun row hrow => List.all_eq_true.1 hrows _ (List.mem_map_of_mem hrow)

section Programs

variable {p : Program} (h : p.Integral) {values : List Float}
include h

theorem admits_of_exact (hexact : (Reply.solved values).Exact .binary p.problem) : p.Admits values := by
  obtain ⟨hfinite, hfeasible, -⟩ := Reply.exact_solved_iff.1 hexact
  exact (Program.admits_iff h hfinite).2 hfeasible

theorem objectiveValue_le_of_exact (hexact : (Reply.solved values).Exact .fractional p.problem) {others : List Float}
    (hothers : p.Admits others) :
    Number.exact (p.objectiveValue others) ≤ p.problem.value (values.map Number.exact) := by
  obtain ⟨-, -, hbest⟩ := Reply.exact_solved_iff.1 hexact
  rw [Program.exact_objectiveValue h hothers.bits]
  exact hbest _ (Problem.feasible_fractional ((Program.admits_iff h hothers.isFinite).1 hothers))

end Programs

theorem shares_of_exact {mode : Mode} {problem : Problem} {values : List Float}
    (hexact : (Reply.solved values).Exact mode problem) :
    values.length = problem.size ∧ ∀ x ∈ values, 0.0 ≤ x ∧ x ≤ 1.0 := by
  obtain ⟨hfinite, hfeasible, -⟩ := Reply.exact_solved_iff.1 hexact
  obtain ⟨hlength, hall, -⟩ := Problem.feasible_iff.1 (Problem.feasible_fractional hfeasible)
  rw [List.length_map] at hlength
  refine ⟨hlength, fun x hx => ?_⟩
  have hshare := Problem.allowed_iff_of_fractional.1 (List.all_eq_true.1 hall _ (List.mem_map_of_mem hx))
  rw [le_iff_exact Number.isFinite_zero (hfinite x hx), le_iff_exact (hfinite x hx) Number.isFinite_one,
    Number.exact_zero, Number.exact_one]
  exact hshare

/-- **The engine that is used tells the truth about every program.**  Its point is that of an optimum, each coordinate
rounded, and where it finds none feasible there is none. -/
theorem exact_truthful {p : Program} {problem : Problem} (hproblem : p.toProblem? = some problem)
    (hsized : problem.Sized) :
    ((exact p).status = .optimal →
      ∃ x, (Outcome.optimal x).Exact p.mode problem ∧ (exact p).values = x.map ofRat) ∧
    ((exact p).status = .infeasible → Outcome.infeasible.Exact p.mode problem) := by
  have hanswer : exact p = (Reply.ofOutcome (Linear.solve p.mode problem)).answer := by
    unfold exact ofBackend backendOf
    rw [hproblem]
  have hexact : Linear.solve p.mode problem ≠ .undecided → _ := Linear.solve_exact hsized
  rw [hanswer]
  cases hsolve : Linear.solve p.mode problem with
  | optimal x =>
    rw [hsolve] at hexact
    exact ⟨fun _ => ⟨x, hexact nofun, rfl⟩, nofun⟩
  | infeasible =>
    rw [hsolve] at hexact
    exact ⟨nofun, fun _ => hexact nofun⟩
  | undecided => exact ⟨nofun, nofun⟩

/-- **An engine whose backend is exact agrees with the exhaustive engine** on zeros and ones. -/
theorem agree_of_exact {p : Program} {backend : Backend} (h : p.Integral) (hmode : p.mode = .binary)
    (hreply : (backend .binary p.problem).Exact .binary p.problem) :
    (ofBackend backend p).status = (exhaustive p).status ∧
      ((exhaustive p).status = .optimal → p.Admits (ofBackend backend p).values ∧ p.Admits (exhaustive p).values ∧
        p.objectiveValue (ofBackend backend p).values = p.objectiveValue (exhaustive p).values) := by
  obtain ⟨reply, hexhaustive, hexact⟩ := exhaustive_exact h hmode
  rw [ofBackend_eq h, hmode, hexhaustive]
  refine ⟨hreply.status_eq hexact, fun hstatus => ?_⟩
  rcases hexact.solved_or_infeasible with ⟨found, rfl⟩ | rfl
  · have hfound := admits_of_exact h hexact
    obtain ⟨values, heq⟩ := hreply.solved_of_feasible ((Program.admits_iff h hfound.isFinite).1 hfound)
    rw [heq] at hreply ⊢
    have hvalues := admits_of_exact h hreply
    exact ⟨hvalues, hfound, Program.objectiveValue_eq h hvalues.bits hfound.bits (hreply.value_eq hexact)⟩
  · cases hstatus

end Engine

open Engine

/-- **Engines agree on programs of integers.**  The backend may be any whose reply to the problem at hand is exact.  In
binary mode the engine that leaves the solving to it has the status of the exhaustive engine; and where they find an
optimum, both points are made of zeros and ones, meet all rows to the last bit, and have one value.  In fractional mode
it is never unbounded: it finds an optimum if any whole point meets the rows, and the shares that it gives meet the rows
and are worth at least as much as any such point.  Shares are evaluated exactly, as sums over them may be rounded in
doubles. -/
theorem engines_agree {p : Program} {backend : Backend} (hintegral : p.Integral)
    (hbackend : ∀ problem, p.toProblem? = some problem → (backend p.mode problem).Exact p.mode problem) :
    (p.mode = .binary →
      (ofBackend backend p).status = (exhaustive p).status ∧
      ((exhaustive p).status = .optimal →
        p.Admits (ofBackend backend p).values ∧ p.Admits (exhaustive p).values ∧
        p.objectiveValue (ofBackend backend p).values = p.objectiveValue (exhaustive p).values)) ∧
    (p.mode = .fractional →
      ((ofBackend backend p).status = .optimal ∨ (ofBackend backend p).status = .infeasible) ∧
      ((ofBackend backend p).status = .optimal →
        (ofBackend backend p).values.length = p.ids.length ∧
        (∀ x ∈ (ofBackend backend p).values, 0.0 ≤ x ∧ x ≤ 1.0) ∧
        (∀ row ∈ p.rows, row.constraint.holds ((ofBackend backend p).values.map Number.exact) = true) ∧
        ∀ others, p.Admits others → Number.exact (p.objectiveValue others) ≤
          p.problem.value ((ofBackend backend p).values.map Number.exact)) ∧
      ((∃ others, p.Admits others) → (ofBackend backend p).status = .optimal)) := by
  have hreply := hbackend p.problem (Program.toProblem?_eq hintegral)
  refine ⟨fun hmode => ?_, fun hmode => ?_⟩
  · rw [hmode] at hreply
    exact agree_of_exact hintegral hmode hreply
  · rw [hmode] at hreply
    rw [ofBackend_eq hintegral, hmode]
    refine ⟨?_, fun hstatus => ?_, ?_⟩
    · rcases hreply.solved_or_infeasible with ⟨values, heq⟩ | heq <;> rw [heq]
      · exact Or.inl rfl
      · exact Or.inr rfl
    · rcases hreply.solved_or_infeasible with ⟨values, heq⟩ | heq <;> rw [heq] at hreply hstatus ⊢
      · obtain ⟨hlength, hshares⟩ := shares_of_exact hreply
        exact ⟨hlength, hshares, rows_hold_of_exact hreply,
          fun others hothers => objectiveValue_le_of_exact hintegral hreply hothers⟩
      · cases hstatus
    · rintro ⟨others, hothers⟩
      have hfeasible := (Program.admits_iff hintegral hothers.isFinite).1 hothers
      obtain ⟨values, heq⟩ := hreply.solved_of_feasible (Problem.feasible_fractional hfeasible)
      rw [heq]
      rfl

theorem Program.sized_over (candidates : List Candidate) (objective : Objective) (bounds : List Bound) (roster : Roster)
    (mode : Mode) : (Program.over candidates objective bounds roster mode).problem.Sized where
  objective := by simp [problem, Program.over]
  coefficients := by
    refine List.forall_mem_map.2 fun row hrow => ?_
    simp [problem, Program.over, Row.constraint, length_coefficients_over hrow]

/-- **The engine that is used agrees with the exhaustive engine** on every selection that is prepared in binary mode, if
its program is one of integers.  Nothing is assumed of the solver. -/
theorem Prepared.Of.exact_agrees {p : Prepared} {setup : Setup} {table : Table} {request : Request} {catalog : Catalog}
    {bounds : List Bound} {candidates : List Candidate} (h : p.Of setup table request catalog bounds candidates)
    (hintegral : p.program.Integral) (hmode : p.setup.mode = .binary) :
    (Engine.exact p.program).status = (exhaustive p.program).status ∧
      ((exhaustive p.program).status = .optimal →
        p.program.Admits (Engine.exact p.program).values ∧ p.program.Admits (exhaustive p.program).values ∧
        p.program.objectiveValue (Engine.exact p.program).values =
          p.program.objectiveValue (exhaustive p.program).values) := by
  have hbinary : p.program.mode = .binary := by
    rw [h.program_eq]
    exact hmode
  have hsized : p.program.problem.Sized := by
    rw [h.program_eq]
    exact Program.sized_over ..
  exact agree_of_exact hintegral hbinary (backendOf_solve_exact hsized)

/-- A limit that leaves room for half of the better of two candidates, or for none of it. -/
def halfProblem : Problem := ⟨2, [3, 1], [⟨[2, 0], .atMost, 1⟩]⟩

theorem halfProblem_exact (mode : Mode) : (backendOf Linear.solve mode halfProblem).Exact mode halfProblem := by
  have hsized : halfProblem.Sized := ⟨rfl, List.forall_mem_singleton.2 rfl⟩
  cases mode with
  | binary => exact backendOf_solve_exact hsized
  | fractional =>
    have hsolved : Linear.solve .fractional halfProblem = .optimal [1 / 2, 1] := by decide +kernel
    refine Reply.exact_ofOutcome (Linear.solve_exact hsized ?_) fun x hx => ?_
    · rw [hsolved]
      exact nofun
    · rw [hsolved, Outcome.optimal.injEq] at hx
      subst hx
      decide +kernel

/-- The engine that is used and the exhaustive engine, where shares are worth more than whole candidates. -/
theorem engines_agree_on_half : ∃ program : Mode → Program, (∀ mode, (program mode).problem = halfProblem) ∧
    (Engine.exact (program .binary)).status = (exhaustive (program .binary)).status ∧
    (program .binary).objectiveValue (Engine.exact (program .binary)).values =
      (program .binary).objectiveValue (exhaustive (program .binary)).values ∧
    (Engine.exact (program .fractional)).status = .optimal ∧
    ∀ x ∈ (Engine.exact (program .fractional)).values, 0.0 ≤ x ∧ x ≤ 1.0 := by
  obtain ⟨program, hprogram⟩ : ∃ program : Mode → Program, program = fun mode =>
    ⟨mode, .unbounded, [0, 1], [3.0, 1.0], [⟨"a_max_0", [2.0, 0.0], .atMost, 1.0⟩]⟩ := ⟨_, rfl⟩
  have hmode : ∀ mode, (program mode).mode = mode := by
    subst hprogram
    exact fun mode => rfl
  have hintegral : ∀ mode, (program mode).Integral := by
    subst hprogram
    intro mode
    refine ⟨⟨[3, 1], ?_⟩, List.forall_mem_singleton.2 ⟨⟨[2, 0], ?_⟩, 1, ?_, by decide⟩⟩
    · change AreInts [3.0, 1.0] [3, 1]
      decide +kernel
    · change AreInts [2.0, 0.0] [2, 0]
      decide +kernel
    · change IsInt 1.0 1
      decide +kernel
  have hproblem : ∀ mode, (program mode).problem = halfProblem := by
    subst hprogram
    intro mode
    cases mode <;> decide +kernel
  have hbackend : ∀ mode problem, (program mode).toProblem? = some problem →
      (backendOf Linear.solve (program mode).mode problem).Exact (program mode).mode problem := by
    intro mode problem h
    rw [Program.toProblem?_eq (hintegral mode), Option.some_inj, hproblem] at h
    subst h
    exact halfProblem_exact _
  have hoptimal : (exhaustive (program .binary)).status = .optimal := by
    subst hprogram
    decide +kernel
  have hhalf : (program .fractional).Admits [0.0, 1.0] := by
    subst hprogram
    exact ⟨rfl, by decide +kernel, by decide +kernel⟩
  obtain ⟨hbinary, -⟩ := engines_agree (hintegral .binary) (hbackend .binary)
  obtain ⟨-, hfractional⟩ := engines_agree (hintegral .fractional) (hbackend .fractional)
  obtain ⟨hstatus, hoptimum⟩ := hbinary (hmode .binary)
  obtain ⟨-, hshares, hfound⟩ := hfractional (hmode .fractional)
  have hsolved := hfound ⟨_, hhalf⟩
  exact ⟨program, hproblem, hstatus, (hoptimum hoptimal).2.2, hsolved, (hshares hsolved).2.1⟩

end Lineup
