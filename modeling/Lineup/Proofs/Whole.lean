import Lineup.Proofs.Prepared
import Lineup.Proofs.Rows
import Lineup.Proofs.Team
/-!
# Whole — teams of whole candidates

Where an engine answers with zeros and ones that meet every row up to a small tolerance, the team is made of the
candidates whose value is 1.  The row of a fixed roster forces their number, so the roster has nothing to cut; the point
that the report evaluates is then the point that was solved for, and no row can turn out broken.
-/
namespace Lineup

open Number (isBit)

/-- The answer chooses whole candidates, and meets all rows up to a tolerance that the report allows. -/
def Answer.Whole (answer : Answer) (p : Program) : Prop :=
  answer.values.all isBit = true ∧
    ∃ t : Float, 0.0 ≤ t ∧ t ≤ selectionTolerance ∧ ∀ row ∈ p.rows, row.holds answer.values t = true

namespace Prepared.Of

variable {p : Prepared} {setup : Setup} {table : Table} {request : Request} {catalog : Catalog} {bounds : List Bound}
  {candidates : List Candidate} {values : List Float}

theorem perm_team (h : p.Of setup table request catalog bounds candidates) (hmode : p.setup.mode = .binary)
    (hlength : values.length = p.program.ids.length) (hbits : values.all isBit = true)
    (hroom : ∀ size, p.setup.roster = .fixed size → values.countP (· == 1.0) ≤ size) :
    (p.team values).Perm ((entries p.screening.eligible p.objective values).filter fun r => r.value == 1.0) := by
  have hperm := perm_rank_ones p.objective (hlength.trans h.length_ids) (h.ids ▸ h.nodup_ids) hbits hroom
    (p.program.objectiveValue values)
  unfold team
  rwa [hmode, h.ids]

theorem mem_ids_ones (h : p.Of setup table request catalog bounds candidates) (id : Nat) :
    id ∈ ((entries p.screening.eligible p.objective values).filter fun r => r.value == 1.0).map Ranked.id ↔
      ∃ (k : Nat) (x : Float), p.program.ids[k]? = some id ∧ values[k]? = some x ∧ (x == 1.0) = true := by
  rw [h.ids, List.mem_map]
  constructor
  · rintro ⟨r, hr, rfl⟩
    obtain ⟨hmem, hone⟩ := List.mem_filter.1 hr
    obtain ⟨k, c, x, hc, hx, rfl⟩ := mem_entries.1 hmem
    exact ⟨k, x, by rw [List.getElem?_map, hc]; rfl, hx, hone⟩
  · rintro ⟨k, x, hid, hx, hone⟩
    rw [List.getElem?_map] at hid
    obtain ⟨c, hc, rfl⟩ := Option.map_eq_some_iff.1 hid
    exact ⟨c.entry p.objective x, List.mem_filter.2 ⟨mem_entries.2 ⟨k, c, x, hc, hx, rfl⟩, hone⟩, rfl⟩

/-- **The point of the team is the point that was solved for.** -/
theorem indicator_team (h : p.Of setup table request catalog bounds candidates)
    (hlength : values.length = p.program.ids.length) {team : List Nat}
    (hteam : ∀ id, id ∈ team ↔
      ∃ (k : Nat) (x : Float), p.program.ids[k]? = some id ∧ values[k]? = some x ∧ (x == 1.0) = true) :
    p.program.indicator team = values.map Number.bit := by
  refine Program.indicator_of_ones hlength fun k id x hid hx => ?_
  rw [hteam]
  constructor
  · rintro ⟨k', x', hid', hx', hone⟩
    have hlt := (List.getElem?_eq_some_iff.1 hid).1
    have hk : k = k' := (List.getElem?_inj hlt h.nodup_ids).1 (hid.trans hid'.symm)
    rw [← hk, hx] at hx'
    cases hx'
    exact hone
  · intro hone
    exact ⟨k, x, hid, hx, hone⟩

theorem count_ones (h : p.Of setup table request catalog bounds candidates) {size : Nat} {t : Float}
    (hroster : p.setup.roster = .fixed size) (hsize : p.setup.roster.Countable table.records.length)
    (hlength : values.length = p.program.ids.length) (hbits : values.all isBit = true) (ht : t ≤ selectionTolerance)
    (hrows : ∀ row ∈ p.program.rows, row.holds values t = true) : values.countP (· == 1.0) = size := by
  have hrow := hrows _ (h.teamSize_mem_rows hroster)
  have hrecords := h.length_ids_le
  have hroom := h.size_le hroster
  rw [hroster] at hsize
  rw [← hlength] at hrow hrecords hroom
  exact Row.count_of_teamSize (hsize.imp_left hrecords.trans) hroom hbits ht hrow

end Prepared.Of

/-- **Violations are possible in fractional mode only.**  In binary mode an engine that answers with zeros and ones, and
keeps to the rows up to a tolerance that the report allows, gives a report without violations; its team is made of
exactly the candidates whose value is 1, and a fixed roster is filled. -/
theorem no_violations_of_whole {engine : Engine} {setup : Setup} {table : Table} {request : Request} {p : Prepared}
    {report : Report} (hp : prepare setup table request = .ok p)
    (hmode : (setup.override request.roster request.mode).mode = .binary)
    (hsize : (setup.override request.roster request.mode).roster.Countable table.records.length)
    (hengine : (engine p.program).status = .optimal → (engine p.program).Whole p.program)
    (h : select engine setup table request = .ok report) :
    report.violations = [] ∧ (report.team.map Ranked.id).Nodup ∧
      (∀ id, id ∈ report.team.map Ranked.id ↔ ∃ (k : Nat) (x : Float), p.program.ids[k]? = some id ∧
        (engine p.program).values[k]? = some x ∧ (x == 1.0) = true) ∧
      ∀ size, (setup.override request.roster request.mode).roster = .fixed size → report.team.length = size := by
  obtain ⟨catalog, bounds, candidates, hof⟩ := prepare_eq_ok.1 hp
  rw [← hof.setup_eq] at hmode hsize ⊢
  rw [select_of_prepare hp] at h
  obtain ⟨hstatus, hlength, -, rfl⟩ := Prepared.finish_eq_ok.1 h
  obtain ⟨hbits, t, ht, hle, hrows⟩ := hengine hstatus
  have hcount : ∀ size, p.setup.roster = .fixed size → (engine p.program).values.countP (· == 1.0) = size :=
    fun size hroster => hof.count_ones hroster hsize hlength hbits hle hrows
  have hperm := hof.perm_team hmode hlength hbits fun size hroster => Nat.le_of_eq (hcount size hroster)
  have hteam := fun id => (hperm.map Ranked.id).mem_iff.trans (hof.mem_ids_ones id)
  refine ⟨?_, (hof.subperm_team hlength).2, hteam, fun size hroster => ?_⟩
  · -- the rows are evaluated at the point of the answer
    have hpoint := hof.indicator_team hlength hteam
    refine List.filter_eq_nil_iff.2 fun check hcheck => ?_
    obtain ⟨row, hrow, rfl⟩ := List.mem_map.1 hcheck
    have hholds := Row.holds_bits (fun a ha => hof.isFinite_coefficient hrow ha)
      (hof.isFinite_rhs_or_equal hrow) hbits ht
      hle (by decide +kernel) (hrows row hrow)
    unfold Row.check
    rw [hpoint, hholds]
    exact Bool.false_ne_true
  · exact hperm.length_eq.trans ((length_ones (hlength.trans hof.length_ids)).trans (hcount size hroster))

/-- Of two candidates and one place, under a bound that the engine's choice just meets. -/
theorem no_violations_of_one_in_two : ∃ report,
    select (fun _ => .optimal [1.0, 0.0]) .standard
      ⟨[⟨"name", .text⟩, ⟨"a", .numeric⟩], [[some "Ada", some "3"], [some "Bob", some "1"]]⟩
      ⟨"a=1", some "a<=3", some (.fixed 1), none⟩ = .ok report ∧ report.violations = [] ∧ report.team.length = 1 := by
  generalize htable :
    (⟨[⟨"name", .text⟩, ⟨"a", .numeric⟩], [[some "Ada", some "3"], [some "Bob", some "1"]]⟩ : Table) = table
  generalize hrequest : (⟨"a=1", some "a<=3", some (.fixed 1), none⟩ : Request) = request
  have hrows : ((prepare .standard table request).toOption.all fun p =>
      p.program.rows.all fun row => row.holds [1.0, 0.0] 0.0) = true := by
    subst htable hrequest
    decide +kernel
  obtain ⟨report, h⟩ : ∃ report, select (fun _ => .optimal [1.0, 0.0]) .standard table request = .ok report :=
    exists_eq_ok (by subst htable hrequest; decide +kernel)
  obtain ⟨p, hp, -⟩ := select_eq_ok.1 h
  have hwhole : (Answer.optimal [1.0, 0.0]).Whole p.program := by
    rw [hp] at hrows
    exact ⟨by decide +kernel, 0.0, by decide +kernel, by decide +kernel, List.all_eq_true.1 hrows⟩
  have hroster : (Setup.standard.override request.roster request.mode).roster = .fixed 1 := by
    subst hrequest
    rfl
  obtain ⟨hnone, -, -, hfull⟩ := no_violations_of_whole hp (by subst hrequest; rfl)
    (by rw [hroster]; exact Or.inr ⟨by decide, by decide⟩) (fun _ => hwhole) h
  exact ⟨report, h, hnone, hfull 1 hroster⟩

end Lineup
