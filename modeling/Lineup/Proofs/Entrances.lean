import Lineup.CommandLine
import Lineup.Proofs.Stages
import Lineup.Service
/-!
# Entrances — the command line and the service select alike

A command puts its roster and mode into the setup and asks for none; a body leaves the setup alone and asks for them.
Both come to the same selection, and to the same words and the same status if it fails: a command shows the failure as a
fault of the program, the service as a record whose members tell what kind of failure it is.
-/
namespace Lineup

open Json (Value)

/-- **What is put into the setup need not be asked for.** -/
theorem prepare_override (setup : Setup) (table : Table) (request : Request) :
    prepare (setup.override request.roster request.mode) table { request with roster := none, mode := none } =
      prepare setup table request := rfl

def CommandLine.SelectOptions.body (o : SelectOptions) (csv : String) : Service.SelectionBody :=
  ⟨csv, o.criteria, o.bounds, o.size, o.unbounded, o.mode⟩

namespace Service

def Response.member? (r : Response) (name : String) : Option Value :=
  match r.content with
  | .json (.record members) => members.lookup name
  | .json _ | .empty | .notice _ => none

theorem select_body {σ : Type} (engine : StatefulEngine σ) (state : σ) (setup : Setup) (o : CommandLine.SelectOptions)
    (csv : String) :
    select engine state setup (o.body csv) = o.select engine state setup (Text.Utf8.encode csv) := by
  have hload : Table.loadText (o.body csv).csv = Table.load (Text.Utf8.encode csv) := rfl
  unfold select CommandLine.SelectOptions.select
  rw [hload]
  cases Table.load (Text.Utf8.encode csv) with
  | error e => rfl
  | ok table =>
    dsimp only
    unfold selectFrom
    rw [← prepare_override setup table (o.body csv).request]
    rfl

theorem respond_selection {σ : Type} {engine : StatefulEngine σ} {setup : Setup} {ready : Bool} {state : σ}
    {r : HttpRequest} {body : SelectionBody} (hroute : Route.ofPath? (pathOf r.target) = some .selection)
    (hmethod : r.method = "POST") (hbody : readBody SelectionBody.read r = .ok body) :
    respond engine setup ready state r =
      (reportResponse (select engine state setup body).1, (select engine state setup body).2) := by
  unfold respond
  rw [hroute]
  dsimp only
  rw [if_pos (show r.method = Route.selection.method from hmethod), serve, hbody]

/-! ## Failures -/

theorem status_failure (e : SelectionError) : (failure e).status = (Fault.selection e).status := by
  cases e <;> rfl

theorem status_failure_eq_iff {e : SelectionError} {status : Nat} : (failure e).status = status ↔
    status = 400 ∧ (∃ s, e = .source s) ∨ status = 422 ∧ ¬∃ s, e = .source s := by
  cases e <;> simp [failure, eq_comm]

theorem member?_failure {e : SelectionError} {name : String} {v : Value} :
    (failure e).member? name = some v ↔ (name = "error" ∧ v = .text e.message) ∨
      (∃ x, e = .expression x ∧ (name = "token" ∧ v = .text x.token ∨ name = "reason" ∧ v = .text x.label)) ∨
      ∃ f, e = .solve f ∧ name = "solver_status" ∧ v = .text f.status.label := by
  unfold failure Response.member?
  cases e <;> simp only [List.lookup_cons, List.lookup_nil] <;> grind

end Service

/-- **The command line and the service select alike.**  Options and a body that ask for the same, of the same data set
and under the same setup, come to the same report, which the service sends with status 200; or they fail for the same
reason.  Then the status of the response is that of the fault, 400 for a data set that cannot be read and 422 for all
else; what is said of the fault is what the response says, after two words; and the response says nothing more, but for
the words at fault and their fault in criteria or bounds, and for the status of an engine that gave no selection. -/
theorem entrances_agree {σ : Type} (engine : StatefulEngine σ) (state : σ) (setup : Setup)
    (options : CommandLine.SelectOptions) (csv : String) :
    ∃ outcome next, options.select engine state setup (Text.Utf8.encode csv) = (outcome, next) ∧
      Service.select engine state setup (options.body csv) = (outcome, next) ∧
      (∀ ready (r : Service.HttpRequest), Service.Route.ofPath? (Service.pathOf r.target) = some .selection →
        r.method = "POST" → Service.readBody Service.SelectionBody.read r = .ok (options.body csv) →
        Service.respond engine setup ready state r = (Service.reportResponse outcome, next)) ∧
      ((∃ report, outcome = .ok report ∧ Service.reportResponse outcome = ⟨200, .json report.toJson⟩) ∨
        ∃ e, outcome = .error e ∧ (Service.reportResponse outcome).status = (Fault.selection e).status ∧
          ((Service.reportResponse outcome).status = 400 ↔ ∃ s, e = .source s) ∧
          ((Service.reportResponse outcome).status = 422 ↔ ¬∃ s, e = .source s) ∧
          (Fault.selection e).message = "selection failed: " ++ e.message ∧
          ∀ name v, (Service.reportResponse outcome).member? name = some v ↔ (name = "error" ∧ v = .text e.message) ∨
            (∃ x, e = .expression x ∧ (name = "token" ∧ v = .text x.token ∨ name = "reason" ∧ v = .text x.label)) ∨
            ∃ f, e = .solve f ∧ name = "solver_status" ∧ v = .text f.status.label) := by
  have hbody := Service.select_body engine state setup options csv
  cases hselect : options.select engine state setup (Text.Utf8.encode csv) with
  | mk outcome next =>
    rw [hselect] at hbody
    refine ⟨outcome, next, rfl, hbody, fun ready r hroute hmethod hread => ?_, ?_⟩
    · rw [Service.respond_selection hroute hmethod hread, hbody]
    · cases outcome with
      | ok report => exact Or.inl ⟨report, rfl, rfl⟩
      | error e =>
        have hstatus {n : Nat} : (Service.reportResponse (.error e)).status = n ↔ _ := Service.status_failure_eq_iff
        exact Or.inr ⟨e, rfl, Service.status_failure e, by simp [hstatus], by simp [hstatus], rfl,
          fun _ _ => Service.member?_failure⟩

/-- Of a weight for a metric that the data set lacks. -/
theorem entrances_agree_on_unknown_metric : ∃ response : Service.Response,
    (Service.respond (.ofEngine fun _ => .optimal []) .standard true ()
      ⟨"POST", "/api/v1/selection?", some "application/json",
        "\x7b\"csv\": \"name,a\\nAda,3\\n\", \"criteria\": \"b=1\", \"team_size\": 1\x7d"⟩).1 = response ∧
      response.status = 422 ∧ response.member? "token" = some (.text "b") ∧
      response.member? "error" = some (.text "parse error: metric is not in the dataset catalog: 'b'") ∧
      (Fault.selection (.expression (.unknownMetric "b"))).message =
        "selection failed: parse error: metric is not in the dataset catalog: 'b'" := by
  generalize hrequest : (⟨"POST", "/api/v1/selection?", some "application/json",
    "\x7b\"csv\": \"name,a\\nAda,3\\n\", \"criteria\": \"b=1\", \"team_size\": 1\x7d"⟩ : Service.HttpRequest) = r
  generalize hoptions : (⟨"t.csv", "b=1", none, some 1, false, none, false⟩ : CommandLine.SelectOptions) = options
  obtain ⟨_, hread, rfl⟩ : ∃ body, Service.readBody Service.SelectionBody.read r = .ok body ∧
      body = options.body "name,a\nAda,3\n" :=
    exists_ok_of_decide (by subst hrequest hoptions; decide +kernel)
  have hselect : (options.select (.ofEngine fun _ => .optimal []) () .standard (Text.Utf8.encode "name,a\nAda,3\n")).1 =
      .error (.expression (.unknownMetric "b")) := by
    subst hoptions
    decide +kernel
  obtain ⟨outcome, next, houtcome, -, hrespond, hkind⟩ :=
    entrances_agree (.ofEngine fun _ => .optimal []) () .standard options "name,a\nAda,3\n"
  rw [houtcome] at hselect
  subst hselect
  have hwords : (SelectionError.expression (.unknownMetric "b")).message =
      "parse error: metric is not in the dataset catalog: 'b'" := by decide +kernel
  rcases hkind with ⟨report, h, -⟩ | ⟨e, h, -, -, h422, hmessage, hmember⟩
  · cases h
  · cases h
    rw [hwords] at hmessage hmember
    exact ⟨_, congrArg Prod.fst (hrespond true r (by subst hrequest; decide +kernel) (by subst hrequest; rfl) hread),
      h422.2 nofun, (hmember "token" _).2 (Or.inr (Or.inl ⟨_, rfl, Or.inl ⟨rfl, rfl⟩⟩)),
      (hmember "error" _).2 (Or.inl ⟨rfl, rfl⟩), hmessage⟩

end Lineup
