import Lineup.Proofs.Number.Wholes
import Lineup.Proofs.Traversal
import Lineup.Settings
import Mathlib.Logic.Function.Basic
/-!
# Variables — every setting has its own variable

Settings are what six variables hold, each one setting.  Three of the variables are refused some texts: a port and a
size are whole numbers below a limit, the text of a size is trimmed first and can be a word, and a mode is a word.  The
first refused text, in the order of port, size and mode, is reported; and when no text is refused, a change to one
variable changes no setting but its own.
-/
namespace Lineup.Settings

open Number (Denotes)

/-! ## What a text stands for -/

def PortText (text : String) (port : UInt16) : Prop := ∃ n < 2 ^ 16, Denotes text.toList n ∧ port = UInt16.ofNat n

inductive RosterText (text : String) : Roster → Prop
  | unbounded {word : String} : word ∈ ["none", "unbounded"] → Text.sameName (Text.trimmed text) word = true →
      RosterText text .unbounded
  | fixed {size : Nat} : Denotes (Text.trim text.toList) size → size < 2 ^ 64 → RosterText text (.fixed size)

def modeWords : Mode → List String
  | .binary => ["binary", "integer"]
  | .fractional => ["fractional", "relaxed"]

def ModeText (text : String) (mode : Mode) : Prop :=
  ∃ word ∈ modeWords mode, Text.sameName (Text.trimmed text) word = true

theorem readPort?_eq_some_iff {text : String} {port : UInt16} : readPort? text = some port ↔ PortText text port := by
  unfold readPort? PortText
  simp only [Option.map_eq_some_iff, Number.readWhole?_eq_some_iff, Number.portLimit, @eq_comm _ _ port]
  exact exists_congr fun n => ⟨fun ⟨⟨hn, hlt⟩, hport⟩ => ⟨hlt, hn, hport⟩, fun ⟨hlt, hn, hport⟩ => ⟨⟨hn, hlt⟩, hport⟩⟩

/-- A number is written without letters, and there is an `n` in both words. -/
theorem not_word_of_denotes {text : String} {size : Nat} (h : Denotes (Text.trim text.toList) size) {word : String}
    (hword : word ∈ unboundedWords) : Text.sameName (Text.trimmed text) word = false := by
  rw [Bool.eq_false_iff, Ne, Text.sameName_iff]
  intro hsame
  have hletter : ∀ word ∈ unboundedWords, 'n' ∈ (Text.lower word).toList := by decide
  have hmem := hletter word hword
  rw [← hsame, Text.lower, Text.trimmed, String.toList_ofList, String.toList_ofList] at hmem
  obtain ⟨c, hc, hlower⟩ := List.mem_map.1 hmem
  rw [h.toLower_eq hc] at hlower
  subst hlower
  exact absurd (h.mem hc) (by decide)

theorem rosterRead?_eq_some_iff {text : String} {roster : Roster} :
    Roster.read? text = some roster ↔ RosterText text roster := by
  unfold Roster.read?
  dsimp only
  rw [Text.trimmed, String.toList_ofList, ← Text.trimmed]
  constructor
  · intro h
    split at h
    · rename_i hany
      cases h
      obtain ⟨word, hword, hsame⟩ := List.any_eq_true.1 hany
      exact .unbounded hword hsame
    · obtain ⟨size, hsize, rfl⟩ := Option.map_eq_some_iff.1 h
      obtain ⟨hdenotes, hlt⟩ := Number.readWhole?_eq_some_iff.1 hsize
      exact .fixed hdenotes hlt
  · intro h
    cases h with
    | unbounded hword hsame =>
      have hsome : unboundedWords.any (Text.sameName (Text.trimmed text)) = true := List.any_eq_true.2 ⟨_, hword, hsame⟩
      rw [if_pos hsome]
    | @fixed size hdenotes hlt =>
      have hnone : unboundedWords.any (Text.sameName (Text.trimmed text)) = false :=
        List.any_eq_false.2 fun word hword => Bool.eq_false_iff.1 (not_word_of_denotes hdenotes hword)
      have hsize : Number.readWhole? Number.sizeLimit (Text.trim text.toList) = some size :=
        Number.readWhole?_eq_some_iff.2 ⟨hdenotes, hlt⟩
      rw [hnone, if_neg Bool.false_ne_true, hsize]
      rfl

theorem modeRead?_eq_some_iff {text : String} {mode : Mode} : Mode.read? text = some mode ↔ ModeText text mode := by
  have hwords : ∀ mode, ∀ word ∈ modeWords mode, Text.lower word = word := by
    intro mode
    cases mode <;> decide
  have hsame : ModeText text mode ↔ Mode.plainName text ∈ modeWords mode := by
    unfold ModeText Mode.plainName
    constructor
    · rintro ⟨word, hword, hsame⟩
      rwa [Text.sameName_iff.1 hsame, hwords mode word hword]
    · intro hmem
      exact ⟨_, hmem, Text.sameName_iff.2 (hwords mode _ hmem).symm⟩
  rw [hsame]
  unfold Mode.read?
  split
  case h_5 hbinary hinteger hfractional hrelaxed =>
    cases mode with
    | binary => simpa [modeWords] using ⟨hbinary, hinteger⟩
    | fractional => simpa [modeWords] using ⟨hfractional, hrelaxed⟩
  -- the name is one of the four words
  all_goals
    rename_i hname
    rw [hname]
    cases mode <;> decide

/-! ## What a variable holds -/

/-- The variable holds the value: its text stands for it, or it is not set and the value is the standard one. -/
def Holds {α : Type} (env : Environment) (name : String) (standard : α) (Stands : String → α → Prop) (value : α) :
    Prop :=
  match env name with
  | none => value = standard
  | some text => Stands text value

def Takes {α : Type} (env : Environment) (name : String) (Stands : String → α → Prop) : Prop :=
  ∀ text, env name = some text → ∃ value, Stands text value

section

variable {α : Type} {env : Environment} {name : String} {standard value : α} {Stands : String → α → Prop}

theorem exists_holds_iff : (∃ value, Holds env name standard Stands value) ↔ Takes env name Stands := by
  unfold Holds Takes
  cases env name with
  | none => exact ⟨fun _ => nofun, fun _ => ⟨standard, rfl⟩⟩
  | some text => exact ⟨fun h text' htext => by cases htext; exact h, fun h => h text rfl⟩

variable {read? : String → Option α} {fault : String → SettingsError}
  (hread : ∀ {text value}, read? text = some value ↔ Stands text value)
include hread

theorem valueOf_eq_ok_iff :
    valueOf env name standard read? fault = .ok value ↔ Holds env name standard Stands value := by
  unfold valueOf Holds
  cases env name with
  | none => exact ⟨fun h => by cases h; rfl, fun h => by rw [h]⟩
  | some text =>
    dsimp only
    rw [← hread]
    cases read? text with
    | none => exact ⟨nofun, nofun⟩
    | some value' => exact ⟨fun h => by cases h; rfl, fun h => by cases h; rfl⟩

theorem valueOf_eq_error_iff {e : SettingsError} : valueOf env name standard read? fault = .error e ↔
    ∃ text, env name = some text ∧ (∀ value, ¬ Stands text value) ∧ e = fault text := by
  unfold valueOf
  cases env name with
  | none => exact ⟨nofun, fun ⟨_, h, _⟩ => nomatch h⟩
  | some text =>
    simp only [← hread, Option.some.injEq, exists_eq_left']
    cases read? text with
    | none => exact ⟨fun h => by cases h; exact ⟨nofun, rfl⟩, fun h => by rw [h.2]⟩
    | some value' => exact ⟨nofun, fun h => absurd rfl (h.1 value')⟩

theorem exists_valueOf_iff : (∃ value, valueOf env name standard read? fault = .ok value) ↔ Takes env name Stands := by
  simp only [valueOf_eq_ok_iff hread, exists_holds_iff]

theorem Holds.eq_of_agree {env' : Environment} {value' : α} (h : Holds env name standard Stands value)
    (h' : Holds env' name standard Stands value') (hagree : env' name = env name) : value' = value := by
  unfold Holds at h h'
  rw [hagree] at h'
  cases henv : env name with
  | none =>
    rw [henv] at h h'
    exact h'.trans h.symm
  | some text =>
    rw [henv] at h h'
    exact Option.some.inj ((hread.2 h').symm.trans (hread.2 h))

end

/-! ## What the environment holds -/

/-- **The settings of an environment**, each by its own variable. -/
structure Reflects (s : Settings) (env : Environment) : Prop where
  stage : s.stage = Stage.ofText ((env "APP_ENV").getD "development")
  host : s.host = (env "APP_HOST").getD "127.0.0.1"
  port : Holds env "APP_PORT" 3000 PortText s.port
  logLevel : s.logLevel = (env "APP_LOG_LEVEL").getD "info"
  roster : Holds env "TEAM_SIZE" (.fixed 11) RosterText s.setup.roster
  mode : Holds env "SELECTION_MODE" .binary ModeText s.setup.mode

/-- **Why an environment has no settings**: the first variable that is refused. -/
inductive Fault (env : Environment) : SettingsError → Prop
  | port {text : String} : env "APP_PORT" = some text → (∀ port, ¬ PortText text port) → Fault env .port
  | teamSize {text : String} : Takes env "APP_PORT" PortText → env "TEAM_SIZE" = some text →
      (∀ roster, ¬ RosterText text roster) → Fault env (.teamSize text)
  | mode {text : String} : Takes env "APP_PORT" PortText → Takes env "TEAM_SIZE" RosterText →
      env "SELECTION_MODE" = some text → (∀ mode, ¬ ModeText text mode) → Fault env (.mode text)

theorem load_eq_ok_iff {env : Environment} {s : Settings} : load env = .ok s ↔ s.Reflects env := by
  unfold load
  simp only [bind_eq_ok, valueOf_eq_ok_iff readPort?_eq_some_iff, valueOf_eq_ok_iff rosterRead?_eq_some_iff,
    valueOf_eq_ok_iff modeRead?_eq_some_iff]
  constructor
  · rintro ⟨port, hport, roster, hroster, mode, hmode, h⟩
    obtain rfl := Except.ok.inj h
    exact ⟨by dsimp only, by dsimp only, hport, by dsimp only, hroster, hmode⟩
  · rintro ⟨hstage, hhost, hport, hlevel, hroster, hmode⟩
    refine ⟨_, hport, _, hroster, _, hmode, ?_⟩
    rw [← hstage, ← hhost, ← hlevel]
    rfl

theorem load_eq_error_iff {env : Environment} {e : SettingsError} : load env = .error e ↔ Fault env e := by
  unfold load
  simp only [bind_eq_error, valueOf_eq_error_iff readPort?_eq_some_iff, valueOf_eq_error_iff rosterRead?_eq_some_iff,
    valueOf_eq_error_iff modeRead?_eq_some_iff]
  constructor
  · rintro (⟨text, htext, hnone, rfl⟩ | ⟨port, hport, h⟩)
    · exact .port htext hnone
    · have htakes := (exists_valueOf_iff readPort?_eq_some_iff).1 ⟨port, hport⟩
      rcases h with ⟨text, htext, hnone, rfl⟩ | ⟨roster, hroster, h⟩
      · exact .teamSize htakes htext hnone
      · have htakes' := (exists_valueOf_iff rosterRead?_eq_some_iff).1 ⟨roster, hroster⟩
        rcases h with ⟨text, htext, hnone, rfl⟩ | ⟨mode, -, h⟩
        · exact .mode htakes htakes' htext hnone
        · cases h
  · intro h
    cases h with
    | port htext hnone => exact Or.inl ⟨_, htext, hnone, rfl⟩
    | teamSize hport htext hnone =>
      obtain ⟨port, hport⟩ := (exists_valueOf_iff readPort?_eq_some_iff).2 hport
      exact Or.inr ⟨port, hport, Or.inl ⟨_, htext, hnone, rfl⟩⟩
    | mode hport hroster htext hnone =>
      obtain ⟨port, hport⟩ := (exists_valueOf_iff readPort?_eq_some_iff).2 hport
      obtain ⟨roster, hroster⟩ := (exists_valueOf_iff rosterRead?_eq_some_iff).2 hroster
      exact Or.inr ⟨port, hport, Or.inr ⟨roster, hroster, Or.inl ⟨_, htext, hnone, rfl⟩⟩⟩

/-! ## Changing a variable -/

structure Accepts (name text : String) : Prop where
  port : name = "APP_PORT" → ∃ port, PortText text port
  roster : name = "TEAM_SIZE" → ∃ roster, RosterText text roster
  mode : name = "SELECTION_MODE" → ∃ mode, ModeText text mode

/-- No setting differs but that of the variable. -/
structure SameBut (name : String) (s s' : Settings) : Prop where
  stage : name ≠ "APP_ENV" → s'.stage = s.stage
  host : name ≠ "APP_HOST" → s'.host = s.host
  port : name ≠ "APP_PORT" → s'.port = s.port
  logLevel : name ≠ "APP_LOG_LEVEL" → s'.logLevel = s.logLevel
  roster : name ≠ "TEAM_SIZE" → s'.setup.roster = s.setup.roster
  mode : name ≠ "SELECTION_MODE" → s'.setup.mode = s.setup.mode

theorem exists_load_iff {env : Environment} :
    (∃ s, load env = .ok s) ↔ ∀ name text, env name = some text → Accepts name text := by
  constructor
  · rintro ⟨s, hload⟩ name text htext
    have hs := load_eq_ok_iff.1 hload
    refine ⟨?_, ?_, ?_⟩
    · rintro rfl
      exact exists_holds_iff.1 ⟨_, hs.port⟩ text htext
    · rintro rfl
      exact exists_holds_iff.1 ⟨_, hs.roster⟩ text htext
    · rintro rfl
      exact exists_holds_iff.1 ⟨_, hs.mode⟩ text htext
  · intro haccepts
    cases hload : load env with
    | ok s => exact ⟨s, rfl⟩
    | error e =>
      cases load_eq_error_iff.1 hload with
      | port htext hnone =>
        obtain ⟨port, hport⟩ := (haccepts _ _ htext).port rfl
        exact absurd hport (hnone port)
      | teamSize _ htext hnone =>
        obtain ⟨roster, hroster⟩ := (haccepts _ _ htext).roster rfl
        exact absurd hroster (hnone roster)
      | mode _ _ htext hnone =>
        obtain ⟨mode, hmode⟩ := (haccepts _ _ htext).mode rfl
        exact absurd hmode (hnone mode)

theorem Reflects.sameBut {env env' : Environment} {name : String} {s s' : Settings} (h : s.Reflects env)
    (h' : s'.Reflects env') (hagree : ∀ other, name ≠ other → env' other = env other) : SameBut name s s' where
  stage hne := by rw [h'.stage, h.stage, hagree _ hne]
  host hne := by rw [h'.host, h.host, hagree _ hne]
  port hne := Holds.eq_of_agree readPort?_eq_some_iff h.port h'.port (hagree _ hne)
  logLevel hne := by rw [h'.logLevel, h.logLevel, hagree _ hne]
  roster hne := Holds.eq_of_agree rosterRead?_eq_some_iff h.roster h'.roster (hagree _ hne)
  mode hne := Holds.eq_of_agree modeRead?_eq_some_iff h.mode h'.mode (hagree _ hne)

/-- **Every setting has its own variable.**  An environment has the settings that its variables hold, or none if a
variable is refused; then the first such of port, size and mode is reported, the last two with their text as it stands.
Another text that is accepted in a variable changes no setting but that of the variable. -/
theorem load_by_variable (env : Environment) :
    (∀ s, load env = .ok s ↔ s.Reflects env) ∧
    (∀ e, load env = .error e ↔ Fault env e) ∧
    ((∃ e, load env = .error e) ↔ ∃ name text, env name = some text ∧ ¬ Accepts name text) ∧
    ∀ s name text, load env = .ok s → Accepts name text →
      ∃ s', load (Function.update env name (some text)) = .ok s' ∧ SameBut name s s' := by
  refine ⟨fun s => load_eq_ok_iff, fun e => load_eq_error_iff, ?_, fun s name text hload haccepts => ?_⟩
  · have hfails : (∃ e, load env = .error e) ↔ ¬ ∃ s, load env = .ok s := by
      cases load env with
      | ok s => simp
      | error e => simp
    rw [hfails, exists_load_iff]
    push Not
    rfl
  · have haccepts' : ∀ other text', Function.update env name (some text) other = some text' → Accepts other text' := by
      intro other text' htext
      by_cases hname : other = name
      · subst hname
        rw [Function.update_self, Option.some.injEq] at htext
        exact htext ▸ haccepts
      · rw [Function.update_of_ne hname] at htext
        exact exists_load_iff.1 ⟨s, hload⟩ other text' htext
    obtain ⟨s', hload'⟩ := exists_load_iff.2 haccepts'
    refine ⟨s', hload', (load_eq_ok_iff.1 hload).sameBut (load_eq_ok_iff.1 hload') fun other hne => ?_⟩
    exact Function.update_of_ne hne.symm _ _

/-- Of a port and a size at their limits, behind zeros; of a word in the place of the size; and of a size past its
limit. -/
theorem load_by_variable_of_limits :
    let env : Environment := Function.update (Function.update (fun _ => none) "APP_PORT" (some "065535"))
      "TEAM_SIZE" (some " +0018446744073709551615")
    ∃ s s', load env = .ok s ∧ s.port = 65535 ∧ s.setup = ⟨.fixed 18446744073709551615, .binary⟩ ∧
      load (Function.update env "TEAM_SIZE" (some "None ")) = .ok s' ∧ s'.port = s.port ∧ s'.setup.mode = s.setup.mode ∧
      load (Function.update env "TEAM_SIZE" (some " 18446744073709551616")) =
        .error (.teamSize " 18446744073709551616") := by
  intro env
  obtain ⟨hok, -, -, hchange⟩ := load_by_variable env
  obtain ⟨-, herror, -, -⟩ := load_by_variable (Function.update env "TEAM_SIZE" (some " 18446744073709551616"))
  have hport : PortText "065535" 65535 :=
    ⟨65535, by decide, ⟨[], "065535".toList, Or.inl rfl, rfl, by decide, List.all_eq_true.1 (by decide), by decide⟩,
      rfl⟩
  have hsize : RosterText " +0018446744073709551615" (.fixed 18446744073709551615) :=
    .fixed ⟨['+'], "0018446744073709551615".toList, Or.inr rfl, by decide, by decide, List.all_eq_true.1 (by decide),
      by decide⟩ (by decide)
  have hload : load env = .ok ⟨.development, "127.0.0.1", 65535, "info", ⟨.fixed 18446744073709551615, .binary⟩⟩ :=
    (hok _).2 ⟨by decide, by decide, hport, by decide, hsize, rfl⟩
  have haccepts : Accepts "TEAM_SIZE" "None " :=
    ⟨fun h => absurd h (by decide), fun _ => ⟨.unbounded, .unbounded List.mem_cons_self (by decide)⟩,
      fun h => absurd h (by decide)⟩
  obtain ⟨s', hload', hsame⟩ := hchange _ "TEAM_SIZE" "None " hload haccepts
  refine ⟨_, s', hload, rfl, rfl, hload', hsame.port (by decide), hsame.mode (by decide), (herror _).2 ?_⟩
  refine .teamSize (fun text htext => ?_) rfl fun roster hroster => ?_
  · obtain rfl : "065535" = text := Option.some.inj htext
    exact ⟨_, hport⟩
  · have hnone : Roster.read? " 18446744073709551616" = none := by decide +kernel
    rw [← rosterRead?_eq_some_iff, hnone] at hroster
    cases hroster

end Lineup.Settings
