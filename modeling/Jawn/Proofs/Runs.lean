import Jawn.Command.Run

/-!
# What a run depends on

Of all files a run reads two: its input and one configuration. What else the file system holds does
not matter, and a run that fails at one of its steps has printed nothing. All this holds for every
way to read the text of a configuration:

* `Surroundings.selects_iff`: which configuration is chosen;
* `ConfigPlace.load_congr`, `Options.run_congr`: a run is fixed by what it finds and reads in the two
  files;
* `Options.run_of_unreadable`: what is read in a file does not tell whether it is found, and a run
  depends on both;
* `Printing.allOrNothing_bind`: a computation that prints last prints all or nothing;
* `Options.run_noninterference`: both for every run.
-/

namespace Jawn

/-! ## The files of a run -/

/-- The configuration that counts for a run: the path that its options name, whether it is there or
not, or else the first that is there of the project's and the user's, or else none. -/
inductive Surroundings.Selects (around : Surroundings) : Option String → Option String → Prop where
  | named (path : String) : Selects around (some path) (some path)
  | project (hproject : around.files.has projectConfig = true) :
    Selects around none (some projectConfig)
  | user {path : String} (hproject : around.files.has projectConfig = false)
      (hpath : around.userConfig = some path) (huser : around.files.has path = true) :
    Selects around none (some path)
  | nothing (hproject : around.files.has projectConfig = false)
      (huser : ∀ path, around.userConfig = some path → around.files.has path = false) :
    Selects around none none

namespace Surroundings

variable {o : Options} {around a b : Surroundings} {named candidate : Option String} {path : String}

theorem selects_choose (around : Surroundings) (named : Option String) :
    around.Selects named (ConfigPlace.choose around.files named around.userConfig).path? := by
  cases named with
  | some path => exact .named path
  | none =>
    simp only [ConfigPlace.choose]
    cases hproject : around.files.has projectConfig with
    | true => exact .project hproject
    | false =>
      cases hpath : around.userConfig with
      | none => exact .nothing hproject (by simp [hpath])
      | some path =>
        cases huser : around.files.has path with
        | true => simpa [huser, ConfigPlace.path?] using Selects.user hproject hpath huser
        | false =>
          simpa [huser, ConfigPlace.path?] using Selects.nothing hproject (by simp [hpath, huser])

/-- A run looks for its configuration in the place that counts. -/
theorem selects_iff : around.Selects named candidate ↔
    (ConfigPlace.choose around.files named around.userConfig).path? = candidate := by
  constructor
  · intro h
    cases h with
    | named path => rfl
    | project hproject => simp [ConfigPlace.choose, hproject, ConfigPlace.path?]
    | user hproject hpath huser =>
      simp [ConfigPlace.choose, hproject, hpath, huser, ConfigPlace.path?]
    | nothing hproject huser =>
      cases hpath : around.userConfig with
      | none => simp [ConfigPlace.choose, hproject, ConfigPlace.path?]
      | some path => simp [ConfigPlace.choose, hproject, huser path hpath, ConfigPlace.path?]
  · rintro rfl
    exact selects_choose around named

/-- A configuration that no option names is selected only if it is there. -/
theorem Selects.has (h : around.Selects none (some path)) : around.files.has path = true := by
  cases h with
  | project hproject => exact hproject
  | user hproject hpath huser => exact huser

/-- Two file systems look the same to a run: reading its input gives the same, and it selects the
same configuration in both and reads the same there. -/
structure Agree (o : Options) (a b : Surroundings) : Prop where
  input_eq : a.files.readText o.input = b.files.readText o.input
  config : ∃ candidate, a.Selects o.config candidate ∧ b.Selects o.config candidate ∧
    ∀ path, candidate = some path → a.files.readText path = b.files.readText path
  /-- A path that the options name is there in both or in neither. -/
  named : ∀ path, o.config = some path → a.files.has path = b.files.has path

theorem Agree.has_eq (h : a.Agree o b) (ha : a.Selects o.config (some path))
    (hb : b.Selects o.config (some path)) : a.files.has path = b.files.has path := by
  cases hconfig : o.config with
  | none =>
    rw [hconfig] at ha hb
    rw [ha.has, hb.has]
  | some name =>
    rw [hconfig] at ha
    cases ha with
    | named => exact h.named path hconfig

end Surroundings

/-- The settings in a place depend on nothing but what is found and read there. -/
theorem ConfigPlace.load_congr {reader : ConfigReader} {a b : Files} {p q : ConfigPlace}
    (hpath : p.path? = q.path?) (hsame : ∀ path, q.path? = some path →
      a.has path = b.has path ∧ a.readText path = b.readText path) :
    p.load reader a = q.load reader b := by
  rw [load, load, hpath]
  cases hq : q.path? with
  | none => rfl
  | some path =>
    obtain ⟨hhas, hread⟩ := hsame path hq
    simp only [hhas, hread]

namespace Options

variable {o : Options} {reader : ConfigReader} {around a b : Surroundings}

theorem settings_congr (h : a.Agree o b) : o.settings reader a = o.settings reader b := by
  obtain ⟨candidate, ha, hb, hread⟩ := h.config
  have hplace := Surroundings.selects_iff.1 ha
  obtain rfl := Surroundings.selects_iff.1 hb
  rw [settings, settings, ConfigPlace.load_congr hplace]
  intro path hpath
  rw [hpath] at ha hb
  exact ⟨h.has_eq ha hb, hread path hpath⟩

theorem run_congr (h : a.Agree o b) : o.run reader a = o.run reader b := by
  rw [run, run, settings_congr h, source, source, h.input_eq]

/-- If a path that the options name cannot be read, a run fails in one of two ways. Which of them
depends on whether the path is there, and that cannot be told from the reason. -/
theorem run_of_unreadable {path : String} {fault : ReadFault} (hconfig : o.config = some path)
    (hread : around.files.readText path = .error fault) (printed : String) :
    (o.run reader around).run.run printed = (.error (if around.files.has path then .io fault.message
      else .config (ConfigFault.missing path).message), printed) := by
  have hsettings : o.settings reader around = .error (if around.files.has path then
      .io fault.message else .config (ConfigFault.missing path).message) := by
    rw [settings, hconfig, ConfigPlace.choose, ConfigPlace.load]
    simp only [ConfigPlace.path?, hread]
    cases around.files.has path <;> rfl
  rw [run, hsettings]
  rfl

end Options

/-! ## What a run prints -/

namespace Printing

/-- A computation that has printed nothing if it fails. -/
def AllOrNothing {α : Type} (x : Printing α) : Prop :=
  ∀ printed after failure, x.run.run printed = (.error failure, after) → after = printed

theorem allOrNothing_print (text : String) : AllOrNothing (print text) := by
  rintro printed after failure ⟨⟩

/-- A step that prints nothing itself can come before one that prints all or nothing. -/
theorem allOrNothing_bind {α β : Type} (x : Except Failure α) {f : α → Printing β}
    (hf : ∀ a, AllOrNothing (f a)) : AllOrNothing (liftExcept x >>= f) := by
  intro printed after failure h
  cases x with
  | error fault =>
    obtain ⟨-, hprinted⟩ := Prod.mk.inj h
    exact hprinted.symm
  | ok a => exact hf a printed after failure h

end Printing

namespace Options

open Printing

theorem allOrNothing_run (o : Options) (reader : ConfigReader) (around : Surroundings) :
    AllOrNothing (o.run reader around) := by
  apply allOrNothing_bind
  intro settings
  apply allOrNothing_bind
  intro source
  split
  · exact allOrNothing_print _
  · exact allOrNothing_bind _ fun tokens => allOrNothing_print _
  · exact allOrNothing_bind _ fun constructs => allOrNothing_print _
  · exact allOrNothing_bind _ fun output => allOrNothing_print _

/-- Whatever its options are and however a configuration is read, a run ends the same way and prints
the same in two file systems that look the same to it, and in every file system it has printed
nothing if it fails. -/
theorem run_noninterference (o : Options) (reader : ConfigReader) :
    (∀ a b : Surroundings, a.Agree o b → ∀ printed,
      (o.run reader a).run.run printed = (o.run reader b).run.run printed) ∧
    ∀ around printed after failure,
      (o.run reader around).run.run printed = (.error failure, after) → after = printed := by
  refine ⟨fun a b h printed => ?_, allOrNothing_run o reader⟩
  rw [run_congr h]

/-- A file system with some files that may be read and with one, `locked`, that may not. -/
def lockedBeside (readable : List String) : Files where
  has path := path ∈ "locked" :: readable
  read path := if path ∈ readable then .ok "x".toUTF8 else .error "Permission denied (os error 13)"

/-- The configuration that the options name is there but may not be read. So it does not matter that
one of the file systems has the configuration of a project, too, and the other that of a user. -/
theorem run_noninterference_locked :
    Surroundings.Agree { input := "main", config := some "locked" }
      ⟨lockedBeside ["main", "philly/config.toml"], none⟩
      ⟨lockedBeside ["main", "user"], some "user"⟩ ∧
    (run { input := "main", config := some "locked" } (fun _ => .ok {})
      ⟨lockedBeside ["main", "philly/config.toml"], none⟩).run.run "" =
        (.error (.io "Permission denied (os error 13)"), "") ∧
    (run { input := "main", config := some "locked" } (fun _ => .ok {})
      ⟨lockedBeside ["main", "user"], some "user"⟩).run.run "" =
        (.error (.io "Permission denied (os error 13)"), "") := by
  have hagree : Surroundings.Agree { input := "main", config := some "locked" }
      ⟨lockedBeside ["main", "philly/config.toml"], none⟩
      ⟨lockedBeside ["main", "user"], some "user"⟩ :=
    ⟨rfl, ⟨some "locked", .named _, .named _, by rintro _ ⟨⟩; rfl⟩, by rintro _ ⟨⟩; rfl⟩
  obtain ⟨hsame, hsilent⟩ :=
    run_noninterference { input := "main", config := some "locked" } fun _ => .ok {}
  obtain ⟨after, hfails⟩ : ∃ after, (run { input := "main", config := some "locked" }
      (fun _ => .ok {}) ⟨lockedBeside ["main", "philly/config.toml"], none⟩).run.run "" =
        (.error (.io "Permission denied (os error 13)"), after) := ⟨_, rfl⟩
  obtain rfl := hsilent _ _ _ _ hfails
  exact ⟨hagree, hfails, (hsame _ _ hagree "").symm.trans hfails⟩

end Options

end Jawn
