import HostRegistry.Proofs.Config.Saving
import HostRegistry.Session

/-!
Initializing a configuration that is there already.

The action writes the default configuration over whatever the file holds. The program loads the
configuration before any action, so it comes to this one only if the file can be read.
-/

set_option autoImplicit false

namespace HostRegistry

open FileSystem

variable {fs : FileSystem} {l : Location} {content : ByteArray}

/-! ## Runs of the program -/

/-- The file of the configuration that an invocation is about. -/
def CommandLine.Invocation.configFile (invocation : CommandLine.Invocation) (s : Surroundings) :
    ConfigFile :=
  ⟨invocation.config.getD s.environment.configPath⟩

/-- The ending after a command. -/
def Ending.ofAnswer : Except Error Unit → Ending
  | .ok _ => .done
  | .error error => .failed error

namespace Surroundings

variable {s : Surroundings} {arguments : List String} {invocation : CommandLine.Invocation}

/-- A run is what its command line asks for, and ends with its answer. -/
theorem run_of_ofArguments
    (hparse : CommandLine.Invocation.ofArguments s.environment arguments = .ok invocation)
    (fs : FileSystem) :
    ((s.run arguments).run fs).value = .ofAnswer ((invocation.run s).run fs).value ∧
      ((s.run arguments).run fs).files = ((invocation.run s).run fs).files := by
  rw [run, hparse]
  simp only [Script.run_bind]
  cases ((invocation.run s).run fs).value with
  | error error => exact ⟨rfl, rfl⟩
  | ok _ => exact ⟨rfl, rfl⟩

/-- A run is over where the configuration cannot be loaded. -/
theorem run_of_load_error
    (hparse : CommandLine.Invocation.ofArguments s.environment arguments = .ok invocation)
    {error : Error} (hload : ((invocation.configFile s).load.run fs).value = .error error) :
    ((s.run arguments).run fs).value = .failed error ∧ ((s.run arguments).run fs).files = fs := by
  obtain ⟨hvalue, hfiles⟩ := run_of_ofArguments hparse fs
  have hkept := ((ConfigFile.reads_load (invocation.configFile s)).run fs).2
  rw [CommandLine.Invocation.configFile] at hload hkept
  rw [hvalue, hfiles]
  simp only [CommandLine.Invocation.run, Script.run_bind, Script.run_silent, hload, hkept]
  exact ⟨rfl, rfl⟩

/-- With a configuration, a run is the command and ends as the command does. -/
theorem run_of_load
    (hparse : CommandLine.Invocation.ofArguments s.environment arguments = .ok invocation)
    {config : Config} (hload : ((invocation.configFile s).load.run fs).value = .ok config) :
    let o := (invocation.command.run ⟨invocation.host, invocation.storeDirectory⟩
      (invocation.configFile s) config s.environment.hostsDirectory).run fs
    ((s.run arguments).run fs).value = .ofAnswer o.value ∧
      ((s.run arguments).run fs).files = o.files := by
  intro o
  obtain ⟨hvalue, hfiles⟩ := run_of_ofArguments hparse fs
  have hkept := ((ConfigFile.reads_load (invocation.configFile s)).run fs).2
  rw [CommandLine.Invocation.configFile] at hload hkept
  rw [hvalue, hfiles]
  simp only [CommandLine.Invocation.run, Script.run_bind, Script.run_silent, hload, hkept,
    Script.run_mapReports]
  exact ⟨rfl, rfl⟩

end Surroundings

/-! ## Loading what a file holds -/

/-- The configuration in the bytes of a file at a path, or why there is none. -/
def Config.ofContent (path : String) (content : ByteArray) : Except Error Config :=
  match String.fromUTF8? content with
  | none => .error (.io ("reading config from " ++ path) FileFault.notText.message)
  | some text => (Config.read text).mapError fun fault => .configInvalid path fault.message

theorem ConfigFile.value_load_of_readFile {file : ConfigFile}
    (hread : fs.readFile file.path = .ok content) :
    (file.load.run fs).value = Config.ofContent file.path content := by
  obtain ⟨l, hlocate, -⟩ := exists_locate_of_readFile hread
  have hexists : fs.pathExists file.path = true := by
    rw [pathExists, hlocate]
  rw [load, Script.run_request_bind]
  simp only [perform, hexists, if_true]
  rw [loadFrom, Files.readText, Script.run_bind, Script.run_request_bind]
  simp only [perform, hread]
  rw [Config.ofContent]
  cases String.fromUTF8? content with
  | none => rfl
  | some text =>
    simp only [Script.run_pure]
    cases Config.read text <;> rfl

/-! ## Initializing -/

theorem ConfigAction.run_runInit_force (file : ConfigFile) (fs : FileSystem)
    (h : file.Savable fs) :
    ((ConfigAction.runInit file true).run fs).value = .ok () ∧
      ((ConfigAction.runInit file true).run fs).files = ((file.save .default).run fs).files := by
  have hsave := h.run_save .default
  rw [runInit, Script.run_request_bind]
  simp only [perform, Bool.not_true, Bool.and_false, Bool.false_eq_true, if_false, Script.run_bind,
    hsave]
  exact ⟨rfl, rfl⟩

/-- The action that initializes with `force` recovers the configuration whatever its file holds. The
program comes to the action exactly if the file holds a configuration; else it fails with the error
of loading, and the file is as it was. -/
theorem init_force_recovers_iff {s : Surroundings} {arguments : List String}
    {invocation : CommandLine.Invocation}
    (hparse : CommandLine.Invocation.ofArguments s.environment arguments = .ok invocation)
    (hcommand : invocation.command = .config (some (.init true)))
    (hplace : fs.place? (invocation.configFile s).path = some l)
    (hread : fs.readFile (invocation.configFile s).path = .ok content) :
    let file := invocation.configFile s
    let o := (s.run arguments).run fs
    (∀ config, let reset := (ConfigAction.run file config (some (.init true))).run fs
      reset.value = .ok () ∧ (file.load.run reset.files).value = .ok .default) ∧
    match Config.ofContent file.path content with
    | .ok _ => o.value = .done ∧ (file.load.run o.files).value = .ok .default
    | .error error => o.value = .failed error ∧ o.files = fs := by
  intro file o
  obtain ⟨t, hwritable, -⟩ := writable_of_readFile hplace hread
  have hsavable : file.Savable fs :=
    ⟨.default, ((ConfigFile.ready_of_writable hwritable).run_save .default).1⟩
  have hreset : ∀ config, let reset := (ConfigAction.run file config (some (.init true))).run fs
      reset.value = .ok () ∧ (file.load.run reset.files).value = .ok .default := by
    intro config reset
    obtain ⟨hvalue, hfiles⟩ := ConfigAction.run_runInit_force file fs hsavable
    refine ⟨hvalue, ?_⟩
    show (file.load.run ((ConfigAction.runInit file true).run fs).files).value = _
    rw [hfiles]
    exact file.load_save .default fs (hsavable.run_save .default)
  refine ⟨hreset, ?_⟩
  have hload := ConfigFile.value_load_of_readFile hread
  cases hcontent : Config.ofContent file.path content with
  | error error => exact s.run_of_load_error hparse (hload.trans hcontent)
  | ok config =>
    obtain ⟨hvalue, hfiles⟩ := s.run_of_load hparse (hload.trans hcontent)
    rw [hcommand] at hvalue hfiles
    obtain ⟨hdone, hdefault⟩ := hreset config
    refine ⟨hvalue.trans ?_, ?_⟩
    · exact congrArg Ending.ofAnswer hdone
    · exact (congrArg (fun files => (file.load.run files).value) hfiles).trans hdefault

/-- A file whose only line opens a table and does not close it. -/
def brokenConfig : FileSystem := (FileSystem.empty.writeFile "/c.toml" "[store\n".toUTF8).2

theorem init_force_recovers_iff_of_open_header :
    let s : Surroundings := ⟨⟨∅, none⟩, false⟩
    let arguments := ["--config", "/c.toml", "config", "init", "--force"]
    CommandLine.Invocation.ofArguments s.environment arguments =
        .ok ⟨.config (some (.init true)), 0, some "/c.toml", none, none⟩ ∧
      brokenConfig.place? "/c.toml" = some ["c.toml"] ∧
      brokenConfig.readFile "/c.toml" = .ok "[store\n".toUTF8 ∧
      ((s.run arguments).run brokenConfig).value =
        .failed (.configInvalid "/c.toml" Config.DocumentFault.form.message) ∧
      ((s.run arguments).run brokenConfig).files = brokenConfig := by
  intro s arguments
  have hparse : CommandLine.Invocation.ofArguments s.environment arguments =
      .ok ⟨.config (some (.init true)), 0, some "/c.toml", none, none⟩ := by rfl
  have hplace : brokenConfig.place? "/c.toml" = some ["c.toml"] := by decide +kernel
  have hread : brokenConfig.readFile "/c.toml" = .ok "[store\n".toUTF8 := by rfl
  have hcontent : Config.ofContent "/c.toml" "[store\n".toUTF8 =
      .error (.configInvalid "/c.toml" Config.DocumentFault.form.message) := by
    have hform : Toml.readDocument "[store\n" = none :=
      Option.isNone_iff_eq_none.mp (by decide +kernel)
    rw [Config.ofContent, FileBackend.fromUTF8?_toUTF8]
    simp only [Config.read, hform]
    rfl
  have h := (init_force_recovers_iff hparse rfl hplace hread).2
  rw [show CommandLine.Invocation.configFile _ _ = ⟨"/c.toml"⟩ from rfl, hcontent] at h
  exact ⟨hparse, hplace, hread, h.1, h.2⟩

end HostRegistry
