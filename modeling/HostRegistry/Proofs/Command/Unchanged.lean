import HostRegistry.Proofs.Command.Output
import HostRegistry.Proofs.Store.Replacement
import HostRegistry.Session

/-!
Commands that fail, and commands that only read, leave the file system as it was.

All that a command about a host does before it gives its store a record is reading, and after that
nothing can fail. So only a backend that could not persist may have touched a file, and then it is
the temporary one.
-/

set_option autoImplicit false

namespace HostRegistry

open FileSystem

/-! ## Commands that only read -/

theorem HostCommand.reads_emitAll {ι : Type} (report : ι → Report) (items : List ι) :
    (emitAll report items).Reads fun _ => True := by
  induction items with
  | nil => exact .pure trivial
  | cons item items ih => exact .bind (.emit _) fun _ _ => ih

namespace HostContext

/-- The directory of the records. -/
def records (context : HostContext) : String :=
  (context.target.directory.or context.config.directory).getD context.defaultDirectory

/-- The backends that commands work with. -/
inductive Serves (context : HostContext) : HostBackend → Prop
  | file (host : String) :
    context.config.backend = .file → context.target.host = some host →
    Serves context (.file (.forHost context.records host))
  | memory (b : MemoryBackend) : context.config.backend = .memory → Serves context (.memory b)

/-- The references whose stores have such a backend. -/
def Refers (context : HostContext) : HostReference → Prop
  | .withStore _ store => context.Serves store.backend
  | .bare _ => context.config.backend = .memory

variable {context : HostContext}

theorem reads_load {b : HostBackend} (h : context.Serves b) :
    (Backend.load b).Reads fun answer => context.Serves answer.2 := by
  cases h with
  | file host hbackend hhost =>
    apply Script.Reads.bind (P := fun answer => answer.2 = .forHost context.records host)
    · exact .bind (FileBackend.reads_load _) fun _ _ => .pure rfl
    · rintro ⟨answer, b⟩ rfl
      exact .pure (.file host hbackend hhost)
  | memory b hbackend =>
    apply Script.Reads.bind (P := fun _ => True)
    · exact .mapReports _ (.pure trivial)
    · rintro ⟨answer, b'⟩ -
      exact .pure (.memory b' hbackend)

theorem reads_get {s : HostStore} (h : context.Serves s.backend) (force : Bool) :
    ((s.get force).mapReports Report.store).Reads fun answer => context.Serves answer.2.backend := by
  have hrefresh : s.refresh.Reads fun answer => context.Serves answer.2.backend := by
    refine .bind (.emit _) fun _ _ => .bind (.emit _) fun _ _ => ?_
    apply Script.Reads.bind (.mapReports _ (reads_load h))
    rintro ⟨answer, b⟩ hb
    cases answer with
    | ok record => exact .bind (.emit _) fun _ _ => .pure hb
    | error error => exact .bind (.emit _) fun _ _ => .pure hb
  apply Script.Reads.mapReports
  cases hslot : s.slot with
  | none =>
    rw [Store.get_eq_refresh (Or.inr hslot)]
    exact hrefresh
  | some record =>
    cases force with
    | true =>
      rw [Store.get_eq_refresh (Or.inl rfl)]
      exact hrefresh
    | false =>
      simp only [Store.get, hslot]
      exact .pure h

theorem reads_reference (context : HostContext) :
    (context.target.reference context.config context.defaultDirectory).Reads
      fun answer => ∀ reference, answer = .ok reference → context.Refers reference := by
  unfold Target.reference
  cases hhost : context.target.host with
  | none => exact .pure_error _
  | some host =>
    simp only
    split
    · apply Script.Reads.bind (P := context.Refers)
      · unfold HostReference.ofConfig
        cases hbackend : context.config.backend with
        | file => exact .bind (.emit _) fun _ _ => .pure (.file host hbackend hhost)
        | memory => exact .pure hbackend
      · intro reference hreference
        exact .pure_ok hreference
    · exact .pure_error _

theorem reads_resolve {reference : HostReference} (h : context.Refers reference) :
    reference.resolve.Reads fun store => context.Serves store.backend := by
  cases reference with
  | withStore host store => exact .pure h
  | bare host => exact .bind (.emit _) fun _ _ => .pure (.memory _ h)

/-- A command that starts from the record is of a kind if what follows is, where the kind does not
depend on what is read before. -/
theorem withRecord_of {Kind : HostCommand.Result → Prop}
    (reading : ∀ {α : Type} {P : α → Prop} {x : Script Report α} {f : α → HostCommand.Result},
      x.Reads P → (∀ a, P a → Kind (f a)) → Kind (x >>= f))
    (failing : ∀ error, Kind (pure (.error error)))
    {next : HostReference → HostStore → Record → HostCommand.Result}
    (hnext : ∀ reference store record, context.Serves store.backend →
      Kind (next reference store record)) :
    Kind (HostCommand.withRecord context next) := by
  apply reading context.reads_reference
  intro answer hanswer
  cases answer with
  | error error => exact failing error
  | ok reference =>
    apply reading (reads_resolve (hanswer reference rfl))
    intro store hstore
    apply reading (reads_get hstore false)
    rintro ⟨answer, store⟩ hstore
    cases answer with
    | error error => exact failing error
    | ok record => exact hnext reference store record hstore

end HostContext

namespace HostCommand

variable {context : HostContext}

/-- The commands about a host that only read. -/
def IsReading : HostCommand → Prop
  | .create .. => False
  | .show _ => True
  | .label (.get _) => True
  | .label _ => False
  | .attribute (.get _) => True
  | .attribute _ => False

theorem reads_answer (reports : List Report) :
    (do emitAll id reports; return .ok () : Result).Reads fun _ => True :=
  .bind (reads_emitAll id reports) fun _ _ => .pure trivial

theorem reads_run {command : HostCommand} (h : command.IsReading) :
    (command.run context).Reads fun _ => True := by
  have hrecord {next : HostReference → HostStore → Record → Result}
      (hnext : ∀ reference store record, (next reference store record).Reads fun _ => True) :
      (withRecord context next).Reads fun _ => True :=
    HostContext.withRecord_of .bind (fun _ => .pure trivial) fun reference store record _ =>
      hnext reference store record
  cases command with
  | create labels attributes force => cases h
  | «show» format => exact hrecord fun _ _ _ => reads_answer _
  | label action =>
    cases action with
    | get family => exact hrecord fun _ _ _ => reads_answer _
    | add labels => cases h
    | remove labels => cases h
    | set family value => cases h
  | «attribute» action =>
    cases action with
    | get key =>
      apply hrecord
      intro _ _ record
      simp only [editAttributes]
      split
      · exact .pure trivial
      · exact reads_answer _
    | set entries => cases h
    | unset keys => cases h

/-! ## Commands that fail -/

end HostCommand

namespace HostContext

/-- What is left of the files after an error: all is as it was, unless a record could not be
persisted. Then no file came or has other bytes, and none is gone but one in the place of the
temporary file of the host. -/
def Harmless (context : HostContext) (before after : FileSystem) : Error → Prop
  | .persist _ _ => ∀ l, after.fileAt? l = before.fileAt? l ∨ ∃ host,
    context.target.host = some host ∧ after.fileAt? l = none ∧
      after.place? (FileBackend.forHost context.records host).temporary = some l
  | _ => after = before

/-- A script that does no harm where it fails, and leaves the files alone where records are kept in
memory. -/
structure Careful {α : Type} (context : HostContext) (x : Script Report (Except Error α)) : Prop where
  failed : ∀ fs error, (x.run fs).value = .error error →
    context.Harmless fs (x.run fs).files error
  memory : context.config.backend = .memory → ∀ fs, (x.run fs).files = fs

variable {context : HostContext}

theorem harmless_refl (context : HostContext) (fs : FileSystem) (error : Error) :
    context.Harmless fs fs error := by
  cases error with
  | persist store reason => exact fun _ => Or.inl rfl
  | _ => rfl

namespace Careful

variable {α β : Type} {P : β → Prop}

theorem of_reads {P : Except Error α → Prop} {x : Script Report (Except Error α)} (h : x.Reads P) :
    Careful context x where
  failed fs error _ := by
    rw [(h.run fs).2]
    exact harmless_refl context fs error
  memory _ fs := (h.run fs).2

theorem failing (context : HostContext) (error : Error) :
    Careful context (pure (.error error) : Script Report (Except Error α)) :=
  .of_reads (.pure_error (P := fun _ => True) error)

/-- Reading before does no harm. -/
theorem reads_bind {x : Script Report β} {f : β → Script Report (Except Error α)} (hx : x.Reads P)
    (hf : ∀ a, P a → Careful context (f a)) : Careful context (x >>= f) := by
  have hrun : ∀ fs, ((x >>= f).run fs).value = ((f (x.run fs).value).run fs).value ∧
      ((x >>= f).run fs).files = ((f (x.run fs).value).run fs).files := by
    intro fs
    rw [Script.run_bind]
    simp only [(hx.run fs).2, and_self]
  constructor
  · intro fs error herror
    rw [(hrun fs).1] at herror
    rw [(hrun fs).2]
    exact (hf _ (hx.run fs).1).failed fs error herror
  · intro hmemory fs
    rw [(hrun fs).2]
    exact (hf _ (hx.run fs).1).memory hmemory fs

end Careful

/-- A store that cannot take a record says so with one kind of error, and does no harm. -/
theorem commit_cases {s : HostStore} (h : context.Serves s.backend) (record : Record)
    (fs : FileSystem) :
    let o := ((s.commit record).mapReports Report.store).run fs
    (∀ error, o.value.1 = .error error → context.Harmless fs o.files error) ∧
      (context.config.backend = .memory → o.files = fs) := by
  obtain ⟨backend, slot⟩ := s
  simp only [Script.run_mapReports, Store.run_commit]
  cases h with
  | file host hbackend hhost =>
    rw [run_persist_file]
    refine ⟨?_, fun hmemory => by rw [hbackend] at hmemory; cases hmemory⟩
    intro error herror
    have hfiles := (FileBackend.run_persist record (.forHost context.records host) fs).2
    obtain ⟨fault, hreplace, rfl⟩ := FileBackend.replace_of_persist_error herror
    intro l
    rcases FileBackend.files_of_replace_error hreplace hfiles.symm l with hsame | ⟨hplace, hgone⟩
    · exact Or.inl hsame
    · exact Or.inr ⟨host, hhost, hgone, hplace⟩
  | memory b hbackend =>
    refine ⟨?_, fun _ => rfl⟩
    intro error herror
    cases herror

/-- A command that ends with a commit is careful: nothing fails after it. -/
theorem Careful.commit {s : HostStore} (h : context.Serves s.backend) (record : Record)
    {f : Except Error Unit × HostStore → HostCommand.Result}
    (failing : ∀ error store, f (.error error, store) = pure (.error error))
    (telling : ∀ store, (f (.ok (), store)).Reads (· = .ok ())) :
    Careful context ((s.commit record).mapReports .store >>= f) := by
  have hrun : ∀ fs, let o := ((s.commit record).mapReports Report.store).run fs
      ((((s.commit record).mapReports .store >>= f).run fs).value = o.value.1 ∧
        (((s.commit record).mapReports .store >>= f).run fs).files = o.files) := by
    intro fs o
    rw [Script.run_bind]
    show (Script.run (f o.value) o.files).value = _ ∧ (Script.run (f o.value) o.files).files = _
    obtain ⟨⟨answer, store⟩, reports, files⟩ := o
    cases answer with
    | error error =>
      rw [failing]
      exact ⟨rfl, rfl⟩
    | ok _ => exact (telling store).run files
  constructor
  · intro fs error herror
    rw [(hrun fs).1] at herror
    rw [(hrun fs).2]
    exact (commit_cases h record fs).1 error herror
  · intro hmemory fs
    rw [(hrun fs).2]
    exact (commit_cases h record fs).2 hmemory

end HostContext

namespace HostCommand

variable {context : HostContext}

theorem reads_tell (notice : Notice) : (tell notice).Reads fun _ => True := .emit _

theorem careful_finish {store : HostStore} (h : context.Serves store.backend) (persistent : Bool)
    (edited : Record) (summary : String) :
    context.Careful (finish persistent store edited summary) := by
  apply HostContext.Careful.commit h edited
  · intro error store
    rfl
  · intro store
    apply Script.Reads.bind (reads_tell _)
    intro _ _
    cases persistent with
    | true => exact .pure rfl
    | false => exact .bind (reads_tell _) fun _ _ => .pure rfl

/-- Telling about arguments that changed nothing, and writing the edited record back. -/
theorem careful_edit {store : HostStore} (h : context.Serves store.backend) (persistent : Bool)
    (edited : Record) (notices : List Notice) (summary : String) :
    context.Careful (do emitAll .notice notices; finish persistent store edited summary) :=
  .reads_bind (reads_emitAll _ _) fun _ _ => careful_finish h persistent edited summary

theorem careful_withRecord {next : HostReference → HostStore → Record → Result}
    (hnext : ∀ reference store record, context.Serves store.backend →
      context.Careful (next reference store record)) : context.Careful (withRecord context next) :=
  HostContext.withRecord_of .reads_bind (.failing context) hnext

theorem careful_runLabel (context : HostContext) (action : LabelAction) :
    context.Careful (runLabel context action) := by
  apply careful_withRecord
  intro reference store record hstore
  cases editLabels record action with
  | none => exact .of_reads (reads_answer _)
  | some edit => exact careful_edit hstore _ _ _ _

theorem careful_runAttribute (context : HostContext) (action : AttributeAction) :
    context.Careful (runAttribute context action) := by
  apply careful_withRecord
  intro reference store record hstore
  cases editAttributes record action with
  | none =>
    cases readAttributes record action with
    | error error => exact .failing context error
    | ok reports => exact .of_reads (reads_answer _)
  | some edit => exact careful_edit hstore _ _ _ _

theorem reads_checkVacant {store : HostStore} (h : context.Serves store.backend) (host : String) :
    (checkVacant host store).Reads
      fun answer => ∀ store, answer = .ok store → context.Serves store.backend := by
  apply Script.Reads.bind (HostContext.reads_get h true)
  rintro ⟨answer, store⟩ hstore
  cases answer with
  | ok record => exact .pure_error _
  | error error =>
    simp only
    split
    · exact .bind (.emit _) fun _ _ => .pure_ok hstore
    · exact .pure_error _

theorem careful_runCreate (context : HostContext) (labels : List String)
    (attributes : List (String × String)) (force : Bool) :
    context.Careful (runCreate context labels attributes force) := by
  rw [runCreate_eq]
  apply HostContext.Careful.reads_bind context.reads_reference
  intro answer hanswer
  cases answer with
  | error error => exact .failing context error
  | ok reference =>
    apply HostContext.Careful.reads_bind (HostContext.reads_resolve (hanswer reference rfl))
    intro store hstore
    have hchecked : (if reference.hasStore && !force then checkVacant reference.host store
        else pure (.ok store) : Script Report _).Reads
          fun answer => ∀ store, answer = .ok store → context.Serves store.backend := by
      split
      · exact reads_checkVacant hstore reference.host
      · exact .pure_ok hstore
    apply HostContext.Careful.reads_bind hchecked
    intro checked hchecked
    cases checked with
    | error error => exact .failing context error
    | ok store =>
      apply HostContext.Careful.commit (hchecked store rfl)
      · intro error store
        rfl
      · intro store
        exact .bind (reads_tell _) fun _ _ => .pure rfl

theorem careful_run (context : HostContext) (command : HostCommand) :
    context.Careful (command.run context) := by
  cases command with
  | create labels attributes force => exact careful_runCreate context labels attributes force
  | «show» format => exact .of_reads (reads_run trivial)
  | label action => exact careful_runLabel context action
  | «attribute» action => exact careful_runAttribute context action

end HostCommand

/-! ## Commands about the configuration -/

namespace ConfigAction

/-- The commands about the configuration that have nothing to write: showing it, setting what cannot
be set, and initializing it without `force` where something is there. -/
def IsIdle (file : ConfigFile) (config : Config) (fs : FileSystem) : Option ConfigAction → Prop
  | none | some .show | some .path => True
  | some (.init force) => force = false ∧ fs.pathExists file.path = true
  | some (.set key value) => ∃ error, config.set key value = .error error

theorem run_runSet_of_error {config : Config} {key value : String} {error : Error}
    (h : config.set key value = .error error) (file : ConfigFile) (fs : FileSystem) :
    (runSet file config key value).run fs = ⟨.error error, [], fs⟩ := by
  rw [runSet, h]
  rfl

theorem files_run_of_isIdle {file : ConfigFile} {config : Config} {fs : FileSystem}
    {action : Option ConfigAction} (h : IsIdle file config fs action) :
    ((run file config action).run fs).files = fs := by
  match action, h with
  | none, _ => rfl
  | some .show, _ => rfl
  | some .path, _ => rfl
  | some (.init _), ⟨rfl, hexists⟩ =>
    rw [run, runInit, Script.run_request_bind, FileSystem.perform, hexists]
    rfl
  | some (.set key value), ⟨error, herror⟩ => rw [run, run_runSet_of_error herror]

end ConfigAction

/-! ## All commands -/

/-- Commands that fail, and commands that only read, leave the file system as it was. A command about
a host that fails because its record could not be persisted leaves every file as it was, but one in
the place of the temporary file of the host may be gone. -/
theorem unchanged_unless_written (target : Target) (file : ConfigFile) (config : Config)
    (defaultDirectory : String) (fs : FileSystem) :
    (∀ command : HostCommand,
      let records := (target.directory.or config.directory).getD defaultDirectory
      let o := ((Command.host command).run target file config defaultDirectory).run fs
      (∀ error, o.value = .error error → (∀ store reason, error ≠ .persist store reason) →
        o.files = fs) ∧
      (command.IsReading → o.files = fs) ∧
      (config.backend = .memory → o.files = fs) ∧
      ∀ store reason, o.value = .error (.persist store reason) → ∀ l,
        o.files.fileAt? l = fs.fileAt? l ∨ ∃ host, target.host = some host ∧
          o.files.fileAt? l = none ∧
          o.files.place? (FileBackend.forHost records host).temporary = some l) ∧
    ∀ action, ConfigAction.IsIdle file config fs action →
      (((Command.config action).run target file config defaultDirectory).run fs).files = fs := by
  refine ⟨?_, fun action h => ConfigAction.files_run_of_isIdle h⟩
  intro command records o
  have hcareful := HostCommand.careful_run ⟨target, config, defaultDirectory⟩ command
  refine ⟨?_, ?_, ?_, ?_⟩
  · intro error herror hpersist
    have hharmless := hcareful.failed fs error herror
    cases error with
    | persist store reason => exact absurd rfl (hpersist store reason)
    | _ => exact hharmless
  · intro hreading
    exact ((HostCommand.reads_run hreading).run fs).2
  · intro hmemory
    exact hcareful.memory hmemory fs
  · intro store reason herror
    exact hcareful.failed fs _ herror

end HostRegistry
