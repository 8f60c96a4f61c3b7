import HostRegistry.Command.Host
import HostRegistry.Proofs.Reading
import HostRegistry.Proofs.Store.Run
import HostRegistry.Terminal.Render

/-!
What the commands about a host do, read off their scripts.

`Yields` says of a script all that counts: its value, its output and the files after it. Lines of the
log are no output. The steps that the commands are made of are here: finding the store of a host,
asking it and giving it a record.
-/

set_option autoImplicit false

namespace HostRegistry

/-- The reports that are output, without the lines of the log. -/
def visible (reports : List Report) : List Report := reports.filter (·.logLine?.isNone)

theorem visible_append (first rest : List Report) :
    visible (first ++ rest) = visible first ++ visible rest :=
  List.filter_append ..

theorem visible_eq_nil {reports : List Report} (h : ∀ r ∈ reports, r.logLine?.isSome) :
    visible reports = [] := by
  apply List.filter_eq_nil_iff.mpr
  intro r hr
  rw [Option.isNone_iff_eq_none, ← ne_eq, ← Option.isSome_iff_ne_none]
  exact h r hr

namespace Terminal

/-- What reports put on standard output. -/
def standardOutput (settings : Settings) (timestamp : String) (reports : List Report) : String :=
  String.join (reports.map fun report => (render settings timestamp report).output)

/-- What reports put on standard error. -/
def standardError (settings : Settings) (timestamp : String) (reports : List Report) : String :=
  String.join (reports.map fun report => (render settings timestamp report).errors)

/-- A line of the log is not on standard output. -/
theorem output_render_of_logLine {settings : Settings} {timestamp : String} {report : Report}
    {entry : LogLine} (h : report.logLine? = some entry) :
    (render settings timestamp report).output = "" := by
  have hentry : ∀ entry : LogLine, (if settings.shown entry.level then
      Streams.mk "" (logText settings.format timestamp entry) else .empty).output = "" := by
    intro entry
    split <;> rfl
  cases report with
  | notice notice => cases h
  | line text => cases h
  | store event => exact hentry _
  | usingFile path host => exact hentry _
  | usingMemory host => exact hentry _
  | vacant error => exact hentry _
  | configMissing => exact hentry _
  | configSaved path => exact hentry _

/-- Leaving the log out leaves standard output as it is. -/
theorem standardOutput_visible (settings : Settings) (timestamp : String) (reports : List Report) :
    standardOutput settings timestamp (visible reports) =
      standardOutput settings timestamp reports := by
  induction reports with
  | nil => rfl
  | cons report rest ih =>
    rw [standardOutput, standardOutput, visible] at ih
    rw [standardOutput, standardOutput, visible, List.map_cons, String.join_cons, ← ih]
    cases h : report.logLine? with
    | none => rw [List.filter_cons_of_pos (by rw [h]; rfl), List.map_cons, String.join_cons]
    | some entry =>
      rw [List.filter_cons_of_neg (by rw [h]; exact Bool.false_ne_true),
        output_render_of_logLine h, String.empty_append]

end Terminal

/-! ## What a script yields -/

/-- From `before` a script has this value, this output and leaves `after`. -/
structure Yields {α : Type} (x : Script Report α) (before : FileSystem) (value : α)
    (output : List Report) (after : FileSystem) : Prop where
  value : (x.run before).value = value
  output : visible (x.run before).reports = visible output
  files : (x.run before).files = after

namespace Yields

variable {α β : Type} {before middle after : FileSystem} {a : α} {b : β} {first rest : List Report}

theorem pure (a : α) (fs : FileSystem) : Yields (Pure.pure a) fs a [] fs := ⟨rfl, rfl, rfl⟩

theorem emit (report : Report) (fs : FileSystem) : Yields (.emit report) fs () [report] fs :=
  ⟨rfl, rfl, rfl⟩

theorem log {report : Report} {entry : LogLine} (h : report.logLine? = some entry)
    (fs : FileSystem) : Yields (.emit report) fs () [] fs :=
  ⟨rfl, List.filter_cons_of_neg (by rw [h]; exact Bool.false_ne_true), rfl⟩

theorem bind {x : Script Report α} {f : α → Script Report β} (hx : Yields x before a first middle)
    (hf : Yields (f a) middle b rest after) : Yields (x >>= f) before b (first ++ rest) after := by
  obtain ⟨rfl, hfirst, rfl⟩ := hx
  obtain ⟨hvalue, hrest, hfiles⟩ := hf
  rw [← hvalue, ← hfiles]
  refine ⟨?_, ?_, ?_⟩
  · rw [Script.run_bind]
  · rw [Script.run_bind, visible_append, visible_append, hfirst]
    exact congrArg _ hrest
  · rw [Script.run_bind]

/-- A script that only tells the log, followed by another one. -/
theorem silent_bind {x : Script Report α} {f : α → Script Report β} (hx : Yields x before a [] middle)
    (hf : Yields (f a) middle b rest after) : Yields (x >>= f) before b rest after :=
  hx.bind hf

/-- Work on a store is no output. -/
theorem store {x : Script (StoreEvent FileEvent) α} (fs : FileSystem) :
    Yields (x.mapReports .store) fs (x.run fs).value [] (x.run fs).files := by
  refine ⟨?_, ?_, ?_⟩
  · rw [Script.run_mapReports]
  · rw [Script.run_mapReports]
    apply visible_eq_nil
    intro r hr
    obtain ⟨event, -, rfl⟩ := List.mem_map.mp hr
    rfl
  · rw [Script.run_mapReports]

theorem emitAll {ι : Type} (report : ι → Report) (items : List ι) (fs : FileSystem) :
    Yields (HostCommand.emitAll report items) fs () (items.map report) fs := by
  induction items with
  | nil => exact .pure () fs
  | cons item items ih => exact (Yields.emit (report item) fs).bind ih

/-- A command that only puts something out. -/
theorem answer (reports : List Report) (fs : FileSystem) :
    Yields (do HostCommand.emitAll id reports; return .ok () : HostCommand.Result) fs (.ok ()) reports
      fs := by
  have hall : Yields (do HostCommand.emitAll id reports; return .ok () : HostCommand.Result) fs
      (.ok ()) (reports.map id ++ []) fs := (emitAll id reports fs).bind (.pure _ fs)
  rwa [List.map_id, List.append_nil] at hall

end Yields

/-! ## Creating in two parts -/

/-- Giving a host its first record. -/
def enter (host : String) (record : Record) (store : HostStore) : HostCommand.Result := do
  match ← (store.commit record).mapReports .store with
  | (.error error, _) => return .error error
  | (.ok _, store) =>
    HostCommand.tell (.success ("Created host info for " ++ host) (some store.describe))
    return .ok ()

/-- `create` is a check, if there is anything to check, with the entering after it. -/
theorem runCreate_eq (context : HostContext) (labels : List String)
    (attributes : List (String × String)) (force : Bool) :
    HostCommand.runCreate context labels attributes force =
      context.target.reference context.config context.defaultDirectory >>= fun
        | .error error => pure (.error error)
        | .ok reference => reference.resolve >>= fun store =>
          (if reference.hasStore && !force then HostCommand.checkVacant reference.host store
            else pure (.ok store)) >>= fun
            | .error error => pure (.error error)
            | .ok store => enter reference.host (Record.ofLists labels attributes) store := by
  unfold HostCommand.runCreate
  congr 1
  funext found
  cases found with
  | error error => rfl
  | ok reference =>
    dsimp only
    congr 1
    funext store
    split <;> rfl

/-! ## The store of a host -/

theorem FileBackend.reads_load (b : FileBackend) : b.load.Reads fun _ => True := by
  apply Script.Reads.bind (Files.reads_readText b.path)
  intro answer _
  split
  · exact .pure trivial
  · exact .pure trivial
  · split
    · exact .pure trivial
    · exact .bind (.emit _) fun _ _ => .pure trivial

section Stores

variable (b : FileBackend) (fs : FileSystem)

theorem run_load_file : (Backend.load (HostBackend.file b)).run fs =
    ⟨((b.load.run fs).value, .file b), (b.load.run fs).reports, (b.load.run fs).files⟩ := by
  show ((b.load >>= fun answer => pure (answer, b)) >>= fun o => pure (o.1, HostBackend.file o.2) :
    Script FileEvent _).run fs = _
  simp only [Script.run_bind, Script.run_pure, List.append_nil]

theorem run_persist_file (record : Record) : (Backend.persist record (HostBackend.file b)).run fs =
    ⟨(((b.persist record).run fs).value, .file b), ((b.persist record).run fs).reports,
      ((b.persist record).run fs).files⟩ := by
  show ((b.persist record >>= fun answer => pure (answer, b)) >>= fun o =>
    pure (o.1, HostBackend.file o.2) : Script FileEvent _).run fs = _
  simp only [Script.run_bind, Script.run_pure, List.append_nil]

/-- A new store asks its file. -/
theorem yields_get (force : Bool) :
    Yields (((Store.ofBackend (HostBackend.file b)).get force).mapReports .store) fs
      ((b.load.run fs).value, ⟨.file b, (b.load.run fs).value.toOption⟩) [] fs := by
  have hrun := Store.run_refresh (Store.ofBackend (HostBackend.file b)) fs
  rw [show Backend.load (Store.ofBackend (HostBackend.file b)).backend =
    Backend.load (HostBackend.file b) from rfl, run_load_file] at hrun
  have hyields := @Yields.store _ (Store.ofBackend (HostBackend.file b)).refresh fs
  rw [hrun] at hyields
  have hslot : ∀ answer : Except Error Record,
      Store.afterCall id answer (HostBackend.file b) = ⟨.file b, answer.toOption⟩ := by
    intro answer
    rw [Store.afterCall, Option.map_id_apply]
  rw [(b.reads_load.run fs).2] at hyields
  rw [Store.get_eq_refresh (Or.inr rfl), ← hslot]
  exact hyields

/-- A store gives a record to its file. -/
theorem yields_commit (slot : Option Record) (record : Record) :
    Yields ((Store.commit record ⟨HostBackend.file b, slot⟩).mapReports .store) fs
      (((b.persist record).run fs).value,
        ⟨.file b, ((b.persist record).run fs).value.toOption.map fun _ => record⟩) []
      ((b.persist record).run fs).files := by
  have hrun := Store.run_commit record (Store.mk (HostBackend.file b) slot) fs
  rw [run_persist_file] at hrun
  have hyields := @Yields.store _ (Store.commit record ⟨HostBackend.file b, slot⟩) fs
  rw [hrun] at hyields
  exact hyields

/-- What the check before a creation answers is told by what a load answers. -/
theorem yields_checkVacant (host : String) :
    Yields (HostCommand.checkVacant host (.ofBackend (.file b))) fs
      (match (b.load.run fs).value with
      | .ok _ => .error (.hostExists host)
      | .error error => if error.isNotFound then .ok (.ofBackend (.file b)) else .error error) []
      fs := by
  have hget := yields_get b fs true
  cases hload : (b.load.run fs).value with
  | ok record =>
    rw [hload] at hget
    exact hget.silent_bind (.pure _ fs)
  | error error =>
    rw [hload] at hget
    refine hget.silent_bind ?_
    dsimp only
    split
    next =>
      have hlog : Yields (.emit (.vacant error)) fs () [] fs := .log rfl fs
      exact hlog.silent_bind (.pure _ fs)
    next => exact .pure _ fs

end Stores

/-! ## Commands about a host with a file -/

/-- Records are kept in files, and the context is about a host whose name is accepted; its file is in
the directory. -/
structure HostContext.HasFile (context : HostContext) (directory host : String) : Prop where
  backend : context.config.backend = .file
  named : context.target.host = some host
  accepted : isHostName host = true
  records : (context.target.directory.or context.config.directory).getD context.defaultDirectory =
    directory

section HasFile

variable {context : HostContext} {directory host : String} {fs after : FileSystem}
  {value : Except Error Unit} {output : List Report}

/-- The host comes with the store of its file. -/
theorem yields_reference (h : context.HasFile directory host) (fs : FileSystem) :
    Yields (context.target.reference context.config context.defaultDirectory) fs
      (.ok (.withStore host (.ofBackend (.file (.forHost directory host))))) [] fs := by
  simp only [Target.reference, h.named, h.accepted, if_true, HostReference.ofConfig, h.backend,
    h.records]
  have hlog : Yields (.emit (.usingFile (FileBackend.forHost directory host).path host)) fs () [] fs :=
    .log rfl fs
  let reference : HostReference := .withStore host (.ofBackend (.file (.forHost directory host)))
  have hfound : Yields (do
      .emit (.usingFile (FileBackend.forHost directory host).path host)
      return reference : Script Report HostReference) fs reference [] fs :=
    hlog.silent_bind (.pure _ fs)
  exact hfound.silent_bind (.pure _ fs)

/-- A command that starts from the record of its host goes on from the record that is loaded. -/
theorem yields_withRecord (h : context.HasFile directory host) {record : Record}
    {next : HostReference → HostStore → Record → HostCommand.Result}
    (hload : ((FileBackend.forHost directory host).load.run fs).value = .ok record)
    (hnext : Yields (next (.withStore host (.ofBackend (.file (.forHost directory host))))
      ⟨.file (.forHost directory host), some record⟩ record) fs value output after) :
    Yields (HostCommand.withRecord context next) fs value output after := by
  have hget := yields_get (.forHost directory host) fs false
  rw [hload] at hget
  exact (yields_reference h fs).silent_bind
    ((Yields.pure _ fs).silent_bind (hget.silent_bind hnext))

/-- A command that starts from the record of its host fails as the load does. -/
theorem yields_withRecord_of_error (h : context.HasFile directory host) {error : Error}
    (next : HostReference → HostStore → Record → HostCommand.Result)
    (hload : ((FileBackend.forHost directory host).load.run fs).value = .error error) :
    Yields (HostCommand.withRecord context next) fs (.error error) [] fs := by
  have hget := yields_get (.forHost directory host) fs false
  rw [hload] at hget
  exact (yields_reference h fs).silent_bind
    ((Yields.pure _ fs).silent_bind (hget.silent_bind (.pure _ fs)))

/-- A creation that is forced, or for a host without a record, gives the host its new record. -/
theorem yields_runCreate (h : context.HasFile directory host) {labels : List String}
    {attributes : List (String × String)} {force : Bool}
    (hfree : force = true ∨ ∃ error, ((FileBackend.forHost directory host).load.run fs).value =
      .error error ∧ error.isNotFound = true)
    (henter : Yields (enter host (.ofLists labels attributes)
      (.ofBackend (.file (.forHost directory host)))) fs value output after) :
    Yields (HostCommand.runCreate context labels attributes force) fs value output after := by
  let store : HostStore := .ofBackend (.file (.forHost directory host))
  have hchecked : Yields
      (if true && !force then HostCommand.checkVacant host store else pure (.ok store)) fs (.ok store)
      [] fs := by
    cases force with
    | true => exact .pure _ fs
    | false =>
      obtain hforce | ⟨error, hload, hmissing⟩ := hfree
      · cases hforce
      have hcheck := yields_checkVacant (.forHost directory host) fs host
      simp only [hload, if_pos hmissing] at hcheck
      exact hcheck
  rw [runCreate_eq]
  exact (yields_reference h fs).silent_bind
    ((Yields.pure _ fs).silent_bind (hchecked.silent_bind henter))

/-- A creation fails as the check before it does. -/
theorem yields_runCreate_of_error (h : context.HasFile directory host) (labels : List String)
    (attributes : List (String × String)) {error : Error}
    (hcheck : Yields (HostCommand.checkVacant host (.ofBackend (.file (.forHost directory host)))) fs
      (.error error) [] fs) :
    Yields (HostCommand.runCreate context labels attributes false) fs (.error error) [] fs := by
  rw [runCreate_eq]
  exact (yields_reference h fs).silent_bind
    ((Yields.pure _ fs).silent_bind (hcheck.silent_bind (.pure _ fs)))

end HasFile

section Writing

variable (b : FileBackend) (fs : FileSystem) (slot : Option Record) (record : Record)

/-- An edited record that is persisted is told about, after the arguments that changed nothing. -/
theorem yields_finish (hpersist : ((b.persist record).run fs).value = .ok ()) (notices : List Notice)
    (summary : String) :
    Yields (HostCommand.emitAll .notice notices >>= fun _ =>
        HostCommand.finish true ⟨.file b, slot⟩ record summary) fs
      (.ok ()) ((notices ++ [Notice.success summary none]).map .notice)
      ((b.persist record).run fs).files := by
  have hcommit := yields_commit b fs slot record
  rw [hpersist] at hcommit
  rw [List.map_append]
  refine (Yields.emitAll _ notices fs).bind ?_
  exact hcommit.silent_bind ((Yields.emit _ _).bind (.pure _ _))

/-- A new record is told about if it is persisted, and else the entering fails as the backend
does. -/
theorem yields_enter (host : String) :
    Yields (enter host record ⟨.file b, slot⟩) fs ((b.persist record).run fs).value
      (match ((b.persist record).run fs).value with
      | .ok _ => [.notice (.success ("Created host info for " ++ host) (some b.describe))]
      | .error _ => [])
      ((b.persist record).run fs).files := by
  have hcommit := yields_commit b fs slot record
  cases hvalue : ((b.persist record).run fs).value with
  | ok _ =>
    rw [hvalue] at hcommit
    exact hcommit.silent_bind ((Yields.emit _ _).bind (.pure _ _))
  | error error =>
    rw [hvalue] at hcommit
    exact hcommit.silent_bind (.pure _ _)

end Writing

end HostRegistry
