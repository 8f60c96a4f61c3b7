import HostRegistry.Proofs.Command.Output
import HostRegistry.Proofs.Store.HostFile
import Mathlib.Data.List.Forall2

/-!
The commands about a host do to a directory of files what they say about a map of hosts.

A `Registry` is that map, and `Registry.reply` what a command answers over it. `Reflects` ties a file
system to a registry; one call keeps it and yields the reply, and so does every sequence of calls.
-/

set_option autoImplicit false

namespace HostRegistry

open FileSystem

/-! ## The map of hosts -/

/-- The records of all hosts, by name. -/
abbrev Registry : Type := SortedMap String Record

/-- What a command answers and puts out, and the registry after it. -/
structure Reply where
  value : Except Error Unit
  output : List Report
  registry : Registry

namespace Registry

open HostCommand

/-- A reply that starts from the record of a host, if there is one. -/
def replyFrom (g : Registry) (storeName host : String) (next : Record → Reply) : Reply :=
  match g.find? host with
  | some record => next record
  | none => ⟨.error (.notFound storeName), [], g⟩

/-- A reply that gives a host a record. -/
def replace (g : Registry) (host : String) (record : Record) (notices : List Notice) : Reply :=
  ⟨.ok (), notices.map .notice, g.insert host record⟩

/-- The reply to a command about a host, whose store goes by a name. -/
def reply (g : Registry) (storeName host : String) : HostCommand → Reply
  | .create labels attributes force =>
    if (g.find? host).isSome && !force then ⟨.error (.hostExists host), [], g⟩
    else g.replace host (Record.ofLists labels attributes)
      [.success ("Created host info for " ++ host) (some storeName)]
  | .show format => g.replyFrom storeName host fun record =>
    ⟨.ok (), showReports host record format, g⟩
  | .label action => g.replyFrom storeName host fun record =>
    match editLabels record action with
    | none => ⟨.ok (), readLabels record action, g⟩
    | some (edited, notices) =>
      g.replace host edited (notices ++ [.success (labelSummary edited) none])
  | .attribute action => g.replyFrom storeName host fun record =>
    match editAttributes record action with
    | none =>
      match readAttributes record action with
      | .error error => ⟨.error error, [], g⟩
      | .ok reports => ⟨.ok (), reports, g⟩
    | some (edited, notices) =>
      g.replace host edited (notices ++ [.success (attributeSummary edited) none])

end Registry

/-! ## Calls -/

/-- One call of a command about a host, with all that says where its record is. -/
structure HostCall where
  host : String
  directory : Option String
  config : Config
  defaultDirectory : String
  command : HostCommand

namespace HostCall

/-- Where the command finds the host. -/
def context (call : HostCall) : HostContext :=
  ⟨⟨some call.host, call.directory⟩, call.config, call.defaultDirectory⟩

/-- The script of the call. -/
def run (call : HostCall) : Script Report (Except Error Unit) := call.command.run call.context

/-- The directory of records that the call is about. -/
def records (call : HostCall) : String :=
  (call.directory.or call.config.directory).getD call.defaultDirectory

/-- The call is about a host whose file fits in a directory of records. -/
structure Fits (directory : String) (call : HostCall) : Prop where
  backend : call.config.backend = .file
  records : call.records = directory
  file : FileBackend.Fits directory call.host

/-- The name of the store of the host. -/
def storeName (call : HostCall) : String := (FileBackend.forHost call.records call.host).describe

/-- Calls one after the other, with what each leaves. -/
def runAll : FileSystem → List HostCall → List (Outcome Report (Except Error Unit))
  | _, [] => []
  | fs, call :: rest => call.run.run fs :: runAll (call.run.run fs).files rest

end HostCall

/-- The replies of a registry to calls one after the other. -/
def Registry.replyAll : Registry → List HostCall → List Reply
  | _, [] => []
  | g, call :: rest =>
    let reply := g.reply call.storeName call.host call.command
    reply :: replyAll reply.registry rest

/-! ## A directory of files and a map of hosts -/

/-- In a directory lies the stored document of every host of a registry, and nothing else. -/
def Contents (fs : FileSystem) (l : Location) (g : Registry) : Prop :=
  ∀ name e, fs.find? (l ++ [name]) = some e ↔ ∃ host record, g.find? host = some record ∧
    name = host ++ ".json" ∧ e = .file record.encode.toUTF8

/-- A directory that nobody used: there is nothing in it, or it is missing but can be made. -/
inductive Vacant (fs : FileSystem) (directory : String) : Prop where
  | empty (l : Location) :
    fs.hasDirectory (fs.start directory) = true → fs.locate directory = .ok l →
    fs.hasDirectory l = true → (∀ name, fs.find? (l ++ [name]) = none) → Vacant fs directory
  | absent :
    '\x00' ∉ directory.toList → directory.toList ≠ [] → fs.Makeable directory →
    fs.pathExists directory = false → Vacant fs directory

/-- The directory holds what the registry says, or there is no directory and no host. -/
inductive Reflects (directory : String) (fs : FileSystem) (g : Registry) : Prop where
  | absent :
    '\x00' ∉ directory.toList → directory.toList ≠ [] → fs.Makeable directory →
    fs.pathExists directory = false → g = ∅ → Reflects directory fs g
  | there (l : Location) :
    Passable directory → fs.Stands directory l → Contents fs l g → Reflects directory fs g

section Records

variable {directory host : String} {fs after : FileSystem} {g : Registry} {l : Location}

theorem find?_insert_iff {record r : Record} {other : String} :
    (g.insert host record).find? other = some r ↔
      other = host ∧ r = record ∨ other ≠ host ∧ g.find? other = some r := by
  rw [SortedMap.find?_insert]
  by_cases h : other = host
  · have hcompare : compare other host = .eq := Std.LawfulEqCmp.compare_eq_iff_eq.mpr h
    rw [if_pos hcompare, Option.some.injEq]
    simp only [h, true_and, ne_eq, not_true_eq_false, false_and, or_false, eq_comm]
  · have hcompare : ¬compare other host = .eq := fun heq => h (Std.LawfulEqCmp.compare_eq_iff_eq.mp heq)
    rw [if_neg hcompare]
    simp only [h, false_and, ne_eq, not_false_eq_true, true_and, false_or]

theorem Contents.empty (h : ∀ name, fs.find? (l ++ [name]) = none) : Contents fs l ∅ := by
  intro name e
  rw [h]
  constructor
  · intro hnone
    cases hnone
  · rintro ⟨host, record, hfound, -⟩
    cases hfound

/-- Only files lie in a directory of records. -/
theorem Contents.not_directory (h : Contents fs l g) (name : String) :
    fs.find? (l ++ [name]) ≠ some .directory := by
  intro hdir
  obtain ⟨host, record, -, -, hfile⟩ := (h name .directory).mp hdir
  cases hfile

theorem Contents.find?_of_some (h : Contents fs l g) {record : Record}
    (hfound : g.find? host = some record) :
    fs.find? (l ++ [host ++ ".json"]) = some (.file record.encode.toUTF8) :=
  (h _ _).mpr ⟨host, record, hfound, rfl, rfl⟩

theorem Contents.find?_of_none (h : Contents fs l g) (hfound : g.find? host = none) :
    fs.find? (l ++ [host ++ ".json"]) = none := by
  cases hfile : fs.find? (l ++ [host ++ ".json"]) with
  | none => rfl
  | some e =>
    obtain ⟨other, record, hother, hname, -⟩ := (h _ _).mp hfile
    rw [(String.append_left_inj _).mp hname, hother] at hfound
    cases hfound

/-- Storing the document of a host is giving the host its record. -/
theorem Contents.stored (h : Contents fs l g) {record : Record}
    (hstored : FileBackend.Stored l host record.encode fs after) :
    Contents after l (g.insert host record) := by
  intro name e
  have hinj : ∀ other, l ++ [name] = l ++ [other] ↔ name = other := by
    intro other
    rw [List.append_cancel_left_eq, List.cons.injEq]
    exact and_iff_left rfl
  simp only [hstored.find?, hinj, find?_insert_iff]
  by_cases htemporary : name = host ++ ".json.tmp"
  · rw [if_pos htemporary]
    constructor
    · intro hnone
      cases hnone
    · rintro ⟨other, r, -, hname, -⟩
      exact absurd (hname.symm.trans htemporary) (FileBackend.append_json_ne other host)
  rw [if_neg htemporary]
  by_cases hname : name = host ++ ".json"
  · rw [if_pos hname, Option.some.injEq]
    constructor
    · rintro rfl
      exact ⟨host, record, Or.inl ⟨rfl, rfl⟩, hname, rfl⟩
    · rintro ⟨other, r, ⟨-, rfl⟩ | ⟨hne, -⟩, hother, rfl⟩
      · rfl
      · exact absurd ((String.append_left_inj _).mp (hother.symm.trans hname)) hne
  rw [if_neg hname, h name e]
  constructor
  · rintro ⟨other, r, hfound, hother, he⟩
    refine ⟨other, r, Or.inr ⟨?_, hfound⟩, hother, he⟩
    rintro rfl
    exact hname hother
  · rintro ⟨other, r, ⟨rfl, -⟩ | ⟨-, hfound⟩, hother, he⟩
    · exact absurd hother hname
    · exact ⟨other, r, hfound, hother, he⟩

end Records

namespace Reflects

variable {directory host : String} {fs : FileSystem} {g : Registry}

theorem of_vacant (h : Vacant fs directory) : Reflects directory fs ∅ := by
  cases h with
  | absent hnul hne hmake hmissing => exact .absent hnul hne hmake hmissing rfl
  | empty l hstart hlocate hdir hempty =>
    have hpass := ((locate_directory_iff hdir).mp hlocate).1
    exact .there l hpass ⟨hstart, leads_of_locate hstart hdir hlocate⟩ (.empty hempty)

theorem noNul (h : Reflects directory fs g) : '\x00' ∉ directory.toList := by
  cases h with
  | absent hnul => exact hnul
  | there _ hpass => exact hpass.1

/-- A missing directory is missing at its place. -/
theorem find?_place_of_absent (hpass : Passable directory) (hmake : fs.Makeable directory)
    (hmissing : fs.pathExists directory = false) :
    fs.find? (fs.start directory ++ names directory) = none := by
  cases hfind : fs.find? (fs.start directory ++ names directory) with
  | none => rfl
  | some e =>
    have hclear := hmake.clear _ (List.prefix_refl _)
    cases e with
    | file content =>
      rw [fileAt?_eq_some.mpr hfind] at hclear
      cases hclear
    | directory =>
      have hthere := Files.isDirectory_of_makeable hmake hpass (hasDirectory_iff.mpr hfind)
      obtain ⟨l, hlocate, -⟩ := isDirectory_iff.mp hthere
      rw [pathExists, hlocate] at hmissing
      cases hmissing

theorem run_load (hfits : FileBackend.Fits directory host) (h : Reflects directory fs g) :
    let o := (FileBackend.forHost directory host).load.run fs
    o.files = fs ∧ o.value = match g.find? host with
      | some record => .ok record
      | none => .error (.notFound (FileBackend.forHost directory host).describe) := by
  intro o
  have hnul := h.noNul
  cases h with
  | absent _ hne hmake hmissing hg =>
    have hpass := FileBackend.passable_directory hfits hnul hne
    have hdir : fs.hasDirectory (fs.start directory ++ names directory) = false := by
      rw [← Bool.not_eq_true, hasDirectory_iff, find?_place_of_absent hpass hmake hmissing]
      simp
    have hwalk : fs.walk (fs.start directory) ((Path.solid directory).map Last.ofSegment) =
        .error .notFound := by
      rw [map_ofSegment_solid hmake.dots]
      exact walk_names_of_missing hmake.start hmake.short hmake.clear hdir
    have hrun := FileBackend.run_load_of_missing hfits hnul hmake.start hwalk
    subst hg
    exact ⟨congrArg Outcome.files hrun, congrArg Outcome.value hrun⟩
  | there l hpass hd hcontents =>
    cases hfound : g.find? host with
    | none =>
      have hrun := FileBackend.run_load_of_none hfits hnul hd (hcontents.find?_of_none hfound)
      exact ⟨congrArg Outcome.files hrun, congrArg Outcome.value hrun⟩
    | some record =>
      have hrun := FileBackend.run_load_of_file hfits hnul hd (hcontents.find?_of_some hfound)
      exact ⟨congrArg Outcome.files hrun, congrArg Outcome.value hrun⟩

theorem exists_run_persist (hfits : FileBackend.Fits directory host) (h : Reflects directory fs g)
    (record : Record) :
    let o := ((FileBackend.forHost directory host).persist record).run fs
    o.value = .ok () ∧ Reflects directory o.files (g.insert host record) := by
  have hnul := h.noNul
  cases h with
  | absent _ hne hmake hmissing hg =>
    have hpass := FileBackend.passable_directory hfits hnul hne
    have hplace := find?_place_of_absent hpass hmake hmissing
    obtain ⟨made, after, hvalue, hfiles, hd, hempty, hstored⟩ :=
      FileBackend.exists_run_persist_of_absent hfits hnul hmake hplace record
    have hkeeps := hstored.keeps (by rw [hempty]; simp) (by rw [hempty]; simp)
    subst hg hfiles
    exact ⟨hvalue, .there _ hpass (hd.keeps hkeeps) ((Contents.empty hempty).stored hstored)⟩
  | there l hpass hd hcontents =>
    obtain ⟨after, hvalue, hfiles, hstored⟩ := FileBackend.exists_run_persist_of_stands hfits hnul hd
      record (hcontents.not_directory _) (hcontents.not_directory _)
    have hkeeps := hstored.keeps (hcontents.not_directory _) (hcontents.not_directory _)
    subst hfiles
    exact ⟨hvalue, .there l hpass (hd.keeps hkeeps) (hcontents.stored hstored)⟩

end Reflects

/-! ## One call -/

section Call

variable {directory : String} {call : HostCall} {fs : FileSystem} {g : Registry}

theorem HostCall.storeName_eq (hfits : call.Fits directory) :
    call.storeName = (FileBackend.forHost directory call.host).describe := by
  rw [storeName, hfits.records]

theorem HostCall.Fits.hasFile (hfits : call.Fits directory) :
    call.context.HasFile directory call.host :=
  ⟨hfits.backend, rfl, hfits.file.isHostName, hfits.records⟩

/-- A command that starts from the record of its host goes on from there, or replies that there is
none. -/
theorem exists_yields_withRecord (hfits : call.Fits directory) (h : Reflects directory fs g)
    {next : HostReference → HostStore → Record → HostCommand.Result} {respond : Record → Reply}
    (hnext : ∀ record, ∃ after, Reflects directory after (respond record).registry ∧
      Yields (next (.withStore call.host (.ofBackend (.file (.forHost directory call.host))))
        ⟨.file (.forHost directory call.host), some record⟩ record) fs (respond record).value
        (respond record).output after) :
    let reply := g.replyFrom call.storeName call.host respond
    ∃ after, Reflects directory after reply.registry ∧
      Yields (HostCommand.withRecord call.context next) fs reply.value reply.output after := by
  intro reply
  obtain ⟨-, hload⟩ := h.run_load hfits.file
  cases hfound : g.find? call.host with
  | none =>
    have hreply : reply = ⟨.error (.notFound call.storeName), [], g⟩ := by
      simp only [reply, Registry.replyFrom, hfound]
    rw [hfound] at hload
    rw [hreply, HostCall.storeName_eq hfits]
    exact ⟨fs, h, yields_withRecord_of_error hfits.hasFile next hload⟩
  | some record =>
    have hreply : reply = respond record := by
      simp only [reply, Registry.replyFrom, hfound]
    obtain ⟨after, hreflects, hyields⟩ := hnext record
    rw [hfound] at hload
    rw [hreply]
    exact ⟨after, hreflects, yields_withRecord hfits.hasFile hload hyields⟩

/-- What the calls do that edit: the record of the host is replaced. -/
theorem exists_yields_finish (hfits : call.Fits directory) (h : Reflects directory fs g)
    (slot : Option Record) (record : Record) (notices : List Notice) (summary : String) :
    ∃ after, Reflects directory after (g.insert call.host record) ∧
      Yields (HostCommand.emitAll .notice notices >>= fun _ => HostCommand.finish true
          ⟨.file (.forHost directory call.host), slot⟩ record summary) fs
        (.ok ()) ((notices ++ [Notice.success summary none]).map .notice) after := by
  obtain ⟨hvalue, hreflects⟩ := h.exists_run_persist hfits.file record
  exact ⟨_, hreflects, yields_finish _ fs slot record hvalue notices summary⟩

theorem exists_yields_show (hfits : call.Fits directory) (h : Reflects directory fs g)
    (format : ShowFormat) :
    let reply := g.reply call.storeName call.host (.show format)
    ∃ after, Reflects directory after reply.registry ∧
      Yields (HostCommand.runShow call.context format) fs reply.value reply.output after :=
  exists_yields_withRecord hfits h fun record =>
    ⟨fs, h, .answer (HostCommand.showReports call.host record format) fs⟩

theorem exists_yields_label (hfits : call.Fits directory) (h : Reflects directory fs g)
    (action : LabelAction) :
    let reply := g.reply call.storeName call.host (.label action)
    ∃ after, Reflects directory after reply.registry ∧
      Yields (HostCommand.runLabel call.context action) fs reply.value reply.output after := by
  apply exists_yields_withRecord hfits h
  intro record
  cases HostCommand.editLabels record action with
  | none => exact ⟨fs, h, .answer (HostCommand.readLabels record action) fs⟩
  | some edit => exact exists_yields_finish hfits h (some record) edit.1 edit.2 _

theorem exists_yields_attribute (hfits : call.Fits directory) (h : Reflects directory fs g)
    (action : AttributeAction) :
    let reply := g.reply call.storeName call.host (.attribute action)
    ∃ after, Reflects directory after reply.registry ∧
      Yields (HostCommand.runAttribute call.context action) fs reply.value reply.output after := by
  apply exists_yields_withRecord hfits h
  intro record
  cases HostCommand.editAttributes record action with
  | none =>
    cases HostCommand.readAttributes record action with
    | error error => exact ⟨fs, h, .pure (Except.error error) fs⟩
    | ok reports => exact ⟨fs, h, .answer reports fs⟩
  | some edit => exact exists_yields_finish hfits h (some record) edit.1 edit.2 _

theorem exists_yields_create (hfits : call.Fits directory) (h : Reflects directory fs g)
    (labels : List String) (attributes : List (String × String)) (force : Bool) :
    let reply := g.reply call.storeName call.host (.create labels attributes force)
    ∃ after, Reflects directory after reply.registry ∧
      Yields (HostCommand.runCreate call.context labels attributes force) fs reply.value reply.output
        after := by
  let b := FileBackend.forHost directory call.host
  have hload := (h.run_load hfits.file).2
  rw [Registry.reply]
  split
  next htaken =>
    rw [Bool.and_eq_true, Bool.not_eq_true', Option.isSome_iff_exists] at htaken
    obtain ⟨⟨record, hfound⟩, rfl⟩ := htaken
    have hcheck := yields_checkVacant b fs call.host
    rw [hfound] at hload
    rw [hload] at hcheck
    exact ⟨fs, h, yields_runCreate_of_error hfits.hasFile labels attributes hcheck⟩
  next hfree =>
    have hvacant : force = true ∨ ∃ error, (b.load.run fs).value = .error error ∧
        error.isNotFound = true := by
      cases hfound : g.find? call.host with
      | none =>
        rw [hfound] at hload
        exact Or.inr ⟨_, hload, rfl⟩
      | some record =>
        rw [hfound, Option.isSome_some, Bool.true_and, Bool.not_eq_true', Bool.not_eq_false] at hfree
        exact Or.inl hfree
    obtain ⟨hvalue, hreflects⟩ := h.exists_run_persist hfits.file (Record.ofLists labels attributes)
    have henter := yields_enter b fs none (Record.ofLists labels attributes) call.host
    rw [hvalue, ← HostCall.storeName_eq hfits] at henter
    exact ⟨_, hreflects, yields_runCreate hfits.hasFile hvacant henter⟩

/-- One call keeps the directory and the registry together, and yields the reply. -/
theorem exists_yields_reply (hfits : call.Fits directory) (h : Reflects directory fs g) :
    let reply := g.reply call.storeName call.host call.command
    ∃ after, Reflects directory after reply.registry ∧
      Yields call.run fs reply.value reply.output after := by
  unfold HostCall.run
  cases call.command with
  | create labels attributes force => exact exists_yields_create hfits h labels attributes force
  | «show» format => exact exists_yields_show hfits h format
  | label action => exact exists_yields_label hfits h action
  | «attribute» action => exact exists_yields_attribute hfits h action

end Call

/-! ## All calls -/

/-- The directory of records holds one file for each host, with its stored document, and nothing
else; where there is no directory there is no host. -/
def Mirrors (directory : String) (fs : FileSystem) (g : Registry) : Prop :=
  fs.pathExists directory = false ∧ g = ∅ ∨
    ∃ l, fs.locate directory = .ok l ∧ fs.hasDirectory l = true ∧ Contents fs l g

theorem Reflects.mirrors {directory : String} {fs : FileSystem} {g : Registry}
    (h : Reflects directory fs g) : Mirrors directory fs g := by
  cases h with
  | absent _ _ _ hmissing hg => exact Or.inl ⟨hmissing, hg⟩
  | there l hpass hd hcontents =>
    exact Or.inr ⟨l, hd.leads.locate hd.start hpass, hd.hasDirectory, hcontents⟩

/-- A call on the file system did what the registry replies: it had the same success or error, it put
the same text on standard output, and left the directory as the registry says. -/
structure Agrees (directory : String) (o : Outcome Report (Except Error Unit)) (reply : Reply) :
    Prop where
  value : o.value = reply.value
  output : ∀ settings timestamp, Terminal.standardOutput settings timestamp o.reports =
    Terminal.standardOutput settings timestamp reply.output
  files : Mirrors directory o.files reply.registry

/-- A run keeps the directory and the registry together. The induction is on the calls, and
`Reflects` carries it. -/
theorem forall₂_agrees_of_reflects {directory : String} {calls : List HostCall}
    (hfits : ∀ call ∈ calls, call.Fits directory) {fs : FileSystem} {g : Registry}
    (h : Reflects directory fs g) :
    List.Forall₂ (Agrees directory) (HostCall.runAll fs calls) (g.replyAll calls) := by
  induction calls generalizing fs g with
  | nil => exact .nil
  | cons call rest ih =>
    obtain ⟨after, hreflects, hvalue, houtput, rfl⟩ :=
      exists_yields_reply (hfits call List.mem_cons_self) h
    have hagrees : Agrees directory (call.run.run fs)
        (g.reply call.storeName call.host call.command) := by
      refine ⟨hvalue, ?_, hreflects.mirrors⟩
      intro settings timestamp
      rw [← Terminal.standardOutput_visible, houtput, Terminal.standardOutput_visible]
    exact .cons hagrees (ih (fun c hc => hfits c (List.mem_cons_of_mem _ hc)) hreflects)

/-- Every sequence of calls about hosts, made in a directory that nobody used before, does on the
file system step by step what it does on an empty map of hosts. -/
theorem runAll_agrees_replyAll {directory : String} {fs : FileSystem} {calls : List HostCall}
    (hvacant : Vacant fs directory) (hfits : ∀ call ∈ calls, call.Fits directory) :
    List.Forall₂ (Agrees directory) (HostCall.runAll fs calls) (Registry.replyAll ∅ calls) :=
  forall₂_agrees_of_reflects hfits (.of_vacant hvacant)

theorem fileAt?_empty (l : Location) : FileSystem.empty.fileAt? l = none := by
  rw [fileAt?, FileSystem.find?]
  split
  next h =>
    split at h
    · cases h
    · cases h
  next => rfl

/-- Four calls about two hosts, in a directory that none of them finds made, with the record of the
first host after each and what each prints. -/
theorem runAll_agrees_replyAll_of_missing :
    let calls : List HostCall :=
      [⟨"h1", none, .default, "/var/hosts", .create ["board:eve"] [] false⟩,
        ⟨"h1", some "/var/hosts", .default, "/", .label (.set "board" "adam")⟩,
        ⟨"h2", none, .default, "/var/hosts", .show .plain⟩,
        ⟨"h1", none, .default, "/var/hosts", .create [] [] false⟩]
    Vacant .empty "/var/hosts" ∧ (∀ call ∈ calls, call.Fits "/var/hosts") ∧
      List.Forall₂ (Agrees "/var/hosts") (HostCall.runAll .empty calls)
        (Registry.replyAll ∅ calls) ∧
      (Registry.replyAll ∅ calls).map (·.registry.find? "h1") =
        [some ⟨["board:eve"], ∅⟩, some ⟨["board:adam"], ∅⟩, some ⟨["board:adam"], ∅⟩,
          some ⟨["board:adam"], ∅⟩] ∧
      (HostCall.runAll .empty calls).map
          (fun o => Terminal.standardOutput Terminal.quiet "" o.reports) =
        ["  [OK] Created host info for h1 (FileBackend(/var/hosts/h1.json))\n",
          "  [OK] Labels updated (1 total)\n", "", ""] := by
  intro calls
  have hmake : FileSystem.empty.Makeable "/var/hosts" :=
    ⟨by decide, by decide, by decide, fun l _ => fileAt?_empty l⟩
  have hvacant : Vacant .empty "/var/hosts" := .absent (by decide) (by decide) hmake (by decide)
  have hfits : ∀ call ∈ calls, call.Fits "/var/hosts" := by
    have hfile : ∀ host ∈ ["h1", "h2"], FileBackend.Fits "/var/hosts" host := by
      intro host hhost
      rcases List.mem_pair.mp hhost with rfl | rfl
      · exact ⟨by decide, by decide, by decide, by decide, by decide⟩
      · exact ⟨by decide, by decide, by decide, by decide, by decide⟩
    simp only [calls, List.forall_mem_cons]
    exact ⟨⟨rfl, rfl, hfile _ (by decide)⟩, ⟨rfl, rfl, hfile _ (by decide)⟩,
      ⟨rfl, rfl, hfile _ (by decide)⟩, ⟨rfl, rfl, hfile _ (by decide)⟩,
      fun _ h => absurd h List.not_mem_nil⟩
  have hagrees := runAll_agrees_replyAll hvacant hfits
  have hprinted : (HostCall.runAll .empty calls).map
        (fun o => Terminal.standardOutput Terminal.quiet "" o.reports) =
      (Registry.replyAll ∅ calls).map
        (fun reply => Terminal.standardOutput Terminal.quiet "" reply.output) := by
    rw [← List.forall₂_eq_eq_eq, List.forall₂_map_left_iff, List.forall₂_map_right_iff]
    exact hagrees.imp fun _ _ h => h.output Terminal.quiet ""
  refine ⟨hvacant, hfits, hagrees, by decide, ?_⟩
  rw [hprinted]
  decide

end HostRegistry
