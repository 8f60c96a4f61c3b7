import HostRegistry.Proofs.Command.Edited
import HostRegistry.Proofs.Store.Overwrite

/-!
What `create` does with a host that may have a record.

A load decides first: a host with a record, or with one that cannot be read, is refused and left
alone. A host without a record gets the new one, and so does every host if the creation is forced;
then no file is read, so the outcome does not depend on what the file held.
-/

set_option autoImplicit false

namespace HostRegistry

/-! ## Without a look into files -/

theorem Store.blind_commit {σ ε : Type} [Backend σ ε] {record : Record} {s : Store σ}
    (h : (Backend.persist record s.backend).Blind) : (s.commit record).Blind := by
  apply (Script.Blind.emit _).bind
  intro _
  apply (h.mapReports _).bind
  rintro ⟨answer, backend⟩
  cases answer with
  | ok _ => exact (Script.Blind.emit _).bind fun _ => .pure _
  | error error => exact (Script.Blind.emit _).bind fun _ => .pure _

theorem HostBackend.blind_persist (record : Record) (b : HostBackend) :
    (Backend.persist record b).Blind := by
  cases b with
  | file b =>
    have hpersist : (Backend.persist record b).Blind := (b.blind_persist record).bind fun _ => .pure _
    exact hpersist.bind fun _ => .pure _
  | memory b =>
    have hpersist : (Backend.persist record b).Blind := .pure _
    exact (hpersist.mapReports _).bind fun _ => .pure _

theorem HostReference.blind_resolve (reference : HostReference) : reference.resolve.Blind := by
  cases reference with
  | withStore host store => exact .pure _
  | bare host => exact (Script.Blind.emit _).bind fun _ => .pure _

theorem Target.blind_reference (target : Target) (config : Config) (defaultDirectory : String) :
    (target.reference config defaultDirectory).Blind := by
  unfold Target.reference
  split
  · exact .pure _
  split
  · refine Script.Blind.bind ?_ fun _ => .pure _
    unfold HostReference.ofConfig
    split
    · exact (Script.Blind.emit _).bind fun _ => .pure _
    · exact .pure _
  · exact .pure _

theorem blind_enter (host : String) (record : Record) (store : HostStore) :
    (enter host record store).Blind := by
  apply ((Store.blind_commit (HostBackend.blind_persist record store.backend)).mapReports _).bind
  rintro ⟨answer, store⟩
  cases answer with
  | ok _ => exact (Script.Blind.emit _).bind fun _ => .pure _
  | error error => exact .pure _

/-- A forced creation reads no file. -/
theorem blind_runCreate (context : HostContext) (labels : List String)
    (attributes : List (String × String)) :
    (HostCommand.runCreate context labels attributes true).Blind := by
  rw [runCreate_eq]
  apply (Target.blind_reference _ _ _).bind
  intro found
  cases found with
  | error error => exact .pure _
  | ok reference =>
    apply reference.blind_resolve.bind
    intro store
    simp only [Bool.not_true, Bool.and_false]
    exact blind_enter _ _ _

/-! ## Creating -/

/-- The record of a new host has each given label once, in the order in which they were given first,
and under each given key the value that was given last. -/
theorem Record.labels_and_find?_ofLists (labels : List String)
    (attributes : List (String × String)) :
    (Record.ofLists labels attributes).labels = labels.eraseDups ∧
      ∀ key, (Record.ofLists labels attributes).attributes.find? key =
        attributes.reverse.lookup key := by
  rw [Record.ofLists_eq]
  refine ⟨rfl, fun key => ?_⟩
  rw [SortedMap.find?_ofList, SortedMap.lookup_eq]

section HasFile

variable {context : HostContext} {directory host : String} (h : context.HasFile directory host)
  (labels : List String) (attributes : List (String × String)) (fs : FileSystem)
include h

/-- A creation whose check fails does nothing else. -/
theorem run_create_of_error {error : Error}
    (hcheck : Yields (HostCommand.checkVacant host (.ofBackend (.file (.forHost directory host)))) fs
      (.error error) [] fs) :
    let o := (HostCommand.run context (.create labels attributes false)).run fs
    o.value = .error error ∧ o.files = fs := by
  have hcreate := yields_runCreate_of_error h labels attributes hcheck
  exact ⟨hcreate.value, hcreate.files⟩

/-- A creation that nothing hinders does what persisting its record does. -/
theorem run_create {force : Bool}
    (hfree : force = true ∨ ∃ error, ((FileBackend.forHost directory host).load.run fs).value =
      .error error ∧ error.isNotFound = true) :
    let o := (HostCommand.run context (.create labels attributes force)).run fs
    let call := ((FileBackend.forHost directory host).persist (.ofLists labels attributes)).run fs
    o.value = call.value ∧ o.files = call.files := by
  have henter := yields_enter (.forHost directory host) fs none (.ofLists labels attributes) host
  have hcreate := yields_runCreate h hfree henter
  exact ⟨hcreate.value, hcreate.files⟩

/-- A forced creation does and leaves the same whatever the file of the host held. -/
theorem run_create_of_force {fs' : FileSystem} {l : Location} {old new : ByteArray}
    (hplace : fs.place? (FileBackend.forHost directory host).path = some l)
    (hold : fs.find? l = some (.file old))
    (hnew : FileSystem.ChangedAt l (some (.file new)) fs fs') :
    let create := (HostCommand.run context (.create labels attributes true)).run
    (create fs').value = (create fs).value ∧ (create fs').reports = (create fs).reports ∧
      ((create fs).value = .ok () → (create fs').files = (create fs).files) := by
  intro create
  obtain ⟨hvalue, hreports, -⟩ := (blind_runCreate context labels attributes).run (hnew.sameShape hold)
  refine ⟨hvalue, hreports, ?_⟩
  intro hok
  have hcall := fun fs => run_create h labels attributes fs (Or.inl (Eq.refl true))
  simp only [create, hcall] at hok ⊢
  exact FileBackend.files_persist_eq hplace hold hnew hok

end HasFile

/-- Without force no host loses its record: one that has a record, or a record that cannot be loaded,
is refused and nothing is touched. A creation that is forced, or finds no record, succeeds just when
the new record can be persisted, and that record is loaded then. A forced one does and leaves the same
whatever the file of the host held. -/
theorem create_refuses_or_replaces {context : HostContext} {directory host : String}
    (h : context.HasFile directory host) (labels : List String) (attributes : List (String × String))
    (fs : FileSystem) :
    let b := FileBackend.forHost directory host
    let loaded := (b.load.run fs).value
    let create := fun force => (HostCommand.run context (.create labels attributes force)).run
    (∀ record, loaded = .ok record →
      (create false fs).value = .error (.hostExists host) ∧ (create false fs).files = fs) ∧
    (∀ error, loaded = .error error → error.isNotFound = false →
      (create false fs).value = .error error ∧ (create false fs).files = fs) ∧
    (∃ record : Record, record.labels = labels.eraseDups ∧
      (∀ key, record.attributes.find? key = attributes.reverse.lookup key) ∧
      ∀ force, (force = true ∨ ∃ error, loaded = .error error ∧ error.isNotFound = true) →
        (create force fs).value = ((b.persist record).run fs).value ∧
        ((create force fs).value = .ok () →
          (b.load.run (create force fs).files).value = .ok record)) ∧
    ∀ fs' l old new, fs.place? b.path = some l → fs.find? l = some (.file old) →
      FileSystem.ChangedAt l (some (.file new)) fs fs' →
      (create true fs').value = (create true fs).value ∧
      (create true fs').reports = (create true fs).reports ∧
      ((create true fs).value = .ok () → (create true fs').files = (create true fs).files) := by
  intro b loaded create
  have hcheck := yields_checkVacant b fs host
  refine ⟨?_, ?_, ?_, ?_⟩
  · intro record hload
    simp only [loaded] at hload
    rw [hload] at hcheck
    exact run_create_of_error h labels attributes fs hcheck
  · intro error hload hother
    simp only [loaded] at hload
    simp only [hload, hother] at hcheck
    exact run_create_of_error h labels attributes fs hcheck
  · obtain ⟨hlabels, hattributes⟩ := Record.labels_and_find?_ofLists labels attributes
    refine ⟨_, hlabels, hattributes, ?_⟩
    intro force hfree
    obtain ⟨hvalue, hfiles⟩ := run_create h labels attributes fs hfree
    refine ⟨hvalue, ?_⟩
    intro hok
    simp only [create, hfiles]
    exact FileBackend.value_load_of_persist (hvalue.symm.trans hok)
  · intro fs' l old new hplace hold hnew
    exact run_create_of_force h labels attributes fs hplace hold hnew

/-- A host with a record keeps it without force and gets the new one with force, and other bytes in
its file make no difference to that. -/
theorem create_refuses_or_replaces_of_record :
    let context : HostContext := ⟨⟨some "h1", none⟩, .default, "/var/hosts"⟩
    let b := FileBackend.forHost "/var/hosts" "h1"
    let fs := ((b.persist ⟨["board:eve"], ∅⟩).run .empty).files
    let create := fun force => (HostCommand.run context
      (.create ["os:cros", "os:cros"] [("rack", "r1"), ("rack", "r2")] force)).run
    context.HasFile "/var/hosts" "h1" ∧
      (create false fs).value = .error (.hostExists "h1") ∧ (create false fs).files = fs ∧
      (create true fs).value = .ok () ∧
      (b.load.run (create true fs).files).value = .ok ⟨["os:cros"], .ofList [("rack", "r2")]⟩ ∧
      ∃ l old, fs.place? b.path = some l ∧ fs.find? l = some (.file old) ∧
        ∀ new fs', FileSystem.ChangedAt l (some (.file new)) fs fs' →
          (create true fs').value = .ok () ∧ (create true fs').files = (create true fs).files := by
  intro context b fs create
  have hfile : context.HasFile "/var/hosts" "h1" := ⟨rfl, rfl, by decide, rfl⟩
  obtain ⟨hvalue, hreflects⟩ :=
    (Reflects.of_vacant vacant_empty).exists_run_persist fits_h1 ⟨["board:eve"], ∅⟩
  have hload : (b.load.run fs).value = .ok ⟨["board:eve"], ∅⟩ :=
    FileBackend.value_load_of_persist hvalue
  obtain ⟨hrefuses, -, ⟨record, hlabels, hattributes, hreplaces⟩, hblind⟩ :=
    create_refuses_or_replaces hfile ["os:cros", "os:cros"] [("rack", "r1"), ("rack", "r2")] fs
  have hrecord : record = ⟨["os:cros"], .ofList [("rack", "r2")]⟩ := by
    have hentries : record.attributes = .ofList [("rack", "r1"), ("rack", "r2")] :=
      SortedMap.eq_ofList_iff.mpr fun key => (hattributes key).trans (SortedMap.lookup_eq key _).symm
    cases record
    rw [Record.mk.injEq]
    exact ⟨hlabels, hentries⟩
  obtain ⟨hpersists, hloads⟩ := hreplaces true (Or.inl rfl)
  have hok := hpersists.trans (hreflects.exists_run_persist fits_h1 record).1
  refine ⟨hfile, (hrefuses _ hload).1, (hrefuses _ hload).2, hok, ?_, ?_⟩
  · rw [← hrecord]
    exact hloads hok
  · obtain ⟨l, hplace, hold⟩ := FileBackend.exists_place?_of_persist hvalue
    refine ⟨l, _, hplace, hold, ?_⟩
    intro new fs' hnew
    obtain ⟨hsame, -, hfiles⟩ := hblind fs' l _ new hplace hold hnew
    exact ⟨hsame.trans hok, hfiles hok⟩

end HostRegistry
