import HostRegistry.Proofs.Store.Coherence
import HostRegistry.Proofs.Store.Neighbours
import Mathlib.Logic.Function.Basic

/-!
Several stores over the files of one directory, each with a slot of its own.

In a `Sharing` any number of stores take turns at gets and commits; some may be for the same host.
What a forced get answers depends on the files alone, and these on the commits that succeeded: a get
changes no file, and a commit no file that another host is loaded from, nor any that is loaded if it
fails. What a slot holds depends on the calls of its own store alone.
-/

set_option autoImplicit false

namespace HostRegistry

open FileSystem

/-- What is done with one of the stores. -/
inductive Act where
  | get (force : Bool)
  | commit (record : Record)

/-- Stores over the same files, and the steps that were taken with them so far. -/
structure Sharing (ι ε : Type) where
  stores : ι → Store FileBackend
  files : FileSystem
  steps : List (ι × Step ε)

namespace Sharing

variable {ι ε : Type}

/-- New stores for hosts in a directory. -/
def ofHosts (directory : String) (hosts : ι → String) (fs : FileSystem) : Sharing ι ε :=
  ⟨fun i => .ofBackend (.forHost directory (hosts i)), fs, []⟩

/-- What a forced get of a store answers. -/
def forced (s : Sharing ι ε) (i : ι) : Except Error Record :=
  (((s.stores i).get true).run s.files).value.1

/-- The record of the last commit that succeeded with any store for a host. -/
def lastCommit (hosts : ι → String) (host : String) (s : Sharing ι ε) : Option Record :=
  (s.steps.filterMap fun (i, step) =>
    if hosts i = host then step.deed.committed? else none).getLast?

/-- The sharing without the watch. -/
def unwatched (s : Sharing ι (Watched ε)) : Sharing ι ε :=
  { s with steps := s.steps.map fun (i, step) =>
      (i, { step with events := step.events.filterMap StoreEvent.unwatched? }) }

variable [DecidableEq ι]

/-- The calls that a store made of its backend. -/
def callsOf (i : ι) (s : Sharing ι (Watched ε)) : List Call :=
  s.steps.flatMap fun (j, step) => if j = i then step.calls else []

/-- The sharing after one of its stores did something, with this outcome. -/
def take {α : Type} (s : Sharing ι ε) (i : ι) (deed : α → Deed)
    (o : Outcome (StoreEvent ε) (α × Store FileBackend)) : Sharing ι ε where
  stores := Function.update s.stores i o.value.2
  files := o.files
  steps := s.steps ++ [(i, ⟨deed o.value.1, (s.stores i).slot, o.value.2.slot, o.reports⟩)]

/-- One store takes a step. -/
def act (B : Backend FileBackend ε) (s : Sharing ι ε) (i : ι) : Act → Sharing ι ε
  | .get force => s.take i (.get force) (((s.stores i).get force).run s.files)
  | .commit record => s.take i (.commit record) (((s.stores i).commit record).run s.files)

/-- The stores take turns. A turn is played as a whole before the next one starts, so two commits
never have the temporary file of a host at the same time. -/
def play (B : Backend FileBackend ε) (s : Sharing ι ε) (turns : List (ι × Act)) : Sharing ι ε :=
  turns.foldl (fun s turn => s.act B turn.1 turn.2) s

end Sharing

/-! ## One store -/

namespace Store

variable (s : Store FileBackend) (fs : FileSystem)

/-- A refresh loads the file and changes none. -/
theorem run_refresh_file :
    (s.refresh.run fs).value.1 = s.backend.loadAnswer (fs.readFile s.backend.path) ∧
    (s.refresh.run fs).value.2.backend = s.backend ∧ (s.refresh.run fs).files = fs := by
  obtain ⟨hvalue, hfiles⟩ := s.backend.run_load fs
  have hload : Backend.load s.backend = s.backend.load >>= fun answer => pure (answer, s.backend) :=
    rfl
  rw [run_refresh, hload, Script.run_bind]
  exact ⟨hvalue, rfl, hfiles⟩

/-- A get keeps the backend and the files. -/
theorem run_get_file (force : Bool) :
    ((s.get force).run fs).value.2.backend = s.backend ∧ ((s.get force).run fs).files = fs := by
  cases force with
  | true => exact (s.run_refresh_file fs).2
  | false =>
    cases hslot : s.slot with
    | none =>
      rw [get_eq_refresh (Or.inr hslot)]
      exact (s.run_refresh_file fs).2
    | some record =>
      rw [run_get_of_slot hslot]
      exact ⟨rfl, rfl⟩

/-- A commit persists the record and keeps the backend. -/
theorem run_commit_file (record : Record) :
    ((s.commit record).run fs).value.1 = ((s.backend.persist record).run fs).value ∧
    ((s.commit record).run fs).value.2.backend = s.backend ∧
    ((s.commit record).run fs).files = ((s.backend.persist record).run fs).files := by
  have hpersist : Backend.persist record s.backend =
      s.backend.persist record >>= fun answer => pure (answer, s.backend) :=
    rfl
  rw [run_commit, hpersist, Script.run_bind]
  exact ⟨rfl, rfl, rfl⟩

end Store

/-- The file backend with its calls shown. -/
@[reducible]
def FileBackend.watched : Backend FileBackend (Watched FileEvent) := Backend.watched inferInstance

theorem FileBackend.worksAs_watched :
    WorksAs watched (inferInstance : Backend FileBackend FileEvent) :=
  Backend.worksAs_watched _

namespace Sharing

variable {ι ε : Type} {s : Sharing ι (Watched FileEvent)} {i j : ι} {directory host : String}
  {hosts : ι → String} {fs : FileSystem}

/-- A forced get answers what loading the file answers. -/
theorem forced_eq (s : Sharing ι ε) (i : ι) :
    s.forced i = (s.stores i).backend.loadAnswer (s.files.readFile (s.stores i).backend.path) :=
  ((s.stores i).run_refresh_file s.files).1

variable [DecidableEq ι]

/-! ## One step -/

/-- What an act does: its store takes a step and keeps its backend, and its slot is what the calls
of the step leave. A get leaves the files alone, a commit persists its record. -/
structure Acted (s : Sharing ι (Watched FileEvent)) (i : ι) (a : Act) (store : Store FileBackend)
    (step : Step (Watched FileEvent)) (after : Sharing ι (Watched FileEvent)) : Prop where
  stores : after.stores = Function.update s.stores i store
  steps : after.steps = s.steps ++ [(i, step)]
  backend : store.backend = (s.stores i).backend
  slot : store.slot = slotAfter (s.stores i).slot step.calls
  files : match a with
    | .get force => (∃ answer, step.deed = .get force answer) ∧ after.files = s.files
    | .commit record =>
      let o := ((s.stores i).backend.persist record).run s.files
      step.deed = .commit record o.value ∧ after.files = o.files

theorem exists_acted (s : Sharing ι (Watched FileEvent)) (i : ι) (a : Act) :
    ∃ store step, Acted s i a store step (s.act FileBackend.watched i a) := by
  have hshows : ShowsCalls FileBackend.watched := Backend.showsCalls_watched _
  let _ := FileBackend.watched
  cases a with
  | get force =>
    have hrun := FileBackend.worksAs_watched.run_get force (s.stores i) s.files
    have hslot := (s.stores i).slot_get s.files hshows force
    obtain ⟨hbackend, hfiles⟩ := (s.stores i).run_get_file s.files force
    rw [← hrun, Outcome.value_unwatched] at hbackend
    rw [← hrun, Outcome.files_unwatched] at hfiles
    rw [act]
    generalize ((s.stores i).get force).run s.files = o at hslot hbackend hfiles ⊢
    exact ⟨_, _, rfl, rfl, hbackend, hslot, ⟨_, rfl⟩, hfiles⟩
  | commit record =>
    have hrun := FileBackend.worksAs_watched.run_commit record (s.stores i) s.files
    have hslot := (s.stores i).slot_commit s.files record
    have hcalls := (s.stores i).calls_commit s.files hshows record
    obtain ⟨hvalue, hbackend, hfiles⟩ := (s.stores i).run_commit_file s.files record
    rw [← hrun, Outcome.value_unwatched] at hvalue hbackend
    rw [← hrun, Outcome.files_unwatched] at hfiles
    rw [act]
    generalize ((s.stores i).commit record).run s.files = o at hslot hcalls hvalue hbackend hfiles ⊢
    refine ⟨_, _, rfl, rfl, hbackend, ?_, congrArg (Deed.commit record) hvalue, hfiles⟩
    rw [Step.calls, hcalls, hslot]
    rfl

namespace Acted

variable {a : Act} {store : Store FileBackend} {step : Step (Watched FileEvent)}
  {after : Sharing ι (Watched FileEvent)} (h : Acted s i a store step after)
include h

theorem backend_eq (j : ι) : (after.stores j).backend = (s.stores j).backend := by
  rw [h.stores]
  by_cases hj : j = i
  · rw [hj, Function.update_self, h.backend]
  · rw [Function.update_of_ne hj]

theorem slot_eq (j : ι) :
    (after.stores j).slot = slotAfter (s.stores j).slot (if i = j then step.calls else []) := by
  rw [h.stores]
  by_cases hj : i = j
  · rw [if_pos hj, ← hj, Function.update_self, h.slot]
  · rw [if_neg hj, Function.update_of_ne (Ne.symm hj)]
    rfl

theorem callsOf_eq (j : ι) :
    after.callsOf j = s.callsOf j ++ if i = j then step.calls else [] := by
  simp only [callsOf, h.steps, List.flatMap_append, List.flatMap_cons, List.flatMap_nil,
    List.append_nil]

theorem lastCommit_eq (hosts : ι → String) (host : String) :
    after.lastCommit hosts host =
      (if hosts i = host then step.deed.committed? else none).or (s.lastCommit hosts host) := by
  simp only [lastCommit, h.steps, List.filterMap_append, List.getLast?_append]
  congr 1
  cases hcommit : (if hosts i = host then step.deed.committed? else none) <;>
    simp only [List.filterMap_cons, hcommit, List.filterMap_nil, List.getLast?_nil,
      List.getLast?_singleton]

end Acted

/-- The stores of a sharing are for these hosts, and the file of each can be told to the system. -/
structure Housed (directory : String) (hosts : ι → String) : Prop where
  plain : Plain directory
  isHostName : ∀ i, isHostName (hosts i) = true
  short : ∀ i, (hosts i ++ ".json.tmp").utf8ByteSize ≤ longestName

/-- What loading answers changes by a commit for the host that succeeds, and by nothing else. -/
theorem Acted.loadAnswer_eq {a : Act} {store : Store FileBackend} {step : Step (Watched FileEvent)}
    {after : Sharing ι (Watched FileEvent)} (h : Acted s i a store step after)
    (housed : Housed directory hosts)
    (hbackend : (s.stores i).backend = .forHost directory (hosts i)) (j : ι) :
    let b := FileBackend.forHost directory (hosts j)
    b.loadAnswer (after.files.readFile b.path) =
      match if hosts i = hosts j then step.deed.committed? else none with
      | some record => .ok record
      | none => b.loadAnswer (s.files.readFile b.path) := by
  intro b
  have hacted := h.files
  cases a with
  | get force =>
    obtain ⟨⟨answer, hdeed⟩, hfiles⟩ := hacted
    have hnone : step.deed.committed? = none := by rw [hdeed]; rfl
    rw [hnone, ite_self, hfiles]
  | commit record =>
    obtain ⟨hdeed, hfiles⟩ := hacted
    rw [hbackend] at hdeed hfiles
    have hother := fun hne => FileBackend.readFile_persist s.files (housed.isHostName i)
      (housed.isHostName j) (FileBackend.name_short_of_temporary (housed.short j)) housed.plain
      record hne
    by_cases hhost : hosts i = hosts j
    · cases hvalue : (((FileBackend.forHost directory (hosts i)).persist record).run s.files).value with
      | error error =>
        have hnone : step.deed.committed? = none := by rw [hdeed, hvalue]; rfl
        rw [hnone, ite_self, hfiles, hother fun hok => by rw [hvalue] at hok; cases hok]
      | ok _ =>
        have hsome : step.deed.committed? = some record := by rw [hdeed, hvalue]; rfl
        rw [hhost] at hvalue hfiles
        rw [hsome, if_pos hhost, hfiles]
        exact FileBackend.loadAnswer_of_persist hvalue
    · rw [if_neg hhost, hfiles, hother fun _ => hhost]

/-! ## Runs -/

/-- What holds of stores that started over the files `fs`. -/
structure Coherent (directory : String) (hosts : ι → String) (fs : FileSystem)
    (s : Sharing ι (Watched FileEvent)) : Prop where
  backend : ∀ i, (s.stores i).backend = .forHost directory (hosts i)
  slot : ∀ i, (s.stores i).slot = slotAfter none (s.callsOf i)
  answer : ∀ i, s.forced i =
    match s.lastCommit hosts (hosts i) with
    | some record => .ok record
    | none => ((FileBackend.forHost directory (hosts i)).load.run fs).value

namespace Coherent

theorem ofHosts (directory : String) (hosts : ι → String) (fs : FileSystem) :
    Coherent directory hosts fs (.ofHosts directory hosts fs) where
  backend _ := rfl
  slot _ := rfl
  answer i := by
    rw [forced_eq]
    exact ((FileBackend.forHost directory (hosts i)).run_load fs).1.symm

/-- A forced get after an act, told by the one before. -/
theorem forced_act (h : Coherent directory hosts fs s) (housed : Housed directory hosts)
    {a : Act} {store : Store FileBackend} {step : Step (Watched FileEvent)}
    {after : Sharing ι (Watched FileEvent)} (hacted : Acted s i a store step after) (j : ι) :
    after.forced j =
      match if hosts i = hosts j then step.deed.committed? else none with
      | some record => .ok record
      | none => s.forced j := by
  rw [forced_eq, forced_eq, hacted.backend_eq, h.backend]
  exact hacted.loadAnswer_eq housed (h.backend i) j

theorem act (h : Coherent directory hosts fs s) (housed : Housed directory hosts) (i : ι)
    (a : Act) :
    Coherent directory hosts fs (s.act FileBackend.watched i a) := by
  obtain ⟨store, step, hacted⟩ := s.exists_acted i a
  refine ⟨fun j => ?_, fun j => ?_, fun j => ?_⟩
  · rw [hacted.backend_eq, h.backend]
  · rw [hacted.slot_eq, hacted.callsOf_eq, slotAfter_append, h.slot]
  · rw [h.forced_act housed hacted, hacted.lastCommit_eq]
    cases if hosts i = hosts j then step.deed.committed? else none with
    | some record => rfl
    | none => exact h.answer j

theorem play (h : Coherent directory hosts fs s) (housed : Housed directory hosts)
    (turns : List (ι × Act)) : Coherent directory hosts fs (s.play FileBackend.watched turns) := by
  induction turns generalizing s with
  | nil => exact h
  | cons turn rest ih => exact ih (h.act housed turn.1 turn.2)

end Coherent

theorem unwatched_take {α : Type} (s : Sharing ι (Watched ε)) (i : ι) (deed : α → Deed)
    (o : Outcome (StoreEvent (Watched ε)) (α × Store FileBackend)) :
    (s.take i deed o).unwatched = s.unwatched.take i deed o.unwatched := by
  simp only [take, unwatched, List.map_append, List.map_cons, List.map_nil, Outcome.value_unwatched,
    Outcome.files_unwatched, Outcome.reports_unwatched]

/-- Watching the calls changes no act. -/
theorem unwatched_act (s : Sharing ι (Watched FileEvent)) (i : ι) (a : Act) :
    (s.act FileBackend.watched i a).unwatched = s.unwatched.act inferInstance i a := by
  cases a with
  | get force =>
    have hrun := FileBackend.worksAs_watched.run_get force (s.stores i) s.files
    rw [act, unwatched_take, hrun]
    rfl
  | commit record =>
    have hrun := FileBackend.worksAs_watched.run_commit record (s.stores i) s.files
    rw [act, unwatched_take, hrun]
    rfl

theorem unwatched_play (turns : List (ι × Act)) (s : Sharing ι (Watched FileEvent)) :
    (s.play FileBackend.watched turns).unwatched = s.unwatched.play inferInstance turns := by
  induction turns generalizing s with
  | nil => rfl
  | cons turn rest ih =>
    show ((s.act _ turn.1 turn.2).play _ rest).unwatched = (s.unwatched.act _ _ _).play _ rest
    rw [ih, unwatched_act]

/-- After any turns of any number of new stores over one directory:
a forced get of a store answers the record of the last commit for its host that succeeded, with
whatever store, and if there was none what a load of the first content answers;
a get that is answered from a slot answers the record that the last call of this very store loaded
or persisted, and leaves all as it is;
a commit that fails leaves what every forced get answers, and so does every act for another host.
All this is seen of the stores without changing what they do.

Turns do not overlap: nothing is said of commits for one host that write its temporary file at the
same time. -/
theorem coherent_after_turns {directory : String} {hosts : ι → String}
    (housed : Housed directory hosts) (fs : FileSystem) (turns : List (ι × Act)) :
    let s := (Sharing.ofHosts directory hosts fs).play FileBackend.watched turns
    (∀ i record, s.lastCommit hosts (hosts i) = some record → s.forced i = .ok record) ∧
    (∀ i, s.lastCommit hosts (hosts i) = none →
      s.forced i = ((FileBackend.forHost directory (hosts i)).load.run fs).value) ∧
    (∀ i record, (s.stores i).slot = some record →
      ((s.stores i).get false).run s.files = ⟨(.ok record, s.stores i), [], s.files⟩ ∧
      ∃ call, (s.callsOf i).getLast? = some call ∧ call.record? = some record) ∧
    (∀ i record error, (((s.stores i).commit record).run s.files).value.1 = .error error →
      ∀ j, (s.act FileBackend.watched i (.commit record)).forced j = s.forced j) ∧
    (∀ i a j, hosts i ≠ hosts j → (s.act FileBackend.watched i a).forced j = s.forced j) ∧
    s.unwatched = (Sharing.ofHosts directory hosts fs).play inferInstance turns := by
  intro s
  have hs : Coherent directory hosts fs s := (Coherent.ofHosts directory hosts fs).play housed turns
  refine ⟨?_, ?_, ?_, ?_, ?_, unwatched_play turns _⟩
  · intro i record hlast
    rw [hs.answer, hlast]
  · intro i hlast
    rw [hs.answer, hlast]
  · intro i record hslot
    refine ⟨Store.run_get_of_slot hslot s.files, ?_⟩
    rw [hs.slot, slotAfter] at hslot
    split at hslot
    next call hcall => exact ⟨call, hcall, hslot⟩
    next => cases hslot
  · intro i record error hfailed j
    obtain ⟨store, step, hacted⟩ := s.exists_acted i (.commit record)
    rw [((s.stores i).run_commit_file s.files record).1] at hfailed
    have hnone : step.deed.committed? = none := by
      rw [hacted.files.1, hfailed]
      rfl
    rw [hs.forced_act housed hacted, hnone, ite_self]
  · intro i a j hne
    obtain ⟨store, step, hacted⟩ := s.exists_acted i a
    rw [hs.forced_act housed hacted, if_neg hne]

/-- Of three stores the first and the last are for one host: what the first commits is what the last
answers, and the one between answers what was there before. -/
theorem coherent_after_turns_of_two_hosts :
    let hosts : Fin 3 → String := fun i => if i = 1 then "beta" else "alpha"
    let s := (Sharing.ofHosts "/var/hosts" hosts .empty).play FileBackend.watched
      [(0, .commit ⟨["linux"], ∅⟩), (2, .get false), (1, .get true)]
    Housed "/var/hosts" hosts ∧ s.forced 2 = .ok ⟨["linux"], ∅⟩ ∧
      (s.act FileBackend.watched 2 (.commit ∅)).forced 1 = s.forced 1 ∧
      s.forced 1 = ((FileBackend.forHost "/var/hosts" "beta").load.run .empty).value := by
  intro hosts s
  have housed : Housed "/var/hosts" hosts := ⟨⟨by decide, by decide⟩, by decide, by decide⟩
  obtain ⟨hlast, hfirst, -, -, hother, -⟩ := coherent_after_turns housed .empty
    [(0, .commit ⟨["linux"], ∅⟩), (2, .get false), (1, .get true)]
  exact ⟨housed, hlast 2 _ (by decide +kernel), hother 2 (.commit ∅) 1 (by decide),
    hfirst 1 (by decide +kernel)⟩

end Sharing

end HostRegistry
