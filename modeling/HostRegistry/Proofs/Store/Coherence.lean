import HostRegistry.Proofs.Store.Run

/-!
Whatever is done with a store, its slot holds the record of the last call of the backend.

A run of `Uses` plays any sequence of gets and commits, boxes the store at any point and lets others
change the backend and the files behind it. The backend is any state machine. To see the calls that
the store makes of it, the run is made with `Backend.watched`, which works as the backend does and
also reports its calls; `Uses.run_unwatched` says that nothing else changes.
-/

set_option autoImplicit false

namespace HostRegistry

/-- A call of a backend, with its answer. -/
inductive Call where
  | load (answer : Except Error Record)
  | persist (record : Record) (answer : Except Error Unit)

/-- The record that a call loaded or persisted, if it succeeded. -/
def Call.record? : Call → Option Record
  | .load answer => answer.toOption
  | .persist record answer => answer.toOption.map fun _ => record

/-- What a watched backend reports: its calls besides its own events. -/
inductive Watched (ε : Type) where
  | called (call : Call)
  | event (event : ε)

namespace Watched

variable {ε : Type}

def call? : Watched ε → Option Call
  | .called c => some c
  | .event _ => none

def event? : Watched ε → Option ε
  | .called _ => none
  | .event e => some e

end Watched

/-- A backend that works as `B` does and reports each call after it was made. -/
@[reducible]
def Backend.watched {σ ε : Type} (B : Backend σ ε) : Backend σ (Watched ε) where
  load b := do
    let (answer, b) ← (B.load b).mapReports .event
    .emit (.called (.load answer))
    return (answer, b)
  persist record b := do
    let (answer, b) ← (B.persist record b).mapReports .event
    .emit (.called (.persist record answer))
    return (answer, b)
  describe := B.describe

/-- The backend that works as `B` does behind one more wall. -/
@[reducible]
def Backend.boxed {σ ε : Type} (B : Backend σ ε) : Backend (Boxed σ) ε := inferInstance

namespace StoreEvent

variable {ε : Type}

/-- The call that an event of a store over a watched backend shows. -/
def call? : StoreEvent (Watched ε) → Option Call
  | .backend event => event.call?
  | _ => none

/-- The event without the watch, if it is not the report of a call. -/
def unwatched? : StoreEvent (Watched ε) → Option (StoreEvent ε)
  | .refreshing store => some (.refreshing store)
  | .held slot => some (.held slot)
  | .loaded record => some (.loaded record)
  | .refreshFailed error => some (.refreshFailed error)
  | .committing store => some (.committing store)
  | .updated record => some (.updated record)
  | .commitFailed error => some (.commitFailed error)
  | .backend event => event.event?.map .backend

end StoreEvent

/-- What is done with a store whose backend has states `σ`, one thing after the other. Others may
change the backend and the files at any time, and a boxed store goes on as one over another kind of
backend. -/
inductive Uses : Type → Type 1 where
  | stop {σ : Type} : Uses σ
  | get {σ : Type} (force : Bool) (rest : Uses σ) : Uses σ
  | commit {σ : Type} (record : Record) (rest : Uses σ) : Uses σ
  | box {σ : Type} (rest : Uses (Boxed σ)) : Uses σ
  | change {σ : Type} (edit : σ → FileSystem → σ × FileSystem) (rest : Uses σ) : Uses σ

/-- One thing that was done with a store, and what its caller got. -/
inductive Deed where
  | get (force : Bool) (answer : Except Error Record)
  | commit (record : Record) (answer : Except Error Unit)
  | box
  | change

/-- The record of a commit that succeeded. -/
def Deed.committed? : Deed → Option Record
  | .commit record (.ok _) => some record
  | _ => none

/-- A deed with the slot before and after it and with the events in between. -/
structure Step (ε : Type) where
  deed : Deed
  before : Option Record
  after : Option Record
  events : List (StoreEvent ε)

/-- The steps of a run, and the slot that it ends with. -/
structure Trail (ε : Type) where
  steps : List (Step ε)
  slot : Option Record

namespace Trail

variable {ε : Type}

/-- The trail with one more step in front. -/
def cons (step : Step ε) (trail : Trail ε) : Trail ε := ⟨step :: trail.steps, trail.slot⟩

/-- The events of all steps. -/
def events (trail : Trail ε) : List (StoreEvent ε) := trail.steps.flatMap (·.events)

/-- The calls that the store made of its backend. -/
def calls (trail : Trail (Watched ε)) : List Call := trail.events.filterMap StoreEvent.call?

/-- The trail without the watch. -/
def unwatched (trail : Trail (Watched ε)) : Trail ε :=
  ⟨trail.steps.map fun step => { step with events := step.events.filterMap StoreEvent.unwatched? },
    trail.slot⟩

end Trail

/-- Plays what is done with a store. -/
def Uses.run {ε : Type} : {σ : Type} → Backend σ ε → Uses σ → Store σ → FileSystem → Trail ε
  | _, _, .stop, s, _ => ⟨[], s.slot⟩
  | _, B, .get force rest, s, fs =>
    let o := (s.get force).run fs
    (rest.run B o.value.2 o.files).cons ⟨.get force o.value.1, s.slot, o.value.2.slot, o.reports⟩
  | _, B, .commit record rest, s, fs =>
    let o := (s.commit record).run fs
    (rest.run B o.value.2 o.files).cons
      ⟨.commit record o.value.1, s.slot, o.value.2.slot, o.reports⟩
  | _, B, .box rest, s, fs =>
    (rest.run B.boxed s.boxed fs).cons
      ⟨.box, s.slot, s.boxed.slot, []⟩
  | _, B, .change edit rest, s, fs =>
    let changed : Store _ := { s with backend := (edit s.backend fs).1 }
    (rest.run B changed (edit s.backend fs).2).cons ⟨.change, s.slot, changed.slot, []⟩

/-! ## What is seen of a watched backend -/

namespace Watched

variable {ε : Type}

theorem filterMap_event? (events : List ε) : (events.map event).filterMap event? = events := by
  rw [List.filterMap_map]
  exact List.filterMap_some

theorem filterMap_call? (events : List ε) : (events.map event).filterMap call? = [] := by
  rw [List.filterMap_map]
  exact List.filterMap_eq_nil_iff.mpr fun _ _ => rfl

end Watched

/-- Each call of the backend shows itself, with its answer, and no other. -/
structure ShowsCalls {σ ε : Type} (W : Backend σ (Watched ε)) : Prop where
  load : ∀ b fs, ((W.load b).run fs).reports.filterMap Watched.call? =
    [.load ((W.load b).run fs).value.1]
  persist : ∀ record b fs, ((W.persist record b).run fs).reports.filterMap Watched.call? =
    [.persist record ((W.persist record b).run fs).value.1]

/-- `W` works as `B` does and reports what `B` reports, calls apart. -/
structure WorksAs {σ ε : Type} (W : Backend σ (Watched ε)) (B : Backend σ ε) : Prop where
  load : ∀ b fs,
    let o := (W.load b).run fs
    (B.load b).run fs = ⟨o.value, o.reports.filterMap Watched.event?, o.files⟩
  persist : ∀ record b fs,
    let o := (W.persist record b).run fs
    (B.persist record b).run fs = ⟨o.value, o.reports.filterMap Watched.event?, o.files⟩
  describe : ∀ b, W.describe b = B.describe b

namespace Backend

variable {σ ε : Type}

theorem run_load_watched (B : Backend σ ε) (b : σ) (fs : FileSystem) :
    (B.watched.load b).run fs =
      let o := (B.load b).run fs
      ⟨o.value, o.reports.map .event ++ [.called (.load o.value.1)], o.files⟩ := by
  show ((B.load b).mapReports .event >>= fun o =>
    (.emit (.called (.load o.1)) >>= fun _ => pure o : Script (Watched ε) _)).run fs = _
  simp only [Script.run_bind, Script.run_emit, Script.run_mapReports, Script.run_pure,
    List.append_nil]

theorem run_persist_watched (B : Backend σ ε) (record : Record) (b : σ) (fs : FileSystem) :
    (B.watched.persist record b).run fs =
      let o := (B.persist record b).run fs
      ⟨o.value, o.reports.map .event ++ [.called (.persist record o.value.1)], o.files⟩ := by
  show ((B.persist record b).mapReports .event >>= fun o =>
    (.emit (.called (.persist record o.1)) >>= fun _ => pure o : Script (Watched ε) _)).run fs = _
  simp only [Script.run_bind, Script.run_emit, Script.run_mapReports, Script.run_pure,
    List.append_nil]

theorem run_load_boxed (B : Backend σ ε) (b : Boxed σ) (fs : FileSystem) :
    (B.boxed.load b).run fs =
      let o := (B.load b.inner).run fs
      ⟨(o.value.1, ⟨o.value.2⟩), o.reports, o.files⟩ := by
  show ((B.load b.inner >>= fun o => pure (o.1, Boxed.mk o.2) : Script ε _)).run fs = _
  simp only [Script.run_bind, Script.run_pure, List.append_nil]

theorem run_persist_boxed (B : Backend σ ε) (record : Record) (b : Boxed σ) (fs : FileSystem) :
    (B.boxed.persist record b).run fs =
      let o := (B.persist record b.inner).run fs
      ⟨(o.value.1, ⟨o.value.2⟩), o.reports, o.files⟩ := by
  show ((B.persist record b.inner >>= fun o => pure (o.1, Boxed.mk o.2) : Script ε _)).run fs = _
  simp only [Script.run_bind, Script.run_pure, List.append_nil]

theorem showsCalls_watched (B : Backend σ ε) : ShowsCalls B.watched where
  load b fs := by
    rw [run_load_watched, List.filterMap_append, Watched.filterMap_call?]
    rfl
  persist record b fs := by
    rw [run_persist_watched, List.filterMap_append, Watched.filterMap_call?]
    rfl

theorem worksAs_watched (B : Backend σ ε) : WorksAs B.watched B where
  load b fs := by
    simp only [run_load_watched, List.filterMap_append, Watched.filterMap_event?]
    rw [show [Watched.called _].filterMap Watched.event? = ([] : List ε) from rfl, List.append_nil]
  persist record b fs := by
    simp only [run_persist_watched, List.filterMap_append, Watched.filterMap_event?]
    rw [show [Watched.called _].filterMap Watched.event? = ([] : List ε) from rfl, List.append_nil]
  describe _ := rfl

end Backend

/-- The calls of a boxed backend are seen through the wall. -/
theorem ShowsCalls.boxed {σ ε : Type} {W : Backend σ (Watched ε)} (h : ShowsCalls W) :
    ShowsCalls W.boxed where
  load b fs := by
    rw [Backend.run_load_boxed]
    exact h.load b.inner fs
  persist record b fs := by
    rw [Backend.run_persist_boxed]
    exact h.persist record b.inner fs

theorem WorksAs.boxed {σ ε : Type} {W : Backend σ (Watched ε)} {B : Backend σ ε}
    (h : WorksAs W B) : WorksAs W.boxed B.boxed where
  load b fs := by
    have hload := h.load b.inner fs
    simp only [Backend.run_load_boxed, hload]
  persist record b fs := by
    have hpersist := h.persist record b.inner fs
    simp only [Backend.run_persist_boxed, hpersist]
  describe b := h.describe b.inner

/-! ## One step -/

/-- The slot that calls leave of a slot: what the last one loaded or persisted, nothing if it
failed, and the old slot if there was none. -/
def slotAfter (slot : Option Record) (calls : List Call) : Option Record :=
  match calls.getLast? with
  | some call => call.record?
  | none => slot

/-- The calls of a step. -/
def Step.calls {ε : Type} (step : Step (Watched ε)) : List Call :=
  step.events.filterMap StoreEvent.call?

/-- What each deed does. A get that may be answered from a filled slot is, without a call; every
other get is one load. A commit is one persist of its record. The answer of the call is the answer
of the deed. All else makes no call and leaves the slot. -/
def Step.Lawful {ε : Type} (step : Step (Watched ε)) : Prop :=
  match step.deed with
  | .get force answer =>
    (∀ record, force = false → step.before = some record →
      step.calls = [] ∧ answer = .ok record ∧ step.after = step.before) ∧
    (force = true ∨ step.before = none → step.calls = [.load answer])
  | .commit record answer => step.calls = [.persist record answer]
  | .box => step.calls = [] ∧ step.after = step.before
  | .change => step.calls = [] ∧ step.after = step.before

section Operations

variable {σ ε : Type} [W : Backend σ (Watched ε)] (s : Store σ) (fs : FileSystem)

theorem StoreEvent.filterMap_call? (events : List (Watched ε)) :
    (events.map StoreEvent.backend).filterMap call? = events.filterMap Watched.call? := by
  rw [List.filterMap_map]
  rfl

theorem Store.calls_refresh (hW : ShowsCalls W) :
    (s.refresh.run fs).reports.filterMap StoreEvent.call? = [.load (s.refresh.run fs).value.1] := by
  have hlast : ∀ answer, StoreEvent.call? (refreshed answer : StoreEvent (Watched ε)) = none := by
    rintro (_ | _) <;> rfl
  rw [Store.run_refresh]
  show (List.map _ _ ++ [refreshed _]).filterMap StoreEvent.call? = _
  rw [List.filterMap_append, StoreEvent.filterMap_call?, hW.load,
    List.filterMap_cons_none (hlast _)]
  rfl

theorem Store.slot_refresh :
    (s.refresh.run fs).value.2.slot = (s.refresh.run fs).value.1.toOption := by
  rw [Store.run_refresh]
  exact Option.map_id_apply

theorem Store.calls_commit (hW : ShowsCalls W) (record : Record) :
    ((s.commit record).run fs).reports.filterMap StoreEvent.call? =
      [.persist record ((s.commit record).run fs).value.1] := by
  have hlast : ∀ answer,
      StoreEvent.call? (committed record answer : StoreEvent (Watched ε)) = none := by
    rintro (_ | _) <;> rfl
  rw [Store.run_commit]
  show (List.map _ _ ++ [committed record _]).filterMap StoreEvent.call? = _
  rw [List.filterMap_append, StoreEvent.filterMap_call?, hW.persist,
    List.filterMap_cons_none (hlast _)]
  rfl

theorem Store.slot_commit (record : Record) :
    ((s.commit record).run fs).value.2.slot =
      ((s.commit record).run fs).value.1.toOption.map fun _ => record := by
  rw [Store.run_commit]
  rfl

/-- The slot after a get is what its calls leave. -/
theorem Store.slot_get (hW : ShowsCalls W) (force : Bool) :
    ((s.get force).run fs).value.2.slot =
      slotAfter s.slot (((s.get force).run fs).reports.filterMap StoreEvent.call?) := by
  rcases s.get_cases fs force with ⟨record, _, _, hrun⟩ | ⟨_, hrefresh⟩
  · rw [hrun]
    rfl
  · rw [hrefresh, s.slot_refresh, s.calls_refresh fs hW]
    rfl

theorem Store.lawful_get (hW : ShowsCalls W) (force : Bool) :
    let o := (s.get force).run fs
    Step.Lawful ⟨.get force o.value.1, s.slot, o.value.2.slot, o.reports⟩ := by
  intro o
  unfold Step.Lawful Step.calls
  constructor
  · rintro record rfl h
    simp only [o, Store.run_get_of_slot h, List.filterMap_nil, and_self]
  · intro h
    simp only [o, Store.get_eq_refresh h]
    exact s.calls_refresh fs hW

end Operations

/-! ## Runs -/

/-- The last thing that a list says, if it says anything, is that of its tail or else of its head. -/
theorem getLast?_filterMap_cons {α β : Type} (f : α → Option β) (a : α) (rest : List α) :
    ((a :: rest).filterMap f).getLast? = ((rest.filterMap f).getLast?).or (f a) := by
  cases h : f a with
  | none => rw [List.filterMap_cons_none h, Option.or_none]
  | some b =>
    rw [List.filterMap_cons_some h, List.getLast?_cons]
    cases (rest.filterMap f).getLast? <;> rfl

theorem slotAfter_append (slot : Option Record) (first rest : List Call) :
    slotAfter slot (first ++ rest) = slotAfter (slotAfter slot first) rest := by
  simp only [slotAfter, List.getLast?_append]
  cases rest.getLast? <;> rfl

theorem Trail.events_cons {ε : Type} (step : Step ε) (trail : Trail ε) :
    (trail.cons step).events = step.events ++ trail.events :=
  List.flatMap_cons

theorem Trail.calls_cons {ε : Type} (step : Step (Watched ε)) (trail : Trail (Watched ε)) :
    (trail.cons step).calls = step.calls ++ trail.calls := by
  unfold calls
  rw [events_cons, List.filterMap_append]
  rfl

/-- A trail keeps the slot if its first step leaves what its calls say and the rest keeps it. -/
theorem Trail.slot_cons {ε : Type} {step : Step (Watched ε)} {trail : Trail (Watched ε)}
    (hstep : step.after = slotAfter step.before step.calls)
    (hrest : trail.slot = slotAfter step.after trail.calls) :
    (trail.cons step).slot = slotAfter step.before (trail.cons step).calls := by
  rw [calls_cons, slotAfter_append, ← hstep]
  exact hrest

/-- The slot at the end of a run is the one that the calls of the run leave. -/
theorem Uses.slot_run {ε σ : Type} (uses : Uses σ) :
    ∀ {W : Backend σ (Watched ε)}, ShowsCalls W → ∀ (s : Store σ) (fs : FileSystem),
      (uses.run W s fs).slot = slotAfter s.slot (uses.run W s fs).calls := by
  induction uses with
  | stop => exact fun _ _ _ => rfl
  | get force rest ih =>
    intro W hW s fs
    exact Trail.slot_cons (s.slot_get fs hW force) (ih hW _ _)
  | commit record rest ih =>
    intro W hW s fs
    refine Trail.slot_cons ?_ (ih hW _ _)
    show ((s.commit record).run fs).value.2.slot =
      slotAfter s.slot (((s.commit record).run fs).reports.filterMap StoreEvent.call?)
    rw [s.slot_commit, s.calls_commit fs hW]
    rfl
  | box rest ih =>
    intro W hW s fs
    exact Trail.slot_cons rfl (ih hW.boxed _ _)
  | change edit rest ih =>
    intro W hW s fs
    exact Trail.slot_cons rfl (ih hW _ _)

/-- Every step of a run does what its deed says. -/
theorem Uses.lawful_run {ε σ : Type} (uses : Uses σ) :
    ∀ {W : Backend σ (Watched ε)}, ShowsCalls W → ∀ (s : Store σ) (fs : FileSystem),
      ∀ step ∈ (uses.run W s fs).steps, step.Lawful := by
  induction uses with
  | stop => exact fun _ _ _ _ h => absurd h List.not_mem_nil
  | get force rest ih =>
    intro W hW s fs step hstep
    rcases List.mem_cons.mp hstep with rfl | hstep
    · exact s.lawful_get fs hW force
    · exact ih hW _ _ step hstep
  | commit record rest ih =>
    intro W hW s fs step hstep
    rcases List.mem_cons.mp hstep with rfl | hstep
    · exact s.calls_commit fs hW record
    · exact ih hW _ _ step hstep
  | box rest ih =>
    intro W hW s fs step hstep
    rcases List.mem_cons.mp hstep with rfl | hstep
    · exact ⟨rfl, rfl⟩
    · exact ih hW.boxed _ _ step hstep
  | change edit rest ih =>
    intro W hW s fs step hstep
    rcases List.mem_cons.mp hstep with rfl | hstep
    · exact ⟨rfl, rfl⟩
    · exact ih hW _ _ step hstep

/-! ## Watching changes nothing -/

/-- An outcome over a watched backend, without the watch. -/
def Outcome.unwatched {ε α : Type} (o : Outcome (StoreEvent (Watched ε)) α) :
    Outcome (StoreEvent ε) α :=
  ⟨o.value, o.reports.filterMap StoreEvent.unwatched?, o.files⟩

theorem Outcome.value_unwatched {ε α : Type} (o : Outcome (StoreEvent (Watched ε)) α) :
    o.unwatched.value = o.value :=
  rfl

theorem Outcome.reports_unwatched {ε α : Type} (o : Outcome (StoreEvent (Watched ε)) α) :
    o.unwatched.reports = o.reports.filterMap StoreEvent.unwatched? :=
  rfl

theorem Outcome.files_unwatched {ε α : Type} (o : Outcome (StoreEvent (Watched ε)) α) :
    o.unwatched.files = o.files :=
  rfl

theorem StoreEvent.filterMap_unwatched? {ε : Type} (events : List (Watched ε)) :
    (events.map StoreEvent.backend).filterMap unwatched? =
      (events.filterMap Watched.event?).map StoreEvent.backend := by
  rw [List.filterMap_map, List.map_filterMap]
  rfl

section Unwatched

variable {σ ε : Type} {W : Backend σ (Watched ε)} {B : Backend σ ε}

theorem WorksAs.run_refresh (h : WorksAs W B) (s : Store σ) (fs : FileSystem) :
    ((@Store.refresh σ _ W s).run fs).unwatched = (@Store.refresh σ _ B s).run fs := by
  have hlast : ∀ answer,
      StoreEvent.unwatched? (Store.refreshed answer : StoreEvent (Watched ε)) =
        some (Store.refreshed answer) := by
    rintro (_ | _) <;> rfl
  have hfirst : ∀ name,
      (StoreEvent.refreshing name : StoreEvent (Watched ε)).unwatched? = some (.refreshing name) :=
    fun _ => rfl
  have hheld : ∀ slot,
      (StoreEvent.held slot : StoreEvent (Watched ε)).unwatched? = some (.held slot) :=
    fun _ => rfl
  rw [@Store.run_refresh σ _ W, @Store.run_refresh σ _ B, h.load]
  simp only [Outcome.unwatched, Store.describe, ← h.describe]
  rw [List.filterMap_cons_some (hfirst _), List.filterMap_cons_some (hheld _),
    List.filterMap_append, StoreEvent.filterMap_unwatched?, List.filterMap_cons_some (hlast _),
    List.filterMap_nil]

theorem WorksAs.run_get (h : WorksAs W B) (force : Bool) (s : Store σ) (fs : FileSystem) :
    ((@Store.get σ _ W force s).run fs).unwatched = (@Store.get σ _ B force s).run fs := by
  rcases @Store.get_cases σ _ W s fs force with ⟨record, rfl, hslot, hrun⟩ | ⟨hmiss, hrefresh⟩
  · rw [hrun, @Store.run_get_of_slot σ ε B s record hslot fs]
    rfl
  · rw [hrefresh, @Store.get_eq_refresh σ ε B s force hmiss]
    exact h.run_refresh s fs

theorem WorksAs.run_commit (h : WorksAs W B) (record : Record) (s : Store σ) (fs : FileSystem) :
    ((@Store.commit σ _ W record s).run fs).unwatched = (@Store.commit σ _ B record s).run fs := by
  have hlast : ∀ answer,
      StoreEvent.unwatched? (Store.committed record answer : StoreEvent (Watched ε)) =
        some (Store.committed record answer) := by
    rintro (_ | _) <;> rfl
  have hfirst : ∀ name,
      (StoreEvent.committing name : StoreEvent (Watched ε)).unwatched? = some (.committing name) :=
    fun _ => rfl
  rw [@Store.run_commit σ _ W, @Store.run_commit σ _ B, h.persist]
  simp only [Outcome.unwatched, Store.describe, ← h.describe]
  rw [List.filterMap_cons_some (hfirst _), List.filterMap_append, StoreEvent.filterMap_unwatched?,
    List.filterMap_cons_some (hlast _), List.filterMap_nil]

end Unwatched

/-- A run over a watched backend is the run over the backend itself, calls shown. -/
theorem Uses.run_unwatched {ε σ : Type} (uses : Uses σ) :
    ∀ {W : Backend σ (Watched ε)} {B : Backend σ ε}, WorksAs W B → ∀ (s : Store σ) (fs : FileSystem),
      (uses.run W s fs).unwatched = uses.run B s fs := by
  induction uses with
  | stop => exact fun _ _ _ => rfl
  | get force rest ih =>
    intro W B h s fs
    have hget := h.run_get force s fs
    simp only [Uses.run]
    rw [← hget, ← ih h]
    rfl
  | commit record rest ih =>
    intro W B h s fs
    have hcommit := h.run_commit record s fs
    simp only [Uses.run]
    rw [← hcommit, ← ih h]
    rfl
  | box rest ih =>
    intro W B h s fs
    simp only [Uses.run]
    rw [← ih h.boxed]
    rfl
  | change edit rest ih =>
    intro W B h s fs
    simp only [Uses.run]
    rw [← ih h]
    rfl

/-- After every run from a new store the slot is filled with a record exactly if the last call that
the store made of its backend succeeded and loaded or persisted that record. Every step makes the
calls that its deed asks for and passes their answers on, and all this is seen of the backend
without changing what it does. -/
theorem slot_eq_some_iff_last_call {σ ε : Type} (B : Backend σ ε) (uses : Uses σ) (b : σ)
    (fs : FileSystem) :
    let trail := uses.run B.watched (.ofBackend b) fs
    (∀ record, trail.slot = some record ↔
      ∃ call, trail.calls.getLast? = some call ∧ call.record? = some record) ∧
    (∀ step ∈ trail.steps, step.Lawful) ∧
    trail.unwatched = uses.run B (.ofBackend b) fs := by
  intro trail
  refine ⟨?_, uses.lawful_run B.showsCalls_watched _ fs,
    uses.run_unwatched B.worksAs_watched _ fs⟩
  intro record
  have hslot : trail.slot = slotAfter none trail.calls :=
    uses.slot_run B.showsCalls_watched (.ofBackend b) fs
  rw [hslot, slotAfter]
  cases trail.calls.getLast? with
  | none =>
    constructor
    · intro h
      cases h
    · rintro ⟨_, h, _⟩
      cases h
  | some call =>
    constructor
    · exact fun h => ⟨call, rfl, h⟩
    · rintro ⟨_, hcall, h⟩
      cases hcall
      exact h

end HostRegistry
