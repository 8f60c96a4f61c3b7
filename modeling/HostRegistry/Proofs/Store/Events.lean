import HostRegistry.Proofs.Store.Coherence

/-!
What the events of a store say about its slot.

A refresh shows the old slot before it asks the backend; later events say what the slot holds from
then on. Between the two there may be any number of gets, commits and failures, and the backend adds
events of its own. `Step.Logged` gives the events of every step in full, and the line of the log that
each of them makes. From there on a step is known by its events: each shown slot is the one that the
events before it leave (`Truthful`), over one step and then over a run.
-/

set_option autoImplicit false

namespace HostRegistry

variable {σ ε : Type}

/-- The event makes this line of the log, whatever lines the backend makes. -/
def StoreEvent.Reads (event : StoreEvent ε) (text : String) : Prop :=
  ∀ backendLine, event.line backendLine = .debug text

/-- The event is the log's word for a record that was loaded or committed. -/
def StoreEvent.Announces (event : StoreEvent ε) (record : Record) : Prop :=
  (event = .loaded record ∧ event.Reads ("New host_info: " ++ record.display)) ∨
    (event = .updated record ∧ event.Reads ("HostInfo updated to: " ++ record.display))

/-- What an event says that the slot holds after it. Events of other kinds leave the slot. -/
def StoreEvent.outcome? : StoreEvent ε → Option (Option Record)
  | .loaded record => some (some record)
  | .updated record => some (some record)
  | .refreshFailed _ => some none
  | .commitFailed _ => some none
  | _ => none

/-- The slot after some events, given the one before them. -/
def slotShown (slot : Option Record) (log : List (StoreEvent ε)) : Option Record :=
  (log.filterMap StoreEvent.outcome?).getLast?.getD slot

/-- The record was loaded or committed, and since then none was and nothing failed. -/
def Standing (log : List (StoreEvent ε)) (record : Record) : Prop :=
  ∃ before event between, log = before ++ event :: between ∧ event.Announces record ∧
    ∀ e ∈ between, e.outcome? = none

/-- Every event that shows the old slot shows what the events before it leave of `slot`. -/
def Truthful : Option Record → List (StoreEvent ε) → Prop
  | _, [] => True
  | slot, event :: rest =>
    (∀ held, event = .held held → held = slot) ∧ Truthful (event.outcome?.getD slot) rest

/-- The last line of a refresh. -/
def refreshEnding : Except Error Record → String
  | .ok record => "New host_info: " ++ record.display
  | .error error => "Refresh failed, cache invalidated: " ++ error.message

/-- The last line of a commit. -/
def commitEnding (record : Record) : Except Error Unit → String
  | .ok _ => "HostInfo updated to: " ++ record.display
  | .error error => "Commit failed, cache invalidated: " ++ error.message

/-- The events of a step and their lines. A get that may be answered from a filled slot is, and makes
none; every other get announces a refresh, shows the slot and ends with the answer. A commit announces
itself and ends with its answer. Only the backend adds events, and only before the last one. The slot
holds what was loaded or committed afterwards, and nothing if that failed. -/
def Step.Logged (step : Step ε) : Prop :=
  match step.deed with
  | .get force answer =>
    (∀ record, force = false → step.before = some record →
      answer = .ok record ∧ step.events = [] ∧ step.after = step.before) ∧
    (force = true ∨ step.before = none →
      ∃ (name : String) (own : List ε),
        step.events = .refreshing name :: .held step.before ::
          (own.map .backend ++ [Store.refreshed answer]) ∧
        (∀ backendLine, step.events.map (·.line backendLine) =
          .debug ("Refreshing HostInfo using store " ++ name) ::
            .debug ("Old host_info: " ++ step.before.elim "None" Record.display) ::
            (own.map backendLine ++ [.debug (refreshEnding answer)])) ∧
        step.after = answer.toOption)
  | .commit record answer =>
    ∃ (name : String) (own : List ε),
      step.events = .committing name :: (own.map .backend ++ [Store.committed record answer]) ∧
      (∀ backendLine, step.events.map (·.line backendLine) =
        .debug ("Committing HostInfo to store " ++ name) ::
          (own.map backendLine ++ [.debug (commitEnding record answer)])) ∧
      step.after = answer.toOption.map fun _ => record
  | .box => step.events = [] ∧ step.after = step.before
  | .change => step.events = [] ∧ step.after = step.before

/-! ## Events in sequence -/

theorem slotShown_cons (slot : Option Record) (event : StoreEvent ε) (log : List (StoreEvent ε)) :
    slotShown slot (event :: log) = slotShown (event.outcome?.getD slot) log := by
  unfold slotShown
  rw [getLast?_filterMap_cons, Option.getD_or]

/-- An event that says what the slot holds overrules all before it. -/
theorem slotShown_concat {event : StoreEvent ε} {shown : Option Record}
    (h : event.outcome? = some shown) (slot : Option Record) (log : List (StoreEvent ε)) :
    slotShown slot (log ++ [event]) = shown := by
  unfold slotShown
  rw [List.filterMap_append, List.filterMap_cons_some h, List.filterMap_nil, List.getLast?_concat,
    Option.getD_some]

theorem StoreEvent.outcome?_eq_some_iff {event : StoreEvent ε} {record : Record} :
    event.outcome? = some (some record) ↔ event.Announces record := by
  constructor
  · intro h
    cases event with
    | loaded seen =>
      cases h
      exact Or.inl ⟨rfl, fun _ => rfl⟩
    | updated seen =>
      cases h
      exact Or.inr ⟨rfl, fun _ => rfl⟩
    | _ => cases h
  · rintro (⟨rfl, -⟩ | ⟨rfl, -⟩)
    · rfl
    · rfl

/-- From an empty slot, the slot shown is the record that stands. -/
theorem slotShown_eq_some_iff {log : List (StoreEvent ε)} {record : Record} :
    slotShown none log = some record ↔ Standing log record := by
  calc slotShown none log = some record
    _ ↔ (log.filterMap StoreEvent.outcome?).getLast? = some (some record) := by
      unfold slotShown
      cases (log.filterMap StoreEvent.outcome?).getLast? <;> simp
    _ ↔ ∃ init, log.filterMap StoreEvent.outcome? = init ++ [some record] :=
      List.getLast?_eq_some_iff
    _ ↔ Standing log record := by
      constructor
      · rintro ⟨init, h⟩
        obtain ⟨before, rest, rfl, -, hrest⟩ := List.filterMap_eq_append_iff.mp h
        obtain ⟨quiet, event, between, rfl, -, hevent, hbetween⟩ :=
          List.filterMap_eq_cons_iff.mp hrest
        exact ⟨before ++ quiet, event, between, (List.append_assoc ..).symm,
          StoreEvent.outcome?_eq_some_iff.mp hevent, List.filterMap_eq_nil_iff.mp hbetween⟩
      · rintro ⟨before, event, between, rfl, hevent, hbetween⟩
        refine ⟨before.filterMap StoreEvent.outcome?, ?_⟩
        rw [List.filterMap_append,
          List.filterMap_cons_some (StoreEvent.outcome?_eq_some_iff.mpr hevent),
          List.filterMap_eq_nil_iff.mpr hbetween]

theorem truthful_append {slot : Option Record} {first rest : List (StoreEvent ε)} :
    Truthful slot (first ++ rest) ↔ Truthful slot first ∧ Truthful (slotShown slot first) rest := by
  induction first generalizing slot with
  | nil => exact (and_iff_right trivial).symm
  | cons event first ih =>
    rw [slotShown_cons]
    simp only [List.cons_append, Truthful, ih, and_assoc]

/-- Events that do not show the old slot cannot be wrong about it. -/
theorem truthful_of_ne_held {log : List (StoreEvent ε)}
    (h : ∀ event ∈ log, ∀ held, event ≠ .held held) (slot : Option Record) : Truthful slot log := by
  induction log generalizing slot with
  | nil => trivial
  | cons event log ih =>
    obtain ⟨hevent, hlog⟩ := List.forall_mem_cons.mp h
    exact ⟨fun held heq => absurd heq (hevent held), ih hlog _⟩

/-- The events of a backend and one that says what the slot holds are not about the old slot. -/
theorem truthful_own {last : StoreEvent ε} {shown : Option Record}
    (h : last.outcome? = some shown) (slot : Option Record) (own : List ε) :
    Truthful slot (own.map .backend ++ [last]) := by
  refine truthful_of_ne_held (fun event hevent held heq => ?_) slot
  subst heq
  rcases List.mem_append.mp hevent with hown | hlast
  · obtain ⟨_, _, hown⟩ := List.mem_map.mp hown
    cases hown
  · rw [← List.mem_singleton.mp hlast] at h
    cases h

/-! ## One step -/

namespace Store

theorem outcome?_refreshed (answer : Except Error Record) :
    (refreshed answer : StoreEvent ε).outcome? = some answer.toOption := by
  cases answer <;> rfl

theorem outcome?_committed (record : Record) (answer : Except Error Unit) :
    (committed record answer : StoreEvent ε).outcome? =
      some (answer.toOption.map fun _ => record) := by
  cases answer <;> rfl

theorem line_refreshed (backendLine : ε → LogLine) (answer : Except Error Record) :
    (refreshed answer).line backendLine = .debug (refreshEnding answer) := by
  cases answer <;> rfl

theorem line_committed (backendLine : ε → LogLine) (record : Record) (answer : Except Error Unit) :
    (committed record answer).line backendLine = .debug (commitEnding record answer) := by
  cases answer <;> rfl

theorem line_held (backendLine : ε → LogLine) (slot : Option Record) :
    (StoreEvent.held slot).line backendLine =
      .debug ("Old host_info: " ++ slot.elim "None" Record.display) := by
  cases slot <;> rfl

/-- The lines of a backend's events are its own. -/
theorem map_line_own (backendLine : ε → LogLine) (own : List ε) (last : StoreEvent ε) :
    (own.map StoreEvent.backend ++ [last]).map (·.line backendLine) =
      own.map backendLine ++ [last.line backendLine] := by
  rw [List.map_append, List.map_map]
  rfl

variable [B : Backend σ ε] (s : Store σ) (fs : FileSystem)

theorem logged_get (force : Bool) :
    let o := (s.get force).run fs
    Step.Logged ⟨.get force o.value.1, s.slot, o.value.2.slot, o.reports⟩ := by
  intro o
  constructor
  · rintro record rfl h
    simp only [o, run_get_of_slot h, and_self]
  · intro h
    simp only [o, get_eq_refresh h, run_refresh]
    refine ⟨_, _, rfl, fun backendLine => ?_, Option.map_id_apply⟩
    rw [List.map_cons, List.map_cons, map_line_own, line_held, line_refreshed]
    rfl

theorem logged_commit (record : Record) :
    let o := (s.commit record).run fs
    Step.Logged ⟨.commit record o.value.1, s.slot, o.value.2.slot, o.reports⟩ := by
  intro o
  simp only [o, run_commit]
  refine ⟨_, _, rfl, fun backendLine => ?_, rfl⟩
  rw [List.map_cons, map_line_own, line_committed]
  rfl

end Store

namespace Step.Logged

variable {step : Step ε}

/-- A step either makes no event and leaves the slot, or the last of its events says what the slot
holds after it, and those before the backend's are right about the slot before it. -/
theorem shape (h : step.Logged) :
    (step.events = [] ∧ step.after = step.before) ∨
    ∃ (first : List (StoreEvent ε)) (own : List ε) (last : StoreEvent ε),
      step.events = first ++ (own.map .backend ++ [last]) ∧ Truthful step.before first ∧
        last.outcome? = some step.after := by
  obtain ⟨deed, before, after, events⟩ := step
  cases deed with
  | get force answer =>
    obtain ⟨hslot, hrefresh⟩ := h
    -- The backend is asked unless the slot is filled and no refresh was forced.
    by_cases hasked : force = true ∨ before = none
    · obtain ⟨name, own, hevents, -, hafter⟩ := hrefresh hasked
      exact Or.inr ⟨[.refreshing name, .held before], own, _, hevents,
        ⟨nofun, fun held heq => (StoreEvent.held.inj heq).symm, trivial⟩,
        (Store.outcome?_refreshed answer).trans (congrArg some hafter.symm)⟩
    · obtain ⟨hforce, hfilled⟩ := not_or.mp hasked
      obtain ⟨record, hrecord⟩ := Option.ne_none_iff_exists'.mp hfilled
      exact Or.inl (hslot record (Bool.eq_false_iff.mpr hforce) hrecord).2
  | commit record answer =>
    obtain ⟨name, own, hevents, -, hafter⟩ := h
    exact Or.inr ⟨[.committing name], own, _, hevents, ⟨nofun, trivial⟩,
      (Store.outcome?_committed record answer).trans (congrArg some hafter.symm)⟩
  | box => exact Or.inl h
  | change => exact Or.inl h

/-- The slot after a step is the one that its events leave. -/
theorem after_eq (h : step.Logged) : step.after = slotShown step.before step.events := by
  rcases h.shape with ⟨hevents, hafter⟩ | ⟨first, own, last, hevents, -, hlast⟩
  · rw [hevents, hafter]
    rfl
  · rw [hevents, ← List.append_assoc, slotShown_concat hlast]

/-- The events of a step are right about the slot that it starts with. -/
theorem truthful (h : step.Logged) : Truthful step.before step.events := by
  rcases h.shape with ⟨hevents, -⟩ | ⟨first, own, last, hevents, hfirst, hlast⟩
  · rw [hevents]
    trivial
  · rw [hevents]
    exact truthful_append.mpr ⟨hfirst, truthful_own hlast _ own⟩

end Step.Logged

/-! ## Runs -/

/-- Every step of a trail makes the events that it should, and all are right about a slot that held
`slot` at first. -/
structure Trail.Recorded (slot : Option Record) (trail : Trail ε) : Prop where
  logged : ∀ step ∈ trail.steps, step.Logged
  truthful : Truthful slot trail.events

theorem Trail.Recorded.cons {step : Step ε} {trail : Trail ε} (hstep : step.Logged)
    (hrest : Recorded step.after trail) : Recorded step.before (trail.cons step) where
  logged := List.forall_mem_cons.mpr ⟨hstep, hrest.logged⟩
  truthful := by
    rw [Trail.events_cons, truthful_append, ← hstep.after_eq]
    exact ⟨hstep.truthful, hrest.truthful⟩

theorem Uses.recorded_run (uses : Uses σ) (B : Backend σ ε) (s : Store σ) (fs : FileSystem) :
    (uses.run B s fs).Recorded s.slot := by
  -- The slot that a step leaves is the one that the rest of the run starts with.
  induction uses generalizing fs with
  | stop => exact ⟨fun _ hstep => absurd hstep List.not_mem_nil, trivial⟩
  | get force rest ih => exact .cons (s.logged_get fs force) (ih B _ _)
  | commit record rest ih => exact .cons (s.logged_commit fs record) (ih B _ _)
  | box rest ih =>
    have hstep : Step.Logged (⟨.box, s.slot, s.slot, []⟩ : Step ε) := ⟨rfl, rfl⟩
    exact .cons hstep (ih B.boxed s.boxed fs)
  | change edit rest ih =>
    have hstep : Step.Logged (⟨.change, s.slot, s.slot, []⟩ : Step ε) := ⟨rfl, rfl⟩
    exact .cons hstep (ih B { s with backend := (edit s.backend fs).1 } _)

/-- What an event that shows the old slot says after other events: the record that stands, in the
slot and in the line of the log, and nothing if none does. -/
structure TellsStanding (earlier : List (StoreEvent ε)) (held : Option Record) : Prop where
  slot : ∀ record, held = some record ↔ Standing earlier record
  standing : ∀ record, Standing earlier record →
    (StoreEvent.held held : StoreEvent ε).Reads ("Old host_info: " ++ record.display)
  nothing : (∀ record, ¬ Standing earlier record) →
    (StoreEvent.held held : StoreEvent ε).Reads "Old host_info: None"

theorem tellsStanding_slotShown (earlier : List (StoreEvent ε)) :
    TellsStanding earlier (slotShown none earlier) where
  slot _ := slotShown_eq_some_iff
  standing record h _ := by
    rw [slotShown_eq_some_iff.mpr h]
    rfl
  nothing h _ := by
    have hnone : slotShown none earlier = none :=
      Option.eq_none_iff_forall_ne_some.mpr fun record heq => h record (slotShown_eq_some_iff.mp heq)
    rw [hnone]
    rfl

/-- The log of a store tells the truth about its slot. Whatever the backend does and whatever is done
with a new store, each event that shows the old slot shows the record of the latest event that loaded
or committed one, if nothing failed since, and nothing otherwise. Every refresh announces itself,
shows the old slot and ends with one event for its answer; every commit announces itself and ends with
one event for its answer; and a get that is answered from the slot makes no event. Each event is told
with the line that it makes. -/
theorem log_tells_slot (B : Backend σ ε) (uses : Uses σ) (b : σ) (fs : FileSystem) :
    let trail := uses.run B (.ofBackend b) fs
    (∀ earlier held later, trail.events = earlier ++ .held held :: later →
      TellsStanding earlier held) ∧
    ∀ step ∈ trail.steps, step.Logged := by
  intro trail
  obtain ⟨hlogged, htruthful⟩ := uses.recorded_run B (.ofBackend b) fs
  refine ⟨fun earlier held later heq => ?_, hlogged⟩
  have hevents : Truthful none (earlier ++ .held held :: later) := heq ▸ htruthful
  obtain ⟨hheld, -⟩ := (truthful_append.mp hevents).2
  rw [hheld held rfl]
  exact tellsStanding_slotShown earlier

end HostRegistry
