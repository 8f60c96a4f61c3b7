import HostRegistry.Proofs.Store.Coherence
import HostRegistry.Store.Memory

/-!
A store over a backend that holds the record itself.

Calls of the backend may fail at any time and in any order. As long as nobody else changes the record,
a filled slot holds it: a call that succeeds puts the record into the slot, and one that fails empties
the slot and leaves the record as it was. So what a get answers is the last record whose commit
succeeded, whether the backend was asked or not.
-/

set_option autoImplicit false

namespace HostRegistry

variable {σ ε : Type}

/-- A backend holds one record. A load that succeeds gives it and none changes it; a persist that
succeeds replaces it and one that fails leaves it. -/
structure HoldsRecord (B : Backend σ ε) (record : σ → Record) : Prop where
  load : ∀ b fs,
    let call := ((B.load b).run fs).value
    record call.2 = record b ∧ ∀ r, call.1 = .ok r → r = record b
  persist : ∀ r b fs,
    let call := ((B.persist r b).run fs).value
    record call.2 = (call.1.toOption.map fun _ => r).getD (record b)

theorem holdsRecord_memory :
    HoldsRecord (inferInstance : Backend MemoryBackend Empty) MemoryBackend.record where
  load _ _ := ⟨rfl, fun _ h => (Except.ok.inj h).symm⟩
  persist _ _ _ := rfl

theorem SwitchedBackend.eq_of_loadAnswer {b : SwitchedBackend} {r : Record}
    (h : b.loadAnswer = .ok r) : r = b.record := by
  unfold loadAnswer at h
  split at h
  · cases h
  · split at h
    · cases h
    · exact (Except.ok.inj h).symm

theorem holdsRecord_switched :
    HoldsRecord (inferInstance : Backend SwitchedBackend Empty) SwitchedBackend.record where
  load _ _ := ⟨rfl, fun _ h => SwitchedBackend.eq_of_loadAnswer h⟩
  persist r b _ := by
    show (b.afterPersist r).record = (b.persistAnswer.toOption.map fun _ => r).getD b.record
    unfold SwitchedBackend.afterPersist SwitchedBackend.persistAnswer
    cases b.switches.failPersist <;> rfl

/-! ## Turns -/

/-- What is done with a store whose backend holds a record. Others may change the backend, its
switches for one, but not the record. -/
inductive Turn (record : σ → Record) where
  | get (force : Bool)
  | commit (r : Record)
  | change (edit : σ → σ) (keeps : ∀ b, record (edit b) = record b)

/-- A store and the files around it. -/
structure Scene (σ : Type) where
  store : Store σ
  files : FileSystem

variable {record : σ → Record}

/-- Plays one turn. -/
def Turn.play (B : Backend σ ε) (scene : Scene σ) : Turn record → Deed × Scene σ
  | .get force =>
    let o := (scene.store.get force).run scene.files
    (.get force o.value.1, ⟨o.value.2, o.files⟩)
  | .commit r =>
    let o := (scene.store.commit r).run scene.files
    (.commit r o.value.1, ⟨o.value.2, o.files⟩)
  | .change edit _ => (.change, { scene with store.backend := edit scene.store.backend })

/-- Plays turns one after the other. -/
def Turn.playAll (B : Backend σ ε) (scene : Scene σ) : List (Turn record) → List Deed × Scene σ
  | [] => ([], scene)
  | turn :: rest =>
    let (deed, next) := turn.play B scene
    let (deeds, last) := playAll B next rest
    (deed :: deeds, last)

theorem Turn.playAll_cons (B : Backend σ ε) (scene : Scene σ) (turn : Turn record)
    (rest : List (Turn record)) :
    playAll B scene (turn :: rest) =
      ((turn.play B scene).1 :: (playAll B (turn.play B scene).2 rest).1,
        (playAll B (turn.play B scene).2 rest).2) :=
  rfl

/-- The record of the last commit that succeeded. -/
def lastCommit (deeds : List Deed) : Option Record := (deeds.filterMap Deed.committed?).getLast?

/-- What was done with a store and the store afterwards agree with the record that the backend holds,
given the one that it held at first. A get answers with the last record that was committed before it,
commits that failed left out; and the next one succeeds if it may be answered from a filled slot or
if the backend answers. -/
structure AgreesWithRecord (B : Backend σ ε) (record : σ → Record) (initial : Record)
    (deeds : List Deed) (s : Store σ) : Prop where
  slot : ∀ r, s.slot = some r → r = record s.backend
  backend : record s.backend = (lastCommit deeds).getD initial
  answers : ∀ earlier force r later, deeds = earlier ++ .get force (.ok r) :: later →
    r = (lastCommit earlier).getD initial
  unseen : ∀ earlier failed error between force r later,
    deeds = earlier ++ .commit failed (.error error) :: (between ++ .get force (.ok r) :: later) →
      r = (lastCommit (earlier ++ between)).getD initial
  served : ∀ force fs,
    (force = false ∧ s.slot ≠ none) ∨ (∃ r, ((B.load s.backend).run fs).value.1 = .ok r) →
      ((s.get force).run fs).value.1 = .ok ((lastCommit deeds).getD initial)

/-! ## One turn -/

/-- What one turn does to a store whose slot agrees with the record. -/
structure Kept (record : σ → Record) (before : Record) (deed : Deed) (after : Store σ) : Prop where
  slot : ∀ r, after.slot = some r → r = record after.backend
  backend : record after.backend = deed.committed?.getD before
  answer : ∀ force r, deed = .get force (.ok r) → r = before

theorem Store.slot_afterCall {α : Type} {f : α → Record} {answer : Except Error α} {b : σ}
    {r : Record} (h : (afterCall f answer b).slot = some r) : ∃ a, answer = .ok a ∧ f a = r := by
  cases answer with
  | error error => cases h
  | ok a => exact ⟨a, rfl, Option.some.inj h⟩

namespace HoldsRecord

variable {B : Backend σ ε} (h : HoldsRecord B record)
include h

theorem refresh (s : Store σ) (fs : FileSystem) (force : Bool) :
    Kept record (record s.backend) (.get force (s.refresh.run fs).value.1)
      (s.refresh.run fs).value.2 := by
  obtain ⟨hkept, hanswer⟩ := h.load s.backend fs
  rw [Store.run_refresh]
  refine ⟨?_, hkept, ?_⟩
  · intro r hr
    obtain ⟨a, ha, rfl⟩ := Store.slot_afterCall hr
    exact (hanswer a ha).trans hkept.symm
  · intro _ r hdeed
    exact hanswer r (Deed.get.inj hdeed).2

theorem commit (s : Store σ) (fs : FileSystem) (r : Record) :
    Kept record (record s.backend) (.commit r ((s.commit r).run fs).value.1)
      ((s.commit r).run fs).value.2 := by
  have hkept := h.persist r s.backend fs
  rw [Store.run_commit]
  refine ⟨?_, ?_, nofun⟩
  · intro r' hr
    obtain ⟨a, ha, rfl⟩ := Store.slot_afterCall hr
    simp only [ha] at hkept
    exact hkept.symm
  · refine hkept.trans ?_
    generalize ((Backend.persist r s.backend).run fs).value.1 = answer
    cases answer <;> rfl

/-- A get answers with the record if it is answered from the slot or the backend answers. -/
theorem get_eq {s : Store σ} (hslot : ∀ r, s.slot = some r → r = record s.backend) (force : Bool)
    (fs : FileSystem)
    (hserved : (force = false ∧ s.slot ≠ none) ∨
      ∃ r, ((B.load s.backend).run fs).value.1 = .ok r) :
    ((s.get force).run fs).value.1 = .ok (record s.backend) := by
  rcases s.get_cases fs force with ⟨r, -, hfilled, hrun⟩ | ⟨hasked, hrefresh⟩
  · rw [hrun]
    exact congrArg Except.ok (hslot r hfilled)
  · rcases hserved with ⟨hforce, hfilled⟩ | ⟨r, hr⟩
    · rcases hasked with hforced | hempty
      · cases hforce.symm.trans hforced
      · exact absurd hempty hfilled
    · rw [hrefresh, Store.run_refresh]
      exact hr.trans (congrArg Except.ok ((h.load s.backend fs).2 r hr))

/-- Every turn keeps the slot in agreement with the record. -/
theorem play (turn : Turn record) (scene : Scene σ)
    (hslot : ∀ r, scene.store.slot = some r → r = record scene.store.backend) :
    Kept record (record scene.store.backend) (turn.play B scene).1 (turn.play B scene).2.store := by
  cases turn with
  | get force =>
    rcases scene.store.get_cases scene.files force with ⟨r, -, hfilled, hrun⟩ | ⟨-, hrefresh⟩
    · simp only [Turn.play, hrun]
      refine ⟨hslot, rfl, ?_⟩
      intro _ r' hdeed
      obtain rfl := Except.ok.inj (Deed.get.inj hdeed).2
      exact hslot r hfilled
    · simp only [Turn.play, hrefresh]
      exact h.refresh scene.store scene.files force
  | commit r => exact h.commit scene.store scene.files r
  | change edit keeps =>
    refine ⟨?_, keeps scene.store.backend, nofun⟩
    intro r hr
    exact (hslot r hr).trans (keeps scene.store.backend).symm

end HoldsRecord

/-! ## Any number of turns -/

theorem lastCommit_cons (deed : Deed) (deeds : List Deed) (initial : Record) :
    (lastCommit (deed :: deeds)).getD initial =
      (lastCommit deeds).getD (deed.committed?.getD initial) := by
  unfold lastCommit
  rw [getLast?_filterMap_cons, Option.getD_or]

/-- A commit that failed leaves no trace among the commits. -/
theorem lastCommit_failed (earlier between : List Deed) (r : Record) (error : Error) :
    lastCommit (earlier ++ .commit r (.error error) :: between) = lastCommit (earlier ++ between) := by
  unfold lastCommit
  rw [List.filterMap_append, List.filterMap_cons_none rfl, List.filterMap_append]

/-- A commit that failed is unseen if each get answers with the last commit before it. -/
theorem HoldsRecord.agrees_of_answers {B : Backend σ ε} (h : HoldsRecord B record)
    {initial : Record} {deeds : List Deed} {s : Store σ}
    (hslot : ∀ r, s.slot = some r → r = record s.backend)
    (hbackend : record s.backend = (lastCommit deeds).getD initial)
    (hanswers : ∀ earlier force r later, deeds = earlier ++ .get force (.ok r) :: later →
      r = (lastCommit earlier).getD initial) : AgreesWithRecord B record initial deeds s where
  slot := hslot
  backend := hbackend
  answers := hanswers
  unseen earlier failed error between force r later heq := by
    rw [← lastCommit_failed earlier between failed error]
    refine hanswers _ force r later ?_
    rw [heq, List.append_assoc, List.cons_append]
  served force fs hserved := by
    rw [← hbackend]
    exact h.get_eq hslot force fs hserved

/-- After any turns the slot agrees with the record. -/
theorem HoldsRecord.playAll {B : Backend σ ε} (h : HoldsRecord B record) (turns : List (Turn record))
    (scene : Scene σ) (hslot : ∀ r, scene.store.slot = some r → r = record scene.store.backend) :
    AgreesWithRecord B record (record scene.store.backend) (Turn.playAll B scene turns).1
      (Turn.playAll B scene turns).2.store := by
  induction turns generalizing scene with
  | nil =>
    refine h.agrees_of_answers hslot rfl fun earlier force r later heq => ?_
    cases earlier <;> cases heq
  | cons turn rest ih =>
    obtain ⟨hnext, hbackend, hanswer⟩ := h.play turn scene hslot
    have hrest := ih (turn.play B scene).2 hnext
    rw [hbackend] at hrest
    rw [Turn.playAll_cons]
    -- The first get is answered from what this turn found, a later one from what it left.
    refine h.agrees_of_answers hrest.slot (hrest.backend.trans (lastCommit_cons ..).symm) ?_
    intro earlier force r later heq
    cases earlier with
    | nil => exact hanswer force r (List.cons.inj heq).1
    | cons deed earlier =>
      obtain ⟨hdeed, htail⟩ := List.cons.inj heq
      rw [lastCommit_cons, ← hdeed]
      exact hrest.answers earlier force r later htail

/-- The slot of a store agrees with the record behind it, for a backend in memory and for one that
holds its record and fails whenever its switches say so. Whatever is done with a new store while the
record is changed by commits alone, a filled slot holds the record, which is the last one whose commit
succeeded or the first one; every get that succeeds, forced or not, answers with the last commit before
it, as if commits that failed had not been made; and a get fails only if the backend is asked and
fails. -/
theorem slot_agrees_with_record :
    (∀ (first : Record) (fs : FileSystem) (turns : List (Turn MemoryBackend.record)),
      let (deeds, last) := Turn.playAll inferInstance ⟨.ofBackend ⟨first⟩, fs⟩ turns
      AgreesWithRecord inferInstance MemoryBackend.record first deeds last.store) ∧
    ∀ (b : SwitchedBackend) (fs : FileSystem) (turns : List (Turn SwitchedBackend.record)),
      let (deeds, last) := Turn.playAll inferInstance ⟨.ofBackend b, fs⟩ turns
      AgreesWithRecord inferInstance SwitchedBackend.record b.record deeds last.store :=
  ⟨fun first fs turns => holdsRecord_memory.playAll turns ⟨.ofBackend ⟨first⟩, fs⟩ nofun,
    fun b fs turns => holdsRecord_switched.playAll turns ⟨.ofBackend b, fs⟩ nofun⟩

end HostRegistry
