import HostRegistry.Store.Basic

/-!
What the operations of a store do, in terms of the one call of its backend that they make.

`run_refresh`, `run_get_of_slot` and `run_commit` give the whole outcome: the answer, the slot, the
reports in their order and the files.
-/

set_option autoImplicit false

namespace HostRegistry.Store

variable {σ ε : Type} [Backend σ ε]

/-- The last event of a refresh. -/
def refreshed : Except Error Record → StoreEvent ε
  | .ok record => .loaded record
  | .error error => .refreshFailed error

/-- The last event of a commit. -/
def committed (record : Record) : Except Error Unit → StoreEvent ε
  | .ok _ => .updated record
  | .error error => .commitFailed error

/-- The store after a call of its backend that left a record, or none if it failed. -/
def afterCall {α : Type} (record : α → Record) (answer : Except Error α) (backend : σ) : Store σ :=
  ⟨backend, answer.toOption.map record⟩

/-- A refresh is one load, whose answer is passed on and kept. -/
theorem run_refresh (s : Store σ) (fs : FileSystem) :
    s.refresh.run fs =
      let call := (Backend.load s.backend).run fs
      ⟨(call.value.1, afterCall id call.value.1 call.value.2),
        .refreshing s.describe :: .held s.slot ::
          (call.reports.map .backend ++ [refreshed call.value.1]),
        call.files⟩ := by
  simp only [refresh, Script.run_bind, Script.run_emit, Script.run_mapReports]
  cases h : ((Backend.load s.backend).run fs).value.1 <;> rfl

/-- A get that may be answered from the slot is. -/
theorem run_get_of_slot {s : Store σ} {record : Record} (h : s.slot = some record)
    (fs : FileSystem) :
    (s.get false).run fs = (⟨(.ok record, s), [], fs⟩ : Outcome (StoreEvent ε) _) := by
  simp only [get, h]
  rfl

/-- Every other get is a refresh. -/
theorem get_eq_refresh {s : Store σ} {force : Bool} (h : force = true ∨ s.slot = none) :
    s.get force = s.refresh := by
  rcases h with rfl | h
  · rfl
  · cases force <;> simp only [get, h]

/-- A get is either answered from the slot or a refresh. -/
theorem get_cases (s : Store σ) (fs : FileSystem) (force : Bool) :
    (∃ record, force = false ∧ s.slot = some record ∧
      (s.get force).run fs = (⟨(.ok record, s), [], fs⟩ : Outcome (StoreEvent ε) _)) ∨
    ((force = true ∨ s.slot = none) ∧ s.get force = s.refresh) := by
  cases force with
  | true => exact Or.inr ⟨Or.inl rfl, get_eq_refresh (Or.inl rfl)⟩
  | false =>
    cases h : s.slot with
    | none => exact Or.inr ⟨Or.inr rfl, get_eq_refresh (Or.inr h)⟩
    | some record => exact Or.inl ⟨record, rfl, rfl, run_get_of_slot h fs⟩

/-- A commit is one persist; its answer is passed on, and a record that was persisted is kept. -/
theorem run_commit (record : Record) (s : Store σ) (fs : FileSystem) :
    (s.commit record).run fs =
      let call := (Backend.persist record s.backend).run fs
      ⟨(call.value.1, afterCall (fun _ => record) call.value.1 call.value.2),
        .committing s.describe :: (call.reports.map .backend ++ [committed record call.value.1]),
        call.files⟩ := by
  simp only [commit, Script.run_bind, Script.run_emit, Script.run_mapReports]
  cases h : ((Backend.persist record s.backend).run fs).value.1 <;> rfl

end HostRegistry.Store
