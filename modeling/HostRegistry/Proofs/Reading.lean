import HostRegistry.Script

/-!
Scripts that only read.

`Reads` is told by the requests of a script and says nothing about what is answered; such a script
leaves every file system as it was.
-/

set_option autoImplicit false

namespace HostRegistry

/-- The requests that change nothing. -/
def Request.IsReading : Request → Prop
  | .readFile _ | .pathExists _ | .isDirectory _ => True
  | .makeDirectory _ | .writeFile _ _ | .moveFile _ _ | .removeFile _ => False

theorem FileSystem.perform_of_isReading {r : Request} (h : r.IsReading) (fs : FileSystem) :
    (fs.perform r).2 = fs := by
  cases r with
  | readFile path => rfl
  | pathExists path => rfl
  | isDirectory path => rfl
  | makeDirectory path => cases h
  | writeFile path content => cases h
  | moveFile source goal => cases h
  | removeFile path => cases h

namespace Script

variable {ρ ρ' α β : Type}

/-- A script only reads, and whatever it is answered it ends with a value of `P`. -/
inductive Reads (P : α → Prop) : Script ρ α → Prop
  | done {a : α} : P a → Reads P (.done a)
  | ask {r : Request} {next : r.Answer → Script ρ α} :
    r.IsReading → (∀ answer, Reads P (next answer)) → Reads P (.ask r next)
  | report {item : ρ} {next : Script ρ α} : Reads P next → Reads P (.report item next)

namespace Reads

variable {P : α → Prop} {Q : β → Prop}

/-- The files are as they were, and the value is one of `P`. -/
theorem run {x : Script ρ α} (h : x.Reads P) (fs : FileSystem) :
    P (x.run fs).value ∧ (x.run fs).files = fs := by
  induction h with
  | done ha => exact ⟨ha, rfl⟩
  | ask hr _ ih =>
    rw [Script.run, FileSystem.perform_of_isReading hr]
    exact ih _
  | report _ ih => exact ih

theorem pure {a : α} (h : P a) : (Pure.pure a : Script ρ α).Reads P := .done h

/-- Nothing is said about the value of an error. -/
theorem pure_error {ε : Type} (error : ε) :
    (Pure.pure (.error error) : Script ρ (Except ε α)).Reads fun answer =>
      ∀ a, answer = .ok a → P a := by
  apply pure
  intro a h
  cases h

theorem pure_ok {ε : Type} {a : α} (h : P a) :
    (Pure.pure (.ok a) : Script ρ (Except ε α)).Reads fun answer =>
      ∀ a, answer = .ok a → P a := by
  apply pure
  intro other heq
  cases heq
  exact h

theorem emit (item : ρ) : (Script.emit item).Reads fun _ => True := .report (.done trivial)

theorem request {r : Request} (h : r.IsReading) : (Script.request r : Script ρ _).Reads fun _ => True :=
  .ask h fun _ => .done trivial

theorem bind {x : Script ρ α} {f : α → Script ρ β} (hx : x.Reads P) (hf : ∀ a, P a → (f a).Reads Q) :
    (x >>= f).Reads Q := by
  show (x.bind f).Reads Q
  induction hx with
  | done ha => exact hf _ ha
  | ask hr _ ih => exact .ask hr ih
  | report _ ih => exact .report ih

theorem mapReports (f : ρ → ρ') {x : Script ρ α} (h : x.Reads P) : (x.mapReports f).Reads P := by
  induction h with
  | done ha => exact .done ha
  | ask hr _ ih => exact .ask hr ih
  | report _ ih => exact .report ih

end Reads

end Script

theorem Files.reads_readText {ρ : Type} (path : String) :
    (Files.readText path : Script ρ _).Reads fun _ => True := by
  have hread : (Script.request (.readFile path) : Script ρ _).Reads fun _ => True :=
    .request trivial
  apply hread.bind
  intro answer _
  cases answer with
  | error fault => exact .pure trivial
  | ok content =>
    cases hdecode : String.fromUTF8? content with
    | none =>
      simp only [hdecode]
      exact .pure trivial
    | some text =>
      simp only [hdecode]
      exact .pure trivial

end HostRegistry
