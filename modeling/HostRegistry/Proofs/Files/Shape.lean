import HostRegistry.Proofs.Files.Changes
import HostRegistry.Script

/-!
Scripts that look into no file.

The shape of a file system is where it has directories and where it has files, whatever the files
hold. Everything but reading a file depends on the shape alone, and keeps two file systems of one
shape alike (`SameShape.perform`). So does every script that reads no file: it has the same value and
the same reports on both.
-/

set_option autoImplicit false

namespace HostRegistry

/-- The requests that look into no file. -/
def Request.IsBlind : Request → Prop
  | .readFile _ => False
  | _ => True

/-- Whether an entry is a directory. -/
def Entry.isDirectory : Entry → Bool
  | .directory => true
  | .file _ => false

namespace FileSystem

/-- Two file systems have directories in the same places, and files in the same places. -/
structure SameShape (a b : FileSystem) : Prop where
  current : b.current = a.current
  find? : ∀ l, (b.find? l).map Entry.isDirectory = (a.find? l).map Entry.isDirectory

/-- Two answers are the same, and the file systems after them have the same shape. -/
structure Agree (x y : Except FileFault Unit × FileSystem) : Prop where
  answer : y.1 = x.1
  shape : SameShape x.2 y.2

section Branches

variable {c c' : Prop} [Decidable c] [Decidable c']

theorem agree_ite {x y x' y' : Except FileFault Unit × FileSystem} (hc : c' ↔ c)
    (hpos : c → Agree x x') (hneg : ¬c → Agree y y') :
    Agree (if c then x else y) (if c' then x' else y') := by
  by_cases h : c
  · rw [if_pos h, if_pos (hc.mpr h)]
    exact hpos h
  · rw [if_neg h, if_neg (h ∘ hc.mp)]
    exact hneg h

theorem agree_dite {x : c → Except FileFault Unit × FileSystem}
    {x' : c' → Except FileFault Unit × FileSystem} {y : ¬c → Except FileFault Unit × FileSystem}
    {y' : ¬c' → Except FileFault Unit × FileSystem} (hc : c' ↔ c)
    (hpos : ∀ h h', Agree (x h) (x' h')) (hneg : ∀ h h', Agree (y h) (y' h')) :
    Agree (if h : c then x h else y h) (if h : c' then x' h else y' h) := by
  by_cases h : c
  · rw [dif_pos h, dif_pos (hc.mpr h)]
    exact hpos _ _
  · rw [dif_neg h, dif_neg (h ∘ hc.mp)]
    exact hneg _ _

end Branches

namespace SameShape

variable {a b : FileSystem} (h : SameShape a b)
include h

/-! ## Where paths lead -/

/-- Nothing lies at a location on both, a directory on both, or a file on both. -/
theorem find?_cases (l : Location) :
    a.find? l = none ∧ b.find? l = none ∨
      a.find? l = some .directory ∧ b.find? l = some .directory ∨
      ∃ old new, a.find? l = some (.file old) ∧ b.find? l = some (.file new) := by
  have hkind := h.find? l
  cases ha : a.find? l with
  | none =>
    rw [ha, Option.map_none, Option.map_eq_none_iff] at hkind
    exact Or.inl ⟨rfl, hkind⟩
  | some e =>
    rw [ha, Option.map_some, Option.map_eq_some_iff] at hkind
    obtain ⟨e', hb, hsame⟩ := hkind
    cases e with
    | directory =>
      cases e' with
      | directory => exact Or.inr (Or.inl ⟨rfl, hb⟩)
      | file new => cases hsame
    | file old =>
      cases e' with
      | directory => cases hsame
      | file new => exact Or.inr (Or.inr ⟨old, new, rfl, hb⟩)

theorem isSome (l : Location) : (b.find? l).isSome = (a.find? l).isSome := by
  rcases h.find?_cases l with ⟨ha, hb⟩ | ⟨ha, hb⟩ | ⟨old, new, ha, hb⟩
  · rw [ha, hb]
  · rw [ha, hb]
  · rw [ha, hb]
    rfl

theorem eq_directory_iff (l : Location) :
    b.find? l = some .directory ↔ a.find? l = some .directory := by
  rcases h.find?_cases l with ⟨ha, hb⟩ | ⟨ha, hb⟩ | ⟨old, new, ha, hb⟩
  · rw [ha, hb]
  · rw [ha, hb]
  · rw [ha, hb]
    simp

theorem hasDirectory (l : Location) : b.hasDirectory l = a.hasDirectory l := by
  rw [Bool.eq_iff_iff, hasDirectory_iff, hasDirectory_iff]
  exact h.eq_directory_iff l

theorem step (l : Location) (s : Last) : b.step l s = a.step l s := by
  cases s with
  | name name => simp only [FileSystem.step, h.isSome]
  | _ => rfl

theorem walk (l : Location) (steps : List Last) : b.walk l steps = a.walk l steps := by
  induction steps generalizing l with
  | nil => rfl
  | cons s rest ih => simp only [FileSystem.walk, h.step, h.hasDirectory, ih]

theorem base (r : Route) : b.base r = a.base r := by
  rw [FileSystem.base, FileSystem.base, h.current, h.walk]

theorem target (path : String) (unnamed : FileFault) :
    b.target path unnamed = a.target path unnamed := by
  simp only [FileSystem.target, h.base]

theorem locate (path : String) : b.locate path = a.locate path := by
  simp only [FileSystem.locate, h.base, h.step, h.hasDirectory]

/-! ## Operations -/

/-- The same kind of entry comes to the same place, or goes. -/
theorem changed {l : Location} {e e' : Option Entry} {a' b' : FileSystem}
    (ha : ChangedAt l e a a') (hb : ChangedAt l e' b b')
    (hkind : e'.map Entry.isDirectory = e.map Entry.isDirectory) : SameShape a' b' where
  current := hb.current.trans (h.current.trans ha.current.symm)
  find? l' := by
    rw [ha.find?, hb.find?]
    split
    next => exact hkind
    next => exact h.find? l'

theorem failed (fault : FileFault) : Agree (.error fault, a) (.error fault, b) := ⟨rfl, h⟩

theorem done : Agree (.ok (), a) (.ok (), b) := ⟨rfl, h⟩

theorem makeDirectory (path : String) : Agree (a.makeDirectory path) (b.makeDirectory path) := by
  simp only [FileSystem.makeDirectory, h.target]
  cases a.target path .alreadyExists with
  | error fault => exact h.failed fault
  | ok t =>
    refine agree_ite Iff.rfl (fun _ => h.failed _) fun _ => ?_
    refine agree_ite (by rw [h.isSome]) (fun _ => h.failed _) fun _ => ?_
    refine agree_dite (by rw [h.hasDirectory]) (fun ha hb => ?_) fun _ _ => h.failed _
    exact (h.changed (changedAt_put ha _) (changedAt_put hb _) rfl).done

theorem writeFile (path : String) (content : ByteArray) :
    Agree (a.writeFile path content) (b.writeFile path content) := by
  simp only [FileSystem.writeFile, h.target]
  cases a.target path .isDirectory with
  | error fault => exact h.failed fault
  | ok t =>
    refine agree_ite Iff.rfl (fun _ => h.failed _) fun _ => ?_
    refine agree_ite Iff.rfl (fun _ => h.failed _) fun _ => ?_
    refine agree_dite (h.eq_directory_iff _) (fun _ _ => h.failed _) fun _ _ => ?_
    refine agree_dite (by rw [h.hasDirectory]) (fun ha hb => ?_) fun _ _ => h.failed _
    exact (h.changed (changedAt_put ha _) (changedAt_put hb _) rfl).done

theorem removeFile (path : String) : Agree (a.removeFile path) (b.removeFile path) := by
  simp only [FileSystem.removeFile, h.target]
  cases a.target path .isDirectory with
  | error fault => exact h.failed fault
  | ok t =>
    refine agree_ite Iff.rfl (fun _ => h.failed _) fun _ => ?_
    refine agree_ite ?_ (fun _ => h.failed _) fun _ => ?_
    · rw [← Option.not_isSome, ← Option.not_isSome, h.isSome]
    refine agree_dite (by rw [h.hasDirectory]) (fun ha hb => ?_) fun _ _ => h.failed _
    refine agree_ite Iff.rfl (fun _ => h.failed _) fun _ => ?_
    exact (h.changed (changedAt_drop ha) (changedAt_drop hb) rfl).done

theorem moveFile (source goal : String) : Agree (a.moveFile source goal) (b.moveFile source goal) := by
  simp only [FileSystem.moveFile, h.target]
  split
  next => exact h.failed _
  next => exact h.failed _
  next => exact h.failed _
  next s g _ _ =>
    refine agree_ite Iff.rfl (fun _ => h.failed _) fun _ => ?_
    rcases h.find?_cases (s.parent ++ [s.name]) with
      ⟨ha, hb⟩ | ⟨ha, hb⟩ | ⟨old, new, ha, hb⟩
    · rw [ha, hb]
      exact h.failed _
    · rw [ha, hb]
      exact h.failed _
    · rw [ha, hb]
      refine agree_ite Iff.rfl (fun _ => h.failed _) fun _ => ?_
      refine agree_ite Iff.rfl (fun _ => h.failed _) fun _ => ?_
      refine agree_ite Iff.rfl (fun _ => h.done) fun _ => ?_
      refine agree_dite (h.eq_directory_iff _) (fun _ _ => h.failed _) fun _ _ => ?_
      refine agree_dite (by rw [h.hasDirectory]) (fun hparent hparent' => ?_) fun _ _ => h.failed _
      have hmoved := h.changed (changedAt_put (e := .file old) hparent fun _ => by contradiction)
        (changedAt_put (e := .file new) hparent' fun _ => by contradiction) rfl
      refine agree_dite (by rw [hmoved.hasDirectory]) (fun hplain hplain' => ?_) fun _ _ => h.failed _
      exact (hmoved.changed (changedAt_drop hplain) (changedAt_drop hplain') rfl).done

/-- All that can be asked, but for reading a file, is answered alike and keeps the shapes alike. -/
theorem perform {r : Request} (hr : r.IsBlind) :
    (b.perform r).1 = (a.perform r).1 ∧ SameShape (a.perform r).2 (b.perform r).2 := by
  cases r with
  | readFile path => cases hr
  | pathExists path =>
    refine ⟨?_, h⟩
    simp only [FileSystem.perform, FileSystem.pathExists, h.locate]
  | isDirectory path =>
    refine ⟨?_, h⟩
    simp only [FileSystem.perform, FileSystem.isDirectory, h.locate, h.hasDirectory]
  | makeDirectory path => exact ⟨(h.makeDirectory path).answer, (h.makeDirectory path).shape⟩
  | writeFile path content =>
    exact ⟨(h.writeFile path content).answer, (h.writeFile path content).shape⟩
  | moveFile source goal => exact ⟨(h.moveFile source goal).answer, (h.moveFile source goal).shape⟩
  | removeFile path => exact ⟨(h.removeFile path).answer, (h.removeFile path).shape⟩

end SameShape

end FileSystem

/-! ## Scripts -/

namespace Script

variable {ρ ρ' α β : Type}

/-- A script reads no file, whatever it is answered. -/
inductive Blind : Script ρ α → Prop
  | done (a : α) : Blind (.done a)
  | ask {r : Request} {next : r.Answer → Script ρ α} :
    r.IsBlind → (∀ answer, Blind (next answer)) → Blind (.ask r next)
  | report {item : ρ} {next : Script ρ α} : Blind next → Blind (.report item next)

namespace Blind

/-- On two file systems of one shape such a script does the same, and leaves them so. -/
theorem run {x : Script ρ α} (hx : x.Blind) {a b : FileSystem} (h : a.SameShape b) :
    (x.run b).value = (x.run a).value ∧ (x.run b).reports = (x.run a).reports ∧
      (x.run a).files.SameShape (x.run b).files := by
  induction hx generalizing a b with
  | done value => exact ⟨rfl, rfl, h⟩
  | ask hr _ ih =>
    obtain ⟨hanswer, hshape⟩ := h.perform hr
    rw [Script.run, Script.run, hanswer]
    exact ih _ hshape
  | report _ ih =>
    obtain ⟨hvalue, hreports, hshape⟩ := ih h
    exact ⟨hvalue, congrArg (List.cons _) hreports, hshape⟩

theorem pure (a : α) : (Pure.pure a : Script ρ α).Blind := .done a

theorem emit (item : ρ) : (Script.emit item).Blind := .report (.done ())

theorem request {r : Request} (hr : r.IsBlind) : (Script.request r : Script ρ _).Blind :=
  .ask hr fun answer => .done answer

theorem bind {x : Script ρ α} {f : α → Script ρ β} (hx : x.Blind) (hf : ∀ a, (f a).Blind) :
    (x >>= f).Blind := by
  show (x.bind f).Blind
  induction hx with
  | done a => exact hf a
  | ask hr _ ih => exact .ask hr ih
  | report _ ih => exact .report ih

theorem mapReports (f : ρ → ρ') {x : Script ρ α} (h : x.Blind) : (x.mapReports f).Blind := by
  induction h with
  | done a => exact .done a
  | ask hr _ ih => exact .ask hr ih
  | report _ ih => exact .report ih

end Blind

end Script

namespace Files

variable {ρ : Type}

theorem blind_settled (path : String) (fault : FileFault) :
    (makeAll.settled path fault : Script ρ _).Blind := by
  have hrequest : (Script.request (.isDirectory path) : Script ρ _).Blind := .request trivial
  apply hrequest.bind
  intro there
  split <;> exact .pure _

/-- Making directories looks into no file. -/
theorem blind_makeAll (paths : List String) : (makeAll paths : Script ρ _).Blind := by
  induction paths with
  | nil => exact .pure _
  | cons path above ih =>
    unfold makeAll
    split
    next => exact .pure _
    have hrequest : (Script.request (.makeDirectory path) : Script ρ _).Blind := .request trivial
    apply hrequest.bind
    intro first
    split
    next => exact .pure _
    next =>
      apply ih.bind
      intro made
      split
      next => exact .pure _
      apply hrequest.bind
      intro second
      split
      next => exact .pure _
      next => exact blind_settled _ _
    next => exact blind_settled _ _

end Files

end HostRegistry
