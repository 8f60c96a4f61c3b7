import HostRegistry.Files.Medium
import HostRegistry.Proofs.Files.Writing
import HostRegistry.Proofs.States

/-!
What scripts leave on a medium.

A write either finds no place for its file, and then nothing happens; or it opens the file and puts
the content in, as far as the medium takes it. All that changes on the way is that file. On a medium
that takes everything, a script does what it does by itself (`run_on_ample`).
-/

set_option autoImplicit false

namespace HostRegistry

namespace FileSystem

variable {fs : FileSystem} {path : String}

/-- Whether a file can be written does not depend on what is written. -/
theorem writeFile_fst (fs : FileSystem) (path : String) (content other : ByteArray) :
    (fs.writeFile path content).1 = (fs.writeFile path other).1 := by
  unfold writeFile
  repeat' split
  all_goals rfl

/-- A file can be written, or every write of it fails before it has an effect. -/
theorem writable_or_fails (fs : FileSystem) (path : String) :
    (∃ t, fs.Writable path t) ∨ ∃ fault, ∀ content, fs.writeFile path content = (.error fault, fs) := by
  cases h : (fs.writeFile path .empty).1 with
  | ok _ =>
    obtain ⟨t, ht, -⟩ := writable_of_writeFile h
    exact Or.inl ⟨t, ht⟩
  | error fault =>
    refine Or.inr ⟨fault, fun content => ?_⟩
    have hfst := (fs.writeFile_fst path content .empty).trans h
    rcases fs.writeFile_cases path content with ⟨fault', hrun⟩ | ⟨_, _, -, -, -, -, hrun, -⟩
    · rw [hrun] at hfst ⊢
      cases hfst
      rfl
    · rw [hrun] at hfst
      cases hfst

/-- `after` is `before` but for what is in the file that a path leads to. -/
def Rewritten (path : String) (before after : FileSystem) : Prop :=
  after = before ∨
    ∃ t part, before.Writable path t ∧ ChangedAt t.place (some (.file part)) before after

theorem Rewritten.trans {before middle after : FileSystem} (first : Rewritten path before middle)
    (second : Rewritten path middle after) : Rewritten path before after := by
  rcases first with rfl | ⟨t, part, ht, hfirst⟩
  · exact second
  · rcases second with rfl | ⟨t', part', ht', hsecond⟩
    · exact Or.inr ⟨t, part, ht, hfirst⟩
    · cases (ht.changedAt hfirst).target.symm.trans ht'.target
      exact Or.inr ⟨t, part', ht, hfirst.trans hsecond⟩

theorem rewritten_writeFile (fs : FileSystem) (path : String) (content : ByteArray) :
    Rewritten path fs (fs.writeFile path content).2 := by
  rcases fs.writable_or_fails path with ⟨t, ht⟩ | ⟨fault, hfails⟩
  · obtain ⟨after, hwrite, hchange⟩ := ht.exists_writeFile content
    rw [hwrite]
    exact Or.inr ⟨t, content, ht, hchange⟩
  · rw [hfails]
    exact Or.inl rfl

end FileSystem

namespace Medium

open FileSystem

variable {ρ α β : Type} {fs : FileSystem} {path : String} {content : ByteArray}

/-! ## Scripts on a medium -/

theorem on_bind (m : Medium) (x : Script ρ α) (f : α → Script ρ β) :
    m.on (x >>= f) = m.on x >>= fun a => m.on (f a) := by
  show m.on (x.bind f) = (m.on x).bind fun a => m.on (f a)
  induction x with
  | done a => rfl
  | report item next ih => exact congrArg (Script.report item) ih
  | ask r next ih =>
    have hask : (fun answer => m.on ((next answer).bind f)) =
        fun answer => (m.on (next answer)).bind fun a => m.on (f a) := funext ih
    cases r with
    | writeFile path content =>
      show (m.write path content >>= fun answer => m.on ((next answer).bind f)) =
        (m.write path content >>= fun answer => m.on (next answer)) >>= fun a => m.on (f a)
      rw [hask, bind_assoc]
      rfl
    | _ => exact congrArg (Script.ask _) hask

/-- A request to write becomes the writing. -/
theorem on_writeFile (m : Medium) (path : String) (content : ByteArray) :
    m.on (Script.request (.writeFile path content) : Script ρ _) = m.write path content :=
  bind_pure (m.write path content)

/-- A script after a request that writes nothing. -/
theorem on_request_bind (m : Medium) {r : Request}
    (hr : m.on (Script.request r : Script ρ _) = Script.request r) (f : r.Answer → Script ρ β) :
    m.on (Script.request r >>= f) = Script.request r >>= fun answer => m.on (f answer) := by
  rw [on_bind, hr]

/-- Making directories writes no file. -/
theorem on_makeAll (m : Medium) (paths : List String) :
    m.on (Files.makeAll paths : Script ρ _) = Files.makeAll paths := by
  have hsettled : ∀ path fault, m.on (Files.makeAll.settled path fault : Script ρ _) =
      Files.makeAll.settled path fault := by
    intro path fault
    refine (m.on_request_bind rfl _).trans (congrArg _ (funext fun there => ?_))
    cases there <;> rfl
  induction paths with
  | nil => rfl
  | cons path above ih =>
    unfold Files.makeAll
    split
    · rfl
    refine (m.on_request_bind rfl _).trans (congrArg _ (funext fun first => ?_))
    split
    · rfl
    · rw [on_bind, ih]
      refine congrArg _ (funext fun made => ?_)
      split
      · rfl
      refine (m.on_request_bind rfl _).trans (congrArg _ (funext fun second => ?_))
      split
      · rfl
      · exact hsettled _ _
    · exact hsettled _ _

/-! ## On the way of a write -/

theorem within_pour (path : String) (content : ByteArray) (n : Nat) :
    (pour path content n : Script ρ _).Within (Rewritten path) := by
  have hwrite : ∀ content, (Script.request (.writeFile path content) : Script ρ _).Within
      (Rewritten path) := fun content =>
    Script.within_request (fun _ => Or.inl rfl) fun fs => fs.rewritten_writeFile path content
  induction n with
  | zero => exact hwrite _
  | succ n ih =>
    refine Script.within_bind (fun _ _ _ first second => first.trans second) ih fun answer => ?_
    cases answer with
    | error fault => exact Script.within_pure (fun _ => Or.inl rfl) _
    | ok _ => exact hwrite _

/-- All that changes while a file is written is what it holds. -/
theorem within_write (m : Medium) (path : String) (content : ByteArray) :
    (m.write path content : Script ρ _).Within (Rewritten path) := by
  unfold write
  split
  · exact within_pour path content _
  · refine Script.within_bind (fun _ _ _ first second => first.trans second)
      (within_pour path content _) fun answer => ?_
    cases answer <;> exact Script.within_pure (fun _ => Or.inl rfl) _

/-! ## What a write leaves -/

theorem run_pour_of_fails (ρ : Type) {fault : FileFault}
    (h : ∀ content, fs.writeFile path content = (.error fault, fs)) (content : ByteArray) (n : Nat) :
    (pour path content n : Script ρ _).run fs = ⟨.error fault, [], fs⟩ := by
  induction n with
  | zero =>
    unfold pour
    rw [Script.run_request, perform, h]
  | succ n ih =>
    unfold pour
    rw [Script.run_bind, ih]
    rfl

/-- Pouring leaves the first bytes of the content. -/
theorem run_pour_of_writable (ρ : Type) {t : Target} (h : fs.Writable path t) (content : ByteArray)
    (n : Nat) :
    ∃ after, (pour path content n : Script ρ _).run fs = ⟨.ok (), [], after⟩ ∧
      ChangedAt t.place (some (.file (content.extract 0 n))) fs after := by
  induction n with
  | zero =>
    obtain ⟨after, hwrite, hchange⟩ := h.exists_writeFile (content.extract 0 0)
    unfold pour
    rw [Script.run_request, perform, hwrite]
    exact ⟨after, rfl, hchange⟩
  | succ n ih =>
    obtain ⟨before, hrun, hbefore⟩ := ih
    obtain ⟨after, hwrite, hafter⟩ :=
      (h.changedAt hbefore).exists_writeFile (content.extract 0 (n + 1))
    refine ⟨after, ?_, hbefore.trans hafter⟩
    unfold pour
    rw [Script.run_bind, hrun]
    dsimp only
    rw [Script.run_request, perform, hwrite]
    rfl

theorem run_write_of_fails (ρ : Type) (m : Medium) {fault : FileFault}
    (h : ∀ content, fs.writeFile path content = (.error fault, fs)) (content : ByteArray) :
    (m.write path content : Script ρ _).run fs = ⟨.error fault, [], fs⟩ := by
  unfold write
  split
  · exact run_pour_of_fails ρ h content _
  · rw [Script.run_bind, run_pour_of_fails ρ h content]
    rfl

/-- A write that is not broken off leaves the whole content. -/
theorem run_write_of_takes (ρ : Type) {m : Medium} {t : Target} (h : fs.Writable path t)
    (htakes : m.breaks path content = none) :
    ∃ after, (m.write path content : Script ρ _).run fs = ⟨.ok (), [], after⟩ ∧
      ChangedAt t.place (some (.file content)) fs after := by
  have hpoured := run_pour_of_writable ρ h content content.size
  rw [ByteArray.extract_zero_size] at hpoured
  unfold write
  rwa [htakes]

/-- A write that is broken off fails and leaves the part that was in by then. -/
theorem run_write_of_breaks (ρ : Type) {m : Medium} {t : Target} {n : Fin content.size}
    {fault : FileFault} (h : fs.Writable path t) (hbreaks : m.breaks path content = some (n, fault)) :
    ∃ after, (m.write path content : Script ρ _).run fs = ⟨.error fault, [], after⟩ ∧
      ChangedAt t.place (some (.file (content.extract 0 n))) fs after := by
  obtain ⟨after, hrun, hchange⟩ := run_pour_of_writable ρ h content n
  refine ⟨after, ?_, hchange⟩
  unfold write
  rw [hbreaks]
  dsimp only
  rw [Script.run_bind, hrun]
  rfl

/-- A write that succeeds leaves the whole content. -/
theorem writable_of_run_write {m : Medium}
    (h : ((m.write path content : Script ρ _).run fs).value = .ok ()) :
    ∃ t, fs.Writable path t ∧ ChangedAt t.place (some (.file content)) fs
      ((m.write path content : Script ρ _).run fs).files := by
  rcases fs.writable_or_fails path with ⟨t, ht⟩ | ⟨fault, hfails⟩
  · refine ⟨t, ht, ?_⟩
    cases hbreaks : m.breaks path content with
    | none =>
      obtain ⟨after, hrun, hchange⟩ := run_write_of_takes ρ ht hbreaks
      rwa [hrun]
    | some breaks =>
      obtain ⟨after, hrun, -⟩ := run_write_of_breaks ρ ht hbreaks
      rw [hrun] at h
      cases h
  · rw [run_write_of_fails ρ m hfails] at h
    cases h

/-- What is not broken off goes as on a medium that takes everything. -/
theorem write_of_takes {m : Medium} (h : m.breaks path content = none) :
    (m.write path content : Script ρ _) = ample.write path content := by
  rw [write, h]
  rfl

/-- On a medium that takes everything, a script does what it does by itself. -/
theorem run_on_ample (x : Script ρ α) (fs : FileSystem) : (ample.on x).run fs = x.run fs := by
  have htakes : ∀ {path : String} (content : ByteArray), ample.breaks path content = none :=
    fun _ => rfl
  induction x generalizing fs with
  | done a => rfl
  | report item next ih =>
    show (Script.report item (ample.on next)).run fs = _
    rw [Script.run, ih, Script.run]
  | ask r next ih =>
    cases r with
    | writeFile path content =>
      show (ample.write path content >>= fun answer => ample.on (next answer)).run fs = _
      rw [Script.run_bind, Script.run, perform]
      rcases fs.writable_or_fails path with ⟨t, ht⟩ | ⟨fault, hfails⟩
      · obtain ⟨after, hwrite, hchange⟩ := ht.exists_writeFile content
        obtain ⟨after', hrun, hchange'⟩ := run_write_of_takes ρ ht (htakes content)
        obtain rfl := hchange.unique hchange'
        rw [hrun, hwrite]
        exact ih _ _
      · rw [run_write_of_fails ρ ample hfails, hfails]
        exact ih _ _
    | _ => exact ih _ _

end Medium

end HostRegistry
