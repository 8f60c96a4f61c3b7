import HostRegistry.Proofs.Config.Stored
import HostRegistry.Proofs.Files.Writing
import HostRegistry.Proofs.Reading

/-!
Saving a configuration: where it can be done, and what is left of what was there before.

Whether a configuration can be saved does not depend on which one it is, and of several that are
saved the last one counts alone: the others leave nothing behind.
-/

set_option autoImplicit false

namespace HostRegistry.ConfigFile

open FileSystem

variable {file : ConfigFile} {fs made : FileSystem} {t : FileSystem.Target}
  {c : Config}

/-! ## Loading reads -/

theorem reads_loadFrom (path : String) : (loadFrom path).Reads fun _ => True := by
  apply Script.Reads.bind (Files.reads_readText path)
  intro answer _
  cases answer with
  | error fault => exact .pure trivial
  | ok text =>
    simp only
    split
    · exact .pure trivial
    · exact .pure trivial

theorem reads_load (file : ConfigFile) : file.load.Reads fun _ => True := by
  have hexists : (Script.request (.pathExists file.path) : Script Report _).Reads fun _ => True :=
    .request trivial
  apply hexists.bind
  intro there _
  cases there with
  | true => exact reads_loadFrom file.path
  | false => exact .bind (.emit _) fun _ _ => .pure trivial

/-! ## Saving -/

/-- The directory of the file can be made, and then the file can be written. -/
structure Ready (file : ConfigFile) (fs made : FileSystem) (t : FileSystem.Target) : Prop where
  value : (file.makeParent.run fs).value = .ok ()
  files : (file.makeParent.run fs).files = made
  writable : made.Writable file.path t

/-- A configuration can be saved. -/
def Savable (file : ConfigFile) (fs : FileSystem) : Prop :=
  ∃ c : Config, ((file.save c).run fs).value = .ok ()

theorem Ready.run_save (h : file.Ready fs made t) (c : Config) :
    ((file.save c).run fs).value = .ok () ∧
      ChangedAt t.place (some (.file c.write.toUTF8)) made ((file.save c).run fs).files := by
  obtain ⟨after, hwrite, hchange⟩ := h.writable.exists_writeFile c.write.toUTF8
  have hwritten : (Files.writeText file.path c.write : Script Report _).run made =
      ⟨.ok (), [], after⟩ := by
    rw [Files.writeText, Script.run_request, perform, hwrite]
  simp only [save, Script.run_bind, h.value, h.files, hwritten]
  exact ⟨rfl, hchange⟩

/-- A configuration is saved only where every one can be. -/
theorem exists_ready_of_save (h : ((file.save c).run fs).value = .ok ()) :
    ∃ made t, file.Ready fs made t := by
  refine ⟨(file.makeParent.run fs).files, ?_⟩
  simp only [save, Script.run_bind] at h
  cases hmade : (file.makeParent.run fs).value with
  | error error =>
    rw [hmade] at h
    cases h
  | ok _ =>
    simp only [hmade, Script.run_bind] at h
    cases hwritten : ((Files.writeText file.path c.write : Script Report _).run
        (file.makeParent.run fs).files).value with
    | error fault =>
      rw [hwritten] at h
      cases h
    | ok _ =>
      obtain ⟨t, hwritable, -⟩ := writable_of_writeFile hwritten
      exact ⟨t, hmade, rfl, hwritable⟩

theorem Savable.run_save (h : file.Savable fs) (c : Config) :
    ((file.save c).run fs).value = .ok () := by
  obtain ⟨_, hsave⟩ := h
  obtain ⟨made, t, hready⟩ := exists_ready_of_save hsave
  exact (hready.run_save c).1

/-- Where the file can be written its directory is there. -/
theorem ready_of_writable (h : fs.Writable file.path t) : file.Ready fs fs t := by
  have hmade : file.makeParent.run fs = ⟨.ok (), [], fs⟩ := by
    unfold makeParent
    cases hparent : Path.parent? file.path with
    | none => rfl
    | some parent =>
      have hmake : (Files.makeDirectories parent : Script Report _).run fs = ⟨.ok (), [], fs⟩ :=
        Files.run_makeDirectories_of_isDirectory (isDirectory_parent h.target hparent)
      simp only [Script.run_bind, hmake]
      rfl
  exact ⟨by rw [hmade], by rw [hmade], h⟩

/-- After a save the file can be written where it was. -/
theorem Ready.after_save (h : file.Ready fs made t) (c : Config) :
    file.Ready ((file.save c).run fs).files ((file.save c).run fs).files t :=
  ready_of_writable (h.writable.changedAt (h.run_save c).2)

theorem Savable.after_save (h : file.Savable fs) (c : Config) :
    file.Savable ((file.save c).run fs).files := by
  obtain ⟨_, hsave⟩ := h
  obtain ⟨made, t, hready⟩ := exists_ready_of_save hsave
  exact ⟨c, ((hready.after_save c).run_save c).1⟩

/-- What was saved before leaves nothing. -/
theorem Savable.files_save_save (h : file.Savable fs) (first second : Config) :
    ((file.save second).run ((file.save first).run fs).files).files =
      ((file.save second).run fs).files := by
  obtain ⟨_, hsave⟩ := h
  obtain ⟨made, t, hready⟩ := exists_ready_of_save hsave
  have hfirst := (hready.run_save first).2
  have hsecond := ((hready.after_save first).run_save second).2
  exact (hfirst.trans hsecond).unique (hready.run_save second).2

end HostRegistry.ConfigFile
