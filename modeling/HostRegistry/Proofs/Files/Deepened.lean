import HostRegistry.Proofs.Files.Growth
import HostRegistry.Proofs.States

/-!
Making directories, step by step: all that changes is that new directories are there, each of which
one of the paths leads to.
-/

set_option autoImplicit false

namespace HostRegistry

open FileSystem

/-- `after` is `before` with new directories, each where one of the paths leads. -/
structure Deepened (paths : List String) (before after : FileSystem) : Prop where
  current : after.current = before.current
  find? : ∀ l, after.find? l = before.find? l ∨
    before.find? l = none ∧ after.find? l = some .directory ∧
      ∃ path ∈ paths, after.locate path = .ok l

namespace Deepened

variable {paths : List String} {before middle after : FileSystem}

theorem refl (paths : List String) (fs : FileSystem) : Deepened paths fs fs :=
  ⟨rfl, fun _ => Or.inl rfl⟩

theorem find?_eq_some (h : Deepened paths before after) {l : Location} {e : Entry}
    (he : before.find? l = some e) : after.find? l = some e := by
  rcases h.find? l with hsame | ⟨hfree, _⟩
  · exact hsame.trans he
  · rw [hfree] at he
    cases he

theorem keeps (h : Deepened paths before after) : Keeps before after where
  current := h.current
  hasDirectory _ hl := hasDirectory_iff.mpr (h.find?_eq_some (hasDirectory_iff.mp hl))

/-- No file comes or goes. -/
theorem fileAt? (h : Deepened paths before after) (l : Location) :
    after.fileAt? l = before.fileAt? l := by
  rcases h.find? l with hsame | ⟨hfree, hdir, _⟩
  · rw [FileSystem.fileAt?, hsame]
    rfl
  · rw [FileSystem.fileAt?, FileSystem.fileAt?, hfree, hdir]

theorem trans (first : Deepened paths before middle) (second : Deepened paths middle after) :
    Deepened paths before after where
  current := second.current.trans first.current
  find? l := by
    rcases first.find? l with hsame | ⟨hfree, hdir, path, hpath, hlocate⟩
    · rw [← hsame]
      exact second.find? l
    · have hafter := second.find?_eq_some hdir
      have hlocate' := second.keeps.locate_directory hlocate (hasDirectory_iff.mpr hdir)
      exact Or.inr ⟨hfree, hafter, path, hpath, hlocate'⟩

theorem mono {more : List String} (h : Deepened paths before after) (hsub : paths ⊆ more) :
    Deepened more before after where
  current := h.current
  find? l := (h.find? l).imp id fun ⟨hfree, hdir, path, hpath, hlocate⟩ =>
    ⟨hfree, hdir, path, hsub hpath, hlocate⟩

end Deepened

/-- Making one directory. -/
theorem FileSystem.deepened_makeDirectory (fs : FileSystem) (path : String) :
    Deepened [path] fs (fs.makeDirectory path).2 := by
  rcases fs.makeDirectory_cases path with
    ⟨fault, hrun⟩ | ⟨t, after, ht, hname, hfree, hrun, hchange⟩
  · rw [hrun]
    exact .refl _ fs
  · rw [hrun]
    refine ⟨hchange.current, ?_⟩
    intro l
    by_cases hl : l = t.place
    · have hdir := hchange.find?_self
      have hkeeps := hchange.keeps fun _ => rfl
      have hlocate := locate_of_target (hkeeps.target ht) hname (by rw [hdir]; rfl)
        fun _ => hasDirectory_iff.mpr hdir
      subst hl
      exact Or.inr ⟨hfree, hdir, path, List.mem_cons_self, hlocate⟩
    · exact Or.inl (hchange.find?_ne hl)

namespace Files

variable {ρ : Type}

section Within

variable {R : FileSystem → FileSystem → Prop} (refl : ∀ fs, R fs fs)
  (trans : ∀ a b c, R a b → R b c → R a c)
include refl trans

theorem within_settled (path : String) (fault : FileFault) :
    (makeAll.settled path fault : Script ρ _).Within R := by
  refine Script.within_bind trans ?_ fun there => ?_
  · exact Script.within_request refl refl
  · split <;> exact Script.within_pure refl _

/-- What holds of the making of each path holds all the way of making the first of them. -/
theorem within_makeAll_of {paths : List String}
    (step : ∀ path ∈ paths, path.toList ≠ [] → ∀ fs, R fs (fs.makeDirectory path).2) :
    (makeAll paths : Script ρ _).Within R := by
  induction paths with
  | nil => exact Script.within_pure refl _
  | cons path above ih =>
    obtain ⟨hpath, habove⟩ := List.forall_mem_cons.mp step
    unfold makeAll
    split
    · exact Script.within_pure refl _
    next hne =>
    have hrequest : (Script.request (.makeDirectory path) : Script ρ _).Within R :=
      Script.within_request refl (hpath hne)
    apply Script.within_bind trans hrequest
    intro first
    split
    · exact Script.within_pure refl _
    · apply Script.within_bind trans (ih habove)
      intro made
      split
      · exact Script.within_pure refl _
      apply Script.within_bind trans hrequest
      intro second
      split
      · exact Script.within_pure refl _
      · exact within_settled refl trans _ _
    · exact within_settled refl trans _ _

end Within

/-- All that happens on the way of making the first of some paths. -/
theorem within_makeAll (paths : List String) :
    (makeAll paths : Script ρ _).Within (Deepened paths) :=
  within_makeAll_of (.refl paths) (fun _ _ _ => .trans) fun path hpath _ fs =>
    (fs.deepened_makeDirectory path).mono (by simpa using hpath)

end Files

end HostRegistry
