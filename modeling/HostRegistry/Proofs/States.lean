import HostRegistry.Script

/-!
The file systems that a script passes through: those of a sequence are those of its parts.
-/

set_option autoImplicit false

namespace HostRegistry.Script

variable {ρ α β : Type}

theorem run_request_bind (r : Request) (f : r.Answer → Script ρ β) (fs : FileSystem) :
    (request r >>= f).run fs = (f (fs.perform r).1).run (fs.perform r).2 :=
  rfl

theorem states_request_bind (r : Request) (f : r.Answer → Script ρ β) (fs : FileSystem) :
    (request r >>= f).states fs = fs :: (f (fs.perform r).1).states (fs.perform r).2 :=
  rfl

/-- A script ends in one of its states. -/
theorem files_mem_states (x : Script ρ α) (fs : FileSystem) : (x.run fs).files ∈ x.states fs := by
  induction x generalizing fs with
  | done a => exact List.mem_singleton.mpr rfl
  | ask r next ih => exact List.mem_cons_of_mem _ (ih _ _)
  | report item next ih => exact ih _

/-- A sequence passes through states of the first script, and from its end on through states of the
second one. -/
theorem mem_states_bind {x : Script ρ α} {f : α → Script ρ β} {fs s : FileSystem}
    (h : s ∈ (x >>= f).states fs) :
    s ∈ x.states fs ∨ s ∈ (f (x.run fs).value).states (x.run fs).files := by
  change s ∈ (x.bind f).states fs at h
  induction x generalizing fs with
  | done a => exact Or.inr h
  | ask r next ih =>
    rcases List.mem_cons.mp h with rfl | h
    · exact Or.inl List.mem_cons_self
    · exact (ih _ h).imp (List.mem_cons_of_mem _) id
  | report item next ih => exact ih h

theorem mem_states_pure {a : α} {fs s : FileSystem} :
    s ∈ (pure a : Script ρ α).states fs ↔ s = fs := List.mem_singleton

theorem mem_states_request {r : Request} {fs s : FileSystem} :
    s ∈ (request r : Script ρ _).states fs ↔ s = fs ∨ s = (fs.perform r).2 := by
  show s ∈ [fs, (fs.perform r).2] ↔ _
  rw [List.mem_cons, List.mem_singleton]

/-! ## Scripts within a relation -/

/-- From every file system, a script passes only through those that `R` allows from there. -/
def Within (R : FileSystem → FileSystem → Prop) (x : Script ρ α) : Prop :=
  ∀ fs, ∀ s ∈ x.states fs, R fs s

variable {R : FileSystem → FileSystem → Prop}

theorem within_pure (refl : ∀ fs, R fs fs) (a : α) : (pure a : Script ρ α).Within R := by
  intro fs s hs
  rw [mem_states_pure.mp hs]
  exact refl fs

theorem within_request (refl : ∀ fs, R fs fs) {r : Request} (step : ∀ fs, R fs (fs.perform r).2) :
    (request r : Script ρ _).Within R := by
  intro fs s hs
  rcases mem_states_request.mp hs with rfl | rfl
  · exact refl s
  · exact step fs

theorem within_bind (trans : ∀ a b c, R a b → R b c → R a c) {x : Script ρ α}
    {f : α → Script ρ β} (hx : x.Within R) (hf : ∀ a, (f a).Within R) : (x >>= f).Within R := by
  intro fs s hs
  rcases mem_states_bind hs with hs | hs
  · exact hx fs s hs
  · exact trans _ _ _ (hx fs _ (files_mem_states x fs)) (hf _ _ s hs)

end HostRegistry.Script
