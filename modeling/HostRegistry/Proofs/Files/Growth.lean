import HostRegistry.Proofs.Files.Changes

/-!
Paths lead where they led as long as no directory goes away.

No operation takes a directory away, so each leaves a file system that `Keeps` those of the one
before, and a path that had a target or led to a directory still does.
-/

set_option autoImplicit false

namespace HostRegistry.FileSystem

variable {fs before after : FileSystem} {path : String} {l d : Location} {t : Target}

/-- Every directory of `before` is one of `after`, and relative paths start from the same place. -/
structure Keeps (before after : FileSystem) : Prop where
  current : after.current = before.current
  hasDirectory : ∀ l, before.hasDirectory l = true → after.hasDirectory l = true

namespace Keeps

theorem trans {middle : FileSystem} (first : Keeps before middle) (second : Keeps middle after) :
    Keeps before after :=
  ⟨second.current.trans first.current, fun l h => second.hasDirectory l (first.hasDirectory l h)⟩

end Keeps

/-- A change keeps the directories unless it is made at one. -/
theorem ChangedAt.keeps {e : Option Entry} (h : ChangedAt l e before after)
    (hdir : before.find? l = some .directory → e = some .directory) : Keeps before after where
  current := h.current
  hasDirectory l' hl' := by
    rw [hasDirectory_iff] at hl' ⊢
    rw [h.find?]
    split
    next heq =>
      rw [heq] at hl'
      exact hdir hl'
    next => exact hl'

theorem Moved.keeps {source goal : Location} {content : ByteArray}
    (h : Moved source goal content before after) (hsource : before.find? source ≠ some .directory)
    (hgoal : before.find? goal ≠ some .directory) : Keeps before after where
  current := h.current
  hasDirectory l hl := by
    rw [hasDirectory_iff] at hl ⊢
    have hne : l ≠ source := fun heq => hsource (heq ▸ hl)
    have hne' : l ≠ goal := fun heq => hgoal (heq ▸ hl)
    rw [h.find?, if_neg hne, if_neg hne']
    exact hl

/-! ## Steps and walks -/

theorem step_name_eq_ok {name : String} {l' : Location} :
    fs.step l (.name name) = .ok l' ↔
      name.utf8ByteSize ≤ longestName ∧ (fs.find? (l ++ [name])).isSome ∧ l' = l ++ [name] := by
  simp only [step]
  constructor
  · intro h
    split at h
    · cases h
    next hname =>
      split at h
      next hsome =>
        cases h
        exact ⟨Nat.not_lt.mp hname, hsome, rfl⟩
      next => cases h
  · rintro ⟨hname, hsome, rfl⟩
    simp only [if_neg (Nat.not_lt.mpr hname), if_pos hsome]

/-- A step that can be taken can be taken wherever its end is still there. -/
theorem step_eq_ok {s : Last} {l' : Location} (h : before.step l s = .ok l')
    (hthere : (after.find? l').isSome) : after.step l s = .ok l' := by
  cases s with
  | root => exact h
  | here => exact h
  | up => exact h
  | name name =>
    obtain ⟨hname, _, rfl⟩ := step_name_eq_ok.mp h
    exact step_name_eq_ok.mpr ⟨hname, hthere, rfl⟩

theorem walk_cons_eq_ok {s : Last} {rest : List Last} :
    fs.walk l (s :: rest) = .ok d ↔
      ∃ l', fs.step l s = .ok l' ∧ fs.hasDirectory l' = true ∧ fs.walk l' rest = .ok d := by
  rw [walk]
  cases hs : fs.step l s with
  | error fault => simp
  | ok l' =>
    by_cases hdir : fs.hasDirectory l' = true <;> simp [hdir]

/-- A walk from a directory ends in one. -/
theorem hasDirectory_of_walk {steps : List Last} (h : fs.walk l steps = .ok d)
    (hl : fs.hasDirectory l = true) : fs.hasDirectory d = true := by
  induction steps generalizing l with
  | nil =>
    cases h
    exact hl
  | cons s rest ih =>
    obtain ⟨l', _, hdir, hrest⟩ := walk_cons_eq_ok.mp h
    exact ih hrest hdir

theorem isSome_of_hasDirectory (h : fs.hasDirectory l = true) : (fs.find? l).isSome := by
  rw [hasDirectory_iff.mp h]
  rfl

namespace Keeps

variable (h : Keeps before after)
include h

theorem walk {steps : List Last} (hwalk : before.walk l steps = .ok d) :
    after.walk l steps = .ok d := by
  induction steps generalizing l with
  | nil => exact hwalk
  | cons s rest ih =>
    obtain ⟨l', hstep, hdir, hrest⟩ := walk_cons_eq_ok.mp hwalk
    have hdir' := h.hasDirectory l' hdir
    exact walk_cons_eq_ok.mpr
      ⟨l', step_eq_ok hstep (isSome_of_hasDirectory hdir'), hdir', ih hrest⟩

theorem base {r : Route} (hbase : before.base r = .ok d) : after.base r = .ok d := by
  rw [FileSystem.base, h.current]
  exact h.walk hbase

end Keeps

/-! ## Targets and locations -/

theorem target_eq_ok_iff {unnamed : FileFault} :
    fs.target path unnamed = .ok t ↔ ∃ r, route path = .ok r ∧ fs.base r = .ok t.parent ∧
      r.last = .name t.name ∧ t.slash = r.slash := by
  unfold target
  constructor
  · intro h
    split at h
    · cases h
    next r hr =>
      split at h
      · cases h
      next d hd =>
        split at h
        next name hname =>
          cases h
          exact ⟨r, hr, hd, hname, rfl⟩
        next => cases h
  · rintro ⟨r, hr, hbase, hlast, hslash⟩
    simp only [hr, hbase, hlast, ← hslash]

theorem locate_eq_ok_iff :
    fs.locate path = .ok l ↔ ∃ r d, route path = .ok r ∧ fs.base r = .ok d ∧
      fs.step d r.last = .ok l ∧ (r.slash = true → fs.hasDirectory l = true) := by
  unfold locate
  constructor
  · intro h
    split at h
    · cases h
    next r hr =>
      split at h
      · cases h
      next d hd =>
        split at h
        · cases h
        next l' hl' =>
          split at h
          · cases h
          next hslash =>
            cases h
            refine ⟨r, d, hr, hd, hl', ?_⟩
            intro hs
            rw [← Bool.not_eq_false]
            exact fun hdir => hslash ⟨hs, hdir⟩
  · rintro ⟨r, d, hr, hbase, hstep, hslash⟩
    simp only [hr, hbase, hstep]
    rw [if_neg]
    rintro ⟨hs, hdir⟩
    rw [hslash hs] at hdir
    cases hdir

/-- A path with a target leads there as soon as something lies there. -/
theorem locate_of_target {unnamed : FileFault} (ht : fs.target path unnamed = .ok t)
    (hname : t.name.utf8ByteSize ≤ longestName) (hthere : (fs.find? t.place).isSome)
    (hslash : t.slash = true → fs.hasDirectory t.place = true) :
    fs.locate path = .ok t.place := by
  obtain ⟨r, hr, hbase, hlast, hs⟩ := target_eq_ok_iff.mp ht
  refine locate_eq_ok_iff.mpr ⟨r, t.parent, hr, hbase, ?_, fun h => hslash (hs.trans h)⟩
  rw [hlast]
  exact step_name_eq_ok.mpr ⟨hname, hthere, rfl⟩

/-- A path with a target leads nowhere as long as nothing lies there. -/
theorem locate_of_target_free {unnamed : FileFault} (ht : fs.target path unnamed = .ok t)
    (hname : t.name.utf8ByteSize ≤ longestName) (hfree : fs.find? t.place = none) :
    fs.locate path = .error .notFound := by
  obtain ⟨r, hr, hbase, hlast, -⟩ := target_eq_ok_iff.mp ht
  simp only [FileSystem.locate, hr, hbase, hlast, step, if_neg (Nat.not_lt.mpr hname), hfree,
    Option.isSome_none, if_neg Bool.false_ne_true]

/-- What is missing on the way to a target is missing on the way to the location. -/
theorem locate_of_target_notFound (h : fs.target path .busy = .error .notFound) :
    fs.locate path = .error .notFound := by
  rw [FileSystem.locate]
  rw [FileSystem.target] at h
  cases hr : route path with
  | error fault =>
    rw [hr] at h
    cases h
    rfl
  | ok r =>
    rw [hr] at h
    cases hbase : fs.base r with
    | error fault =>
      simp only [hbase] at h ⊢
      cases h
      rfl
    | ok d =>
      simp only [hbase] at h
      split at h <;> cases h

/-- Where nothing lies no path leads by its target. -/
theorem pathExists_of_target {unnamed : FileFault} (ht : fs.target path unnamed = .ok t)
    (hfree : fs.find? t.place = none) : fs.pathExists path = false := by
  unfold pathExists
  cases hl : fs.locate path with
  | error fault => rfl
  | ok l =>
    obtain ⟨r, hr, hbase, hlast, _⟩ := target_eq_ok_iff.mp ht
    obtain ⟨r', d, hr', hbase', hstep, _⟩ := locate_eq_ok_iff.mp hl
    cases hr.symm.trans hr'
    cases hbase.symm.trans hbase'
    rw [hlast, step_name_eq_ok, hfree] at hstep
    cases hstep.2.1

namespace Keeps

variable (h : Keeps before after)
include h

theorem target {unnamed : FileFault} (ht : before.target path unnamed = .ok t) :
    after.target path unnamed = .ok t := by
  obtain ⟨r, hr, hbase, hrest⟩ := target_eq_ok_iff.mp ht
  exact target_eq_ok_iff.mpr ⟨r, hr, h.base hbase, hrest⟩

theorem place? (hl : before.place? path = some l) : after.place? path = some l := by
  obtain ⟨t, ht, rfl⟩ := exists_target_of_place? hl .busy
  exact place?_eq_some (h.target ht)

/-- A path still leads where it led if the same lies there. -/
theorem locate (hl : before.locate path = .ok l) (hsame : after.find? l = before.find? l)
    (hthere : (before.find? l).isSome) : after.locate path = .ok l := by
  obtain ⟨r, d, hr, hbase, hstep, hslash⟩ := locate_eq_ok_iff.mp hl
  refine locate_eq_ok_iff.mpr
    ⟨r, d, hr, h.base hbase, step_eq_ok hstep (hsame ▸ hthere), fun hs => ?_⟩
  rw [hasDirectory_iff, hsame]
  exact hasDirectory_iff.mp (hslash hs)

theorem locate_directory (hl : before.locate path = .ok l) (hdir : before.hasDirectory l = true) :
    after.locate path = .ok l := by
  have hdir' := hasDirectory_iff.mp (h.hasDirectory l hdir)
  exact h.locate hl (hdir'.trans (hasDirectory_iff.mp hdir).symm) (isSome_of_hasDirectory hdir)

end Keeps

end HostRegistry.FileSystem
