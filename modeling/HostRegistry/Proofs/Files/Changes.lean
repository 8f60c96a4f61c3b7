import HostRegistry.Files.FileSystem

/-!
What each file operation changes: nothing if it fails, and what lies at the place of its path if it
succeeds.

The place of a path is told without looking at what lies there. `ChangedAt` compares two file
systems that differ at one location; `makeDirectory_cases` and its neighbours say that an operation
either fails and leaves the file system as it was or makes such a change.
-/

set_option autoImplicit false

namespace HostRegistry.FileSystem

variable {fs before after : FileSystem} {path : String} {l : Location} {t : Target}

/-- The location of a target. -/
@[reducible]
def Target.place (t : Target) : Location := t.parent ++ [t.name]

/-- The place of a path that ends in a name, taken or not. -/
def place? (fs : FileSystem) (path : String) : Option Location :=
  (fs.target path .busy).toOption.map Target.place

/-- The content of the file at a location. -/
def fileAt? (fs : FileSystem) (l : Location) : Option ByteArray :=
  match fs.find? l with
  | some (.file content) => some content
  | _ => none

/-- `after` is `before` but for what lies at `l`. -/
structure ChangedAt (l : Location) (e : Option Entry) (before after : FileSystem) : Prop where
  current : after.current = before.current
  find? : ∀ l', after.find? l' = if l' = l then e else before.find? l'

theorem hasDirectory_iff : fs.hasDirectory l = true ↔ fs.find? l = some .directory :=
  decide_eq_true_iff

theorem fileAt?_eq_some {content : ByteArray} :
    fs.fileAt? l = some content ↔ fs.find? l = some (.file content) := by
  unfold fileAt?
  cases fs.find? l with
  | none => simp
  | some e => cases e <;> simp

/-- Whatever lies somewhere lies in a directory. -/
theorem hasDirectory_dropLast (h : (fs.find? l).isSome) : fs.hasDirectory l.dropLast = true := by
  rw [hasDirectory_iff, find?]
  by_cases hl : l = []
  · rw [hl]
    rfl
  · rw [find?, if_neg hl, Option.isSome_iff_exists] at h
    obtain ⟨e, he⟩ := h
    rcases (fs.grounded l e he).2 with hroot | hdir
    · rw [if_pos hroot]
    · split
      · rfl
      · exact hdir

theorem find?_append_eq_none (h : fs.hasDirectory l ≠ true) (name : String) :
    fs.find? (l ++ [name]) = none := by
  cases hfind : fs.find? (l ++ [name]) with
  | none => rfl
  | some e =>
    have hup := hasDirectory_dropLast (Option.isSome_of_eq_some hfind)
    rw [List.dropLast_concat] at hup
    exact absurd hup h

/-! ## Changes -/

namespace ChangedAt

variable {e : Option Entry}

theorem find?_self (h : ChangedAt l e before after) : after.find? l = e := by
  rw [h.find?, if_pos rfl]

theorem find?_ne (h : ChangedAt l e before after) {l' : Location} (hne : l' ≠ l) :
    after.find? l' = before.find? l' := by
  rw [h.find?, if_neg hne]

theorem fileAt?_ne (h : ChangedAt l e before after) {l' : Location} (hne : l' ≠ l) :
    after.fileAt? l' = before.fileAt? l' := by
  rw [fileAt?, fileAt?, h.find?_ne hne]

/-- An entry is put in a directory. -/
theorem hasDirectory_parent {parent : Location} {name : String} {e : Entry}
    (h : ChangedAt (parent ++ [name]) (some e) before after) :
    before.hasDirectory parent = true := by
  have hparent := hasDirectory_dropLast (Option.isSome_of_eq_some h.find?_self)
  rw [List.dropLast_concat, hasDirectory_iff, h.find?_ne (by simp)] at hparent
  exact hasDirectory_iff.mpr hparent

end ChangedAt

theorem changedAt_put {parent : Location} {name : String} {e : Entry}
    (hparent : fs.hasDirectory parent = true)
    (hkeep : fs.find? (parent ++ [name]) = some .directory → e = .directory) :
    ChangedAt (parent ++ [name]) (some e) fs (fs.put parent name e hparent hkeep) where
  current := rfl
  find? := find?_put fs parent name e hparent hkeep

theorem changedAt_drop (hfile : fs.hasDirectory l = false) :
    ChangedAt l none fs (fs.drop l hfile) where
  current := rfl
  find? := find?_drop fs l hfile

/-! ## Targets -/

/-- The target of a path does not depend on the fault for paths that have none. -/
theorem target_eq_ok {unnamed : FileFault} (h : fs.target path unnamed = .ok t) (other : FileFault) :
    fs.target path other = .ok t := by
  unfold target at h ⊢
  split at h
  · cases h
  · split at h
    · cases h
    · split at h
      · exact h
      · cases h

theorem place?_eq_some {unnamed : FileFault} (h : fs.target path unnamed = .ok t) :
    fs.place? path = some t.place := by
  rw [place?, target_eq_ok h]
  rfl

theorem exists_target_of_place? (h : fs.place? path = some l) (unnamed : FileFault) :
    ∃ t, fs.target path unnamed = .ok t ∧ t.place = l := by
  rw [place?, Option.map_eq_some_iff] at h
  obtain ⟨t, ht, rfl⟩ := h
  cases htarget : fs.target path .busy with
  | error fault =>
    rw [htarget] at ht
    cases ht
  | ok t' =>
    rw [htarget] at ht
    cases ht
    exact ⟨t, target_eq_ok htarget unnamed, rfl⟩

/-! ## Operations -/

/-- Making a directory where nothing lies. -/
theorem makeDirectory_eq_ok (ht : fs.target path .alreadyExists = .ok t)
    (hname : t.name.utf8ByteSize ≤ longestName) (hfree : fs.find? t.place = none)
    (hparent : fs.hasDirectory t.parent = true) :
    ∃ after, fs.makeDirectory path = (.ok (), after) ∧
      ChangedAt t.place (some .directory) fs after := by
  refine ⟨_, ?_, changedAt_put hparent fun _ => rfl⟩
  simp only [makeDirectory, ht, if_neg (Nat.not_lt.mpr hname)]
  rw [if_neg (by rw [hfree]; simp), dif_pos hparent]

theorem makeDirectory_cases (fs : FileSystem) (path : String) :
    (∃ fault, fs.makeDirectory path = (.error fault, fs)) ∨
    (∃ t after, fs.target path .alreadyExists = .ok t ∧ t.name.utf8ByteSize ≤ longestName ∧
      fs.find? t.place = none ∧ fs.makeDirectory path = (.ok (), after) ∧
      ChangedAt t.place (some .directory) fs after) := by
  cases ht : fs.target path .alreadyExists with
  | error fault =>
    refine Or.inl ⟨fault, ?_⟩
    simp only [makeDirectory, ht]
  | ok t =>
    by_cases hname : longestName < t.name.utf8ByteSize
    · refine Or.inl ⟨.nameTooLong, ?_⟩
      simp only [makeDirectory, ht, if_pos hname]
    by_cases htaken : (fs.find? (t.parent ++ [t.name])).isSome
    · refine Or.inl ⟨.alreadyExists, ?_⟩
      simp only [makeDirectory, ht, if_neg hname, if_pos htaken]
    by_cases hparent : fs.hasDirectory t.parent = true
    · have hfree : fs.find? t.place = none := Option.not_isSome_iff_eq_none.mp htaken
      obtain ⟨after, hrun, hchange⟩ :=
        makeDirectory_eq_ok ht (Nat.not_lt.mp hname) hfree hparent
      exact Or.inr ⟨t, after, rfl, Nat.not_lt.mp hname, hfree, hrun, hchange⟩
    · refine Or.inl ⟨.notDirectory, ?_⟩
      simp only [makeDirectory, ht, if_neg hname, if_neg htaken, dif_neg hparent]

/-- Writing a file where no directory lies. -/
theorem writeFile_eq_ok (ht : fs.target path .isDirectory = .ok t) (hslash : t.slash = false)
    (hname : t.name.utf8ByteSize ≤ longestName) (hdir : fs.find? t.place ≠ some .directory)
    (hparent : fs.hasDirectory t.parent = true) (content : ByteArray) :
    ∃ after, fs.writeFile path content = (.ok (), after) ∧
      ChangedAt t.place (some (.file content)) fs after := by
  refine ⟨_, ?_, changedAt_put hparent fun h => absurd h hdir⟩
  simp only [writeFile, ht, hslash, if_neg (Nat.not_lt.mpr hname)]
  rw [if_neg Bool.false_ne_true, dif_neg hdir, dif_pos hparent]

theorem writeFile_cases (fs : FileSystem) (path : String) (content : ByteArray) :
    (∃ fault, fs.writeFile path content = (.error fault, fs)) ∨
    (∃ t after, fs.target path .isDirectory = .ok t ∧ t.slash = false ∧
      t.name.utf8ByteSize ≤ longestName ∧ fs.find? t.place ≠ some .directory ∧
      fs.writeFile path content = (.ok (), after) ∧
      ChangedAt t.place (some (.file content)) fs after) := by
  cases ht : fs.target path .isDirectory with
  | error fault =>
    refine Or.inl ⟨fault, ?_⟩
    simp only [writeFile, ht]
  | ok t =>
    by_cases hslash : t.slash = true
    · refine Or.inl ⟨.isDirectory, ?_⟩
      simp only [writeFile, ht, if_pos hslash]
    by_cases hname : longestName < t.name.utf8ByteSize
    · refine Or.inl ⟨.nameTooLong, ?_⟩
      simp only [writeFile, ht, if_neg hslash, if_pos hname]
    by_cases hdir : fs.find? (t.parent ++ [t.name]) = some .directory
    · refine Or.inl ⟨.isDirectory, ?_⟩
      simp only [writeFile, ht, if_neg hslash, if_neg hname, dif_pos hdir]
    by_cases hparent : fs.hasDirectory t.parent = true
    · have hplain : t.slash = false := Bool.eq_false_iff.mpr hslash
      obtain ⟨after, hrun, hchange⟩ :=
        writeFile_eq_ok ht hplain (Nat.not_lt.mp hname) hdir hparent content
      exact Or.inr ⟨t, after, rfl, hplain, Nat.not_lt.mp hname, hdir, hrun, hchange⟩
    · refine Or.inl ⟨.notDirectory, ?_⟩
      simp only [writeFile, ht, if_neg hslash, if_neg hname, dif_neg hdir, dif_neg hparent]

/-- Removing a file that is there. -/
theorem removeFile_eq_ok (ht : fs.target path .isDirectory = .ok t) (hslash : t.slash = false)
    (hname : t.name.utf8ByteSize ≤ longestName) {content : ByteArray}
    (hfile : fs.find? t.place = some (.file content)) :
    ∃ after, fs.removeFile path = (.ok (), after) ∧ ChangedAt t.place none fs after := by
  have hplain : fs.hasDirectory (t.parent ++ [t.name]) = false := by
    rw [← Bool.not_eq_true, hasDirectory_iff, hfile]
    simp
  refine ⟨_, ?_, changedAt_drop hplain⟩
  simp only [removeFile, ht, hslash, if_neg (Nat.not_lt.mpr hname)]
  rw [if_neg (by rw [hfile]; simp), dif_pos hplain,
    if_neg Bool.false_ne_true]

/-- `after` is `before` with the file at `source` moved to `goal`. -/
structure Moved (source goal : Location) (content : ByteArray) (before after : FileSystem) :
    Prop where
  current : after.current = before.current
  find? : ∀ l, after.find? l =
    if l = source then none else if l = goal then some (.file content) else before.find? l

/-- Moving a file to another place, where no directory lies. -/
theorem moveFile_eq_ok {source goal : String} {s g : Target}
    (hs : fs.target source .busy = .ok s) (hg : fs.target goal .busy = .ok g)
    (hslash : s.slash = false ∧ g.slash = false)
    (hname : s.name.utf8ByteSize ≤ longestName ∧ g.name.utf8ByteSize ≤ longestName)
    (hne : s.place ≠ g.place) {content : ByteArray}
    (hfile : fs.find? s.place = some (.file content))
    (hdir : fs.find? g.place ≠ some .directory) (hparent : fs.hasDirectory g.parent = true) :
    ∃ after, fs.moveFile source goal = (.ok (), after) ∧ Moved s.place g.place content fs after := by
  have hput := @changedAt_put fs g.parent g.name (.file content) hparent fun h => absurd h hdir
  have hplain : (fs.put g.parent g.name (.file content) hparent
      fun h => absurd h hdir).hasDirectory (s.parent ++ [s.name]) = false := by
    rw [← Bool.not_eq_true, hasDirectory_iff, hput.find?_ne hne, hfile]
    simp
  have hdrop := changedAt_drop hplain
  refine ⟨_, ?_, hdrop.current.trans hput.current, ?_⟩
  · simp only [moveFile, hs, hg, if_neg (Nat.not_lt.mpr hname.1)]
    rw [hfile]
    simp only [if_neg (Nat.not_lt.mpr hname.2), hslash.1, hslash.2]
    rw [if_neg (by simp), if_neg hne, dif_neg hdir, dif_pos hparent, dif_pos hplain]
  · intro l
    rw [hdrop.find?, hput.find?]

theorem moveFile_cases (fs : FileSystem) {source goal : String} {s : Target} {content : ByteArray}
    (hs : fs.target source .busy = .ok s) (hslash : s.slash = false)
    (hname : s.name.utf8ByteSize ≤ longestName) (hfile : fs.find? s.place = some (.file content))
    (hne : ∀ g, fs.target goal .busy = .ok g → g.slash = false → s.place ≠ g.place) :
    (∃ fault, fs.moveFile source goal = (.error fault, fs)) ∨
    (∃ g after, fs.target goal .busy = .ok g ∧ g.slash = false ∧
      g.name.utf8ByteSize ≤ longestName ∧ fs.find? g.place ≠ some .directory ∧
      fs.moveFile source goal = (.ok (), after) ∧ Moved s.place g.place content fs after) := by
  cases hg : fs.target goal .busy with
  | error fault =>
    refine Or.inl ⟨fault, ?_⟩
    simp only [moveFile, hs, hg]
  | ok g =>
    by_cases hlong : longestName < g.name.utf8ByteSize
    · refine Or.inl ⟨.nameTooLong, ?_⟩
      simp only [moveFile, hs, hg, if_neg (Nat.not_lt.mpr hname), hfile, if_pos hlong]
    cases hgslash : g.slash with
    | true =>
      refine Or.inl ⟨.notDirectory, ?_⟩
      simp only [moveFile, hs, hg, if_neg (Nat.not_lt.mpr hname), hfile, if_neg hlong, hgslash,
        or_true, if_true]
    | false =>
      have hgne := hne g hg hgslash
      by_cases hdir : fs.find? (g.parent ++ [g.name]) = some .directory
      · refine Or.inl ⟨.isDirectory, ?_⟩
        simp only [moveFile, hs, hg, if_neg (Nat.not_lt.mpr hname), hfile, if_neg hlong, hgslash,
          hslash]
        rw [if_neg (by simp), if_neg hgne, dif_pos hdir]
      by_cases hparent : fs.hasDirectory g.parent = true
      · obtain ⟨after, hrun, hmoved⟩ := moveFile_eq_ok hs hg ⟨hslash, hgslash⟩
          ⟨hname, Nat.not_lt.mp hlong⟩ hgne hfile hdir hparent
        exact Or.inr ⟨g, after, rfl, hgslash, Nat.not_lt.mp hlong, hdir, hrun, hmoved⟩
      · refine Or.inl ⟨.notDirectory, ?_⟩
        simp only [moveFile, hs, hg, if_neg (Nat.not_lt.mpr hname), hfile, if_neg hlong, hgslash,
          hslash]
        rw [if_neg (by simp), if_neg hgne, dif_neg hdir, dif_neg hparent]

end HostRegistry.FileSystem
