import HostRegistry.Proofs.Files.Growth

/-!
Where a file can be written.

It can where its path ends in a short name in a directory that is there and no directory lies; so a
file that was written or read can be written again. A file system is told by what lies in it, so of
several writes only the last one leaves something.
-/

set_option autoImplicit false

namespace HostRegistry.FileSystem

variable {fs before after : FileSystem} {path : String} {l : Location} {t : Target}
  {content : ByteArray}

/-- A path leads to where a file can be written. -/
structure Writable (fs : FileSystem) (path : String) (t : Target) : Prop where
  target : fs.target path .isDirectory = .ok t
  slash : t.slash = false
  short : t.name.utf8ByteSize ≤ longestName
  parent : fs.hasDirectory t.parent = true
  plain : fs.find? t.place ≠ some .directory

namespace Writable

theorem exists_writeFile (h : fs.Writable path t) (content : ByteArray) :
    ∃ after, fs.writeFile path content = (.ok (), after) ∧
      ChangedAt t.place (some (.file content)) fs after :=
  writeFile_eq_ok h.target h.slash h.short h.plain h.parent content

theorem changedAt (h : before.Writable path t)
    (hchange : ChangedAt t.place (some (.file content)) before after) : after.Writable path t := by
  have hkeeps := hchange.keeps fun hdir => absurd hdir h.plain
  refine ⟨hkeeps.target h.target, h.slash, h.short, hkeeps.hasDirectory _ h.parent, ?_⟩
  rw [hchange.find?_self]
  simp

end Writable

/-- A file can be written where one was written. -/
theorem writable_of_writeFile (h : (fs.writeFile path content).1 = .ok ()) :
    ∃ t, fs.Writable path t ∧
      ChangedAt t.place (some (.file content)) fs (fs.writeFile path content).2 := by
  rcases fs.writeFile_cases path content with
    ⟨fault, hrun⟩ | ⟨t, after, ht, hslash, hname, hdir, hrun, hchange⟩
  · rw [hrun] at h
    cases h
  · rw [hrun]
    exact ⟨t, ⟨ht, hslash, hname, hchange.hasDirectory_parent, hdir⟩, hchange⟩

/-- What is read is a file where the path leads. -/
theorem exists_locate_of_readFile (h : fs.readFile path = .ok content) :
    ∃ l, fs.locate path = .ok l ∧ fs.find? l = some (.file content) := by
  unfold FileSystem.readFile at h
  split at h
  next => cases h
  next l hlocate =>
    refine ⟨l, hlocate, ?_⟩
    split at h
    next found hfound =>
      cases h
      exact hfound
    next => cases h
    next => cases h

/-- A file can be written where one can be read, if its path ends in a name. -/
theorem writable_of_readFile (hplace : fs.place? path = some l)
    (hread : fs.readFile path = .ok content) :
    ∃ t, fs.Writable path t ∧ t.place = l ∧ fs.find? l = some (.file content) := by
  obtain ⟨t, ht, rfl⟩ := exists_target_of_place? hplace .isDirectory
  obtain ⟨r, hr, hbase, hlast, hslash⟩ := target_eq_ok_iff.mp ht
  obtain ⟨l, hlocate, hfile⟩ := exists_locate_of_readFile hread
  obtain ⟨r', d, hr', hbase', hstep, hdir⟩ := locate_eq_ok_iff.mp hlocate
  cases hr.symm.trans hr'
  cases hbase.symm.trans hbase'
  rw [hlast, step_name_eq_ok] at hstep
  obtain ⟨hname, hsome, rfl⟩ := hstep
  have hplain : fs.find? t.place ≠ some .directory := by
    intro hthere
    cases hfile.symm.trans hthere
  have hparent := hasDirectory_dropLast hsome
  rw [List.dropLast_concat] at hparent
  refine ⟨t, ⟨ht, ?_, hname, hparent, hplain⟩, rfl, hfile⟩
  rw [hslash, Bool.eq_false_iff]
  exact fun h => hplain (hasDirectory_iff.mp (hdir h))

/-! ## One write after the other -/

/-- File systems with the same at every location, and the same current directory, are equal. -/
theorem ext_find? {a b : FileSystem} (hfind : ∀ l, a.find? l = b.find? l)
    (hcurrent : a.current = b.current) : a = b := by
  have hroot : ∀ fs : FileSystem, fs.entries.find? [] = none := by
    intro fs
    cases h : fs.entries.find? [] with
    | none => rfl
    | some e => exact absurd rfl (fs.grounded [] e h).1
  apply ext_entries _ hcurrent
  apply SortedMap.ext_find?
  intro l
  by_cases hl : l = []
  · rw [hl, hroot, hroot]
  · have h := hfind l
    rwa [find?, find?, if_neg hl, if_neg hl] at h

/-- After two changes at one location there is what the second one left. -/
theorem ChangedAt.trans {middle : FileSystem} {e e' : Option Entry}
    (first : ChangedAt l e before middle) (second : ChangedAt l e' middle after) :
    ChangedAt l e' before after where
  current := second.current.trans first.current
  find? l' := by
    rw [second.find?, first.find?]
    split <;> rfl

theorem ChangedAt.unique {other : FileSystem} {e : Option Entry} (h : ChangedAt l e before after)
    (hother : ChangedAt l e before other) : after = other :=
  ext_find? (fun l' => (h.find? l').trans (hother.find? l').symm) (h.current.trans hother.current.symm)

end HostRegistry.FileSystem
