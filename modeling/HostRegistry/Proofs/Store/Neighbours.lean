import HostRegistry.Proofs.Store.HostFile

/-!
The files of several hosts in one directory.

What a load answers is told by what reading the file answers. Persisting the record of one host
leaves a file system that is `Beside` the old one for every other name in the directory: new
directories came on the way to it, and entries by other names may have changed. Reading a file
answers the same in both, also where it fails, for a file in the way is still there and a directory
that is new has nothing in it.
-/

set_option autoImplicit false

namespace HostRegistry

open FileSystem

namespace FileSystem

variable {fs before middle after : FileSystem} {path directory name : String} {l d : Location}
  {t : Target}

/-! ## Reading where a path leads -/

/-- What reading answers where something or nothing lies. -/
def Entry.content : Option Entry → Except FileFault ByteArray
  | some (.file content) => .ok content
  | some .directory => .error .isDirectory
  | none => .error .notFound

theorem readFile_of_route {fault : FileFault} (h : route path = .error fault) (fs : FileSystem) :
    fs.readFile path = .error fault := by
  simp only [readFile, locate, h]

/-- Reading a path with a target answers what lies there. -/
theorem readFile_eq_content (ht : fs.target path .busy = .ok t) (hslash : t.slash = false)
    (hname : t.name.utf8ByteSize ≤ longestName) :
    fs.readFile path = Entry.content (fs.find? t.place) := by
  cases hfind : fs.find? t.place with
  | none =>
    rw [readFile, locate_of_target_free ht hname hfind]
    rfl
  | some e =>
    have hlocate : fs.locate path = .ok t.place := by
      refine locate_of_target ht hname (Option.isSome_of_eq_some hfind) ?_
      intro h
      rw [hslash] at h
      cases h
    cases e <;> simp only [readFile, hlocate, hfind, Entry.content]

/-- Reading a path that ends in a name, but on whose way something is wrong, answers that. -/
theorem readFile_of_target_error {fault : FileFault}
    (h : ∀ unnamed, fs.target path unnamed = .error fault) : fs.readFile path = .error fault := by
  cases hr : route path with
  | error other =>
    have hbusy := h .busy
    simp only [target, hr, Except.error.injEq] at hbusy
    exact hbusy ▸ readFile_of_route hr fs
  | ok r =>
    cases hbase : fs.base r with
    | error other =>
      have hbusy := h .busy
      simp only [target, hr, hbase, Except.error.injEq] at hbusy
      simp only [readFile, locate, hr, hbase, hbusy]
    | ok d =>
      -- The fault cannot be the one for paths without a name, for it is the same for all of these.
      have hbusy := h .busy
      have hroot := h .notFound
      simp only [target, hr, hbase] at hbusy hroot
      split at hbusy
      · cases hbusy
      · rw [Except.error.injEq] at hbusy
        subst hbusy
        split at hroot <;> cases hroot

/-! ## Directories told by names -/

/-- A path of short names, without double dots. -/
structure Plain (path : String) : Prop where
  dots : ['.', '.'] ∉ Path.solid path
  short : ∀ name ∈ names path, name.utf8ByteSize ≤ longestName

/-- The location that the names of a path say. -/
def home (fs : FileSystem) (path : String) : Location := fs.start path ++ names path

/-- The target of a name in a directory is at the home of the directory. -/
theorem Plain.place_join (hplain : Plain directory)
    (hstart : fs.hasDirectory (fs.start directory) = true) (hname : IsName name)
    {unnamed : FileFault} (ht : fs.target (Path.join directory name) unnamed = .ok t) :
    t = ⟨fs.home directory, name, false⟩ := by
  obtain ⟨r, hr, -⟩ := target_eq_ok_iff.mp ht
  have hpass := (route_eq_ok_iff.mp hr).1
  rw [FileSystem.target_join hstart hpass hname, map_ofSegment_solid hplain.dots] at ht
  cases hwalk : fs.walk (fs.start directory) ((names directory).map .name) with
  | error fault =>
    rw [hwalk] at ht
    cases ht
  | ok l =>
    rw [hwalk] at ht
    cases ht
    rw [walk_names_eq_ok hwalk, home]

section Reading

variable (hplain : Plain directory) (hstart : fs.hasDirectory (fs.start directory) = true)
  (hname : IsName name) (hpass : Passable (Path.join directory name))
include hplain hstart hname hpass

/-- The target of a name in a directory, as the walk to the directory says. -/
theorem Plain.target_join (unnamed : FileFault) :
    fs.target (Path.join directory name) unnamed =
      (fs.walk (fs.start directory) ((names directory).map .name)).map fun l => ⟨l, name, false⟩ := by
  rw [FileSystem.target_join hstart hpass hname, map_ofSegment_solid hplain.dots]

/-- Where the directory is there, reading answers what lies in it. -/
theorem Plain.readFile_of_home (hlong : name.utf8ByteSize ≤ longestName)
    (hdir : fs.hasDirectory (fs.home directory) = true) :
    fs.readFile (Path.join directory name) =
      Entry.content (fs.find? (fs.home directory ++ [name])) := by
  have htarget := hplain.target_join hstart hname hpass .busy
  rw [walk_names_of_hasDirectory hplain.short hdir] at htarget
  exact readFile_eq_content htarget rfl hlong

theorem Plain.readFile_of_file {p : Location} {content : ByteArray} (hp : p <+: fs.home directory)
    (hfile : fs.find? p = some (.file content)) :
    fs.readFile (Path.join directory name) = .error .notDirectory := by
  apply readFile_of_target_error
  intro unnamed
  rw [hplain.target_join hstart hname hpass, walk_names_of_file hstart hplain.short hp hfile]
  rfl

theorem Plain.readFile_of_missing (hdir : fs.hasDirectory (fs.home directory) = false)
    (hclear : ∀ p, p <+: fs.home directory → fs.fileAt? p = none) :
    fs.readFile (Path.join directory name) = .error .notFound := by
  apply readFile_of_target_error
  intro unnamed
  rw [hplain.target_join hstart hname hpass,
    walk_names_of_missing hstart hplain.short hclear hdir]
  rfl

end Reading

/-! ## Changes that leave a name alone -/

/-- `after` is `before` but for new directories on the way to `d` and for entries in `d` that
have another name. -/
structure Beside (d : Location) (name : String) (before after : FileSystem) : Prop where
  current : after.current = before.current
  find? : ∀ l, after.find? l = before.find? l ∨
    (before.find? l = none ∧ after.find? l = some .directory ∧ l <+: d) ∨
    ∃ other, other ≠ name ∧ l = d ++ [other]

namespace Beside

theorem trans (first : Beside d name before middle) (second : Beside d name middle after) :
    Beside d name before after where
  current := second.current.trans first.current
  find? l := by
    rcases second.find? l with hsame | ⟨hfree, hdir, hfront⟩ | hother
    · rw [hsame]
      exact first.find? l
    · rcases first.find? l with hsame | ⟨-, hdir', -⟩ | hother
      · exact Or.inr (Or.inl ⟨hsame ▸ hfree, hdir, hfront⟩)
      · rw [hdir'] at hfree
        cases hfree
      · exact Or.inr (Or.inr hother)
    · exact Or.inr (Or.inr hother)

/-- A change of another name in the directory. -/
theorem of_changedAt {other : String} {e : Option Entry} (hne : other ≠ name)
    (h : ChangedAt (d ++ [other]) e before after) : Beside d name before after where
  current := h.current
  find? l := by
    by_cases hl : l = d ++ [other]
    · exact Or.inr (Or.inr ⟨other, hne, hl⟩)
    · exact Or.inl (h.find?_ne hl)

variable (h : Beside d name before after)
include h

/-- On the way to the directory nothing changed, or a directory is new. -/
theorem find?_front (hl : l <+: d) :
    after.find? l = before.find? l ∨ before.find? l = none ∧ after.find? l = some .directory := by
  rcases h.find? l with hsame | ⟨hfree, hdir, -⟩ | ⟨other, -, rfl⟩
  · exact Or.inl hsame
  · exact Or.inr ⟨hfree, hdir⟩
  · have hlength := hl.length_le
    rw [List.length_append] at hlength
    exact absurd hlength (Nat.not_succ_le_self _)

theorem find?_name : after.find? (d ++ [name]) = before.find? (d ++ [name]) := by
  rcases h.find? (d ++ [name]) with hsame | ⟨-, -, hfront⟩ | ⟨other, hne, heq⟩
  · exact hsame
  · have hlength := hfront.length_le
    rw [List.length_append] at hlength
    exact absurd hlength (Nat.not_succ_le_self _)
  · rw [List.append_cancel_left_eq, List.cons.injEq] at heq
    exact absurd heq.1.symm hne

theorem start_eq (directory : String) : after.start directory = before.start directory := by
  rw [start, start, h.current]

/-- On the way to the directory no file comes or goes. -/
theorem fileAt?_front (hl : l <+: d) : after.fileAt? l = before.fileAt? l := by
  rcases h.find?_front hl with hsame | ⟨hfree, hdir⟩
  · rw [fileAt?, hsame, fileAt?]
  · rw [fileAt?, fileAt?, hfree, hdir]

theorem hasDirectory_front (hl : l <+: d) (hdir : before.hasDirectory l = true) :
    after.hasDirectory l = true := by
  rw [hasDirectory_iff] at hdir ⊢
  rcases h.find?_front hl with hsame | ⟨hfree, hnew⟩
  · exact hsame.trans hdir
  · exact hnew

omit h in
/-- Reading the name answers the same before and after. -/
theorem readFile_join (h : Beside (before.home directory) name before after)
    (hplain : Plain directory) (hstart : before.hasDirectory (before.start directory) = true)
    (hname : IsName name) (hlong : name.utf8ByteSize ≤ longestName) :
    after.readFile (Path.join directory name) = before.readFile (Path.join directory name) := by
  cases hr : route (Path.join directory name) with
  | error fault => rw [readFile_of_route hr, readFile_of_route hr]
  | ok r =>
    have hpass := (route_eq_ok_iff.mp hr).1
    have hhome : after.home directory = before.home directory := by
      rw [home, home, h.start_eq]
    have hstart' : after.hasDirectory (after.start directory) = true := by
      rw [h.start_eq]
      exact h.hasDirectory_front (List.prefix_append _ _) hstart
    by_cases hfile : ∃ p content, p <+: before.home directory ∧ before.find? p = some (.file content)
    · obtain ⟨p, content, hp, hfind⟩ := hfile
      have hfind' : after.find? p = some (.file content) := by
        rw [← fileAt?_eq_some] at hfind ⊢
        exact (h.fileAt?_front hp).trans hfind
      rw [hplain.readFile_of_file hstart hname hpass hp hfind,
        hplain.readFile_of_file hstart' hname hpass (hhome ▸ hp) hfind']
    cases hdir : before.hasDirectory (before.home directory) with
    | true =>
      have hdir' := hhome ▸ h.hasDirectory_front (List.prefix_refl _) hdir
      rw [hplain.readFile_of_home hstart hname hpass hlong hdir,
        hplain.readFile_of_home hstart' hname hpass hlong hdir', hhome, h.find?_name]
    | false =>
      have hclear : ∀ p, p <+: before.home directory → before.fileAt? p = none := by
        intro p hp
        cases hfind : before.fileAt? p with
        | none => rfl
        | some content => exact absurd ⟨p, content, hp, fileAt?_eq_some.mp hfind⟩ hfile
      rw [hplain.readFile_of_missing hstart hname hpass hdir hclear]
      -- The directory may be there by now, but then there is nothing in it.
      cases hdir' : after.hasDirectory (after.home directory) with
      | true =>
        have hnone := find?_append_eq_none (Bool.eq_false_iff.mp hdir) name
        rw [hplain.readFile_of_home hstart' hname hpass hlong hdir', hhome, h.find?_name, hnone]
        rfl
      | false =>
        refine hplain.readFile_of_missing hstart' hname hpass hdir' fun p hp => ?_
        rw [hhome] at hp
        exact (h.fileAt?_front hp).trans (hclear p hp)

end Beside

end FileSystem

namespace FileBackend

variable {directory host name : String} {fs : FileSystem}

/-! ## Loading -/

/-- What a load answers, told by what reading the file answers. -/
def loadAnswer (b : FileBackend) : Except FileFault ByteArray → Except Error Record
  | .error .notFound => .error (.notFound b.describe)
  | .error fault => .error (.load b.describe fault.message)
  | .ok content =>
    match String.fromUTF8? content with
    | none => .error (.load b.describe FileFault.notText.message)
    | some text =>
      match Record.decode text with
      | .error error => .error (.load b.describe (Error.ofDocument error).message)
      | .ok record => .ok record

/-- A load reads the file and changes none. -/
theorem run_load (b : FileBackend) (fs : FileSystem) :
    (b.load.run fs).value = b.loadAnswer (fs.readFile b.path) ∧ (b.load.run fs).files = fs := by
  rw [load, Files.readText, Script.run_bind, Script.run_request_bind, perform]
  cases fs.readFile b.path with
  | error fault => cases fault <;> exact ⟨rfl, rfl⟩
  | ok content =>
    simp only [loadAnswer]
    cases String.fromUTF8? content with
    | none => exact ⟨rfl, rfl⟩
    | some text =>
      simp only [Script.run_pure]
      cases Record.decode text <;> exact ⟨rfl, rfl⟩

theorem loadAnswer_encode (b : FileBackend) (record : Record) :
    b.loadAnswer (.ok record.encode.toUTF8) = .ok record := by
  simp only [loadAnswer, fromUTF8?_toUTF8, Record.decode_encode]

/-! ## Persisting -/

section Persisting

variable (hhost : isHostName host = true) (hplain : Plain directory)
  (hstart : fs.hasDirectory (fs.start directory) = true)
include hhost hplain hstart

theorem place_path {unnamed : FileFault} {t : FileSystem.Target}
    (ht : fs.target (forHost directory host).path unnamed = .ok t) :
    t = ⟨fs.home directory, host ++ ".json", false⟩ :=
  hplain.place_join hstart (isName_file hhost) ht

theorem place_temporary {unnamed : FileFault} {t : FileSystem.Target}
    (ht : fs.target (forHost directory host).temporary unnamed = .ok t) :
    t = ⟨fs.home directory, host ++ ".json.tmp", false⟩ := by
  obtain ⟨parent, -, htemporary, hsolid, habsolute, -⟩ :=
    exists_temporary_eq directory hhost
  have hnames : names parent = names directory := by rw [names, hsolid, names]
  have hparent : Plain parent := ⟨hsolid ▸ hplain.dots, hnames ▸ hplain.short⟩
  have hstart' : fs.hasDirectory (fs.start parent) = true := start_of_isAbsolute habsolute ▸ hstart
  rw [htemporary] at ht
  rw [hparent.place_join hstart' (isName_temporary hhost) ht, home, home, hnames,
    start_of_isAbsolute habsolute]

/-- Replacing the file of a host leaves every other name in the directory alone, and the own one as
well if it fails. -/
theorem beside_replace (text : String) (htemporary : host ++ ".json.tmp" ≠ name)
    (hfile : (((forHost directory host).replace text).run fs).value = .ok () →
      host ++ ".json" ≠ name) :
    Beside (fs.home directory) name fs (((forHost directory host).replace text).run fs).files := by
  generalize hvalue : (((forHost directory host).replace text).run fs).value = value at hfile
  generalize hafter : (((forHost directory host).replace text).run fs).files = after
  obtain ⟨made, hdeep, hrest⟩ := replace_cases (forHost directory host) text fs hvalue hafter
  have hmade : Beside (fs.home directory) name fs made :=
    ⟨hdeep.current, fun l => (prefix_of_deepened hhost hplain.dots hstart hdeep).imp_right Or.inl⟩
  have hhome : made.home directory = fs.home directory := by
    rw [home, home, hmade.start_eq]
  have hstart' : made.hasDirectory (made.start directory) = true := by
    rw [hmade.start_eq]
    exact hmade.hasDirectory_front (List.prefix_append _ _) hstart
  rcases hrest with ⟨-, hsame⟩ | ⟨s, written, hs, hdir, hchange, hsettled⟩
  · rw [hsame]
    exact hmade
  have hkeeps := hchange.keeps fun h => absurd h hdir
  have hsplace : s.place = fs.home directory ++ [host ++ ".json.tmp"] := by
    rw [place_temporary hhost hplain hstart' hs, ← hhome]
  rw [hsplace] at hchange
  have hwritten := hmade.trans (.of_changedAt htemporary hchange)
  cases hsettled with
  | removed fault hremoved =>
    rw [hsplace] at hremoved
    exact hwritten.trans (.of_changedAt htemporary hremoved)
  | moved g hg hslash hname hgdir hmoved =>
    have hstart'' : written.hasDirectory (written.start directory) = true := by
      rw [start, hkeeps.current]
      exact hkeeps.hasDirectory _ hstart'
    have hgplace : g.place = fs.home directory ++ [host ++ ".json"] := by
      rw [place_path hhost hplain hstart'' hg, home, hwritten.start_eq, ← home]
    rw [hsplace, hgplace] at hmoved
    refine hwritten.trans ⟨hmoved.current, fun l => ?_⟩
    rw [hmoved.find?]
    split
    next hl => exact Or.inr (Or.inr ⟨_, htemporary, hl⟩)
    next =>
      split
      next hl => exact Or.inr (Or.inr ⟨_, hfile rfl, hl⟩)
      next => exact Or.inl rfl

end Persisting

/-- From a directory whose path starts where no directory is, nothing is replaced. -/
theorem files_replace_of_baseless (hhost : isHostName host = true) (hplain : Plain directory)
    (hstart : fs.hasDirectory (fs.start directory) = false) (text : String) :
    (((forHost directory host).replace text).run fs).files = fs := by
  obtain ⟨parent, hparent, htemporary, hsolid, habsolute, -⟩ :=
    exists_temporary_eq directory hhost
  have hname := isName_temporary hhost
  have hmake : ((forHost directory host).makeParent.run fs).files = fs := by
    rw [makeParent, hparent]
    exact Files.files_makeDirectories_of_baseless FileEvent (hsolid ▸ hplain.dots)
      (start_of_isAbsolute habsolute ▸ hstart)
  have hwrite : (((forHost directory host).write text).run fs).files = fs := by
    have hdots : ['.', '.'] ∉ Path.solid (forHost directory host).temporary := by
      rw [htemporary, Path.solid_join parent hname.noSlash hname.ne_nil hname.ne_dot, hsolid,
        List.mem_append, List.mem_singleton, not_or]
      exact ⟨hplain.dots, fun heq => hname.ne_dots heq.symm⟩
    have hstart' : fs.hasDirectory (fs.start (forHost directory host).temporary) = false := by
      rw [htemporary, start_of_isAbsolute (isAbsolute_join parent hname.noSlash),
        start_of_isAbsolute habsolute]
      exact hstart
    obtain ⟨fault, hfault⟩ := writeFile_of_baseless hdots hstart' text.toUTF8
    rw [write, Files.writeText, Script.run_request_bind, perform, hfault]
    rfl
  simp only [replace_eq, Script.run_bind, hmake]
  cases ((forHost directory host).makeParent.run fs).value with
  | error fault => rfl
  | ok _ => exact hwrite

/-- A record that was persisted is what a load answers. -/
theorem loadAnswer_of_persist {b : FileBackend} {record : Record}
    (h : ((b.persist record).run fs).value = .ok ()) :
    b.loadAnswer (((b.persist record).run fs).files.readFile b.path) = .ok record := by
  rw [(run_persist record b fs).2, (files_of_replace_ok (replace_of_persist h) rfl).1,
    loadAnswer_encode]

/-- A record that was persisted is loaded. -/
theorem value_load_of_persist {b : FileBackend} {record : Record}
    (h : ((b.persist record).run fs).value = .ok ()) :
    (b.load.run ((b.persist record).run fs).files).value = .ok record := by
  rw [(b.run_load _).1, loadAnswer_of_persist h]

/-- Persisting for one host changes no load for another one, and none at all if it fails. -/
theorem readFile_persist (fs : FileSystem) {other : String} (hhost : isHostName host = true)
    (hother : isHostName other = true) (hlong : (other ++ ".json").utf8ByteSize ≤ longestName)
    (hplain : Plain directory) (record : Record)
    (hne : (((forHost directory host).persist record).run fs).value = .ok () → host ≠ other) :
    (((forHost directory host).persist record).run fs).files.readFile (forHost directory other).path =
      fs.readFile (forHost directory other).path := by
  obtain ⟨hvalue, hfiles⟩ := run_persist record (forHost directory host) fs
  rw [hfiles]
  cases hstart : fs.hasDirectory (fs.start directory) with
  | false => rw [files_replace_of_baseless hhost hplain hstart]
  | true =>
    refine Beside.readFile_join (beside_replace hhost hplain hstart _ ?_ ?_) hplain hstart
      (isName_file hother) hlong
    · exact fun heq => append_json_ne other host heq.symm
    · intro hreplace heq
      rw [hreplace] at hvalue
      exact hne hvalue ((String.append_left_inj _).mp heq)

end FileBackend

end HostRegistry
