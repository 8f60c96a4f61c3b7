import HostRegistry.Proofs.Files.Growth
import HostRegistry.Proofs.Files.Segments

/-!
Paths that lead to directories.

Such a path leads where all its steps lead one after the other, and its single dots do not count.
Without double dots its steps are names, and it leads to `start` with these names after it; it is
not there exactly if a name on the way is missing, as long as none of them is a file.
-/

set_option autoImplicit false

namespace HostRegistry.FileSystem

variable {fs : FileSystem} {path : String} {l d : Location} {names : List String}

/-- Where the steps of a path start. -/
def start (fs : FileSystem) (path : String) : Location :=
  if Path.isAbsolute path then [] else fs.current

/-! ## Steps one after the other -/

theorem walk_append_eq_ok {first rest : List Last} :
    fs.walk l (first ++ rest) = .ok d ↔ ∃ m, fs.walk l first = .ok m ∧ fs.walk m rest = .ok d := by
  induction first generalizing l with
  | nil =>
    constructor
    · exact fun h => ⟨l, rfl, h⟩
    · rintro ⟨m, hm, h⟩
      cases hm
      exact h
  | cons s first ih =>
    simp only [List.cons_append, walk_cons_eq_ok, ih]
    constructor
    · rintro ⟨l', hstep, hdir, m, hfirst, hrest⟩
      exact ⟨m, ⟨l', hstep, hdir, hfirst⟩, hrest⟩
    · rintro ⟨m, ⟨l', hstep, hdir, hfirst⟩, hrest⟩
      exact ⟨l', hstep, hdir, m, hfirst, hrest⟩

theorem walk_singleton {s : Last} :
    fs.walk l [s] = .ok d ↔ fs.step l s = .ok d ∧ fs.hasDirectory d = true := by
  rw [walk_cons_eq_ok]
  constructor
  · rintro ⟨l', hstep, hdir, hrest⟩
    cases hrest
    exact ⟨hstep, hdir⟩
  · rintro ⟨hstep, hdir⟩
    exact ⟨d, hstep, hdir, rfl⟩

/-- Single dots do not count on the way from a directory. -/
theorem walk_filter_here (hl : fs.hasDirectory l = true) (steps : List Last) :
    fs.walk l (steps.filter (· ≠ .here)) = fs.walk l steps := by
  induction steps generalizing l with
  | nil => rfl
  | cons s rest ih =>
    by_cases hs : s = .here
    · rw [hs, List.filter_cons_of_neg (by simp), ih hl, walk, step]
      simp only [hl, if_true]
    · have hkept : (s :: rest).filter (· ≠ .here) = s :: rest.filter (· ≠ .here) :=
        List.filter_cons_of_pos (decide_eq_true hs)
      rw [hkept, walk, walk]
      cases fs.step l s with
      | error fault => rfl
      | ok l' =>
        by_cases hdir : fs.hasDirectory l' = true
        · simp only [hdir, if_true]
          exact ih hdir
        · simp only [if_neg hdir]

theorem ofSegment_eq_here {s : List Char} : Last.ofSegment s = .here ↔ s = ['.'] := by
  unfold Last.ofSegment
  constructor
  · intro h
    split at h
    next hs => exact hs
    next => split at h <;> cases h
  · rintro rfl
    rfl

theorem filter_steps (path : String) :
    (steps path).filter (· ≠ .here) = (Path.solid path).map Last.ofSegment := by
  rw [steps, List.filter_map, Path.solid]
  congr 1
  apply List.filter_congr
  intro s _
  simp only [Function.comp_apply, ne_eq, ofSegment_eq_here]

/-- The steps of a path lead where its solid segments lead. -/
theorem walk_steps (hl : fs.hasDirectory l = true) (path : String) :
    fs.walk l (steps path) = fs.walk l ((Path.solid path).map Last.ofSegment) := by
  rw [← walk_filter_here hl, filter_steps]

/-! ## Directories -/

theorem isDirectory_iff : fs.isDirectory path = true ↔
    ∃ l, fs.locate path = .ok l ∧ fs.hasDirectory l = true := by
  unfold isDirectory
  cases fs.locate path with
  | error fault => simp
  | ok l => simp

/-- A text that can be a path to the system. -/
def Passable (path : String) : Prop :=
  '\x00' ∉ path.toList ∧ path.toList ≠ [] ∧ path.utf8ByteSize < pathLimit

instance (path : String) : Decidable (Passable path) := inferInstanceAs (Decidable (_ ∧ _))

theorem route_of_passable (h : Passable path) :
    route path = .ok ⟨Path.isAbsolute path, (steps path).dropLast,
      (steps path).getLast?.getD .root, decide (path.toList.getLast? = some '/')⟩ :=
  route_eq_ok_iff.mpr ⟨h, rfl⟩

/-- A path leads to a directory if all its steps do. -/
theorem locate_directory_iff (hdir : fs.hasDirectory l = true) :
    fs.locate path = .ok l ↔ Passable path ∧ fs.walk (fs.start path) (steps path) = .ok l := by
  have hends : ∀ d, fs.walk (fs.start path) (steps path).dropLast = .ok d ∧
      fs.step d ((steps path).getLast?.getD .root) = .ok l →
      fs.walk (fs.start path) (steps path) = .ok l := by
    rintro d ⟨hbefore, hlast⟩
    rcases List.eq_nil_or_concat (steps path) with hnil | ⟨before, last, hsteps⟩
    · rw [hnil] at hbefore hlast ⊢
      cases hbefore
      exact hlast
    · rw [List.concat_eq_append] at hsteps
      rw [hsteps, List.dropLast_concat] at hbefore
      rw [hsteps, List.getLast?_concat] at hlast
      rw [hsteps]
      exact walk_append_eq_ok.mpr ⟨d, hbefore, walk_singleton.mpr ⟨hlast, hdir⟩⟩
  constructor
  · intro h
    obtain ⟨r, d, hr, hbase, hstep, -⟩ := locate_eq_ok_iff.mp h
    obtain ⟨hpass, rfl⟩ := route_eq_ok_iff.mp hr
    exact ⟨hpass, hends d ⟨hbase, hstep⟩⟩
  · rintro ⟨hpass, hwalk⟩
    rcases List.eq_nil_or_concat (steps path) with hnil | ⟨before, last, hsteps⟩
    · refine locate_eq_ok_iff.mpr ⟨_, fs.start path, route_of_passable hpass, ?_, ?_, fun _ => hdir⟩
      · rw [hnil]
        rfl
      · rw [hnil] at hwalk ⊢
        exact hwalk
    · rw [List.concat_eq_append] at hsteps
      rw [hsteps] at hwalk
      obtain ⟨d, hbefore, hlast⟩ := walk_append_eq_ok.mp hwalk
      refine locate_eq_ok_iff.mpr ⟨_, d, route_of_passable hpass, ?_, ?_, fun _ => hdir⟩
      · rw [hsteps, List.dropLast_concat]
        exact hbefore
      · rw [hsteps, List.getLast?_concat]
        exact (walk_singleton.mp hlast).1

/-- A path is one to a directory if a way that begins with its steps can be gone. -/
theorem isDirectory_of_walk {rest : List Last} (hpass : Passable path)
    (h : fs.walk (fs.start path) (steps path ++ rest) = .ok d) : fs.isDirectory path = true := by
  obtain ⟨m, hm, -⟩ := walk_append_eq_ok.mp h
  have hdir : fs.hasDirectory m = true := by
    rcases List.eq_nil_or_concat (steps path) with hnil | ⟨before, last, hsteps⟩
    · rw [hnil] at hm
      cases hm
      have habsolute := Path.isAbsolute_of_segments_nil hpass.2.1 (List.map_eq_nil_iff.mp hnil)
      rw [start, if_pos habsolute]
      rfl
    · rw [hsteps, List.concat_eq_append] at hm
      obtain ⟨_, -, hlast⟩ := walk_append_eq_ok.mp hm
      exact (walk_singleton.mp hlast).2
  exact isDirectory_iff.mpr ⟨m, (locate_directory_iff hdir).mpr ⟨hpass, hm⟩, hdir⟩

/-- A directory lies in directories, all the way up. -/
theorem hasDirectory_of_append {rest : Location} (h : fs.hasDirectory (l ++ rest) = true) :
    fs.hasDirectory l = true := by
  induction rest generalizing l with
  | nil =>
    rwa [List.append_nil] at h
  | cons name rest ih =>
    have hhere : fs.hasDirectory (l ++ [name]) = true := by
      apply ih
      rwa [List.append_assoc]
    have hup := hasDirectory_dropLast (isSome_of_hasDirectory hhere)
    rwa [List.dropLast_concat] at hup

/-- A path that leads to a directory cannot be made one. -/
theorem makeDirectory_of_isDirectory (h : fs.isDirectory path = true) :
    fs.makeDirectory path = (.error .alreadyExists, fs) := by
  obtain ⟨l, hlocate, hdir⟩ := isDirectory_iff.mp h
  obtain ⟨r, d, hr, hbase, hstep, -⟩ := locate_eq_ok_iff.mp hlocate
  simp only [makeDirectory, target, hr, hbase]
  cases hlast : r.last with
  | name name =>
    rw [hlast] at hstep
    obtain ⟨hname, hthere, -⟩ := step_name_eq_ok.mp hstep
    simp only [if_neg (Nat.not_lt.mpr hname), if_pos hthere]
  | _ => rfl

/-! ## Names -/

theorem start_of_isAbsolute {path other : String} (h : Path.isAbsolute path = Path.isAbsolute other) :
    fs.start path = fs.start other := by
  rw [start, start, h]

/-- Names lead where they say. -/
theorem walk_names_eq_ok (h : fs.walk l (names.map .name) = .ok d) : d = l ++ names := by
  induction names generalizing l with
  | nil =>
    cases h
    rw [List.append_nil]
  | cons name rest ih =>
    obtain ⟨l', hstep, -, hrest⟩ := walk_cons_eq_ok.mp h
    obtain ⟨-, -, rfl⟩ := step_name_eq_ok.mp hstep
    rw [ih hrest, List.append_assoc, List.singleton_append]

/-- Names lead to a directory if there is one. -/
theorem walk_names_of_hasDirectory (hshort : ∀ name ∈ names, name.utf8ByteSize ≤ longestName)
    (hdir : fs.hasDirectory (l ++ names) = true) :
    fs.walk l (names.map .name) = .ok (l ++ names) := by
  induction names generalizing l with
  | nil => rw [List.append_nil]; rfl
  | cons name rest ih =>
    have hassoc : l ++ name :: rest = (l ++ [name]) ++ rest := by simp
    rw [hassoc] at hdir ⊢
    have hhere := hasDirectory_of_append hdir
    have hname := hshort name List.mem_cons_self
    exact walk_cons_eq_ok.mpr
      ⟨l ++ [name], step_name_eq_ok.mpr ⟨hname, isSome_of_hasDirectory hhere, rfl⟩, hhere,
        ih (fun n hn => hshort n (List.mem_cons_of_mem _ hn)) hdir⟩

/-- If they lead to no directory and no file is in the way, something is missing. -/
theorem walk_names_of_missing (hl : fs.hasDirectory l = true)
    (hshort : ∀ name ∈ names, name.utf8ByteSize ≤ longestName)
    (hclear : ∀ p, p <+: l ++ names → fs.fileAt? p = none)
    (hmissing : fs.hasDirectory (l ++ names) = false) :
    fs.walk l (names.map .name) = .error .notFound := by
  induction names generalizing l with
  | nil =>
    rw [List.append_nil, hl] at hmissing
    cases hmissing
  | cons name rest ih =>
    have hassoc : l ++ name :: rest = (l ++ [name]) ++ rest := by simp
    have hname := Nat.not_lt.mpr (hshort name List.mem_cons_self)
    rw [hassoc] at hclear hmissing
    simp only [List.map_cons, walk, step, if_neg hname]
    cases hfind : fs.find? (l ++ [name]) with
    | none => rfl
    | some e =>
      have hfile := hclear _ (List.prefix_append _ rest)
      have hdir : fs.hasDirectory (l ++ [name]) = true := by
        cases e with
        | directory => exact hasDirectory_iff.mpr hfind
        | file content =>
          rw [fileAt?, hfind] at hfile
          cases hfile
      simp only [Option.isSome_some, if_true, hdir]
      exact ih hdir (fun n hn => hshort n (List.mem_cons_of_mem _ hn)) hclear hmissing

/-- Whatever lies below a place lies in a directory there. -/
theorem hasDirectory_of_below {name : String} {rest : Location}
    (h : (fs.find? (l ++ name :: rest)).isSome) : fs.hasDirectory l = true := by
  have hup := hasDirectory_dropLast h
  rw [List.dropLast_append_of_ne_nil (List.cons_ne_nil name rest)] at hup
  exact hasDirectory_of_append hup

/-- If a file is in the way, they lead to it and no further. -/
theorem walk_names_of_file (hl : fs.hasDirectory l = true)
    (hshort : ∀ name ∈ names, name.utf8ByteSize ≤ longestName) {p : Location} {content : ByteArray}
    (hp : p <+: l ++ names) (hfile : fs.find? p = some (.file content)) :
    fs.walk l (names.map .name) = .error .notDirectory := by
  have hbeyond : ∀ {d : Location}, fs.hasDirectory d = true → ¬p <+: d := by
    rintro d hd ⟨rest, rfl⟩
    have hdir := hasDirectory_iff.mp (hasDirectory_of_append hd)
    rw [hfile] at hdir
    cases hdir
  induction names generalizing l with
  | nil =>
    rw [List.append_nil] at hp
    exact absurd hp (hbeyond hl)
  | cons name rest ih =>
    have hassoc : l ++ name :: rest = (l ++ [name]) ++ rest := by simp
    have hname := Nat.not_lt.mpr (hshort name List.mem_cons_self)
    have hlonger : l ++ [name] <+: p := by
      rcases List.prefix_or_prefix_of_prefix hp (hassoc ▸ List.prefix_append _ rest) with h | h
      · rcases List.prefix_concat_iff.mp h with rfl | h
        · exact List.prefix_refl _
        · exact absurd h (hbeyond hl)
      · exact h
    simp only [List.map_cons, walk, step, if_neg hname]
    cases hfind : fs.find? (l ++ [name]) with
    | none =>
      obtain ⟨below, rfl⟩ := hlonger
      cases below with
      | nil =>
        rw [List.append_nil, hfind] at hfile
        cases hfile
      | cons n below =>
        have hdir := hasDirectory_iff.mp (hasDirectory_of_below (Option.isSome_of_eq_some hfile))
        rw [hfind] at hdir
        cases hdir
    | some e =>
      simp only [Option.isSome_some, if_true]
      cases hdir : fs.hasDirectory (l ++ [name]) with
      | false => simp only [Bool.false_eq_true, if_false]
      | true =>
        simp only [if_true]
        exact ih hdir (fun n hn => hshort n (List.mem_cons_of_mem _ hn)) (hassoc ▸ hp)

/-! ## Names at the end of a path -/

/-- A text that can name an entry. -/
structure IsName (name : String) : Prop where
  noSlash : '/' ∉ name.toList
  ne_nil : name.toList ≠ []
  ne_dot : name.toList ≠ ['.']
  ne_dots : name.toList ≠ ['.', '.']

theorem IsName.ofSegment {name : String} (h : IsName name) :
    Last.ofSegment name.toList = .name name :=
  ofSegment_eq_name.mpr ⟨h.ne_dot, h.ne_dots, rfl⟩

/-- The target of a path is in the directory that the segments before the last one lead to. -/
theorem target_of_segments {front : List (List Char)} {name : String} (hpass : Passable path)
    (hsegments : Path.segments path = front ++ [name.toList])
    (hname : Last.ofSegment name.toList = .name name) (unnamed : FileFault) :
    fs.target path unnamed = (fs.walk (fs.start path) (front.map Last.ofSegment)).map
      fun l => ⟨l, name, decide (path.toList.getLast? = some '/')⟩ := by
  have hsteps : steps path = front.map Last.ofSegment ++ [.name name] := by
    rw [steps, hsegments, List.map_append, List.map_singleton, hname]
  obtain ⟨r, hr, hwalk, hlast, hslash⟩ : ∃ r, route path = .ok r ∧
      fs.base r = fs.walk (fs.start path) (front.map Last.ofSegment) ∧ r.last = .name name ∧
      r.slash = decide (path.toList.getLast? = some '/') := by
    refine ⟨_, route_of_passable hpass, ?_⟩
    rw [base, hsteps, List.dropLast_concat, List.getLast?_concat]
    exact ⟨rfl, rfl, rfl⟩
  simp only [target, hr, hwalk, hlast, hslash]
  cases fs.walk (fs.start path) (front.map Last.ofSegment) <;> rfl

theorem isAbsolute_join (base : String) {name : String} (hname : '/' ∉ name.toList) :
    Path.isAbsolute (Path.join base name) = Path.isAbsolute base := by
  have habsolute := Path.isAbsolute_of_no_slash hname
  rw [Path.join, habsolute, if_neg Bool.false_ne_true]
  cases hbase : base.toList with
  | nil =>
    rw [if_pos (Or.inl rfl), String.ext (hbase.trans String.toList_empty.symm), String.empty_append,
      habsolute]
    rfl
  | cons c rest =>
    rw [Path.isAbsolute, Path.isAbsolute]
    split <;> simp [hbase]

theorem getLast?_join (base : String) {name : String} (hname : IsName name) :
    (Path.join base name).toList.getLast? ≠ some '/' := by
  obtain ⟨between, -, hjoin⟩ := Path.exists_toList_join base hname.noSlash
  rw [hjoin, ← List.append_assoc, List.getLast?_append,
    List.getLast?_eq_some_getLast hname.ne_nil, Option.some_or]
  intro h
  exact hname.noSlash (Option.some.inj h ▸ List.getLast_mem hname.ne_nil)

/-- The solid segments of a path lead to a location. -/
def Leads (fs : FileSystem) (path : String) (l : Location) : Prop :=
  fs.walk (fs.start path) ((Path.solid path).map Last.ofSegment) = .ok l

theorem leads_of_locate (hstart : fs.hasDirectory (fs.start path) = true)
    (hdir : fs.hasDirectory l = true) (h : fs.locate path = .ok l) : fs.Leads path l := by
  rw [Leads, ← walk_steps hstart]
  exact ((locate_directory_iff hdir).mp h).2

theorem Leads.locate (h : fs.Leads path l) (hstart : fs.hasDirectory (fs.start path) = true)
    (hpass : Passable path) : fs.locate path = .ok l := by
  have hdir := hasDirectory_of_walk h hstart
  rw [Leads, ← walk_steps hstart] at h
  exact (locate_directory_iff hdir).mpr ⟨hpass, h⟩

/-- Paths with the same solid segments and the same start lead to the same location. -/
theorem Leads.congr {other : String} (h : fs.Leads path l)
    (hsolid : Path.solid other = Path.solid path)
    (habsolute : Path.isAbsolute other = Path.isAbsolute path) : fs.Leads other l := by
  rw [Leads, hsolid, start_of_isAbsolute habsolute]
  exact h

theorem target_join (hstart : fs.hasDirectory (fs.start path) = true) {name : String}
    (hpass : Passable (Path.join path name)) (hname : IsName name) (unnamed : FileFault) :
    fs.target (Path.join path name) unnamed =
      (fs.walk (fs.start path) ((Path.solid path).map Last.ofSegment)).map
        fun l => ⟨l, name, false⟩ := by
  rw [target_of_segments hpass (Path.segments_join path hname.noSlash hname.ne_nil)
    hname.ofSegment, start_of_isAbsolute (isAbsolute_join path hname.noSlash), ← walk_steps hstart,
    decide_eq_false (getLast?_join path hname)]
  rfl

/-- A name after the path of a directory is a name in this directory. -/
theorem Leads.target_join (h : fs.Leads path l) (hstart : fs.hasDirectory (fs.start path) = true)
    {name : String} (hpass : Passable (Path.join path name)) (hname : IsName name)
    (unnamed : FileFault) :
    fs.target (Path.join path name) unnamed = .ok ⟨l, name, false⟩ := by
  rw [FileSystem.target_join hstart hpass hname, h]
  rfl

/-! ## From where no directory is -/

theorem walk_of_hasDirectory_false (hl : fs.hasDirectory l = false) {steps : List Last}
    (hup : .up ∉ steps) (h : fs.walk l steps = .ok d) : fs.hasDirectory d = false := by
  cases steps with
  | nil =>
    cases h
    exact hl
  | cons s rest =>
    obtain ⟨l', hstep, hdir, -⟩ := walk_cons_eq_ok.mp h
    have hl' : fs.hasDirectory l ≠ true := Bool.eq_false_iff.mp hl
    cases s with
    | root =>
      cases hstep
      exact absurd hdir hl'
    | here =>
      cases hstep
      exact absurd hdir hl'
    | up => exact absurd List.mem_cons_self hup
    | name name =>
      obtain ⟨-, hsome, -⟩ := step_name_eq_ok.mp hstep
      rw [find?_append_eq_none hl'] at hsome
      cases hsome

theorem up_not_mem_steps (hdots : ['.', '.'] ∉ Path.solid path) : .up ∉ steps path := by
  intro hmem
  obtain ⟨s, hs, hup⟩ := List.mem_map.mp hmem
  unfold Last.ofSegment at hup
  split at hup
  · cases hup
  next hdot =>
    split at hup
    next heq =>
      subst heq
      exact hdots (List.mem_filter.mpr ⟨hs, decide_eq_true hdot⟩)
    next => cases hup

/-- Without double dots, a path that starts where no directory is leads to no directory. -/
theorem hasDirectory_target (hdots : ['.', '.'] ∉ Path.solid path)
    (hstart : fs.hasDirectory (fs.start path) = false) {unnamed : FileFault} {t : Target}
    (ht : fs.target path unnamed = .ok t) : fs.hasDirectory t.parent = false := by
  obtain ⟨r, hr, hbase, -⟩ := target_eq_ok_iff.mp ht
  obtain ⟨-, rfl⟩ := route_eq_ok_iff.mp hr
  exact walk_of_hasDirectory_false hstart
    (fun hmem => up_not_mem_steps hdots (List.dropLast_subset _ hmem)) hbase

section Baseless

variable (hdots : ['.', '.'] ∉ Path.solid path) (hstart : fs.hasDirectory (fs.start path) = false)
include hdots hstart

/-- No directory is made there. -/
theorem makeDirectory_of_baseless : (fs.makeDirectory path).2 = fs := by
  rcases fs.makeDirectory_cases path with ⟨fault, hrun⟩ | ⟨t, after, ht, -, -, -, hchange⟩
  · rw [hrun]
  · have hparent := hasDirectory_target hdots hstart ht
    rw [hchange.hasDirectory_parent] at hparent
    cases hparent

/-- No file is written there. -/
theorem writeFile_of_baseless (content : ByteArray) :
    ∃ fault, fs.writeFile path content = (.error fault, fs) := by
  rcases fs.writeFile_cases path content with hfault | ⟨t, after, ht, -, -, -, -, hchange⟩
  · exact hfault
  · have hparent := hasDirectory_target hdots hstart ht
    rw [hchange.hasDirectory_parent] at hparent
    cases hparent

end Baseless

end HostRegistry.FileSystem
