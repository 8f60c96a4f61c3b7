import HostRegistry.Files.Fault
import HostRegistry.Files.Path
import HostRegistry.SortedMap

/-!
A file system as a value.

It is a finite map from locations to directories and files, in which everything lies in a directory,
together with the location that relative paths start from. A path is resolved step by step, and the
first step that cannot be taken is the fault. The operations answer and give the next file system;
one that fails leaves it as it was. `writeFile_cases` and its neighbours in `Proofs/Files/Changes` say
what each changes.

Links, permissions and devices are left out, and nobody else changes the files. Here a write goes
through as a whole once its file can be opened; writes that break off half way, and leave what is
written by then, are in `Files/Medium`.
-/

set_option autoImplicit false

namespace HostRegistry

/-- The names on the way from the root. -/
abbrev Location : Type := List String

/-- What can lie at a location. -/
inductive Entry where
  | directory
  | file (content : ByteArray)

instance : DecidableEq Entry
  | .directory, .directory => .isTrue rfl
  | .directory, .file _ => .isFalse Entry.noConfusion
  | .file _, .directory => .isFalse Entry.noConfusion
  | .file a, .file b =>
    @decidable_of_iff _ (a = b) ⟨congrArg Entry.file, Entry.file.inj⟩ (ByteArray.decEq a b)

/-- Whether a map of entries has a directory at a location; the root is one. -/
def isDirectoryIn (entries : SortedMap Location Entry) (l : Location) : Prop :=
  l = [] ∨ entries.find? l = some .directory

instance (entries : SortedMap Location Entry) (l : Location) : Decidable (isDirectoryIn entries l) :=
  inferInstanceAs (Decidable (_ ∨ _))

/-- Directories and files by location, and the current directory. -/
structure FileSystem where
  entries : SortedMap Location Entry
  current : Location
  grounded : ∀ l e, entries.find? l = some e → l ≠ [] ∧ isDirectoryIn entries l.dropLast

namespace FileSystem

/-- The file system with nothing but the root. -/
def empty : FileSystem :=
  { entries := ∅
    current := []
    grounded := fun _ _ h => by cases h }

instance : Inhabited FileSystem := ⟨empty⟩

/-- File systems with the same entries and the same current directory are equal. -/
theorem ext_entries {a b : FileSystem} (he : a.entries = b.entries) (hc : a.current = b.current) :
    a = b := by
  cases a
  cases b
  cases he
  cases hc
  rfl

/-- What lies at a location; the root is a directory. -/
def find? (fs : FileSystem) (l : Location) : Option Entry :=
  if l = [] then some .directory else fs.entries.find? l

/-- Whether a directory lies at a location. -/
def hasDirectory (fs : FileSystem) (l : Location) : Bool := fs.find? l = some .directory

theorem isDirectoryIn_of_hasDirectory {fs : FileSystem} {l : Location}
    (h : fs.hasDirectory l = true) : isDirectoryIn fs.entries l := by
  unfold hasDirectory find? at h
  by_cases hl : l = []
  · exact Or.inl hl
  · simp only [hl, if_false, decide_eq_true_eq] at h
    exact Or.inr h

/-! ## Changes at one location -/

private theorem compare_eq_iff {a b : Location} : compare a b = .eq ↔ a = b :=
  Std.LawfulEqCmp.compare_eq_iff_eq

/-- The file system with an entry put at a location in a directory, where no directory is replaced
by a file. -/
def put (fs : FileSystem) (parent : Location) (name : String) (e : Entry)
    (hparent : fs.hasDirectory parent = true)
    (hkeep : fs.find? (parent ++ [name]) = some .directory → e = .directory) : FileSystem :=
  { fs with
    entries := fs.entries.insert (parent ++ [name]) e
    grounded := fun l e' h => by
      have hdir : ∀ d, isDirectoryIn fs.entries d →
          isDirectoryIn (fs.entries.insert (parent ++ [name]) e) d := by
        rintro d (hd | hd)
        · exact Or.inl hd
        · refine Or.inr ?_
          rw [SortedMap.find?_insert]
          split
          next hc =>
            obtain rfl := compare_eq_iff.mp hc
            rw [hkeep (by
              unfold find?
              rw [if_neg (by simp)]
              exact hd)]
          next => exact hd
      rw [SortedMap.find?_insert] at h
      split at h
      next hc =>
        obtain rfl := compare_eq_iff.mp hc
        refine ⟨by simp, hdir _ ?_⟩
        rw [List.dropLast_concat]
        exact isDirectoryIn_of_hasDirectory hparent
      next =>
        obtain ⟨hl, hd⟩ := fs.grounded l e' h
        exact ⟨hl, hdir _ hd⟩ }

/-- The file system without the file at a location. -/
def drop (fs : FileSystem) (l : Location) (hfile : fs.hasDirectory l = false) : FileSystem :=
  { fs with
    entries := fs.entries.erase l
    grounded := fun l' e' h => by
      rw [SortedMap.find?_erase] at h
      split at h
      next => cases h
      next =>
        obtain ⟨hl, hd⟩ := fs.grounded l' e' h
        refine ⟨hl, ?_⟩
        rcases hd with hd | hd
        · exact Or.inl hd
        · refine Or.inr ?_
          rw [SortedMap.find?_erase, if_neg ?_]
          · exact hd
          · intro hc
            obtain rfl := compare_eq_iff.mp hc
            by_cases hroot : l'.dropLast = []
            · rw [hroot] at hfile
              exact absurd hfile (by simp [hasDirectory, find?])
            · simp [hasDirectory, find?, hroot, hd] at hfile }

theorem find?_put (fs : FileSystem) (parent : Location) (name : String) (e : Entry)
    (hparent : fs.hasDirectory parent = true)
    (hkeep : fs.find? (parent ++ [name]) = some .directory → e = .directory) (l : Location) :
    (fs.put parent name e hparent hkeep).find? l =
      if l = parent ++ [name] then some e else fs.find? l := by
  unfold find? put
  by_cases hl : l = []
  · rw [if_pos hl, if_neg (by subst hl; simp), if_pos hl]
  · rw [if_neg hl, if_neg hl]
    show SortedMap.find? (SortedMap.insert _ _ _) l = _
    rw [SortedMap.find?_insert]
    simp only [compare_eq_iff]

theorem find?_drop (fs : FileSystem) (l : Location) (hfile : fs.hasDirectory l = false)
    (l' : Location) :
    (fs.drop l hfile).find? l' = if l' = l then none else fs.find? l' := by
  unfold find? drop
  by_cases hl : l' = []
  · have : l' ≠ l := by
      rintro rfl
      rw [hl] at hfile
      exact absurd hfile (by simp [hasDirectory, find?])
    rw [if_pos hl, if_neg this, if_pos hl]
  · rw [if_neg hl, if_neg hl]
    show SortedMap.find? (SortedMap.erase _ _) l' = _
    rw [SortedMap.find?_erase]
    simp only [compare_eq_iff]

/-! ## Paths -/

/-- The longest name of an entry, in bytes. -/
def longestName : Nat := 255

/-- Paths of this many bytes are refused. -/
def pathLimit : Nat := 4096

/-- The last step of a path: none at all, a dot, two dots or a name. -/
inductive Last where
  | root
  | here
  | up
  | name (name : String)
  deriving DecidableEq

/-- The last step of a segment that is not empty. -/
def Last.ofSegment (segment : List Char) : Last :=
  if segment = ['.'] then .here
  else if segment = ['.', '.'] then .up
  else .name (String.ofList segment)

/-- A path as the system takes it: where it starts, the steps before the last one, the last one, and
whether a slash follows it. -/
structure Route where
  fromRoot : Bool
  before : List Last
  last : Last
  slash : Bool

/-- The route of a path, or the fault that makes it none. -/
def route (path : String) : Except FileFault Route :=
  if '\x00' ∈ path.toList then .error .badPath
  else if path.toList = [] then .error .notFound
  else if pathLimit ≤ path.utf8ByteSize then .error .nameTooLong
  else
    let steps := ((Path.pieces path.toList).filter (· ≠ [])).map Last.ofSegment
    .ok
      { fromRoot := Path.isAbsolute path
        before := steps.dropLast
        last := steps.getLast?.getD .root
        slash := path.toList.getLast? = some '/' }

/-- The location that a step leads to from a directory. -/
def step (fs : FileSystem) (l : Location) : Last → Except FileFault Location
  | .root => .ok l
  | .here => .ok l
  | .up => .ok l.dropLast
  | .name name =>
    if longestName < name.utf8ByteSize then .error .nameTooLong
    else if (fs.find? (l ++ [name])).isSome then .ok (l ++ [name])
    else .error .notFound

/-- Takes steps that all have to lead to directories. -/
def walk (fs : FileSystem) : Location → List Last → Except FileFault Location
  | l, [] => .ok l
  | l, s :: rest =>
    match fs.step l s with
    | .error fault => .error fault
    | .ok l' => if fs.hasDirectory l' then fs.walk l' rest else .error .notDirectory

/-- The directory in which a route takes its last step. -/
def base (fs : FileSystem) (r : Route) : Except FileFault Location :=
  fs.walk (if r.fromRoot then [] else fs.current) r.before

/-- The location that a path leads to. -/
def locate (fs : FileSystem) (path : String) : Except FileFault Location :=
  match route path with
  | .error fault => .error fault
  | .ok r =>
    match fs.base r with
    | .error fault => .error fault
    | .ok l =>
      match fs.step l r.last with
      | .error fault => .error fault
      | .ok l' => if r.slash ∧ fs.hasDirectory l' = false then .error .notDirectory else .ok l'

/-- Where a path that ends in a name leads: a directory, the name in it, and whether a slash follows
the name. -/
structure Target where
  parent : Location
  name : String
  slash : Bool

/-- The place of a path that ends in a name, taken or not; `unnamed` is the fault where it ends in
no name. -/
def target (fs : FileSystem) (path : String) (unnamed : FileFault) : Except FileFault Target :=
  match route path with
  | .error fault => .error fault
  | .ok r =>
    match fs.base r with
    | .error fault => .error fault
    | .ok l =>
      match r.last with
      | .name name => .ok ⟨l, name, r.slash⟩
      | _ => .error unnamed

/-! ## Operations -/

/-- Whether a path leads anywhere. -/
def pathExists (fs : FileSystem) (path : String) : Bool :=
  match fs.locate path with
  | .ok _ => true
  | .error _ => false

/-- Whether a path leads to a directory. -/
def isDirectory (fs : FileSystem) (path : String) : Bool :=
  match fs.locate path with
  | .ok l => fs.hasDirectory l
  | .error _ => false

/-- The content of the file at a path. -/
def readFile (fs : FileSystem) (path : String) : Except FileFault ByteArray :=
  match fs.locate path with
  | .error fault => .error fault
  | .ok l =>
    match fs.find? l with
    | some (.file content) => .ok content
    | some .directory => .error .isDirectory
    | none => .error .notFound

/-- Makes a directory; its parent has to be there. -/
def makeDirectory (fs : FileSystem) (path : String) : Except FileFault Unit × FileSystem :=
  match fs.target path .alreadyExists with
  | .error fault => (.error fault, fs)
  | .ok t =>
    if longestName < t.name.utf8ByteSize then (.error .nameTooLong, fs)
    else if (fs.find? (t.parent ++ [t.name])).isSome then (.error .alreadyExists, fs)
    else if hparent : fs.hasDirectory t.parent = true then
      (.ok (), fs.put t.parent t.name .directory hparent (fun _ => rfl))
    else (.error .notDirectory, fs)

/-- Writes a file, over an old one if there is one; its parent has to be there. -/
def writeFile (fs : FileSystem) (path : String) (content : ByteArray) :
    Except FileFault Unit × FileSystem :=
  match fs.target path .isDirectory with
  | .error fault => (.error fault, fs)
  | .ok t =>
    if t.slash then (.error .isDirectory, fs)
    else if longestName < t.name.utf8ByteSize then (.error .nameTooLong, fs)
    else if hdir : fs.find? (t.parent ++ [t.name]) = some .directory then (.error .isDirectory, fs)
    else if hparent : fs.hasDirectory t.parent = true then
      (.ok (), fs.put t.parent t.name (.file content) hparent (fun h => absurd h hdir))
    else (.error .notDirectory, fs)

/-- Removes the file at a path. -/
def removeFile (fs : FileSystem) (path : String) : Except FileFault Unit × FileSystem :=
  match fs.target path .isDirectory with
  | .error fault => (.error fault, fs)
  | .ok t =>
    if longestName < t.name.utf8ByteSize then (.error .nameTooLong, fs)
    else if (fs.find? (t.parent ++ [t.name])).isNone then (.error .notFound, fs)
    else if hfile : fs.hasDirectory (t.parent ++ [t.name]) = false then
      if t.slash then (.error .notDirectory, fs)
      else (.ok (), fs.drop (t.parent ++ [t.name]) hfile)
    else (.error .isDirectory, fs)

/-- Gives a file another path, in place of an old file if there is one; only files are moved. -/
def moveFile (fs : FileSystem) (source goal : String) : Except FileFault Unit × FileSystem :=
  match fs.target source .busy, fs.target goal .busy with
  | .error .busy, .error fault => (.error fault, fs)
  | .error fault, _ => (.error fault, fs)
  | _, .error fault => (.error fault, fs)
  | .ok s, .ok g =>
    if longestName < s.name.utf8ByteSize then (.error .nameTooLong, fs)
    else
      match fs.find? (s.parent ++ [s.name]) with
      | none => (.error .notFound, fs)
      | some .directory => (.error .isDirectory, fs)
      | some (.file content) =>
        if longestName < g.name.utf8ByteSize then (.error .nameTooLong, fs)
        else if s.slash ∨ g.slash then (.error .notDirectory, fs)
        else if s.parent ++ [s.name] = g.parent ++ [g.name] then (.ok (), fs)
        else if hdir : fs.find? (g.parent ++ [g.name]) = some .directory then
          (.error .isDirectory, fs)
        else if hparent : fs.hasDirectory g.parent = true then
          let moved := fs.put g.parent g.name (.file content) hparent (fun h => absurd h hdir)
          if hfile : moved.hasDirectory (s.parent ++ [s.name]) = false then
            (.ok (), moved.drop (s.parent ++ [s.name]) hfile)
          else (.error .isDirectory, fs)
        else (.error .notDirectory, fs)

end FileSystem

end HostRegistry
