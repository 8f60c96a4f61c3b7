import HostRegistry.Host
import HostRegistry.Proofs.Files.Making
import HostRegistry.Proofs.Record.Stored
import HostRegistry.Proofs.Store.Replacement

/-!
The file of a host in a directory of records.

`run_load_of_file` and its neighbours say what a load answers, and `exists_run_persist_of_stands`
and `exists_run_persist_of_absent` that a record can be persisted, and what lies in the directory
afterwards: where the directory is there, and where it is not but can be made.
-/

set_option autoImplicit false

namespace HostRegistry

open FileSystem

namespace FileSystem

variable {fs before after : FileSystem} {path : String} {d : Location}

/-- A path leads to a directory, and so does the place that it starts from. -/
structure Stands (fs : FileSystem) (path : String) (d : Location) : Prop where
  start : fs.hasDirectory (fs.start path) = true
  leads : fs.Leads path d

theorem Stands.hasDirectory (h : fs.Stands path d) : fs.hasDirectory d = true :=
  hasDirectory_of_walk h.leads h.start

theorem Stands.keeps (h : before.Stands path d) (hkeeps : Keeps before after) :
    after.Stands path d := by
  have hstart : after.start path = before.start path := by
    rw [FileSystem.start, FileSystem.start, hkeeps.current]
  refine ⟨?_, ?_⟩
  · rw [hstart]
    exact hkeeps.hasDirectory _ h.start
  · rw [Leads, hstart]
    exact hkeeps.walk h.leads

end FileSystem

namespace FileBackend

variable {directory host : String} {fs : FileSystem} {d : Location}

/-- A host whose file, and the temporary file beside it, can be told to the system. -/
structure Fits (directory host : String) : Prop where
  isHostName : isHostName host = true
  noNul : '\x00' ∉ host.toList
  name : (host ++ ".json.tmp").utf8ByteSize ≤ longestName
  path : (forHost directory host).path.utf8ByteSize < pathLimit
  temporary : (forHost directory host).temporary.utf8ByteSize < pathLimit

/-! ## Names and paths -/

theorem isName_append {suffix : String} (hhost : isHostName host = true)
    (hslash : '/' ∉ suffix.toList) (hlong : 2 ≤ suffix.toList.length) :
    IsName (host ++ suffix) := by
  simp only [isHostName, Bool.and_eq_true, decide_eq_true_eq, List.all_eq_true] at hhost
  obtain ⟨⟨hne, -⟩, hall⟩ := hhost
  have hlength : 2 < (host ++ suffix).toList.length := by
    have := List.length_pos_iff.mpr hne
    rw [String.toList_append, List.length_append]
    omega
  refine ⟨?_, ?_, ?_, ?_⟩
  · rw [String.toList_append, List.mem_append, not_or]
    exact ⟨fun h => (hall '/' h).1 rfl, hslash⟩
  all_goals
    intro h
    rw [h] at hlength
    simp at hlength

theorem isName_file (h : isHostName host = true) : IsName (host ++ ".json") :=
  isName_append h (by decide) (by decide)

theorem isName_temporary (h : isHostName host = true) : IsName (host ++ ".json.tmp") :=
  isName_append h (by decide) (by decide)

theorem append_json_ne (a b : String) : a ++ ".json" ≠ b ++ ".json.tmp" := by
  intro h
  have hlast := congrArg (fun s : String => s.toList.getLast?) h
  have hjson : ".json".toList.getLast? = some 'n' := by decide
  have htemporary : ".json.tmp".toList.getLast? = some 'p' := by decide
  rw [String.toList_append, String.toList_append, List.getLast?_append, List.getLast?_append, hjson,
    htemporary, Option.some_or, Option.some_or, Option.some.injEq] at hlast
  exact absurd hlast (by decide)

theorem solid_path (h : isHostName host = true) :
    Path.solid (forHost directory host).path = Path.solid directory ++ [(host ++ ".json").toList] := by
  have hname := isName_file h
  exact Path.solid_join directory hname.noSlash hname.ne_nil hname.ne_dot

theorem fileName?_path (h : isHostName host = true) :
    Path.fileName? (forHost directory host).path = some (host ++ ".json") := by
  rw [Path.fileName?_eq, solid_path h, List.getLast?_concat, Option.bind_some,
    if_neg (isName_file h).ne_dots, String.ofList_toList]

/-- The temporary file is beside the file: its path is that of another name in a directory with the
same segments. -/
theorem exists_temporary_eq (directory : String) (h : isHostName host = true) :
    ∃ parent, Path.parent? (forHost directory host).path = some parent ∧
      (forHost directory host).temporary = Path.join parent (host ++ ".json.tmp") ∧
      Path.solid parent = Path.solid directory ∧
      Path.isAbsolute parent = Path.isAbsolute directory ∧
      parent.toList <+: (forHost directory host).path.toList := by
  obtain ⟨parent, hparent, hrest⟩ := Path.exists_parent?_join directory (isName_file h)
  refine ⟨parent, hparent, ?_, hrest⟩
  have hname : Path.fileName? (forHost directory host).path = some (host ++ ".json") :=
    fileName?_path h
  have hparent' : Path.parent? (forHost directory host).path = some parent := hparent
  rw [temporary, Path.withFileName, hname, hparent']
  show Path.join parent (host ++ ".json" ++ ".tmp") = _
  rw [String.append_assoc]
  rfl

theorem passable_join {base name : String} (hname : IsName name) (hbase : '\x00' ∉ base.toList)
    (hnul : '\x00' ∉ name.toList) (hshort : (Path.join base name).utf8ByteSize < pathLimit) :
    Passable (Path.join base name) := by
  have hsegments := Path.segments_join base hname.noSlash hname.ne_nil
  refine ⟨?_, Path.toList_ne_nil_of_segments hsegments, hshort⟩
  obtain ⟨between, hbetween, hjoin⟩ := Path.exists_toList_join base hname.noSlash
  rw [hjoin, List.mem_append, List.mem_append, not_or, not_or]
  refine ⟨hbase, ?_, hnul⟩
  rcases hbetween with rfl | rfl <;> decide

theorem noNul_append {suffix : String} (h : Fits directory host) (hsuffix : '\x00' ∉ suffix.toList) :
    '\x00' ∉ (host ++ suffix).toList := by
  rw [String.toList_append, List.mem_append, not_or]
  exact ⟨h.noNul, hsuffix⟩

theorem passable_path (h : Fits directory host) (hnul : '\x00' ∉ directory.toList) :
    Passable (forHost directory host).path :=
  passable_join (isName_file h.isHostName) hnul (noNul_append h (by decide)) h.path

theorem passable_directory (h : Fits directory host) (hnul : '\x00' ∉ directory.toList)
    (hne : directory.toList ≠ []) : Passable directory := by
  obtain ⟨between, -, hjoin⟩ := Path.exists_toList_join directory (isName_file h.isHostName).noSlash
  exact (passable_path h hnul).of_front ⟨_, hjoin.symm⟩ hne

theorem passable_temporary (h : Fits directory host) (hnul : '\x00' ∉ directory.toList) :
    Passable (forHost directory host).temporary := by
  obtain ⟨parent, -, htemporary, -, -, hstarts⟩ := exists_temporary_eq directory h.isHostName
  have hparent : '\x00' ∉ parent.toList :=
    fun hmem => (passable_path h hnul).1 (hstarts.subset hmem)
  have hshort := h.temporary
  rw [htemporary] at hshort ⊢
  exact passable_join (isName_temporary h.isHostName) hparent (noNul_append h (by decide)) hshort

/-! ## Targets -/

section Standing

variable (h : Fits directory host) (hnul : '\x00' ∉ directory.toList) (hd : fs.Stands directory d)
include h hnul hd

theorem target_path (unnamed : FileFault) :
    fs.target (forHost directory host).path unnamed = .ok ⟨d, host ++ ".json", false⟩ :=
  hd.leads.target_join hd.start (passable_path h hnul) (isName_file h.isHostName) unnamed

theorem target_temporary (unnamed : FileFault) :
    fs.target (forHost directory host).temporary unnamed = .ok ⟨d, host ++ ".json.tmp", false⟩ := by
  obtain ⟨parent, -, htemporary, hsolid, habsolute, -⟩ := exists_temporary_eq directory h.isHostName
  have hpass := passable_temporary h hnul
  rw [htemporary] at hpass ⊢
  exact (hd.leads.congr hsolid habsolute).target_join (start_of_isAbsolute habsolute ▸ hd.start) hpass
    (isName_temporary h.isHostName) unnamed

end Standing

/-! ## Loading -/

theorem fromUTF8?_toUTF8 (text : String) : String.fromUTF8? text.toUTF8 = some text := by
  rw [String.toUTF8_eq_toByteArray, String.fromUTF8?, dif_pos text.isValidUTF8]
  rfl

theorem run_readText_of_error {ρ : Type} {path : String} {fault : FileFault}
    (h : fs.readFile path = .error fault) :
    (Files.readText path : Script ρ _).run fs = ⟨.error fault, [], fs⟩ := by
  rw [Files.readText, Script.run_request_bind, perform, h]
  rfl

theorem run_readText_of_ok {ρ : Type} {path text : String} (h : fs.readFile path = .ok text.toUTF8) :
    (Files.readText path : Script ρ _).run fs = ⟨.ok text, [], fs⟩ := by
  rw [Files.readText, Script.run_request_bind, perform, h]
  simp only [fromUTF8?_toUTF8]
  rfl

theorem run_load_of_notFound {b : FileBackend} (h : fs.readFile b.path = .error .notFound) :
    b.load.run fs = ⟨.error (.notFound b.describe), [], fs⟩ := by
  rw [load, Script.run_bind, run_readText_of_error h]
  rfl

/-- A stored document is loaded as the record that was persisted. -/
theorem run_load_of_stored {b : FileBackend} {record : Record}
    (h : fs.readFile b.path = .ok record.encode.toUTF8) :
    b.load.run fs = ⟨.ok record, [.read b.path], fs⟩ := by
  rw [load, Script.run_bind, run_readText_of_ok h]
  simp only [Record.decode_encode]
  rfl

theorem name_short_of_temporary (hlong : (host ++ ".json.tmp").utf8ByteSize ≤ longestName) :
    (host ++ ".json").utf8ByteSize ≤ longestName := by
  rw [String.utf8ByteSize_append] at hlong ⊢
  have : ".json".utf8ByteSize ≤ ".json.tmp".utf8ByteSize := by decide
  omega

theorem name_short (h : Fits directory host) : (host ++ ".json").utf8ByteSize ≤ longestName :=
  name_short_of_temporary h.name

theorem readFile_of_locate_notFound {path : String} (h : fs.locate path = .error .notFound) :
    fs.readFile path = .error .notFound := by
  rw [readFile, h]

/-- Where the directory is missing, the host has no record. -/
theorem run_load_of_missing (h : Fits directory host) (hnul : '\x00' ∉ directory.toList)
    (hstart : fs.hasDirectory (fs.start directory) = true)
    (hmissing : fs.walk (fs.start directory) ((Path.solid directory).map Last.ofSegment) =
      .error .notFound) :
    (forHost directory host).load.run fs =
      ⟨.error (.notFound (forHost directory host).describe), [], fs⟩ := by
  refine run_load_of_notFound (readFile_of_locate_notFound (locate_of_target_notFound ?_))
  rw [forHost, FileSystem.target_join hstart (passable_path h hnul) (isName_file h.isHostName), hmissing]
  rfl

section Standing

variable (h : Fits directory host) (hnul : '\x00' ∉ directory.toList) (hd : fs.Stands directory d)
include h hnul hd

theorem run_load_of_none (hnone : fs.find? (d ++ [host ++ ".json"]) = none) :
    (forHost directory host).load.run fs =
      ⟨.error (.notFound (forHost directory host).describe), [], fs⟩ :=
  run_load_of_notFound (readFile_of_locate_notFound
    (locate_of_target_free (target_path h hnul hd .busy) (name_short h) hnone))

theorem run_load_of_file {record : Record}
    (hfile : fs.find? (d ++ [host ++ ".json"]) = some (.file record.encode.toUTF8)) :
    (forHost directory host).load.run fs =
      ⟨.ok record, [.read (forHost directory host).path], fs⟩ :=
  run_load_of_stored (readFile_of_target (target_path h hnul hd .busy) rfl (name_short h) hfile)

/-! ## Persisting -/

/-- `after` is `before` with a file, and without another one. -/
structure Stored (d : Location) (host text : String) (before after : FileSystem) : Prop where
  current : after.current = before.current
  find? : ∀ l, after.find? l =
    if l = d ++ [host ++ ".json.tmp"] then none
    else if l = d ++ [host ++ ".json"] then some (.file text.toUTF8)
    else before.find? l

omit h hnul hd in
theorem Stored.keeps {text : String} {before after : FileSystem} (h : Stored d host text before after)
    (hfile : before.find? (d ++ [host ++ ".json"]) ≠ some .directory)
    (htemporary : before.find? (d ++ [host ++ ".json.tmp"]) ≠ some .directory) :
    Keeps before after where
  current := h.current
  hasDirectory l hl := by
    rw [hasDirectory_iff] at hl ⊢
    have hne : l ≠ d ++ [host ++ ".json.tmp"] := fun heq => htemporary (heq ▸ hl)
    have hne' : l ≠ d ++ [host ++ ".json"] := fun heq => hfile (heq ▸ hl)
    rw [h.find?, if_neg hne, if_neg hne']
    exact hl

/-- In a directory that is there a document can be written, unless directories are in its place. -/
theorem exists_run_write (text : String)
    (hfile : fs.find? (d ++ [host ++ ".json"]) ≠ some .directory)
    (htemporary : fs.find? (d ++ [host ++ ".json.tmp"]) ≠ some .directory) :
    ∃ after, ((forHost directory host).write text).run fs = ⟨.ok (), [], after⟩ ∧
      Stored d host text fs after := by
  have hs := target_temporary h hnul hd
  obtain ⟨written, hwrite, hchange⟩ :=
    writeFile_eq_ok (hs .isDirectory) rfl h.name htemporary hd.hasDirectory text.toUTF8
  have hkeeps := hchange.keeps fun heq => absurd heq htemporary
  have hne : d ++ [host ++ ".json.tmp"] ≠ d ++ [host ++ ".json"] :=
    place_ne (hs .busy) (target_path h hnul hd .busy)
  have hgoal : written.find? (d ++ [host ++ ".json"]) ≠ some .directory := by
    rw [hchange.find?_ne hne.symm]
    exact hfile
  obtain ⟨after, hmove, hmoved⟩ := moveFile_eq_ok (hkeeps.target (hs .busy))
    (hkeeps.target (target_path h hnul hd .busy)) ⟨rfl, rfl⟩ ⟨h.name, name_short h⟩ hne
    hchange.find?_self hgoal (hkeeps.hasDirectory _ hd.hasDirectory)
  refine ⟨after, ?_, hmoved.current.trans hchange.current, ?_⟩
  · have hsettle : (forHost directory host).settle.run written = ⟨.ok (), [], after⟩ := by
      rw [settle, Script.run_request_bind, perform, hmove]
      rfl
    rw [write, Files.writeText, Script.run_request_bind, perform, hwrite]
    exact hsettle
  · intro l
    rw [hmoved.find?]
    by_cases hl : l = d ++ [host ++ ".json.tmp"]
    · rw [if_pos hl, if_pos hl]
    · rw [if_neg hl, if_neg hl, hchange.find?_ne hl]

/-- A directory that is there is not made. -/
theorem run_makeParent_of_stands :
    (forHost directory host).makeParent.run fs = ⟨.ok (), [], fs⟩ := by
  obtain ⟨parent, hparent, -, hsolid, habsolute, hstarts⟩ := exists_temporary_eq directory h.isHostName
  rw [makeParent, hparent]
  exact Files.run_makeDirectories_of_leads (fun hne => (passable_path h hnul).of_front hstarts hne)
    (start_of_isAbsolute habsolute ▸ hd.start) (hd.leads.congr hsolid habsolute)

end Standing

/-- Persisting in a directory that was made is writing in it. -/
theorem run_persist_of_made {b : FileBackend} {made after : FileSystem} {record : Record}
    (hvalue : (b.makeParent.run fs).value = .ok ()) (hmade : (b.makeParent.run fs).files = made)
    (hwrite : (b.write record.encode).run made = ⟨.ok (), [], after⟩) :
    ((b.persist record).run fs).value = .ok () ∧ ((b.persist record).run fs).files = after := by
  have hreplace : ((b.replace record.encode).run fs).value = .ok () ∧
      ((b.replace record.encode).run fs).files = after := by
    simp only [replace_eq, Script.run_bind, hvalue, hmade, hwrite, and_self]
  obtain ⟨hpersist, hfiles⟩ := run_persist record b fs
  rw [hreplace.1] at hpersist
  exact ⟨hpersist, hfiles.trans hreplace.2⟩

/-- A record can be persisted in a directory that is there. -/
theorem exists_run_persist_of_stands (h : Fits directory host) (hnul : '\x00' ∉ directory.toList)
    (hd : fs.Stands directory d) (record : Record)
    (hfile : fs.find? (d ++ [host ++ ".json"]) ≠ some .directory)
    (htemporary : fs.find? (d ++ [host ++ ".json.tmp"]) ≠ some .directory) :
    ∃ after, (((forHost directory host).persist record).run fs).value = .ok () ∧
      (((forHost directory host).persist record).run fs).files = after ∧
      Stored d host record.encode fs after := by
  obtain ⟨after, hwrite, hstored⟩ := exists_run_write h hnul hd record.encode hfile htemporary
  have hparent := run_makeParent_of_stands h hnul hd
  obtain ⟨hvalue, hfiles⟩ := run_persist_of_made (by rw [hparent]) (by rw [hparent]) hwrite
  exact ⟨after, hvalue, hfiles, hstored⟩

/-- The directories that are made for a file are on the way to where the names of its directory
lead. -/
theorem prefix_of_deepened (h : isHostName host = true) (hdots : ['.', '.'] ∉ Path.solid directory)
    (hstart : fs.hasDirectory (fs.start directory) = true) {made : FileSystem}
    (hdeep : Deepened (forHost directory host).above fs made) {l : Location} :
    made.find? l = fs.find? l ∨
      fs.find? l = none ∧ made.find? l = some .directory ∧
        l <+: fs.start directory ++ names directory := by
  obtain ⟨parent, hparent, -, hsolid, habsolute, -⟩ := exists_temporary_eq directory h
  have habove : (forHost directory host).above = Path.ancestors parent := by
    rw [above, hparent]
  have hplace : made.start parent ++ names parent = fs.start directory ++ names directory := by
    rw [start_of_isAbsolute habsolute, names, hsolid, start, hdeep.current]
    rfl
  have hstart' : made.hasDirectory (made.start parent) = true := by
    rw [start_of_isAbsolute habsolute, start, hdeep.current]
    exact hdeep.keeps.hasDirectory _ hstart
  rcases hdeep.find? l with hsame | ⟨hfree, hnew, upper, hupper, hlocate⟩
  · exact Or.inl hsame
  · have hfront := Files.prefix_of_locate_ancestor (habove ▸ hupper) (hsolid ▸ hdots) hstart'
      (hasDirectory_iff.mpr hnew) hlocate
    exact Or.inr ⟨hfree, hnew, hplace ▸ hfront⟩

/-- A directory that is missing but can be made is made, and nothing is in it. -/
theorem exists_run_makeParent_of_absent (h : Fits directory host)
    (hnul : '\x00' ∉ directory.toList) (hmake : fs.Makeable directory)
    (habsent : fs.find? (fs.start directory ++ names directory) = none) :
    let d := fs.start directory ++ names directory
    ∃ made, ((forHost directory host).makeParent.run fs).value = .ok () ∧
      ((forHost directory host).makeParent.run fs).files = made ∧ made.Stands directory d ∧
      ∀ name, made.find? (d ++ [name]) = none := by
  intro d
  have hdeep := deepened_makeParent (forHost directory host) fs
  obtain ⟨parent, hparent, -, hsolid, habsolute, hstarts⟩ := exists_temporary_eq directory h.isHostName
  have hnames : names parent = names directory := by rw [names, hsolid, names]
  have hmakeParent := hmake.congr hsolid habsolute
  have hrun := Files.run_makeDirectories_of_makeable FileEvent
    (fun hne => (passable_path h hnul).of_front hstarts hne) hmakeParent
  have hmakes : (forHost directory host).makeParent = Files.makeDirectories parent := by
    rw [makeParent, hparent]
  rw [hmakes] at hdeep ⊢
  obtain ⟨hvalue, hdir⟩ := hrun
  generalize ((Files.makeDirectories parent : Script FileEvent _).run fs).files = made at hdeep hdir
  have hstart : ∀ path, made.start path = fs.start path := by
    intro path
    rw [start, start, hdeep.current]
  rw [start_of_isAbsolute habsolute, hnames] at hdir
  refine ⟨made, hvalue, rfl, ⟨?_, ?_⟩, ?_⟩
  · rw [hstart]
    exact hdeep.keeps.hasDirectory _ hmake.start
  · rw [Leads, hstart, map_ofSegment_solid hmake.dots]
    exact walk_names_of_hasDirectory hmake.short hdir
  · intro name
    rcases prefix_of_deepened h.isHostName hmake.dots hmake.start hdeep (l := d ++ [name]) with
      hsame | ⟨-, -, hshort⟩
    · rw [hsame]
      apply find?_append_eq_none
      intro hthere
      cases habsent.symm.trans (hasDirectory_iff.mp hthere)
    · have hlength := hshort.length_le
      rw [List.length_append] at hlength
      exact absurd hlength (Nat.not_succ_le_self _)

/-- A record can be persisted where the directory is missing but can be made. -/
theorem exists_run_persist_of_absent (h : Fits directory host)
    (hnul : '\x00' ∉ directory.toList) (hmake : fs.Makeable directory)
    (habsent : fs.find? (fs.start directory ++ names directory) = none) (record : Record) :
    let d := fs.start directory ++ names directory
    ∃ made after, (((forHost directory host).persist record).run fs).value = .ok () ∧
      (((forHost directory host).persist record).run fs).files = after ∧
      made.Stands directory d ∧ (∀ name, made.find? (d ++ [name]) = none) ∧
      Stored d host record.encode made after := by
  intro d
  obtain ⟨made, hvalue, hmade, hd, hempty⟩ := exists_run_makeParent_of_absent h hnul hmake habsent
  obtain ⟨after, hwrite, hstored⟩ := exists_run_write h hnul hd record.encode
    (by rw [hempty]; simp) (by rw [hempty]; simp)
  obtain ⟨hpersist, hfiles⟩ := run_persist_of_made hvalue hmade hwrite
  exact ⟨made, after, hpersist, hfiles, hd, hempty, hstored⟩

end FileBackend

end HostRegistry
