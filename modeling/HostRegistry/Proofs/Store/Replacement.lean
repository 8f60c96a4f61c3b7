import HostRegistry.Proofs.Files.Deepened
import HostRegistry.Proofs.Files.Segments
import HostRegistry.Store.File

/-!
What becomes of the files when a file backend persists a record.

The document is written to the temporary file, which then takes the place of the real one.
`replace_cases` tells the file systems on the way apart: the one with the directories made, the one
with the temporary file written, and the last one. The two files never have the same place, for the
name of the temporary one is longer. Here every write goes through; those that break off are in
`Proofs/Store/BrokenWrites`.
-/

set_option autoImplicit false

namespace HostRegistry.FileBackend

open FileSystem

variable {b : FileBackend} {fs other after : FileSystem} {unnamed unnamed' : FileFault} {s g : Target}

/-- The directory of the file and those above it, as far as the path tells them. -/
def above (b : FileBackend) : List String :=
  match Path.parent? b.path with
  | some parent => Path.ancestors parent
  | none => []

/-- The name of the temporary file. -/
def temporaryName (b : FileBackend) : String := (Path.fileName? b.path).getD "" ++ ".tmp"

/-! ## The two places -/

theorem slash_not_mem_temporaryName (b : FileBackend) : '/' ∉ b.temporaryName.toList := by
  rw [temporaryName, String.toList_append, List.mem_append, not_or]
  refine ⟨?_, by decide⟩
  cases h : Path.fileName? b.path with
  | none => decide
  | some name => exact Path.slash_not_mem_fileName h

theorem ofSegment_temporaryName (b : FileBackend) :
    Last.ofSegment b.temporaryName.toList = .name b.temporaryName := by
  have hmem : 't' ∈ b.temporaryName.toList := by
    rw [temporaryName, String.toList_append]
    exact List.mem_append_right _ (by decide)
  refine ofSegment_eq_name.mpr ⟨?_, ?_, rfl⟩
  · intro h
    rw [h] at hmem
    revert hmem
    decide
  · intro h
    rw [h] at hmem
    revert hmem
    decide

/-- The temporary path is a path with the temporary name at its end. -/
theorem exists_temporary_eq_join (b : FileBackend) :
    ∃ base, b.temporary = Path.join base b.temporaryName := by
  rw [temporary, Path.withFileName]
  split
  · exact ⟨_, rfl⟩
  · exact ⟨_, rfl⟩

theorem name_of_target_temporary (h : fs.target b.temporary unnamed = .ok s) :
    s.name = b.temporaryName := by
  obtain ⟨r, hr, _, hlast, _⟩ := target_eq_ok_iff.mp h
  obtain ⟨-, rfl⟩ := route_eq_ok_iff.mp hr
  obtain ⟨base, hbase⟩ := exists_temporary_eq_join b
  have hne : b.temporaryName.toList ≠ [] := by
    rw [temporaryName, String.toList_append]
    exact List.append_ne_nil_of_right_ne_nil _ (by decide)
  have hsteps : (steps b.temporary).getLast? = some (.name b.temporaryName) := by
    rw [steps, hbase, Path.segments_join base (slash_not_mem_temporaryName b) hne,
      List.getLast?_map, List.getLast?_concat, Option.map_some, ofSegment_temporaryName]
  rw [hsteps, Option.getD_some] at hlast
  exact (Last.name.inj hlast).symm

theorem fileName?_of_target (h : fs.target b.path unnamed = .ok g) :
    Path.fileName? b.path = some g.name := by
  obtain ⟨r, hr, _, hlast, _⟩ := target_eq_ok_iff.mp h
  exact fileName?_of_route hr hlast

/-- The file and the temporary file are never in the same place. -/
theorem place_ne (hs : fs.target b.temporary unnamed = .ok s)
    (hg : other.target b.path unnamed' = .ok g) : s.place ≠ g.place := by
  intro heq
  have hname : s.name = g.name := by
    have := congrArg List.getLast? heq
    rwa [List.getLast?_concat, List.getLast?_concat, Option.some.injEq] at this
  rw [name_of_target_temporary hs, temporaryName, fileName?_of_target hg, Option.getD_some] at hname
  have hlength := congrArg (fun n : String => n.toList.length) hname
  rw [String.toList_append, List.length_append] at hlength
  exact absurd hlength (by simp)

/-! ## Replacing -/

/-- What a replacement did after the document was written beside the file. -/
inductive Settled (b : FileBackend) (content : ByteArray) (s : Target)
    (written after : FileSystem) : Except FileFault Unit → Prop where
  | removed (fault : FileFault) :
    ChangedAt s.place none written after → Settled b content s written after (.error fault)
  | moved (g : Target) :
    written.target b.path .busy = .ok g → g.slash = false → g.name.utf8ByteSize ≤ longestName →
    written.find? g.place ≠ some .directory →
    Moved s.place g.place content written after → Settled b content s written after (.ok ())

namespace Settled

variable {content : ByteArray} {written after : FileSystem} {value : Except FileFault Unit}

theorem keeps (h : Settled b content s written after value)
    (hfile : written.find? s.place = some (.file content)) : Keeps written after := by
  have hdir : written.find? s.place ≠ some .directory := by
    rw [hfile]
    simp
  cases h with
  | removed _ hremoved => exact hremoved.keeps fun h => absurd h hdir
  | moved g hg hslash hname hgdir hmoved => exact hmoved.keeps hdir hgdir

/-- Away from the temporary place a file is as it was, or it is the real one with the document. -/
theorem fileAt? (h : Settled b content s written after value)
    (hs : other.target b.temporary unnamed = .ok s) {l : Location} (hl : l ≠ s.place) :
    after.fileAt? l = written.fileAt? l ∨
      written.place? b.path = some l ∧ after.fileAt? l = some content := by
  cases h with
  | removed _ hremoved => exact Or.inl (hremoved.fileAt?_ne hl)
  | moved g hg hslash hname hgdir hmoved =>
    by_cases hlg : l = g.place
    · right
      rw [hlg, fileAt?_eq_some, hmoved.find?, if_neg (place_ne hs hg).symm, if_pos rfl]
      exact ⟨place?_eq_some hg, rfl⟩
    · left
      rw [FileSystem.fileAt?, hmoved.find?, if_neg hl, if_neg hlg]
      rfl

end Settled

theorem within_makeParent (b : FileBackend) : b.makeParent.Within (Deepened b.above) := by
  unfold makeParent
  cases h : Path.parent? b.path with
  | none => exact Script.within_pure (fun fs => .refl _ fs) _
  | some parent =>
    have habove : b.above = Path.ancestors parent := by rw [above, h]
    rw [habove]
    exact Files.within_makeAll _

theorem deepened_makeParent (b : FileBackend) (fs : FileSystem) :
    Deepened b.above fs (b.makeParent.run fs).files :=
  within_makeParent b fs _ (Script.files_mem_states _ fs)

/-- Moving the document to its place, or removing it. -/
def settle (b : FileBackend) : Script FileEvent (Except FileFault Unit) := do
  match ← Script.request (.moveFile b.temporary b.path) with
  | .ok _ => return .ok ()
  | .error fault =>
    let _ ← Script.request (.removeFile b.temporary)
    return .error fault

theorem settle_cases {content : ByteArray} (hs : fs.target b.temporary .isDirectory = .ok s)
    (hslash : s.slash = false) (hname : s.name.utf8ByteSize ≤ longestName)
    (hfile : fs.find? s.place = some (.file content)) :
    Settled b content s fs (b.settle.run fs).files (b.settle.run fs).value ∧
    ∀ state ∈ b.settle.states fs, state = fs ∨ state = (b.settle.run fs).files := by
  have hsource := target_eq_ok hs .busy
  rcases fs.moveFile_cases hsource hslash hname hfile (fun g hg _ => place_ne hs hg) with
    ⟨fault, hmove⟩ | ⟨g, after, hg, hgslash, hgname, hdir, hmove, hmoved⟩
  · obtain ⟨after, hremove, hchange⟩ := removeFile_eq_ok hs hslash hname hfile
    have hrun : b.settle.run fs = ⟨.error fault, [], after⟩ := by
      rw [settle, Script.run_request_bind, perform, hmove]
      show (Script.request (.removeFile b.temporary) >>= fun _ =>
        pure (.error fault) : Script FileEvent (Except FileFault Unit)).run fs = _
      rw [Script.run_request_bind, perform, hremove]
      rfl
    have hstates : b.settle.states fs = [fs, fs, after] := by
      rw [settle, Script.states_request_bind, perform, hmove]
      show fs :: (Script.request (.removeFile b.temporary) >>= fun _ =>
        pure (.error fault) : Script FileEvent (Except FileFault Unit)).states fs = _
      rw [Script.states_request_bind, perform, hremove]
      rfl
    rw [hrun, hstates]
    refine ⟨.removed fault hchange, ?_⟩
    intro state h
    simpa using h
  · have hrun : b.settle.run fs = ⟨.ok (), [], after⟩ := by
      rw [settle, Script.run_request_bind, perform, hmove]
      rfl
    have hstates : b.settle.states fs = [fs, after] := by
      rw [settle, Script.states_request_bind, perform, hmove]
      rfl
    rw [hrun, hstates]
    refine ⟨.moved g hg hgslash hgname hdir hmoved, ?_⟩
    intro state h
    simpa using h

/-- Writing the document beside the file and settling it. -/
def write (b : FileBackend) (text : String) : Script FileEvent (Except FileFault Unit) := do
  match ← Files.writeText b.temporary text with
  | .error fault => return .error fault
  | .ok _ => b.settle

/-- A replacement is the making of the directories with the writing after it. -/
theorem replace_eq (b : FileBackend) (text : String) :
    b.replace text = b.makeParent >>= fun
      | .error fault => pure (.error fault)
      | .ok _ => b.write text :=
  rfl

/-- Nothing is written, or the document is written to the temporary file and that is settled. -/
theorem write_cases (b : FileBackend) (text : String) (fs : FileSystem) :
    let o := (b.write text).run fs
    ((∃ fault, o.value = .error fault) ∧ o.files = fs) ∨
    ∃ s written, fs.target b.temporary .isDirectory = .ok s ∧
      fs.find? s.place ≠ some .directory ∧
      ChangedAt s.place (some (.file text.toUTF8)) fs written ∧
      Settled b text.toUTF8 s written o.files o.value := by
  intro o
  rcases fs.writeFile_cases b.temporary text.toUTF8 with
    ⟨fault, hwrite⟩ | ⟨s, written, hs, hslash, hname, hdir, hwrite, hchange⟩
  · have hrun : o = ⟨.error fault, [], fs⟩ := by
      show (b.write text).run fs = _
      rw [write, Files.writeText, Script.run_request_bind, perform, hwrite]
      rfl
    rw [hrun]
    exact Or.inl ⟨⟨fault, rfl⟩, rfl⟩
  · have hrun : o = b.settle.run written := by
      show (b.write text).run fs = _
      rw [write, Files.writeText, Script.run_request_bind, perform, hwrite]
    have hkeeps := hchange.keeps fun h => absurd h hdir
    rw [hrun]
    exact Or.inr ⟨s, written, hs, hdir, hchange,
      (settle_cases (hkeeps.target hs) hslash hname hchange.find?_self).1⟩

/-- A replacement stops with nothing but directories made, or it writes the document to the
temporary file and settles that. -/
theorem replace_cases (b : FileBackend) (text : String) (fs : FileSystem)
    {value : Except FileFault Unit} (hvalue : ((b.replace text).run fs).value = value)
    (hafter : ((b.replace text).run fs).files = after) :
    ∃ made, Deepened b.above fs made ∧
      ((∃ fault, value = .error fault) ∧ after = made ∨
        ∃ s written, made.target b.temporary .isDirectory = .ok s ∧
          made.find? s.place ≠ some .directory ∧
          ChangedAt s.place (some (.file text.toUTF8)) made written ∧
          Settled b text.toUTF8 s written after value) := by
  subst hvalue hafter
  refine ⟨(b.makeParent.run fs).files, deepened_makeParent b fs, ?_⟩
  cases hmade : (b.makeParent.run fs).value with
  | error fault =>
    have hrun : (b.replace text).run fs =
        ⟨.error fault, (b.makeParent.run fs).reports, (b.makeParent.run fs).files⟩ := by
      simp only [replace_eq, Script.run_bind, hmade, Script.run_pure, List.append_nil]
    rw [hrun]
    exact Or.inl ⟨⟨fault, rfl⟩, rfl⟩
  | ok _ =>
    simp only [replace_eq, Script.run_bind, hmade]
    exact write_cases b text _

/-! ## Persisting -/

/-- What persisting adds to a replacement: words for its fault, or a report. -/
def conclude (b : FileBackend) : Except FileFault Unit → Script FileEvent (Except Error Unit)
  | .error fault => pure (.error (.persist b.describe fault.message))
  | .ok _ => Script.emit (.wrote b.path) >>= fun _ => pure (.ok ())

theorem persist_eq (record : Record) (b : FileBackend) :
    b.persist record = b.replace record.encode >>= b.conclude := rfl

theorem run_bind_conclude (b : FileBackend) (x : Script FileEvent (Except FileFault Unit))
    (fs : FileSystem) :
    ((x >>= b.conclude).run fs).value =
      (x.run fs).value.mapError (fun fault => .persist b.describe fault.message) ∧
    ((x >>= b.conclude).run fs).files = (x.run fs).files := by
  rw [Script.run_bind]
  cases h : (x.run fs).value <;> simp only [h] <;> exact ⟨rfl, rfl⟩

theorem run_persist (record : Record) (b : FileBackend) (fs : FileSystem) :
    let o := (b.replace record.encode).run fs
    ((b.persist record).run fs).value =
      o.value.mapError (fun fault => .persist b.describe fault.message) ∧
    ((b.persist record).run fs).files = o.files :=
  b.run_bind_conclude _ fs

theorem states_conclude (b : FileBackend) (answer : Except FileFault Unit) (fs : FileSystem) :
    (b.conclude answer).states fs = [fs] := by
  cases answer <;> rfl

/-- A record is persisted only if the document replaced the old one. -/
theorem replace_of_persist {record : Record} (h : ((b.persist record).run fs).value = .ok ()) :
    ((b.replace record.encode).run fs).value = .ok () := by
  rw [(run_persist record b fs).1] at h
  cases hvalue : ((b.replace record.encode).run fs).value with
  | ok _ => rfl
  | error fault =>
    rw [hvalue] at h
    cases h

/-- Persisting fails only if the replacement does, and says why. -/
theorem replace_of_persist_error {record : Record} {error : Error}
    (h : ((b.persist record).run fs).value = .error error) :
    ∃ fault, ((b.replace record.encode).run fs).value = .error fault ∧
      error = .persist b.describe fault.message := by
  rw [(run_persist record b fs).1] at h
  cases hvalue : ((b.replace record.encode).run fs).value with
  | ok _ =>
    rw [hvalue] at h
    cases h
  | error fault =>
    rw [hvalue] at h
    cases h
    exact ⟨fault, rfl, rfl⟩

/-- The content of a file that a path with this target leads to. -/
theorem readFile_of_target {path : String} {content : ByteArray}
    (hg : fs.target path unnamed = .ok g) (hslash : g.slash = false)
    (hname : g.name.utf8ByteSize ≤ longestName) (hfile : fs.find? g.place = some (.file content)) :
    fs.readFile path = .ok content := by
  have hlocate : fs.locate path = .ok g.place := by
    apply locate_of_target hg hname
    · rw [hfile]
      rfl
    · intro h
      rw [hslash] at h
      cases h
  simp only [readFile, hlocate, hfile]

/-- What a replacement that failed leaves: no file came, and none went but the temporary one. -/
theorem files_of_replace_error {text : String} {fault : FileFault}
    (h : ((b.replace text).run fs).value = .error fault)
    (hafter : ((b.replace text).run fs).files = after) (l : Location) :
    after.fileAt? l = fs.fileAt? l ∨
      after.place? b.temporary = some l ∧ after.fileAt? l = none := by
  obtain ⟨made, hdeep, ⟨-, hsame⟩ | ⟨s, written, hs, hdir, hchange, hsettled⟩⟩ :=
    replace_cases b text fs h hafter
  · left
    rw [hsame]
    exact hdeep.fileAt? l
  · have hlast := hsettled.keeps hchange.find?_self
    have hkeeps := (hchange.keeps fun h => absurd h hdir).trans hlast
    cases hsettled with
    | removed _ hremoved =>
      by_cases hl : l = s.place
      · right
        rw [hl, fileAt?, hremoved.find?_self]
        exact ⟨place?_eq_some (hkeeps.target hs), rfl⟩
      · left
        rw [hremoved.fileAt?_ne hl, hchange.fileAt?_ne hl]
        exact hdeep.fileAt? l

/-- What a replacement that succeeded made of the files, place by place: new directories above the
file, the document at the place of the file and nothing at that of the temporary one. -/
theorem exists_of_replace_ok {text : String} (h : ((b.replace text).run fs).value = .ok ())
    (hafter : ((b.replace text).run fs).files = after) :
    ∃ made s g, Deepened b.above fs made ∧ Keeps made after ∧
      after.target b.temporary .busy = .ok s ∧ after.target b.path .busy = .ok g ∧
      g.slash = false ∧ g.name.utf8ByteSize ≤ longestName ∧
      ∀ l, after.find? l = if l = s.place then none
        else if l = g.place then some (.file text.toUTF8) else made.find? l := by
  obtain ⟨made, hdeep, ⟨⟨fault, herror⟩, -⟩ | ⟨s, written, hs, hdir, hchange, hsettled⟩⟩ :=
    replace_cases b text fs h hafter
  · cases herror
  have hlast := hsettled.keeps hchange.find?_self
  have hkeeps := (hchange.keeps fun h => absurd h hdir).trans hlast
  cases hsettled with
  | moved g hg hslash hname hgdir hmoved =>
    refine ⟨made, s, g, hdeep, hkeeps, target_eq_ok (hkeeps.target hs) .busy, hlast.target hg, hslash,
      hname, ?_⟩
    intro l
    rw [hmoved.find?]
    by_cases hls : l = s.place
    · rw [if_pos hls, if_pos hls]
    · rw [if_neg hls, if_neg hls, hchange.find?_ne hls]

/-- What a replacement that succeeded leaves: the file with its document, no temporary file, and new
directories above the file; all else as it was. -/
theorem files_of_replace_ok {text : String} (h : ((b.replace text).run fs).value = .ok ())
    (hafter : ((b.replace text).run fs).files = after) :
    after.readFile b.path = .ok text.toUTF8 ∧ after.pathExists b.temporary = false ∧
    (∀ l e, fs.find? l = some e → after.place? b.path ≠ some l →
      after.place? b.temporary ≠ some l → after.find? l = some e) ∧
    (∀ l e, fs.find? l = none → after.find? l = some e → after.place? b.path = some l ∨
      e = .directory ∧ ∃ directory ∈ b.above, after.locate directory = .ok l) := by
  obtain ⟨made, s, g, hdeep, hkeeps, hsource, hgoal, hslash, hname, hfind⟩ :=
    exists_of_replace_ok h hafter
  have hfile : after.find? g.place = some (.file text.toUTF8) := by
    rw [hfind, if_neg (place_ne hsource hgoal).symm, if_pos rfl]
  have hgone : after.find? s.place = none := by
    rw [hfind, if_pos rfl]
  refine ⟨readFile_of_target hgoal hslash hname hfile, pathExists_of_target hsource hgone, ?_, ?_⟩
  · intro l e he hlg hls
    rw [place?_eq_some hgoal, ne_eq, Option.some.injEq] at hlg
    rw [place?_eq_some hsource, ne_eq, Option.some.injEq] at hls
    rw [hfind l, if_neg (Ne.symm hls), if_neg (Ne.symm hlg)]
    exact hdeep.find?_eq_some he
  · intro l e hfree he
    by_cases hlg : l = g.place
    · left
      rw [hlg]
      exact place?_eq_some hgoal
    right
    have hls : l ≠ s.place := by
      rintro rfl
      rw [hgone] at he
      cases he
    rw [hfind l, if_neg hls, if_neg hlg] at he
    rcases hdeep.find? l with hsame | ⟨-, hnew, directory, hmem, hlocate⟩
    · rw [hsame, hfree] at he
      cases he
    · rw [hnew] at he
      cases he
      exact ⟨rfl, directory, hmem, hkeeps.locate_directory hlocate (hasDirectory_iff.mpr hnew)⟩

end HostRegistry.FileBackend
