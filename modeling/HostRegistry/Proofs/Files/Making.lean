import HostRegistry.Proofs.Files.Ancestors
import HostRegistry.Proofs.Files.Deepened

/-!
When a directory can be made with all that is missing above it.

It can if it is there already, and if its path has no double dots, its names are short and no file is
in the way. In the second case it is there afterwards, with nothing in it that was not there before.
-/

set_option autoImplicit false

namespace HostRegistry

open HostRegistry.FileSystem HostRegistry.Path

variable {ρ : Type} {fs : FileSystem} {path : String} {above : List String} {l : Location}

namespace Files

/-! ## One path after the other -/

/-- One try for a directory finds it or makes it. -/
def Reaches (path : String) (fs after : FileSystem) : Prop :=
  fs.isDirectory path = true ∧ after = fs ∨ fs.makeDirectory path = (.ok (), after)

theorem run_settled (path : String) (fault : FileFault) (fs : FileSystem) :
    (makeAll.settled path fault : Script ρ _).run fs =
      ⟨if fs.isDirectory path then .ok () else .error fault, [], fs⟩ := by
  rw [makeAll.settled, Script.run_request_bind, perform]
  cases fs.isDirectory path <;> rfl

theorem run_makeAll_of_reaches {after : FileSystem} (hne : path.toList ≠ [])
    (h : Reaches path fs after) :
    (makeAll (path :: above) : Script ρ _).run fs = ⟨.ok (), [], after⟩ := by
  rw [makeAll, if_neg hne, Script.run_request_bind]
  rcases h with ⟨hthere, rfl⟩ | hmade
  · rw [perform, makeDirectory_of_isDirectory hthere]
    show (makeAll.settled path .alreadyExists).run after = _
    rw [run_settled, if_pos hthere]
  · rw [perform, hmade]
    rfl

/-- If the way to a directory is missing, the way is made and the directory is tried once more. -/
theorem run_makeAll_of_notFound {after : FileSystem} (hne : path.toList ≠ [])
    (hmissing : fs.makeDirectory path = (.error .notFound, fs))
    (habove : ((makeAll above : Script ρ _).run fs).value = .ok ())
    (h : Reaches path ((makeAll above : Script ρ _).run fs).files after) :
    ((makeAll (path :: above) : Script ρ _).run fs).value = .ok () ∧
    ((makeAll (path :: above) : Script ρ _).run fs).files = after := by
  rw [makeAll, if_neg hne, Script.run_request_bind, perform, hmissing]
  show Outcome.value (Script.run (makeAll above >>= _) fs) = _ ∧
    Outcome.files (Script.run (makeAll above >>= _) fs) = _
  rw [Script.run_bind]
  simp only [habove]
  generalize ((makeAll above : Script ρ _).run fs).files = middle at h ⊢
  rw [Script.run_request_bind]
  rcases h with ⟨hthere, rfl⟩ | hmade
  · rw [perform, makeDirectory_of_isDirectory hthere]
    show Outcome.value ((makeAll.settled path .alreadyExists).run after) = _ ∧
      Outcome.files ((makeAll.settled path .alreadyExists).run after) = _
    rw [run_settled, if_pos hthere]
    exact ⟨rfl, rfl⟩
  · rw [perform, hmade]
    exact ⟨rfl, rfl⟩

end Files

/-! ## Where a directory can be made -/

namespace FileSystem

/-- The names that a path says, if it has no double dots. -/
def names (path : String) : List String := (solid path).map String.ofList

/-- The directory of a path can be made, or is there: it is told by short names, and no file is on
the way. -/
structure Makeable (fs : FileSystem) (path : String) : Prop where
  dots : ['.', '.'] ∉ solid path
  short : ∀ name ∈ names path, name.utf8ByteSize ≤ longestName
  start : fs.hasDirectory (fs.start path) = true
  clear : ∀ l, l <+: fs.start path ++ names path → fs.fileAt? l = none

/-- The segments of a path lead where its names say. -/
theorem map_ofSegment_solid (hdots : ['.', '.'] ∉ solid path) :
    (solid path).map Last.ofSegment = (names path).map .name := by
  rw [names, List.map_map]
  apply List.map_congr_left
  intro s hs
  have hdot : s ≠ ['.'] := of_decide_eq_true (List.mem_filter.mp hs).2
  have hne : s ≠ ['.', '.'] := fun heq => hdots (heq ▸ hs)
  exact ofSegment_eq_name.mpr ⟨hdot, hne, String.toList_ofList.symm⟩

/-- One segment more than the segments of an upper path. -/
structure Continues (upper : String) (segment : List Char) (path : String) : Prop where
  segments : segments path = segments upper ++ [segment]
  absolute : isAbsolute path = isAbsolute upper
  ne_dot : segment ≠ ['.']

namespace Continues

variable {upper : String} {segment : List Char} (h : Continues upper segment path)
include h

theorem solid_eq : solid path = solid upper ++ [segment] :=
  solid_of_segments h.segments h.ne_dot

theorem names_eq : names path = names upper ++ [String.ofList segment] := by
  rw [names, h.solid_eq, List.map_append, List.map_singleton, names]

theorem start_eq (fs : FileSystem) : fs.start path = fs.start upper := start_of_isAbsolute h.absolute

theorem makeable (hmake : fs.Makeable path) : fs.Makeable upper where
  dots := fun hmem => hmake.dots (h.solid_eq ▸ List.mem_append_left _ hmem)
  short := fun name hname => hmake.short name (h.names_eq ▸ List.mem_append_left _ hname)
  start := h.start_eq fs ▸ hmake.start
  clear := fun l hl => by
    refine hmake.clear l (hl.trans ?_)
    rw [h.names_eq, h.start_eq, ← List.append_assoc]
    exact List.prefix_append _ _

/-- The target of the path is in the directory of the upper path. -/
theorem target (hmake : fs.Makeable path) (hpass : Passable path) (unnamed : FileFault) :
    fs.target path unnamed = (fs.walk (fs.start path) ((names upper).map .name)).map
      fun l => ⟨l, String.ofList segment, decide (path.toList.getLast? = some '/')⟩ := by
  have hdots : segment ≠ ['.', '.'] := by
    rintro rfl
    exact hmake.dots (h.solid_eq ▸ List.mem_append_right _ List.mem_cons_self)
  have hsegments := h.segments
  rw [← String.toList_ofList (l := segment)] at hsegments
  have hname : Last.ofSegment (String.ofList segment).toList = .name (String.ofList segment) := by
    rw [ofSegment_eq_name, String.toList_ofList]
    exact ⟨h.ne_dot, hdots, rfl⟩
  rw [target_of_segments hpass hsegments hname,
    show (Path.segments upper).map Last.ofSegment = steps upper from rfl, walk_steps hmake.start,
    map_ofSegment_solid (h.makeable hmake).dots]

/-- While the directory above is missing, the path cannot be made. -/
theorem makeDirectory_of_missing (hmake : fs.Makeable path) (hpass : Passable path)
    (hmissing : fs.hasDirectory (fs.start path ++ names upper) = false) :
    fs.makeDirectory path = (.error .notFound, fs) := by
  have hupper := h.makeable hmake
  have hclear : ∀ l, l <+: fs.start path ++ names upper → fs.fileAt? l = none := by
    rw [h.start_eq]
    exact hupper.clear
  simp only [makeDirectory, h.target hmake hpass,
    walk_names_of_missing hmake.start hupper.short hclear hmissing]
  rfl

/-- Once the directory above is there, one try is enough. -/
theorem exists_reaches (hmake : fs.Makeable path) (hpass : Passable path)
    (hdir : fs.hasDirectory (fs.start path ++ names upper) = true) :
    ∃ after, Files.Reaches path fs after ∧
      after.hasDirectory (fs.start path ++ names path) = true := by
  have hname : (String.ofList segment).utf8ByteSize ≤ longestName :=
    hmake.short _ (h.names_eq ▸ List.mem_append_right _ List.mem_cons_self)
  have htarget : ∀ unnamed, fs.target path unnamed = .ok ⟨fs.start path ++ names upper,
      String.ofList segment, decide (path.toList.getLast? = some '/')⟩ := by
    intro unnamed
    rw [h.target hmake hpass, walk_names_of_hasDirectory (h.makeable hmake).short hdir]
    rfl
  have hplace : fs.start path ++ names path =
      fs.start path ++ names upper ++ [String.ofList segment] := by
    rw [h.names_eq, List.append_assoc]
  rw [hplace]
  cases hfind : fs.find? (fs.start path ++ names upper ++ [String.ofList segment]) with
  | none =>
    obtain ⟨after, hrun, hchange⟩ := makeDirectory_eq_ok (htarget _) hname hfind hdir
    exact ⟨after, Or.inr hrun, hasDirectory_iff.mpr hchange.find?_self⟩
  | some e =>
    have hthere : fs.find? (fs.start path ++ names upper ++ [String.ofList segment]) =
        some .directory := by
      have hfile := hmake.clear _ (List.prefix_refl _)
      rw [hplace, fileAt?, hfind] at hfile
      cases e with
      | directory => exact hfind
      | file content => cases hfile
    have hisdir := hasDirectory_iff.mpr hthere
    have hlocate := locate_of_target (htarget .busy) hname (hthere ▸ rfl) fun _ => hisdir
    exact ⟨fs, Or.inl ⟨isDirectory_iff.mpr ⟨_, hlocate, hisdir⟩, rfl⟩, hisdir⟩

end Continues

namespace Makeable

theorem congr {other : String} (h : fs.Makeable path) (hsolid : solid other = solid path)
    (habsolute : isAbsolute other = isAbsolute path) : fs.Makeable other := by
  have hnames : names other = names path := by rw [names, hsolid, names]
  have hstart : fs.start other = fs.start path := start_of_isAbsolute habsolute
  exact ⟨hsolid ▸ h.dots, hnames ▸ h.short, hstart ▸ h.start, hnames ▸ hstart ▸ h.clear⟩

theorem deepened {paths : List String} {after : FileSystem} (h : fs.Makeable path)
    (hdeep : Deepened paths fs after) : after.Makeable path := by
  have hstart : after.start path = fs.start path := by
    rw [FileSystem.start, FileSystem.start, hdeep.current]
  refine ⟨h.dots, h.short, ?_, ?_⟩
  · rw [hstart]
    exact hdeep.keeps.hasDirectory _ h.start
  · intro l hl
    rw [hdeep.fileAt?]
    exact h.clear l (hstart ▸ hl)

end Makeable

/-! ## Parents -/

/-- The parent of a path with a target is there. -/
theorem isDirectory_parent {unnamed : FileFault} {t : Target} {parent : String}
    (ht : fs.target path unnamed = .ok t) (hparent : Path.parent? path = some parent)
    (hne : parent.toList ≠ []) : fs.isDirectory parent = true := by
  obtain ⟨r, hr, hbase, -⟩ := target_eq_ok_iff.mp ht
  obtain ⟨hpass, rfl⟩ := route_eq_ok_iff.mp hr
  obtain ⟨hstarts, habsolute, hsegments⟩ := Path.parent?_cases hpass.2.1 hparent
  obtain ⟨rest, hrest⟩ : steps parent <+: (steps path).dropLast := by
    rw [steps, steps, ← List.map_dropLast]
    exact hsegments.map _
  rw [base, ← hrest] at hbase
  apply isDirectory_of_walk (Passable.of_front hpass hstarts hne)
  rw [start_of_isAbsolute habsolute]
  exact hbase

end FileSystem

/-! ## The way down -/

namespace Files

variable {origin : Origin} {segment : List Char} {rest : List (List Char)}

theorem reverse_front {segs : List (List Char)} (h : (segment :: rest).reverse <+: segs) :
    rest.reverse <+: segs := by
  rw [List.reverse_cons] at h
  exact (List.prefix_append _ _).trans h

/-- Segments given last one first are those of a path. -/
theorem unsplit_continues (hsound : Sound origin (segment :: rest).reverse)
    (hidle : isIdle segment = false) :
    Continues (unsplit origin rest) segment (unsplit origin (segment :: rest)) := by
  have hsplit : (segment :: rest).reverse = rest.reverse ++ [segment] := List.reverse_cons
  have hrest : Sound origin rest.reverse := hsound.of_front (reverse_front (List.prefix_refl _))
  have hpath := segments_unsplit hsound
  have hupper := segments_unsplit hrest
  have hpathAbsolute := isAbsolute_unsplit hsound
  have hupperAbsolute := isAbsolute_unsplit hrest
  rw [List.reverse_reverse] at hpath hupper hpathAbsolute hupperAbsolute
  rw [isIdle, Bool.or_eq_false_iff, decide_eq_false_iff_not, decide_eq_false_iff_not] at hidle
  have hkept : [segment].filter (· ≠ []) = [segment] :=
    List.filter_cons_of_pos (decide_eq_true hidle.1)
  refine ⟨?_, hpathAbsolute.trans hupperAbsolute.symm, hidle.2⟩
  rw [hpath, hupper, hsplit, List.filter_append, hkept, List.append_assoc]

/-- A segment that counts for nothing can be left out at the end. -/
theorem unsplit_idle (hsound : Sound origin (segment :: rest).reverse)
    (hidle : isIdle segment = true) :
    solid (unsplit origin rest) = solid (unsplit origin (segment :: rest)) ∧
      isAbsolute (unsplit origin rest) = isAbsolute (unsplit origin (segment :: rest)) := by
  have hsplit : (segment :: rest).reverse = rest.reverse ++ [segment] := List.reverse_cons
  have hrest : Sound origin rest.reverse := hsound.of_front (reverse_front (List.prefix_refl _))
  have hpath := solid_unsplit hsound
  have hupper := solid_unsplit hrest
  have hpathAbsolute := isAbsolute_unsplit hsound
  have hupperAbsolute := isAbsolute_unsplit hrest
  rw [List.reverse_reverse] at hpath hupper hpathAbsolute hupperAbsolute
  refine ⟨?_, hupperAbsolute.trans hpathAbsolute.symm⟩
  rw [hpath, hupper, hsplit, List.filter_append, List.filter_cons_of_neg (by simp [hidle]),
    List.filter_nil, List.append_nil]

theorem reaches_of_isDirectory (h : fs.isDirectory path = true) : Reaches path fs fs :=
  Or.inl ⟨h, rfl⟩

theorem isDirectory_of_makeable (hmake : fs.Makeable path) (hpass : Passable path)
    (hdir : fs.hasDirectory (fs.start path ++ names path) = true) : fs.isDirectory path = true := by
  have hleads : fs.Leads path (fs.start path ++ names path) := by
    rw [Leads, map_ofSegment_solid hmake.dots]
    exact walk_names_of_hasDirectory hmake.short hdir
  exact isDirectory_iff.mpr ⟨_, hleads.locate hmake.start hpass, hdir⟩

/-- The directory of a makeable path, and all that are missing above it, are made. The induction is
on the segments, the last one first, as the ancestors are listed. -/
theorem run_makeAll_ancestorsFrom (ρ : Type) {text : String} (hpass : Passable text)
    (reversed : List (List Char)) (hsegs : reversed.reverse <+: (split text).2)
    (hmake : fs.Makeable (unsplit (split text).1 reversed)) :
    let o := (makeAll (ancestorsFrom (split text).1 reversed) : Script ρ _).run fs
    o.value = .ok () ∧ o.files.hasDirectory (fs.start (unsplit (split text).1 reversed) ++
      names (unsplit (split text).1 reversed)) = true := by
  induction reversed with
  | nil =>
    have hnames : names (unsplit (split text).1 []) = [] := by
      have hsound : Sound (split text).1 [] := (sound_split hpass.2.1).of_front hsegs
      have hsolid := solid_unsplit hsound
      rw [List.reverse_nil] at hsolid
      rw [names, hsolid]
      rfl
    have hdir : fs.hasDirectory (fs.start (unsplit (split text).1 []) ++
        names (unsplit (split text).1 [])) = true := by
      rw [hnames, List.append_nil]
      exact hmake.start
    generalize (split text).1 = origin at hmake hdir ⊢
    have hbase : ∀ above, Passable (unsplit origin []) →
        (makeAll (unsplit origin [] :: above) : Script ρ _).run fs = ⟨.ok (), [], fs⟩ := by
      intro above hpass
      have hthere := isDirectory_of_makeable hmake hpass hdir
      exact run_makeAll_of_reaches hpass.2.1 (reaches_of_isDirectory hthere)
    cases origin with
    | root =>
      rw [show ancestorsFrom .root [] = [unsplit .root []] from rfl, hbase [] (by decide)]
      exact ⟨rfl, hdir⟩
    | here =>
      rw [show ancestorsFrom .here [] = [unsplit .here [], ""] from rfl, hbase [""] (by decide)]
      exact ⟨rfl, hdir⟩
    | none => exact ⟨rfl, hdir⟩
  | cons segment rest ih =>
    have hsound := (sound_split hpass.2.1).of_front hsegs
    have hrest := reverse_front hsegs
    rw [ancestorsFrom]
    cases hidle : isIdle segment with
    | true =>
      obtain ⟨hsolid, habsolute⟩ := unsplit_idle hsound hidle
      have := ih hrest (hmake.congr hsolid habsolute)
      rw [if_pos rfl]
      rwa [names, hsolid, start_of_isAbsolute habsolute] at this
    | false =>
      have hcont := unsplit_continues hsound hidle
      have hne := toList_ne_nil_of_segments hcont.segments
      have hqpass := hpass.of_front (toList_unsplit_front hsegs) hne
      obtain ⟨hvalue, hdir⟩ := ih hrest (hcont.makeable hmake)
      rw [if_neg Bool.false_ne_true]
      cases hupper : fs.hasDirectory (fs.start (unsplit (split text).1 (segment :: rest)) ++
        names (unsplit (split text).1 rest)) with
      | true =>
        obtain ⟨after, hreach, hafter⟩ := hcont.exists_reaches hmake hqpass hupper
        rw [run_makeAll_of_reaches hne hreach]
        exact ⟨rfl, hafter⟩
      | false =>
        have hmissing := hcont.makeDirectory_of_missing hmake hqpass hupper
        have hdeep := within_makeAll (ancestorsFrom (split text).1 rest) fs _
          (Script.files_mem_states (makeAll _ : Script ρ _) fs)
        generalize hmiddle :
          ((makeAll (ancestorsFrom (split text).1 rest) : Script ρ _).run fs).files = middle
          at hdeep hdir
        have hstart : ∀ path, middle.start path = fs.start path := by
          intro path
          rw [start, start, hdeep.current]
        rw [← hcont.start_eq, ← hstart] at hdir
        obtain ⟨after, hreach, hafter⟩ :=
          hcont.exists_reaches (hmake.deepened hdeep) hqpass hdir
        obtain ⟨hdone, hfiles⟩ := run_makeAll_of_notFound hne hmissing hvalue (hmiddle ▸ hreach)
        rw [hstart] at hafter
        exact ⟨hdone, hfiles ▸ hafter⟩

theorem reverse_split_front (path : String) :
    (split path).2.reverse.reverse <+: (split path).2 :=
  ⟨[], by rw [List.append_nil, List.reverse_reverse]⟩

theorem makeDirectories_empty (hpath : path.toList = []) :
    (makeDirectories path : Script ρ _) = pure (.ok ()) := by
  obtain rfl : path = "" := String.toList_inj.mp hpath
  rfl

/-- A directory that can be made is made. -/
theorem run_makeDirectories_of_makeable (ρ : Type) (hpass : path.toList ≠ [] → Passable path)
    (hmake : fs.Makeable path) :
    let o := (makeDirectories path : Script ρ _).run fs
    o.value = .ok () ∧ o.files.hasDirectory (fs.start path ++ names path) = true := by
  by_cases hpath : path.toList = []
  · obtain rfl : path = "" := String.toList_inj.mp hpath
    refine ⟨rfl, ?_⟩
    show fs.hasDirectory (fs.start "" ++ []) = true
    rw [List.append_nil]
    exact hmake.start
  · have h := run_makeAll_ancestorsFrom ρ (hpass hpath) _ (reverse_split_front path)
      (by rwa [unsplit_split])
    rwa [unsplit_split] at h

/-- The longest of the paths that are listed is what is left of the segments without idle ones at
the end. -/
theorem exists_ancestorsFrom_eq_cons (origin : Origin) (reversed : List (List Char)) :
    ∃ front above, front <+: reversed.reverse ∧
      ancestorsFrom origin reversed = unsplit origin front.reverse :: above := by
  induction reversed with
  | nil =>
    cases origin with
    | root => exact ⟨[], [], List.nil_prefix, rfl⟩
    | here => exact ⟨[], [""], List.nil_prefix, rfl⟩
    | none => exact ⟨[], [], List.nil_prefix, rfl⟩
  | cons segment rest ih =>
    rw [ancestorsFrom]
    split
    · obtain ⟨front, above, hfront, hcons⟩ := ih
      exact ⟨front, above, hfront.trans (reverse_front (List.prefix_refl _)), hcons⟩
    · exact ⟨(segment :: rest).reverse, _, List.prefix_refl _, by rw [List.reverse_reverse]⟩

/-- A directory that is there is left alone. -/
theorem run_makeDirectories_of_isDirectory (h : path.toList ≠ [] → fs.isDirectory path = true) :
    (makeDirectories path : Script ρ _).run fs = ⟨.ok (), [], fs⟩ := by
  by_cases hpath : path.toList = []
  · rw [makeDirectories_empty hpath]
    rfl
  obtain ⟨l, hlocate, hdir⟩ := isDirectory_iff.mp (h hpath)
  obtain ⟨hpass, hwalk⟩ := (locate_directory_iff hdir).mp hlocate
  obtain ⟨front, above, hfront, hcons⟩ :=
    exists_ancestorsFrom_eq_cons (split path).1 (split path).2.reverse
  rw [List.reverse_reverse] at hfront
  rw [makeDirectories, ancestors, hcons]
  by_cases hfirst : (unsplit (split path).1 front.reverse).toList = []
  · rw [makeAll, if_pos hfirst]
    rfl
  have hsound := sound_split hpath
  have hstarts := toList_unsplit_front ((List.reverse_reverse front).symm ▸ hfront)
  obtain ⟨rest, hrest⟩ := (segments_unsplit_front hsound hfront).map Last.ofSegment
  have habsolute := isAbsolute_unsplit (hsound.of_front hfront)
  rw [← isAbsolute_eq_split] at habsolute
  rw [unsplit_split] at hrest
  apply run_makeAll_of_reaches hfirst (reaches_of_isDirectory _)
  apply isDirectory_of_walk (hpass.of_front hstarts hfirst)
  rw [start_of_isAbsolute habsolute, steps, hrest]
  exact hwalk

theorem run_makeDirectories_of_leads (hpass : path.toList ≠ [] → Passable path)
    (hstart : fs.hasDirectory (fs.start path) = true) (h : fs.Leads path l) :
    (makeDirectories path : Script ρ _).run fs = ⟨.ok (), [], fs⟩ := by
  apply run_makeDirectories_of_isDirectory
  intro hne
  exact isDirectory_iff.mpr ⟨l, h.locate hstart (hpass hne), hasDirectory_of_walk h hstart⟩

/-! ## What is new -/

theorem exists_front_of_mem_ancestorsFrom {upper : String} {reversed : List (List Char)}
    (h : upper ∈ ancestorsFrom origin reversed) :
    upper.toList = [] ∨ ∃ front, front <+: reversed.reverse ∧ upper = unsplit origin front.reverse := by
  induction reversed with
  | nil =>
    cases origin with
    | root =>
      rw [List.mem_singleton.mp h]
      exact Or.inr ⟨[], List.nil_prefix, rfl⟩
    | here =>
      rcases List.mem_cons.mp h with rfl | h
      · exact Or.inr ⟨[], List.nil_prefix, rfl⟩
      · rw [List.mem_singleton.mp h]
        exact Or.inl rfl
    | none =>
      rw [List.mem_singleton.mp h]
      exact Or.inl rfl
  | cons segment rest ih =>
    have hlonger : ∀ front, front <+: rest.reverse → front <+: (segment :: rest).reverse :=
      fun front hfront => hfront.trans (reverse_front (List.prefix_refl _))
    rw [ancestorsFrom] at h
    split at h
    · exact (ih h).imp_right fun ⟨front, hfront, heq⟩ => ⟨front, hlonger front hfront, heq⟩
    · rcases List.mem_cons.mp h with rfl | h
      · exact Or.inr ⟨(segment :: rest).reverse, List.prefix_refl _, by rw [List.reverse_reverse]⟩
      · exact (ih h).imp_right fun ⟨front, hfront, heq⟩ => ⟨front, hlonger front hfront, heq⟩

/-- The paths above a path start where it does and have a front of its segments. -/
theorem solid_of_mem_ancestors {upper : String} (hupper : upper ∈ ancestors path)
    (hne : upper.toList ≠ []) :
    solid upper <+: solid path ∧ isAbsolute upper = isAbsolute path := by
  by_cases hpath : path.toList = []
  · obtain rfl : path = "" := String.toList_inj.mp hpath
    rw [show ancestors "" = [""] from rfl, List.mem_singleton] at hupper
    rw [hupper] at hne
    exact absurd rfl hne
  rcases exists_front_of_mem_ancestorsFrom hupper with hempty | ⟨front, hfront, rfl⟩
  · exact absurd hempty hne
  rw [List.reverse_reverse] at hfront
  have hsound := (sound_split hpath).of_front hfront
  constructor
  · rw [solid_unsplit hsound, ← filter_split]
    exact hfront.filter _
  · rw [isAbsolute_unsplit hsound, ← isAbsolute_eq_split]

/-- Without double dots, the paths above a path lead to where it leads or above that. -/
theorem prefix_of_locate_ancestor {upper : String} (hupper : upper ∈ ancestors path)
    (hdots : ['.', '.'] ∉ solid path) (hstart : fs.hasDirectory (fs.start path) = true)
    (hdir : fs.hasDirectory l = true) (hlocate : fs.locate upper = .ok l) :
    l <+: fs.start path ++ names path := by
  have hne := ((locate_directory_iff hdir).mp hlocate).1.2.1
  obtain ⟨hsolid, habsolute⟩ := solid_of_mem_ancestors hupper hne
  have hstartEq : fs.start upper = fs.start path := start_of_isAbsolute habsolute
  have hleads := leads_of_locate (hstartEq ▸ hstart) hdir hlocate
  rw [Leads, map_ofSegment_solid fun hmem => hdots (hsolid.subset hmem)] at hleads
  rw [walk_names_eq_ok hleads, hstartEq]
  exact (List.prefix_append_right_inj _).mpr (hsolid.map _)

/-- Without double dots, nothing is made for a path that starts where no directory is. -/
theorem files_makeDirectories_of_baseless (ρ : Type) (hdots : ['.', '.'] ∉ solid path)
    (hstart : fs.hasDirectory (fs.start path) = false) :
    ((makeDirectories path : Script ρ _).run fs).files = fs := by
  refine within_makeAll_of (R := fun before after =>
    before.hasDirectory (before.start path) = false → after = before) (fun _ _ => rfl) ?_ ?_ fs _
    (Script.files_mem_states _ fs) hstart
  · intro a b c hab hbc ha
    obtain rfl := hab ha
    exact hbc ha
  · intro upper hupper hne before hbefore
    obtain ⟨hsolid, habsolute⟩ := solid_of_mem_ancestors hupper hne
    exact makeDirectory_of_baseless (fun hmem => hdots (hsolid.subset hmem))
      (start_of_isAbsolute habsolute ▸ hbefore)

end Files

end HostRegistry
