import HostRegistry.Proofs.Files.Ancestors

/-!
What a path means, step by step.

Two paths with the same components are two spellings of one path. A name that is joined to a path is
one more component, and the parent of a path has all of them but the last. So a file that is named in
a directory lies in this directory, however the directory is spelled.
-/

set_option autoImplicit false

namespace HostRegistry.Path

open FileSystem (IsName)

/-! ## Where a path starts -/

/-- The components of a path are those of its origin and of its segments. -/
theorem components_eq (path : String) :
    components path = (split path).1.component ++ (solid path).map segmentComponent := by
  rw [components, filter_split]

/-- A text whose first piece is a dot is the dot alone or goes on with a slash. -/
theorem eq_dot_of_pieces {cs : List Char} {rest : List (List Char)}
    (h : pieces cs = ['.'] :: rest) : cs = ['.'] ∨ ∃ r, cs = '.' :: '/' :: r := by
  cases cs with
  | nil => cases h
  | cons c r =>
    by_cases hc : c = '/'
    · rw [hc, pieces_slash] at h
      cases h
    · obtain ⟨piece, rest', hr, hpieces⟩ := pieces_cons_of_ne hc r
      rw [hpieces] at h
      obtain ⟨rfl, rfl⟩ := List.cons.inj (List.cons.inj h).1
      -- A first piece without characters is followed by a slash or by nothing.
      cases r with
      | nil => exact Or.inl rfl
      | cons c' r =>
        by_cases hc' : c' = '/'
        · exact Or.inr ⟨r, hc' ▸ rfl⟩
        · obtain ⟨piece, rest'', -, hpieces'⟩ := pieces_cons_of_ne hc' r
          rw [hpieces'] at hr
          cases hr

/-- A path starts from where one is if its first segment is a dot. -/
theorem origin_eq_here_iff (path : String) :
    (split path).1 = .here ↔
      isAbsolute path = false ∧ (segments path).head? = some ['.'] := by
  rw [isAbsolute_eq_split, segments, split]
  split
  next r h =>
    simp
  next h =>
    rw [h]
    decide
  next r h =>
    rw [h, show '.' :: '/' :: r = ['.'] ++ '/' :: r from rfl, pieces_append_slash]
    exact ⟨fun _ => ⟨rfl, rfl⟩, fun _ => rfl⟩
  next hroot hdot hhere =>
    constructor
    · intro h
      cases h
    · rintro ⟨-, hhead⟩
      cases hcs : path.toList with
      | nil =>
        rw [hcs] at hhead
        cases hhead
      | cons c r =>
        have hc : c ≠ '/' := fun heq => hroot r (heq ▸ hcs)
        obtain ⟨piece, rest, -, hpieces⟩ := pieces_cons_of_ne hc r
        rw [hcs, hpieces, List.filter_cons_of_pos (by simp), List.head?_cons,
          Option.some.injEq] at hhead
        rw [hhead, ← hcs] at hpieces
        rcases eq_dot_of_pieces hpieces with h | ⟨r, h⟩
        · exact absurd h hdot
        · exact absurd h (hhere r)

/-- Paths start from the same place if both or neither are absolute or start with a dot. -/
theorem origin_congr {a b : String} (habsolute : isAbsolute a = isAbsolute b)
    (hhead : isAbsolute a = false →
      ((segments a).head? = some ['.'] ↔ (segments b).head? = some ['.'])) :
    (split a).1 = (split b).1 := by
  have hhere : (split a).1 = .here ↔ (split b).1 = .here := by
    rw [origin_eq_here_iff, origin_eq_here_iff, ← habsolute]
    exact and_congr_right hhead
  have hroot : (split a).1 = .root ↔ (split b).1 = .root := by
    rw [isAbsolute_eq_split, isAbsolute_eq_split, decide_eq_decide] at habsolute
    exact habsolute
  cases ha : (split a).1 <;> cases hb : (split b).1 <;> simp [ha, hb] at hhere hroot <;> rfl

/-! ## A name at the end -/

theorem origin_join (base : String) {name : String} (hname : IsName name) :
    (split (join base name)).1 = (split base).1 := by
  refine origin_congr (FileSystem.isAbsolute_join base hname.noSlash) fun _ => ?_
  rw [segments_join base hname.noSlash hname.ne_nil]
  cases segments base with
  | nil => simp [hname.ne_dot]
  | cons s rest => rfl

/-- A name at the end of a path is one more component. -/
theorem components_join (base : String) {name : String} (hname : IsName name) :
    components (join base name) = components base ++ [.name name] := by
  have hlast : segmentComponent name.toList = .name name := by
    rw [segmentComponent, if_neg hname.ne_dots, String.ofList_toList]
  rw [components_eq, components_eq, origin_join base hname,
    solid_join base hname.noSlash hname.ne_nil hname.ne_dot, List.map_append, List.append_assoc,
    List.map_singleton, hlast]

/-! ## The parent -/

/-- What is left of a path when segments at its end are left out starts where the path does. -/
theorem origin_unsplit_front {path : String} {front : List (List Char)} (hne : path.toList ≠ [])
    (hfront : front <+: (split path).2) :
    (split (unsplit (split path).1 front.reverse)).1 = (split path).1 := by
  have hsound := sound_split hne
  have habsolute : isAbsolute (unsplit (split path).1 front.reverse) = isAbsolute path := by
    rw [isAbsolute_unsplit (hsound.of_front hfront), isAbsolute_eq_split]
  refine origin_congr habsolute fun hrelative => ?_
  constructor
  · intro hhead
    have hsegments := segments_unsplit_front hsound hfront
    rw [unsplit_split] at hsegments
    obtain ⟨rest, hrest⟩ := hsegments
    rw [← hrest, List.head?_append, hhead]
    rfl
  · intro hhead
    have hhere : (split path).1 = .here :=
      (origin_eq_here_iff path).mpr ⟨habsolute ▸ hrelative, hhead⟩
    rw [segments_unsplit (hsound.of_front hfront), if_pos hhere]
    rfl

/-- The parent of a path has its components without the last one. -/
theorem components_parent? {path parent : String} (h : parent? path = some parent) :
    components parent = (components path).dropLast := by
  have hne : path.toList ≠ [] := by
    intro hnil
    rw [String.toList_eq_nil_iff.mp hnil] at h
    cases h
  rw [components_eq path, ← filter_split, ← List.reverse_reverse (split path).2,
    List.filter_reverse]
  rw [parent?] at h
  -- A path of idle segments has a parent only if it starts with a dot; in every other path the last
  -- segment that counts is cut off.
  rcases dropWhile_cases isIdle (split path).2.reverse with
    ⟨hdrop, hfilter⟩ | ⟨segment, rest, hdrop, hfilter⟩
  · simp only [hdrop, Option.ite_none_right_eq_some, Option.some.injEq] at h
    obtain ⟨hhere, rfl⟩ := h
    rw [hfilter, hhere]
    rfl
  · simp only [hdrop, Option.some.injEq] at h
    subst h
    have hfront : (rest.dropWhile isIdle).reverse <+: (split path).2 :=
      reverse_dropWhile_front hdrop
    have horigin := origin_unsplit_front hne hfront
    have hsolid := solid_unsplit ((sound_split hne).of_front hfront)
    rw [List.reverse_reverse] at horigin hsolid
    rw [components_eq, horigin, hsolid, hfilter, List.filter_reverse, filter_dropWhile,
      List.reverse_cons, List.map_append, ← List.append_assoc]
    exact List.dropLast_concat.symm

/-! ## Names in directories -/

/-- A path names a file in a directory: it ends in the name, and above it is the directory. -/
structure Inside (directory name path : String) : Prop where
  components : components path = components directory ++ [.name name]
  fileName : fileName? path = some name
  parent : ∃ parent, parent? path = some parent ∧ Path.components parent = Path.components directory

theorem inside_join (directory : String) {name : String} (hname : IsName name) :
    Inside directory name (join directory name) := by
  have hcomponents := components_join directory hname
  obtain ⟨parent, hparent, -⟩ := exists_parent?_join directory hname
  refine ⟨hcomponents, ?_, parent, hparent, ?_⟩
  · rw [fileName?_eq, solid_join directory hname.noSlash hname.ne_nil hname.ne_dot,
      List.getLast?_concat, Option.bind_some, if_neg hname.ne_dots, String.ofList_toList]
  · rw [components_parent? hparent, hcomponents, List.dropLast_concat]

theorem Inside.congr {directory other name path : String} (h : Inside directory name path)
    (hsame : Path.components directory = Path.components other) : Inside other name path := by
  obtain ⟨hcomponents, hname, parent, hparent, habove⟩ := h
  exact ⟨hsame ▸ hcomponents, hname, parent, hparent, habove.trans hsame⟩

/-- A path names one file in one directory. -/
theorem Inside.eq_iff {directory other name name' path path' : String}
    (h : Inside directory name path) (h' : Inside other name' path') :
    Path.components path = Path.components path' ↔
      Path.components directory = Path.components other ∧ name = name' := by
  rw [h.components, h'.components]
  constructor
  · intro heq
    obtain ⟨hdirectory, hname⟩ := List.append_inj' heq rfl
    cases hname
    exact ⟨hdirectory, rfl⟩
  · rintro ⟨hdirectory, rfl⟩
    rw [hdirectory]

end HostRegistry.Path
