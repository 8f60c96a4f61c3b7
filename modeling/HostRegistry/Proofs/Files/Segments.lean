import HostRegistry.Files.FileSystem

/-!
Paths as lists of segments.

Cutting a text at its slashes and joining the pieces are inverse to each other. `segments` is what a
path is to the file system, its pieces without the empty ones; `solid` is what it is to the functions
that take paths apart, its segments without the single dots.
-/

set_option autoImplicit false

namespace HostRegistry.Path

/-! ## Cutting and joining -/

theorem pieces_ne_nil (cs : List Char) : pieces cs ≠ [] := by
  cases cs with
  | nil => exact List.cons_ne_nil _ _
  | cons c r =>
    rw [pieces]
    split
    · exact List.cons_ne_nil _ _
    · split <;> exact List.cons_ne_nil _ _

theorem pieces_cons_of_ne {c : Char} (hc : c ≠ '/') (r : List Char) :
    ∃ piece rest, pieces r = piece :: rest ∧ pieces (c :: r) = (c :: piece) :: rest := by
  obtain ⟨piece, rest, h⟩ := List.exists_cons_of_ne_nil (pieces_ne_nil r)
  refine ⟨piece, rest, h, ?_⟩
  rw [pieces, if_neg hc, h]

theorem pieces_slash (r : List Char) : pieces ('/' :: r) = [] :: pieces r := by
  rw [pieces, if_pos rfl]

theorem slash_not_mem_pieces (cs : List Char) : ∀ piece ∈ pieces cs, '/' ∉ piece := by
  induction cs with
  | nil =>
    intro piece h
    rw [List.mem_singleton.mp h]
    exact List.not_mem_nil
  | cons c r ih =>
    by_cases hc : c = '/'
    · rw [hc, pieces_slash]
      intro piece h
      rcases List.mem_cons.mp h with rfl | h
      · exact List.not_mem_nil
      · exact ih piece h
    · obtain ⟨head, rest, hr, hcr⟩ := pieces_cons_of_ne hc r
      rw [hr] at ih
      rw [hcr]
      intro piece h
      rcases List.mem_cons.mp h with rfl | h
      · intro hmem
        rcases List.mem_cons.mp hmem with heq | hmem
        · exact hc heq.symm
        · exact ih head List.mem_cons_self hmem
      · exact ih piece (List.mem_cons_of_mem _ h)

/-- A slash between two texts cuts them apart. -/
theorem pieces_append_slash (a b : List Char) : pieces (a ++ '/' :: b) = pieces a ++ pieces b := by
  induction a with
  | nil => exact pieces_slash b
  | cons c a ih =>
    by_cases hc : c = '/'
    · rw [hc, List.cons_append, pieces_slash, pieces_slash, ih, List.cons_append]
    · obtain ⟨piece, rest, ha, hca⟩ := pieces_cons_of_ne hc a
      obtain ⟨piece', rest', hab, hcab⟩ := pieces_cons_of_ne hc (a ++ '/' :: b)
      rw [ih, ha, List.cons_append] at hab
      cases hab
      rw [List.cons_append, hcab, hca, List.cons_append]

theorem pieces_of_no_slash {cs : List Char} (h : '/' ∉ cs) : pieces cs = [cs] := by
  induction cs with
  | nil => rfl
  | cons c r ih =>
    have hc : c ≠ '/' := fun heq => h (heq ▸ List.mem_cons_self)
    obtain ⟨piece, rest, hr, hcr⟩ := pieces_cons_of_ne hc r
    rw [ih fun hmem => h (List.mem_cons_of_mem _ hmem)] at hr
    cases hr
    exact hcr

theorem pieces_joinSegments {segments : List (List Char)} (hne : segments ≠ [])
    (h : ∀ s ∈ segments, '/' ∉ s) : pieces (joinSegments segments) = segments := by
  induction segments with
  | nil => exact absurd rfl hne
  | cons s rest ih =>
    have hs := pieces_of_no_slash (h s List.mem_cons_self)
    cases rest with
    | nil => exact hs
    | cons s' rest =>
      have hrest := ih (List.cons_ne_nil _ _) fun s h' => h s (List.mem_cons_of_mem _ h')
      show pieces (s ++ '/' :: joinSegments (s' :: rest)) = _
      rw [pieces_append_slash, hs, hrest, List.singleton_append]

/-! ## Segments -/

/-- The pieces of a path that are not empty. -/
def segments (path : String) : List (List Char) := (pieces path.toList).filter (· ≠ [])

/-- The segments of a path that lead somewhere. -/
def solid (path : String) : List (List Char) := (segments path).filter (· ≠ ['.'])

theorem slash_not_mem_segments {path : String} {s : List Char} (h : s ∈ segments path) : '/' ∉ s :=
  slash_not_mem_pieces path.toList s (List.mem_filter.mp h).1

theorem filter_isIdle (pieces : List (List Char)) :
    pieces.filter (!isIdle ·) = (pieces.filter (· ≠ [])).filter (· ≠ ['.']) := by
  rw [List.filter_filter]
  congr 1
  funext s
  rw [isIdle, Bool.not_or, decide_not, decide_not, Bool.and_comm]

/-- Taking a path apart loses nothing that leads somewhere. -/
theorem filter_split (path : String) : (split path).2.filter (!isIdle ·) = solid path := by
  rw [solid, segments, ← filter_isIdle, split]
  split
  next r h => rw [h, pieces_slash]; rfl
  next h => rw [h]; rfl
  next r h =>
    rw [h, show '.' :: '/' :: r = ['.'] ++ '/' :: r from rfl, pieces_append_slash, pieces_slash]
    rfl
  next => rfl

theorem isAbsolute_iff (path : String) : isAbsolute path = true ↔ path.toList.head? = some '/' :=
  decide_eq_true_iff

theorem isAbsolute_of_segments_nil {path : String} (hne : path.toList ≠ [])
    (h : segments path = []) : isAbsolute path = true := by
  rw [isAbsolute_iff]
  obtain ⟨c, r, hpath⟩ := List.exists_cons_of_ne_nil hne
  by_cases hc : c = '/'
  · rw [hpath, hc]
    rfl
  · obtain ⟨piece, rest, -, hpieces⟩ := pieces_cons_of_ne hc r
    have hmem : (c :: piece) ∈ segments path := by
      rw [segments, hpath, hpieces]
      exact List.mem_filter.mpr ⟨List.mem_cons_self, decide_eq_true (List.cons_ne_nil c piece)⟩
    rw [h] at hmem
    cases hmem

theorem toList_ne_nil_of_segments {path : String} {front : List (List Char)} {s : List Char}
    (h : segments path = front ++ [s]) : path.toList ≠ [] := by
  intro hnil
  rw [segments, hnil] at h
  exact List.append_ne_nil_of_right_ne_nil _ (List.cons_ne_nil _ _) h.symm

theorem solid_of_segments {path : String} {front : List (List Char)} {s : List Char}
    (h : segments path = front ++ [s]) (hdot : s ≠ ['.']) :
    solid path = front.filter (· ≠ ['.']) ++ [s] := by
  have hkept : [s].filter (· ≠ ['.']) = [s] := List.filter_cons_of_pos (decide_eq_true hdot)
  rw [solid, h, List.filter_append, hkept]

/-! ## A name at the end -/

theorem isAbsolute_of_no_slash {name : String} (hslash : '/' ∉ name.toList) :
    isAbsolute name = false := by
  rw [← Bool.not_eq_true, isAbsolute_iff]
  exact fun h => hslash (List.mem_of_head? h)

/-- A name is joined to a path directly or with a slash between them. -/
theorem exists_toList_join (base : String) {name : String} (hslash : '/' ∉ name.toList) :
    ∃ between, (between = [] ∨ between = ['/']) ∧
      (join base name).toList = base.toList ++ (between ++ name.toList) := by
  rw [join, isAbsolute_of_no_slash hslash, if_neg Bool.false_ne_true]
  split
  · exact ⟨[], Or.inl rfl, String.toList_append⟩
  · refine ⟨['/'], Or.inr rfl, ?_⟩
    rw [String.toList_append, String.toList_append, List.append_assoc]
    rfl

/-- A name at the end of a path is one more segment. -/
theorem segments_join (base : String) {name : String} (hslash : '/' ∉ name.toList)
    (hne : name.toList ≠ []) : segments (join base name) = segments base ++ [name.toList] := by
  have hname : (pieces name.toList).filter (· ≠ []) = [name.toList] := by
    rw [pieces_of_no_slash hslash]
    exact List.filter_cons_of_pos (decide_eq_true hne)
  rw [join, isAbsolute_of_no_slash hslash, if_neg Bool.false_ne_true, segments, segments]
  split
  next h =>
    rw [String.toList_append]
    rcases h with hempty | hlast
    · rw [hempty, List.nil_append, hname]
      rfl
    · obtain ⟨front, hfront⟩ := List.getLast?_eq_some_iff.mp hlast
      have hbase : pieces (front ++ ['/']) = pieces front ++ [[]] := pieces_append_slash front []
      rw [hfront, List.append_assoc, List.singleton_append, pieces_append_slash, hbase,
        List.filter_append, List.filter_append, hname]
      simp
  next =>
    rw [String.toList_append, String.toList_append, List.append_assoc]
    show (pieces (base.toList ++ '/' :: name.toList)).filter _ = _
    rw [pieces_append_slash, List.filter_append, hname]

theorem solid_join (base : String) {name : String} (hslash : '/' ∉ name.toList)
    (hne : name.toList ≠ []) (hdot : name.toList ≠ ['.']) :
    solid (join base name) = solid base ++ [name.toList] :=
  solid_of_segments (segments_join base hslash hne) hdot

/-! ## The name of a file -/

/-- The part of a list from the first element on that is kept. -/
theorem dropWhile_cases {α : Type} (p : α → Bool) (l : List α) :
    (l.dropWhile p = [] ∧ l.filter (!p ·) = []) ∨
    (∃ x rest, l.dropWhile p = x :: rest ∧ l.filter (!p ·) = x :: rest.filter (!p ·)) := by
  induction l with
  | nil => exact Or.inl ⟨rfl, rfl⟩
  | cons x rest ih =>
    cases hx : p x with
    | true =>
      rw [List.dropWhile_cons_of_pos hx, List.filter_cons_of_neg (by simp [hx])]
      exact ih
    | false =>
      rw [List.dropWhile_cons_of_neg (by simp [hx]), List.filter_cons_of_pos (by simp [hx])]
      exact Or.inr ⟨x, rest, rfl, rfl⟩

/-- What is left when a list is cut from its end ends in an element that stays. -/
theorem exists_of_reverse_dropWhile {α : Type} {p : α → Bool} {l : List α} {x : α} {rest : List α}
    (h : l.reverse.dropWhile p = x :: rest) :
    p x = false ∧ ∃ dropped, l = rest.reverse ++ x :: dropped := by
  constructor
  · rcases dropWhile_cases p l.reverse with ⟨hnil, -⟩ | ⟨y, _, hdrop, hfilter⟩
    · rw [hnil] at h
      cases h
    · cases hdrop.symm.trans h
      have hx := List.mem_filter.mp (hfilter ▸ List.mem_cons_self : x ∈ l.reverse.filter (!p ·))
      simpa using hx.2
  · obtain ⟨dropped, hl⟩ := h ▸ List.dropWhile_suffix p
    refine ⟨dropped.reverse, ?_⟩
    rw [← List.reverse_reverse l, ← hl, List.reverse_append, List.reverse_cons, List.append_assoc]
    rfl

/-- A path ends in the last segment that leads somewhere, unless that is two dots. -/
theorem fileName?_eq (path : String) :
    fileName? path = (solid path).getLast?.bind fun s =>
      if s = ['.', '.'] then none else some (String.ofList s) := by
  have hsolid : (solid path).getLast? = ((split path).2.reverse.filter (!isIdle ·)).head? := by
    rw [← filter_split, List.filter_reverse, List.head?_reverse]
  rw [hsolid, fileName?]
  rcases dropWhile_cases isIdle (split path).2.reverse with ⟨hdrop, hfilter⟩ | ⟨s, rest, hdrop, hfilter⟩
  · rw [hdrop, hfilter]
    rfl
  · rw [hdrop, hfilter]
    rfl

theorem slash_not_mem_fileName {path name : String} (h : fileName? path = some name) :
    '/' ∉ name.toList := by
  rw [fileName?_eq, Option.bind_eq_some_iff] at h
  obtain ⟨s, hs, hname⟩ := h
  split at hname
  · cases hname
  · cases hname
    rw [String.toList_ofList]
    exact slash_not_mem_segments (List.mem_filter.mp (List.mem_of_getLast? hs)).1

end HostRegistry.Path

/-! ## Routes -/

namespace HostRegistry.FileSystem

open HostRegistry.Path (segments)

/-- The steps of a path. -/
def steps (path : String) : List Last := (segments path).map Last.ofSegment

theorem route_eq_ok_iff {path : String} {r : Route} :
    route path = .ok r ↔
      ('\x00' ∉ path.toList ∧ path.toList ≠ [] ∧ path.utf8ByteSize < pathLimit) ∧
      r = ⟨Path.isAbsolute path, (steps path).dropLast, (steps path).getLast?.getD .root,
        decide (path.toList.getLast? = some '/')⟩ := by
  unfold route
  constructor
  · intro h
    split at h
    · cases h
    next hnul =>
      split at h
      · cases h
      next hempty =>
        split at h
        · cases h
        next hlong =>
          cases h
          exact ⟨⟨hnul, hempty, Nat.not_le.mp hlong⟩, rfl⟩
  · rintro ⟨⟨hnul, hempty, hshort⟩, rfl⟩
    rw [if_neg hnul, if_neg hempty, if_neg (Nat.not_le.mpr hshort)]
    rfl

theorem ofSegment_eq_name {s : List Char} {name : String} :
    Last.ofSegment s = .name name ↔ s ≠ ['.'] ∧ s ≠ ['.', '.'] ∧ s = name.toList := by
  unfold Last.ofSegment
  constructor
  · intro h
    split at h
    · cases h
    next hdot =>
      split at h
      · cases h
      next hdots =>
        cases h
        exact ⟨hdot, hdots, String.toList_ofList.symm⟩
  · rintro ⟨hdot, hdots, rfl⟩
    rw [if_neg hdot, if_neg hdots, String.ofList_toList]

/-- A route that ends in a name is one of a path that ends in this name. -/
theorem fileName?_of_route {path name : String} {r : Route} (hr : route path = .ok r)
    (hlast : r.last = .name name) : Path.fileName? path = some name := by
  obtain ⟨-, rfl⟩ := route_eq_ok_iff.mp hr
  have hsome : (steps path).getLast? = some (.name name) := by
    cases h : (steps path).getLast? with
    | none => simp [h] at hlast
    | some last => simpa [h] using hlast
  rw [steps, List.getLast?_map, Option.map_eq_some_iff] at hsome
  obtain ⟨s, hs, hname⟩ := hsome
  obtain ⟨hdot, hdots, rfl⟩ := ofSegment_eq_name.mp hname
  have hsolid : (Path.solid path).getLast? = some name.toList := by
    obtain ⟨front, hfront⟩ := List.getLast?_eq_some_iff.mp hs
    rw [Path.solid_of_segments hfront hdot, List.getLast?_concat]
  rw [Path.fileName?_eq, hsolid, Option.bind_some, if_neg hdots, String.ofList_toList]

end HostRegistry.FileSystem
