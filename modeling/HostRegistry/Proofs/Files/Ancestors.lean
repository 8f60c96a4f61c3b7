import HostRegistry.Proofs.Files.Directories

/-!
The paths above a path.

Leaving segments out at the end of a path gives a path again, with the same start and with what is
left of the segments. The parent of a path and all its ancestors are made this way.
-/

set_option autoImplicit false

namespace HostRegistry.Path

variable {origin : Origin} {front segs : List (List Char)} {path : String}

/-- Segments that can stand after an origin. -/
structure Sound (origin : Origin) (segs : List (List Char)) : Prop where
  noSlash : ∀ s ∈ segs, '/' ∉ s
  here : origin = .here → ∀ s ∈ segs.head?, s = []
  none : origin = .none → ∀ s ∈ segs.head?, s ≠ []

theorem Sound.of_front (h : Sound origin segs) (hfront : front <+: segs) : Sound origin front := by
  obtain ⟨rest, rfl⟩ := hfront
  have hhead : ∀ s ∈ front.head?, s ∈ (front ++ rest).head? := by
    intro s hs
    rw [List.head?_append, hs]
    rfl
  exact ⟨fun s hs => h.noSlash s (List.mem_append_left _ hs), fun ho s hs => h.here ho s (hhead s hs),
    fun ho s hs => h.none ho s (hhead s hs)⟩

theorem joinSegments_pieces (cs : List Char) : joinSegments (pieces cs) = cs := by
  induction cs with
  | nil => rfl
  | cons c r ih =>
    by_cases hc : c = '/'
    · obtain ⟨piece, rest, hr⟩ := List.exists_cons_of_ne_nil (pieces_ne_nil r)
      rw [hc, pieces_slash]
      rw [hr] at ih ⊢
      exact congrArg _ ih
    · obtain ⟨piece, rest, hr, hcr⟩ := pieces_cons_of_ne hc r
      rw [hr] at ih
      rw [hcr]
      cases rest <;> exact congrArg _ ih

theorem joinSegments_front (hfront : front <+: segs) : joinSegments front <+: joinSegments segs := by
  induction front generalizing segs with
  | nil => exact List.nil_prefix
  | cons s front ih =>
    obtain ⟨rest, rfl⟩ := hfront
    cases front with
    | nil =>
      cases rest with
      | nil => exact List.prefix_refl _
      | cons s' rest => exact List.prefix_append s _
    | cons s' front =>
      have hrest := ih (List.prefix_append (s' :: front) rest)
      show s ++ '/' :: joinSegments (s' :: front) <+: s ++ '/' :: joinSegments (s' :: front ++ rest)
      exact List.prefix_append_right_inj _ |>.mpr (List.cons_prefix_cons.mpr ⟨rfl, hrest⟩)

/-! ## Taking a path apart and putting it together -/

theorem sound_split (h : path.toList ≠ []) : Sound (split path).1 (split path).2 := by
  rw [split]
  split
  next r _ => exact ⟨slash_not_mem_pieces r, Origin.noConfusion, Origin.noConfusion⟩
  next =>
    refine ⟨?_, ?_, Origin.noConfusion⟩
    · intro s hs
      cases hs
    · intro _ s hs
      cases hs
  next r _ =>
    refine ⟨slash_not_mem_pieces _, ?_, Origin.noConfusion⟩
    intro _ s hs
    rw [pieces_slash] at hs
    cases hs
    rfl
  next hroot _ _ =>
    refine ⟨slash_not_mem_pieces _, Origin.noConfusion, ?_⟩
    intro _ s hs
    obtain ⟨c, r, hcons⟩ := List.exists_cons_of_ne_nil h
    have hc : c ≠ '/' := fun heq => hroot r (heq ▸ hcons)
    obtain ⟨piece, rest, -, hpieces⟩ := pieces_cons_of_ne hc r
    rw [hcons, hpieces] at hs
    cases hs
    exact List.cons_ne_nil _ _

theorem unsplit_split (path : String) : unsplit (split path).1 (split path).2.reverse = path := by
  rw [unsplit, List.reverse_reverse]
  refine String.toList_inj.mp ?_
  rw [String.toList_ofList, split]
  split
  next r h => rw [h, joinSegments_pieces]; rfl
  next h => rw [h]; rfl
  next r h => rw [h, joinSegments_pieces]; rfl
  next => exact joinSegments_pieces _

theorem isAbsolute_eq_split (path : String) : isAbsolute path = decide ((split path).1 = .root) := by
  rw [isAbsolute, split]
  split
  next r h => rw [h]; rfl
  next h => rw [h]; rfl
  next r h => rw [h]; rfl
  next hroot _ _ =>
    apply decide_eq_false
    intro h
    cases hcs : path.toList with
    | nil => rw [hcs] at h; cases h
    | cons c r =>
      rw [hcs, List.head?_cons, Option.some.injEq] at h
      exact hroot r (h ▸ hcs)

theorem segments_unsplit (h : Sound origin front) :
    segments (unsplit origin front.reverse) =
      (if origin = .here then [['.']] else []) ++ front.filter (· ≠ []) := by
  rw [segments, unsplit, String.toList_ofList, List.reverse_reverse]
  cases front with
  | nil => cases origin <;> rfl
  | cons s rest =>
    have hpieces := pieces_joinSegments (List.cons_ne_nil s rest) h.noSlash
    cases origin with
    | root =>
      show (pieces ('/' :: joinSegments (s :: rest))).filter _ = _
      rw [pieces_slash, hpieces]
      rfl
    | none =>
      show (pieces (joinSegments (s :: rest))).filter _ = _
      rw [hpieces]
      rfl
    | here =>
      obtain rfl : s = [] := h.here rfl s rfl
      cases rest with
      | nil => rfl
      | cons s' rest =>
        have hrest := pieces_joinSegments (List.cons_ne_nil s' rest)
          fun s hs => h.noSlash s (List.mem_cons_of_mem _ hs)
        show (pieces (['.'] ++ '/' :: joinSegments (s' :: rest))).filter _ = _
        rw [pieces_append_slash, hrest, List.filter_append]
        rfl

/-- When segments at the end are left out, the others stay. -/
theorem segments_unsplit_front (h : Sound origin segs) (hfront : front <+: segs) :
    segments (unsplit origin front.reverse) <+: segments (unsplit origin segs.reverse) := by
  rw [segments_unsplit h, segments_unsplit (h.of_front hfront)]
  exact (List.prefix_append_right_inj _).mpr (hfront.filter _)

theorem solid_unsplit (h : Sound origin front) :
    solid (unsplit origin front.reverse) = front.filter (!isIdle ·) := by
  rw [solid, segments_unsplit h, List.filter_append, filter_isIdle]
  cases origin <;> rfl

theorem isAbsolute_unsplit (h : Sound origin front) :
    isAbsolute (unsplit origin front.reverse) = decide (origin = .root) := by
  rw [isAbsolute, unsplit, String.toList_ofList, List.reverse_reverse]
  cases origin with
  | root => rfl
  | here => rfl
  | none =>
    apply decide_eq_false
    intro hhead
    cases front with
    | nil => cases hhead
    | cons s rest =>
      obtain ⟨c, r, hs⟩ := List.exists_cons_of_ne_nil (h.none rfl s rfl)
      have hslash := h.noSlash s List.mem_cons_self
      have hc : c = '/' := by
        subst hs
        cases rest <;> exact Option.some.inj hhead
      exact hslash (hs ▸ hc ▸ List.mem_cons_self)

theorem unsplit_front (origin : Origin) (hfront : front <+: segs) :
    (unsplit origin front.reverse).toList <+: (unsplit origin segs.reverse).toList := by
  rw [unsplit, unsplit, String.toList_ofList, String.toList_ofList, List.reverse_reverse,
    List.reverse_reverse]
  exact (List.prefix_append_right_inj _).mpr (joinSegments_front hfront)

/-- What is left of a path when segments at its end are left out is where the path begins. -/
theorem toList_unsplit_front {reversed : List (List Char)}
    (h : reversed.reverse <+: (split path).2) :
    (unsplit (split path).1 reversed).toList <+: path.toList := by
  have hfront := unsplit_front (split path).1 h
  rwa [unsplit_split, List.reverse_reverse] at hfront

/-! ## The parent -/

theorem filter_dropWhile {α : Type} (p : α → Bool) (l : List α) :
    (l.dropWhile p).filter (!p ·) = l.filter (!p ·) := by
  rcases dropWhile_cases p l with ⟨hdrop, hfilter⟩ | ⟨x, rest, hdrop, hfilter⟩
  · rw [hdrop, hfilter, List.filter_nil]
  · have hkept : (x :: rest).filter (!p ·) = x :: rest.filter (!p ·) := by
      have hx := List.mem_filter.mp (hfilter ▸ List.mem_cons_self : x ∈ l.filter (!p ·))
      exact List.filter_cons_of_pos hx.2
    rw [hdrop, hfilter, hkept]

/-- What is left when the last element that stays is cut off, and what is dropped before it. -/
theorem reverse_dropWhile_front {α : Type} {p : α → Bool} {l : List α} {x : α} {rest : List α}
    (h : l.reverse.dropWhile p = x :: rest) : (rest.dropWhile p).reverse <+: l := by
  obtain ⟨-, dropped, rfl⟩ := exists_of_reverse_dropWhile h
  exact (List.reverse_prefix.mpr (List.dropWhile_suffix p)).trans (List.prefix_append _ _)

/-- The parent of a name in a directory is the directory, as far as its segments go. -/
theorem exists_parent?_join (base : String) {name : String} (hname : FileSystem.IsName name) :
    ∃ parent, parent? (join base name) = some parent ∧ solid parent = solid base ∧
      isAbsolute parent = isAbsolute base ∧ parent.toList <+: (join base name).toList := by
  have hsegments := segments_join base hname.noSlash hname.ne_nil
  have hfilter := filter_split (join base name)
  rw [solid_join base hname.noSlash hname.ne_nil hname.ne_dot] at hfilter
  have hreversed : (split (join base name)).2.reverse.filter (!isIdle ·) =
      name.toList :: (solid base).reverse := by
    rw [List.filter_reverse, hfilter, List.reverse_append]
    rfl
  rcases dropWhile_cases isIdle (split (join base name)).2.reverse with
    ⟨-, hnone⟩ | ⟨segment, rest, hdrop, hsome⟩
  · rw [hreversed] at hnone
    cases hnone
  rw [hreversed] at hsome
  obtain ⟨-, hrest⟩ := List.cons.inj hsome
  have hfront : (rest.dropWhile isIdle).reverse <+: (split (join base name)).2 :=
    reverse_dropWhile_front hdrop
  have hsound := (sound_split (toList_ne_nil_of_segments hsegments)).of_front hfront
  refine ⟨unsplit (split (join base name)).1 (rest.dropWhile isIdle).reverse.reverse, ?_, ?_, ?_, ?_⟩
  · rw [parent?, List.reverse_reverse]
    simp only [hdrop]
  · rw [solid_unsplit hsound, List.filter_reverse, filter_dropWhile, ← hrest, List.reverse_reverse]
  · rw [isAbsolute_unsplit hsound, ← isAbsolute_eq_split, FileSystem.isAbsolute_join base hname.noSlash]
  · rw [List.reverse_reverse]
    exact toList_unsplit_front hfront

/-- The parent has the text and the segments that the path begins with, and fewer segments. -/
theorem parent?_cases {parent : String} (hne : path.toList ≠ []) (h : parent? path = some parent) :
    parent.toList <+: path.toList ∧ isAbsolute parent = isAbsolute path ∧
      segments parent <+: (segments path).dropLast := by
  rw [isAbsolute_eq_split path]
  rw [parent?] at h
  cases hreversed : (split path).2.reverse.dropWhile isIdle with
  | nil =>
    simp only [hreversed, Option.ite_none_right_eq_some, Option.some.injEq] at h
    obtain ⟨hhere, rfl⟩ := h
    rw [hhere]
    exact ⟨List.nil_prefix, rfl, List.nil_prefix⟩
  | cons segment rest =>
    simp only [hreversed, Option.some.injEq] at h
    subst h
    obtain ⟨hkept, dropped, hsplit⟩ := exists_of_reverse_dropWhile hreversed
    have hsound := sound_split hne
    have hfront : (rest.dropWhile isIdle).reverse <+: rest.reverse :=
      List.reverse_prefix.mpr (List.dropWhile_suffix isIdle)
    have hsegs := hfront.trans ⟨_, hsplit.symm⟩
    have habsolute := isAbsolute_unsplit (hsound.of_front hsegs)
    have hparent := segments_unsplit (hsound.of_front hsegs)
    have hpath := segments_unsplit hsound
    rw [List.reverse_reverse] at habsolute hparent
    rw [unsplit_split, hsplit, List.filter_append, ← List.append_assoc] at hpath
    refine ⟨toList_unsplit_front hsegs, habsolute, ?_⟩
    have hne : segment ≠ [] := by
      rintro rfl
      cases hkept
    rw [hpath, List.dropLast_append_of_ne_nil, hparent]
    · refine List.IsPrefix.trans ?_ (List.prefix_append _ _)
      exact (List.prefix_append_right_inj _).mpr (hfront.filter _)
    · exact List.ne_nil_of_mem (List.mem_filter.mpr ⟨List.mem_cons_self, decide_eq_true hne⟩)

end HostRegistry.Path

namespace HostRegistry.FileSystem

theorem Passable.of_front {path above : String} (h : Passable path)
    (hstarts : above.toList <+: path.toList) (hne : above.toList ≠ []) : Passable above := by
  obtain ⟨hnul, -, hshort⟩ := h
  obtain ⟨rest, hrest⟩ := hstarts
  have hpath : path = above ++ String.ofList rest := by
    refine String.toList_inj.mp ?_
    rw [String.toList_append, String.toList_ofList, hrest]
  refine ⟨fun hmem => hnul (hrest ▸ List.mem_append_left _ hmem), hne, ?_⟩
  rw [hpath, String.utf8ByteSize_append] at hshort
  omega

end HostRegistry.FileSystem
