/-!
Finite maps kept as key-ascending association lists.

The order is part of the type, so a map has one representation only: `ext_find?` says that two maps
with the same answers are equal. `find?_insert` and `find?_erase` say what the two updates do to
the answers; nothing else about the list is needed by users of a map.
-/

set_option autoImplicit false

namespace HostRegistry

/-- A map from `κ` to `ν` whose entries are strictly ascending by key. -/
structure SortedMap (κ ν : Type) [Ord κ] where
  entries : List (κ × ν)
  ascending : entries.Pairwise fun a b => compare a.1 b.1 = .lt

namespace SortedMap

variable {κ ν : Type} [Ord κ]

instance [DecidableEq κ] [DecidableEq ν] : DecidableEq (SortedMap κ ν) := fun a b =>
  decidable_of_iff (a.entries = b.entries) ⟨fun h => by cases a; cases b; cases h; rfl, fun h => h ▸ rfl⟩

/-- The map without entries. -/
def empty : SortedMap κ ν := ⟨[], .nil⟩

instance : EmptyCollection (SortedMap κ ν) := ⟨empty⟩

instance : Inhabited (SortedMap κ ν) := ⟨empty⟩

/-- The number of keys. -/
def size (m : SortedMap κ ν) : Nat := m.entries.length

/-- The first value listed under a key. -/
def lookup (k : κ) : List (κ × ν) → Option ν
  | [] => none
  | (k', v) :: rest => if compare k k' = .eq then some v else lookup k rest

/-- The value at a key. -/
def find? (m : SortedMap κ ν) (k : κ) : Option ν := lookup k m.entries

/-- Whether a key has a value. -/
def contains (m : SortedMap κ ν) (k : κ) : Bool := (m.find? k).isSome

/-- Puts an entry before the first larger key, over an equal one. -/
def insertEntry (k : κ) (v : ν) : List (κ × ν) → List (κ × ν)
  | [] => [(k, v)]
  | (k', v') :: rest =>
    match compare k k' with
    | .lt => (k, v) :: (k', v') :: rest
    | .eq => (k, v) :: rest
    | .gt => (k', v') :: insertEntry k v rest

/-- Every key of the result is the inserted one or an old one. -/
theorem mem_insertEntry {k : κ} {v : ν} {entries : List (κ × ν)} {e : κ × ν}
    (h : e ∈ insertEntry k v entries) : e = (k, v) ∨ e ∈ entries := by
  induction entries with
  | nil => exact Or.inl (List.mem_singleton.mp h)
  | cons head rest ih =>
    unfold insertEntry at h
    split at h
    next => exact (List.mem_cons.mp h).imp_right id
    next => exact (List.mem_cons.mp h).imp_right (List.mem_cons_of_mem _)
    next =>
      rcases List.mem_cons.mp h with h | h
      · exact Or.inr (h ▸ List.mem_cons_self)
      · exact (ih h).imp_right (List.mem_cons_of_mem _)

section Update

variable [Std.TransOrd κ]

/-- Insertion keeps the entries ascending. -/
theorem insertEntry_ascending (k : κ) (v : ν) {entries : List (κ × ν)}
    (h : entries.Pairwise fun a b => compare a.1 b.1 = .lt) :
    (insertEntry k v entries).Pairwise fun a b => compare a.1 b.1 = .lt := by
  induction entries with
  | nil => exact List.pairwise_singleton _ _
  | cons head rest ih =>
    obtain ⟨hhead, hrest⟩ := List.pairwise_cons.mp h
    unfold insertEntry
    split
    next hlt =>
      refine List.pairwise_cons.mpr ⟨fun e he => ?_, h⟩
      rcases List.mem_cons.mp he with rfl | he
      · exact hlt
      · exact Std.TransCmp.lt_trans hlt (hhead e he)
    next heq =>
      exact List.pairwise_cons.mpr
        ⟨fun e he => Std.TransCmp.lt_of_eq_of_lt heq (hhead e he), hrest⟩
    next hgt =>
      refine List.pairwise_cons.mpr ⟨fun e he => ?_, ih hrest⟩
      rcases mem_insertEntry he with rfl | he
      · exact Std.OrientedCmp.lt_of_gt hgt
      · exact hhead e he

/-- The map with the value of one key set. -/
def insert (m : SortedMap κ ν) (k : κ) (v : ν) : SortedMap κ ν :=
  ⟨insertEntry k v m.entries, insertEntry_ascending k v m.ascending⟩

/-- The map of a list of entries, the last one of a repeated key counting. -/
def ofList (entries : List (κ × ν)) : SortedMap κ ν :=
  entries.foldl (fun m e => m.insert e.1 e.2) empty

end Update

/-- The map without one key. -/
def erase (m : SortedMap κ ν) (k : κ) : SortedMap κ ν :=
  ⟨m.entries.filter fun e => compare k e.1 != .eq, m.ascending.filter _⟩

section Answers

variable [Std.TransOrd κ]

theorem lookup_insertEntry (k : κ) (v : ν) (k' : κ) (entries : List (κ × ν)) :
    lookup k' (insertEntry k v entries) =
      if compare k' k = .eq then some v else lookup k' entries := by
  induction entries with
  | nil => rfl
  | cons head rest ih =>
    unfold insertEntry
    split
    next => rfl
    next heq =>
      simp only [lookup]
      by_cases h : compare k' k = .eq
      · simp only [h, if_true]
      · have : compare k' head.1 ≠ .eq := fun h' =>
          h (Std.TransCmp.eq_trans h' (Std.OrientedCmp.eq_symm heq))
        simp only [h, this, if_false]
    next hgt =>
      simp only [lookup, ih]
      by_cases h : compare k' k = .eq
      · have : compare k' head.1 ≠ .eq := fun h' => by
          have := Std.TransCmp.eq_trans (Std.OrientedCmp.eq_symm h) h'
          rw [hgt] at this
          cases this
        simp only [h, this, if_true, if_false]
      · simp only [h, if_false]

/-- Insertion answers the new value at its key and the old answers elsewhere. -/
theorem find?_insert (m : SortedMap κ ν) (k : κ) (v : ν) (k' : κ) :
    (m.insert k v).find? k' = if compare k' k = .eq then some v else m.find? k' :=
  lookup_insertEntry k v k' m.entries

/-- Erasing answers nothing at its key and the old answers elsewhere. -/
theorem find?_erase (m : SortedMap κ ν) (k k' : κ) :
    (m.erase k).find? k' = if compare k' k = .eq then none else m.find? k' := by
  obtain ⟨entries, _⟩ := m
  simp only [erase, find?]
  induction entries with
  | nil => simp only [List.filter_nil, lookup, ite_self]
  | cons head rest ih =>
    have ih := ih (by assumption |> fun h => (List.pairwise_cons.mp h).2)
    by_cases hk : compare k head.1 = .eq
    · rw [List.filter_cons_of_neg (by simp [hk]), ih]
      by_cases h : compare k' k = .eq
      · simp only [h, if_true]
      · have : compare k' head.1 ≠ .eq := fun h' =>
          h (Std.TransCmp.eq_trans h' (Std.OrientedCmp.eq_symm hk))
        simp only [lookup, h, this, if_false]
    · rw [List.filter_cons_of_pos (by simp [hk])]
      simp only [lookup, ih]
      by_cases h : compare k' k = .eq
      · have : compare k' head.1 ≠ .eq := fun h' =>
          hk (Std.TransCmp.eq_trans (Std.OrientedCmp.eq_symm h) h')
        simp only [h, this, if_true, if_false]
      · simp only [h, if_false]

end Answers

/-- The first key of an ascending list is in no later entry. -/
theorem lookup_eq_none {k : κ} {entries : List (κ × ν)}
    (h : ∀ e ∈ entries, compare k e.1 = .lt) : lookup k entries = none := by
  induction entries with
  | nil => rfl
  | cons head rest ih =>
    have hne : compare k head.1 ≠ .eq := by
      rw [h head List.mem_cons_self]
      exact fun h => by cases h
    simp only [lookup, hne, if_false]
    exact ih fun e he => h e (List.mem_cons_of_mem _ he)

theorem entries_ext [Std.TransOrd κ] [Std.LawfulEqOrd κ] :
    ∀ {a b : List (κ × ν)}, (a.Pairwise fun x y => compare x.1 y.1 = .lt) →
      (b.Pairwise fun x y => compare x.1 y.1 = .lt) → (∀ k, lookup k a = lookup k b) → a = b
  | [], [], _, _, _ => rfl
  | [], (k, v) :: _, _, _, h => by
    have := h k
    simp [lookup, Std.ReflCmp.compare_self] at this
  | (k, v) :: _, [], _, _, h => by
    have := h k
    simp [lookup, Std.ReflCmp.compare_self] at this
  | (k, v) :: a, (k', v') :: b, ha, hb, h => by
    obtain ⟨hka, hra⟩ := List.pairwise_cons.mp ha
    obtain ⟨hkb, hrb⟩ := List.pairwise_cons.mp hb
    have hself : ∀ x : κ, compare x x = .eq := fun _ => Std.ReflCmp.compare_self
    cases hc : compare k k' with
    | lt =>
      have h1 := h k
      have h2 : lookup k b = none := lookup_eq_none fun e he => Std.TransCmp.lt_trans hc (hkb e he)
      simp [lookup, hc, h2] at h1
    | gt =>
      have hc' : compare k' k = .lt := Std.OrientedCmp.lt_of_gt hc
      have h1 := h k'
      have h2 : lookup k' a = none := lookup_eq_none fun e he => Std.TransCmp.lt_trans hc' (hka e he)
      simp [lookup, hc', h2] at h1
    | eq =>
      obtain rfl := Std.LawfulEqCmp.eq_of_compare hc
      have h1 := h k
      simp only [lookup, hself, if_true, Option.some.injEq] at h1
      subst h1
      refine congrArg _ (entries_ext hra hrb fun x => ?_)
      by_cases hx : compare x k = .eq
      · obtain rfl := Std.LawfulEqCmp.eq_of_compare hx
        rw [lookup_eq_none hka, lookup_eq_none hkb]
      · have := h x
        simpa only [lookup, hx, if_false] using this

/-- Maps that answer alike are equal. -/
theorem ext_find? [Std.TransOrd κ] [Std.LawfulEqOrd κ] {m n : SortedMap κ ν}
    (h : ∀ k, m.find? k = n.find? k) : m = n := by
  obtain ⟨a, ha⟩ := m
  obtain ⟨b, hb⟩ := n
  obtain rfl := entries_ext ha hb h
  rfl

end SortedMap

end HostRegistry
