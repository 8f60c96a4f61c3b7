import HostRegistry.SortedMap

/-!
Sorted maps and the lists they are made of: a map is the map of its own entries, and the map of a
list answers with the last value listed under a key.
-/

set_option autoImplicit false

namespace HostRegistry.SortedMap

variable {κ ν : Type} [Ord κ] [Std.TransOrd κ]

/-- An entry whose key is above all others goes to the end. -/
theorem insertEntry_of_above {k : κ} {entries : List (κ × ν)}
    (h : ∀ e ∈ entries, compare e.1 k = .lt) (v : ν) :
    insertEntry k v entries = entries ++ [(k, v)] := by
  induction entries with
  | nil => rfl
  | cons head rest ih =>
    have hgt : compare k head.1 = .gt := Std.OrientedCmp.gt_of_lt (h head List.mem_cons_self)
    simp only [insertEntry, hgt, List.cons_append]
    rw [ih fun e he => h e (List.mem_cons_of_mem _ he)]

/-- Inserting an ascending list above the entries of a map appends it to them. -/
theorem entries_foldl_insert (entries : List (κ × ν)) (m : SortedMap κ ν)
    (h : (m.entries ++ entries).Pairwise fun a b => compare a.1 b.1 = .lt) :
    (entries.foldl (fun m e => m.insert e.1 e.2) m).entries = m.entries ++ entries := by
  induction entries generalizing m with
  | nil => rw [List.append_nil]; rfl
  | cons e entries ih =>
    have habove : ∀ e' ∈ m.entries, compare e'.1 e.1 = .lt := fun e' he' =>
      (List.pairwise_append.mp h).2.2 e' he' e List.mem_cons_self
    have hinsert : (m.insert e.1 e.2).entries = m.entries ++ [e] := insertEntry_of_above habove e.2
    have hassoc : (m.insert e.1 e.2).entries ++ entries = m.entries ++ e :: entries := by
      rw [hinsert, List.append_assoc, List.singleton_append]
    rw [List.foldl_cons, ih _ (hassoc ▸ h), hassoc]

omit [Std.TransOrd κ] in
/-- Maps with the same entries are equal. -/
theorem ext_entries {m n : SortedMap κ ν} (h : m.entries = n.entries) : m = n := by
  cases m
  cases n
  cases h
  rfl

/-- A map is the map of its own entries. -/
theorem ofList_entries (m : SortedMap κ ν) : ofList m.entries = m :=
  ext_entries (entries_foldl_insert m.entries ∅ m.ascending)

omit [Std.TransOrd κ] in
theorem lookup_append (k : κ) (a b : List (κ × ν)) :
    lookup k (a ++ b) = (lookup k a).or (lookup k b) := by
  induction a with
  | nil => rfl
  | cons e a ih =>
    rw [List.cons_append, lookup, lookup]
    split
    next => rfl
    next => exact ih

/-- Inserting a list into a map puts the last value of each of its keys there. -/
theorem find?_foldl_insert (entries : List (κ × ν)) (m : SortedMap κ ν) (k : κ) :
    (entries.foldl (fun m e => m.insert e.1 e.2) m).find? k =
      (lookup k entries.reverse).or (m.find? k) := by
  induction entries generalizing m with
  | nil => rfl
  | cons e entries ih =>
    rw [List.foldl_cons, ih, find?_insert, List.reverse_cons, lookup_append, Option.or_assoc, lookup,
      lookup]
    split
    next => rfl
    next => rfl

/-- The map of a list answers with the last value listed under a key. -/
theorem find?_ofList (entries : List (κ × ν)) (k : κ) :
    (ofList entries).find? k = lookup k entries.reverse := by
  rw [ofList, find?_foldl_insert]
  exact Option.or_none

/-- The map of a list is the one that answers with the last value listed under a key. -/
theorem eq_ofList_iff [Std.LawfulEqOrd κ] {entries : List (κ × ν)} {m : SortedMap κ ν} :
    m = ofList entries ↔ ∀ k, m.find? k = lookup k entries.reverse := by
  constructor
  · rintro rfl
    exact find?_ofList entries
  · exact fun h => ext_find? fun k => (h k).trans (find?_ofList entries k).symm

omit [Std.TransOrd κ] in
theorem lookup_eq [Std.LawfulEqOrd κ] [BEq κ] [LawfulBEq κ] (k : κ) (entries : List (κ × ν)) :
    lookup k entries = entries.lookup k := by
  induction entries with
  | nil => rfl
  | cons e entries ih =>
    rw [lookup, List.lookup_cons, ih]
    by_cases h : k = e.1
    · rw [if_pos (Std.LawfulEqCmp.compare_eq_iff_eq.mpr h), beq_iff_eq.mpr h]
    · rw [if_neg (h ∘ Std.LawfulEqCmp.compare_eq_iff_eq.mp), beq_false_of_ne h]

end HostRegistry.SortedMap
