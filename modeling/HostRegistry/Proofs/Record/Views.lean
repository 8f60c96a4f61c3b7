import HostRegistry.Proofs.Record.Families
import HostRegistry.Proofs.SortedMap
import HostRegistry.Proofs.Text.Order

/-!
What the views of a record depend on.

A view reads the values of its own families and nothing else: `firstValue?` the first of them, family
by family (`firstValue?_eq_head?`), and `pools` the set of them (`mem_pools_iff`). So labels of other
families can be put in anywhere, and labels can change places as long as those of one family keep
their order; for the pools they need not even do that.
-/

set_option autoImplicit false

namespace HostRegistry

namespace SortedMap

variable {κ : Type} [Ord κ] [Std.TransOrd κ] [Std.LawfulEqOrd κ] {key : κ} {keys a b : List κ}

/-! ## Sets of keys -/

omit [Std.TransOrd κ] in
theorem lookup_keys_iff : lookup key (keys.map fun k => (k, ())) = some () ↔ key ∈ keys := by
  induction keys with
  | nil => exact iff_of_false (fun h => by cases h) List.not_mem_nil
  | cons head rest ih =>
    rw [List.map_cons, lookup, List.mem_cons]
    by_cases h : key = head
    · rw [if_pos (Std.LawfulEqCmp.compare_eq_iff_eq.mpr h)]
      exact iff_of_true rfl (Or.inl h)
    · rw [if_neg (h ∘ Std.LawfulEqCmp.compare_eq_iff_eq.mp), ih, or_iff_right h]

theorem find?_ofList_keys_iff :
    (ofList (keys.map fun k => (k, ()))).find? key = some () ↔ key ∈ keys := by
  rw [find?_ofList, ← List.map_reverse, lookup_keys_iff, List.mem_reverse]

omit [Std.TransOrd κ] in
theorem mem_keys_iff {m : SortedMap κ Unit} :
    key ∈ m.entries.map (·.1) ↔ m.find? key = some () := by
  rw [← lookup_keys_iff, List.map_map]
  change lookup key (m.entries.map id) = some () ↔ _
  rw [List.map_id, find?]

/-- The set of a list has its members. -/
theorem mem_ofList_keys_iff :
    key ∈ (ofList (keys.map fun k => (k, ()))).entries.map (·.1) ↔ key ∈ keys := by
  rw [mem_keys_iff, find?_ofList_keys_iff]

/-- Lists with the same members have the same set. -/
theorem ofList_keys_congr (h : ∀ key, key ∈ a ↔ key ∈ b) :
    ofList (a.map fun k => (k, ())) = ofList (b.map fun k => (k, ())) := by
  apply ext_find?
  intro key
  apply Option.ext
  intro present
  rw [find?_ofList_keys_iff, find?_ofList_keys_iff, h]

end SortedMap

namespace Record

variable {r s : Record} {family : String} {families : List String}

/-! ## What the views read -/

/-- The values of a family are what comes after the colon in its labels, in their order. -/
theorem map_make_valuesOf (r : Record) (family : String) :
    (r.valuesOf family).map (Label.make family) = r.labels.filter (·.startsWith (family ++ ":")) := by
  simp only [← Label.carries_eq_startsWith]
  rw [valuesOf, List.map_filterMap, ← List.filterMap_eq_filter]
  apply List.filterMap_congr
  intro label _
  cases hvalue : Label.value? family label with
  | none =>
    rw [Option.map_none, Option.guard, Label.carries, hvalue]
    rfl
  | some value =>
    obtain rfl := Label.value?_eq_some_iff.mp hvalue
    rw [Option.map_some, Option.guard, if_pos (Label.carries_make family value)]

/-- The values come family by family. -/
theorem firstValue?_eq_head? (r : Record) (families : List String) :
    r.firstValue? families = (families.flatMap r.valuesOf).head? := by
  rw [firstValue?_eq, List.head?_flatMap]

theorem firstValue?_eq_none_iff :
    r.firstValue? families = none ↔ ∀ family ∈ families, r.valuesOf family = [] := by
  rw [firstValue?_eq_head?, List.head?_eq_none_iff, List.flatMap_eq_nil_iff]

theorem firstValue?_congr (h : ∀ family ∈ families, s.valuesOf family = r.valuesOf family) :
    s.firstValue? families = r.firstValue? families := by
  rw [firstValue?_eq_head?, firstValue?_eq_head?, List.flatMap_congr h]

theorem valueOf_congr (h : s.valuesOf family = r.valuesOf family) :
    s.valueOf family = r.valueOf family := by
  rw [valueOf_eq, valueOf_eq, h]

/-- The values of a family are read off the labels that carry it. -/
theorem valuesOf_eq_filter (r : Record) (family : String) :
    r.valuesOf family = (r.labels.filter (Label.carries family)).filterMap (Label.value? family) := by
  rw [valuesOf, List.filterMap_filter]
  apply List.filterMap_congr
  intro label _
  split
  next => rfl
  next hother => exact Option.not_isSome_iff_eq_none.mp hother

theorem valuesOf_congr
    (h : s.labels.filter (Label.carries family) = r.labels.filter (Label.carries family)) :
    s.valuesOf family = r.valuesOf family := by
  rw [valuesOf_eq_filter, h, ← valuesOf_eq_filter]

theorem mem_pools_iff {pool : String} : pool ∈ r.pools ↔ pool ∈ r.valuesOf "pool" :=
  SortedMap.mem_ofList_keys_iff

theorem pools_congr (h : ∀ pool, pool ∈ s.valuesOf "pool" ↔ pool ∈ r.valuesOf "pool") :
    s.pools = r.pools := by
  rw [pools, SortedMap.ofList_keys_congr h, ← pools]

/-! ## Labels put in anywhere -/

/-- The record with a label put in at a place. -/
def insertLabel (r : Record) (place : Nat) (label : String) : Record :=
  { r with labels := r.labels.insertIdx place label }

/-- The record with labels put in one after the other. -/
def insertLabels (r : Record) (insertions : List (Nat × String)) : Record :=
  insertions.foldl (fun r i => r.insertLabel i.1 i.2) r

/-- A member that is mapped to nothing can be put in anywhere. -/
theorem filterMap_insertIdx {α β : Type} {f : α → Option β} {a : α} (h : f a = none) (as : List α)
    (place : Nat) : (as.insertIdx place a).filterMap f = as.filterMap f := by
  induction as generalizing place with
  | nil =>
    cases place with
    | zero => exact List.filterMap_cons_none h
    | succ place => rw [List.insertIdx_succ_nil]
  | cons head rest ih =>
    cases place with
    | zero => rw [List.insertIdx_zero, List.filterMap_cons_none h]
    | succ place => rw [List.insertIdx_succ_cons, List.filterMap_cons, ih, ← List.filterMap_cons]

theorem valuesOf_insertLabel {label : String} (h : Label.carries family label = false) (r : Record)
    (place : Nat) : (r.insertLabel place label).valuesOf family = r.valuesOf family := by
  rw [Label.carries, Option.isSome_eq_false_iff, Option.isNone_iff_eq_none] at h
  exact filterMap_insertIdx h r.labels place

theorem valuesOf_insertLabels {insertions : List (Nat × String)}
    (h : ∀ i ∈ insertions, Label.carries family i.2 = false) (r : Record) :
    (r.insertLabels insertions).valuesOf family = r.valuesOf family := by
  induction insertions generalizing r with
  | nil => rfl
  | cons i rest ih =>
    rw [insertLabels, List.foldl_cons, ← insertLabels,
      ih fun j hj => h j (List.mem_cons_of_mem _ hj), valuesOf_insertLabel (h i List.mem_cons_self)]

/-- Views read their own labels. A first value is the first of the values listed family by family, and
is missing only if they all have none; the value of a family is its first one or empty; the pools are
the values of theirs, once each and in the order of their bytes. Labels of other families that are put
in anywhere leave a view as it is. So does any other order of the labels for the pools, and for the
build one that leaves the labels of each build family in order: the preferred family always wins. -/
theorem views_read_own_labels (r : Record) :
    (∀ family, (r.valuesOf family).map (family ++ ":" ++ ·) =
      r.labels.filter (·.startsWith (family ++ ":"))) ∧
    (∀ families, r.firstValue? families = (families.flatMap r.valuesOf).head? ∧
      (r.firstValue? families = none ↔ ∀ family ∈ families, r.valuesOf family = [])) ∧
    (∀ family, r.valueOf family = (r.valuesOf family).head?.getD "") ∧
    ((r.pools.Pairwise fun a b => Text.bytes a < Text.bytes b) ∧ r.pools.Nodup ∧
      ∀ pool, pool ∈ r.pools ↔ pool ∈ r.valuesOf "pool") ∧
    (∀ insertions families,
      (∀ i ∈ insertions, ∀ family ∈ families, Label.carries family i.2 = false) →
      let after := r.insertLabels insertions
      after.firstValue? families = r.firstValue? families ∧
      (∀ family ∈ families, after.valuesOf family = r.valuesOf family ∧
        after.valueOf family = r.valueOf family) ∧
      ("pool" ∈ families → after.pools = r.pools)) ∧
    (∀ s : Record, s.labels.Perm r.labels → s.pools = r.pools ∧
      ((∀ family ∈ buildFamilies,
        s.labels.filter (Label.carries family) = r.labels.filter (Label.carries family)) →
      s.build? = r.build?)) ∧
    (r.valuesOf "cros-version" ≠ [] → r.build? = (r.valuesOf "cros-version").head?) := by
  refine ⟨map_make_valuesOf r,
    fun families => ⟨firstValue?_eq_head? r families, firstValue?_eq_none_iff⟩, valueOf_eq r,
    ⟨SortedMap.keys_ascending _, SortedMap.keys_nodup _, fun _ => mem_pools_iff⟩, ?_, ?_, ?_⟩
  · intro insertions families hothers after
    have hvalues : ∀ family ∈ families, after.valuesOf family = r.valuesOf family :=
      fun family hfamily => valuesOf_insertLabels (fun i hi => hothers i hi family hfamily) r
    refine ⟨firstValue?_congr hvalues, ?_, ?_⟩
    · intro family hfamily
      exact ⟨hvalues family hfamily, valueOf_congr (hvalues family hfamily)⟩
    · intro hpool
      apply pools_congr
      intro pool
      rw [hvalues "pool" hpool]
  · intro s hperm
    refine ⟨pools_congr fun pool => (hperm.filterMap _).mem_iff, ?_⟩
    intro horder
    exact firstValue?_congr fun family hfamily => valuesOf_congr (horder family hfamily)
  · intro hvalues
    rw [build?, firstValue?_eq_head?, buildFamilies, List.flatMap_cons]
    exact List.head?_append_of_ne_nil _ hvalues

end Record

end HostRegistry
