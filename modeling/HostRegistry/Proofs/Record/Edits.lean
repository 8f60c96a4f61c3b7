import HostRegistry.Proofs.Record.History
import HostRegistry.Proofs.SortedMap
import HostRegistry.Record.Edits

/-!
Edits of a record by lists of arguments, in closed form.

`editEach` goes on with the edited record, so whether an argument changes anything depends on those
before it. What it leaves and which arguments change nothing is said here of the list as a whole:
labels that are added come once each, in the order in which they are first named, and an argument is
idle if the record does with it what is asked already, or if it was given before.
-/

set_option autoImplicit false

namespace HostRegistry.Record

variable {r : Record} {label key : String}

/-! ## Arguments that change nothing -/

/-- The items of a list that are settled beforehand or stand earlier in the list, position by
position. -/
def repeated (settled : String → Bool) (items : List String) : List String :=
  ((List.finRange items.length).filter fun i : Fin items.length =>
    settled items[i] || (items.take i).contains items[i]).map fun i => items[i]

theorem repeated_cons (settled : String → Bool) (item : String) (rest : List String) :
    repeated settled (item :: rest) =
      (if settled item then [item] else []) ++ repeated (fun x => settled x || x == item) rest := by
  have hrest : ∀ i : Fin rest.length,
      (settled rest[i] || (item :: rest.take i).contains rest[i]) =
        (settled rest[i] || rest[i] == item || (rest.take i).contains rest[i]) := by
    intro i
    rw [List.contains_cons, Bool.or_assoc]
  have hfirst : (settled (item :: rest)[(0 : Fin (rest.length + 1))] ||
      ((item :: rest).take (0 : Fin (rest.length + 1))).contains
        (item :: rest)[(0 : Fin (rest.length + 1))]) = settled item :=
    Bool.or_false _
  simp only [repeated, ← hrest, List.length_cons, List.finRange_succ, List.filter_cons,
    List.filter_map]
  rw [hfirst]
  cases settled item with
  | true => exact congrArg (item :: ·) List.map_map
  | false => exact List.map_map

/-- If an edit changes nothing exactly where an item is settled, and settles that item alone, then
the idle arguments of a list of edits are the repeated ones. -/
theorem editEach_snd {edit : Record → String → Record × Bool} (settled : Record → String → Bool)
    (hdid : ∀ r item, (edit r item).2 = !settled r item)
    (hsettled : ∀ r item x, settled (edit r item).1 x = (settled r x || x == item)) (r : Record)
    (items : List String) : (editEach edit r items).2 = repeated (settled r) items := by
  induction items generalizing r with
  | nil => rfl
  | cons item rest ih =>
    have hrest : (fun x => settled r x || x == item) = settled (edit r item).1 :=
      funext fun x => (hsettled r item x).symm
    rw [repeated_cons, hrest, ← ih]
    show (if (edit r item).2 then _ else _) = _
    rw [hdid]
    cases settled r item <;> rfl

/-! ## Edited records -/

theorem editEach_fst {α : Type} (edit : Record → α → Record × Bool) (r : Record) (items : List α) :
    (editEach edit r items).1 = items.foldl (fun r item => (edit r item).1) r := by
  induction items generalizing r with
  | nil => rfl
  | cons item rest ih => exact ih (edit r item).1

/-- Labels that are new come after the old ones, once each and as they are first named. -/
theorem foldl_addLabel (r : Record) (labels : List String) :
    labels.foldl (fun r label => (r.addLabel label).1) r =
      { r with labels := r.labels ++ (labels.filter (!r.hasLabel ·)).eraseDups } := by
  induction labels generalizing r with
  | nil =>
    rw [List.filter_nil, List.eraseDups_nil, List.append_nil]
    rfl
  | cons label rest ih =>
    rw [List.foldl_cons, ih]
    cases hlabel : r.hasLabel label with
    | true =>
      rw [List.filter_cons_of_neg (by rw [hlabel]; exact Bool.false_ne_true), addLabel, if_pos hlabel]
    | false =>
      have hadd : (r.addLabel label).1 = { r with labels := r.labels ++ [label] } := by
        rw [addLabel, hlabel]
        rfl
      have hnew : ∀ x, (!(r.addLabel label).1.hasLabel x) = (!x == label && !r.hasLabel x) := by
        intro x
        rw [hasLabel_addLabel, Bool.not_or, beq_eq_decide]
      simp only [hnew]
      rw [List.filter_cons_of_pos (by rw [hlabel]; rfl), List.eraseDups_cons, List.filter_filter, hadd,
        List.append_assoc]
      rfl

theorem addLabels_fst (r : Record) (labels : List String) :
    (r.addLabels labels).1 =
      { r with labels := r.labels ++ (labels.filter (!r.hasLabel ·)).eraseDups } := by
  rw [addLabels, editEach_fst, foldl_addLabel]

theorem addLabels_snd (r : Record) (labels : List String) :
    (r.addLabels labels).2 = repeated r.hasLabel labels := by
  refine editEach_snd hasLabel ?_ ?_ r labels
  · intro r label
    rw [addLabel]
    cases h : r.hasLabel label <;> rfl
  · intro r label x
    rw [hasLabel_addLabel, beq_eq_decide, Bool.or_comm]

theorem removeLabels_fst (r : Record) (labels : List String) :
    (r.removeLabels labels).1 = { r with labels := r.labels.filter (!labels.contains ·) } := by
  rw [removeLabels, editEach_fst]
  induction labels generalizing r with
  | nil =>
    show r = { r with labels := r.labels.filter fun _ => true }
    rw [List.filter_true]
  | cons label rest ih =>
    rw [List.foldl_cons, ih]
    show Record.mk ((r.labels.filter (· != label)).filter _) _ = Record.mk _ _
    rw [List.filter_filter]
    simp only [List.contains_cons, Bool.not_or, bne, Bool.and_comm]
    rfl

theorem removeLabels_snd (r : Record) (labels : List String) :
    (r.removeLabels labels).2 = repeated (!r.hasLabel ·) labels := by
  refine editEach_snd (fun r label => !r.hasLabel label) ?_ ?_ r labels
  · intro r label
    rw [Bool.not_not]
    rfl
  · intro r label x
    rw [hasLabel_removeLabel, Bool.not_and, Bool.not_not, beq_eq_decide, Bool.or_comm]

/-- The keys of an erasure are those of the map but one. -/
theorem contains_erase (m : SortedMap String String) (erased key : String) :
    (m.erase erased).contains key = (!decide (key = erased) && m.contains key) := by
  rw [SortedMap.contains, SortedMap.contains, SortedMap.find?_erase]
  by_cases h : key = erased
  · rw [if_pos (Std.LawfulEqCmp.compare_eq_iff_eq.mpr h), decide_eq_true h]
    rfl
  · rw [if_neg (h ∘ Std.LawfulEqCmp.compare_eq_iff_eq.mp), decide_eq_false h]
    rfl

theorem removeAttributes_fst (r : Record) (keys : List String) :
    (r.removeAttributes keys).1.labels = r.labels ∧
      (r.removeAttributes keys).1.attributes.entries =
        r.attributes.entries.filter (!keys.contains ·.1) := by
  rw [removeAttributes, editEach_fst]
  induction keys generalizing r with
  | nil => exact ⟨rfl, (List.filter_true _).symm⟩
  | cons key rest ih =>
    obtain ⟨hlabels, hentries⟩ := ih (r.removeAttribute key)
    have hkey : ∀ e : String × String, (compare key e.1 != .eq) = !e.1 == key := by
      intro e
      rw [Bool.eq_iff_iff, bne_iff_ne, ne_eq, Std.LawfulEqCmp.compare_eq_iff_eq, Bool.not_eq_true',
        beq_eq_false_iff_ne, ne_eq, eq_comm]
    refine ⟨hlabels, hentries.trans ?_⟩
    show (r.attributes.entries.filter fun e => compare key e.1 != .eq).filter _ = _
    rw [List.filter_filter]
    simp only [hkey, List.contains_cons, Bool.not_or, Bool.and_comm]

theorem removeAttributes_snd (r : Record) (keys : List String) :
    (r.removeAttributes keys).2 = repeated (!r.attributes.contains ·) keys := by
  refine editEach_snd (fun r key => !r.attributes.contains key) ?_ ?_ r keys
  · intro r key
    rw [Bool.not_not]
  · intro r key x
    rw [removeAttribute, contains_erase, Bool.not_and, Bool.not_not, beq_eq_decide, Bool.or_comm]

/-! ## New records -/

theorem ofLists_eq (labels : List String) (attributes : List (String × String)) :
    ofLists labels attributes = ⟨labels.eraseDups, .ofList attributes⟩ := by
  have hnone : ∀ label, (!empty.hasLabel label) = true := fun _ => rfl
  simp only [ofLists, foldl_addLabel, hnone, List.filter_true]
  rfl

end HostRegistry.Record
