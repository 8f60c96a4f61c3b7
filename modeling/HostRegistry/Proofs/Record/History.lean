import HostRegistry.Proofs.Record.Families
import Mathlib.Data.List.Nodup

/-!
What a history of label edits leaves.

An edit concerns a label if it leaves it present or absent whatever was before (`leaves?`). The last
edit that concerns a label decides over it, and a label that no edit concerns stays where it is. Each
of this is proved of one edit and then of all of them, one after the other.
-/

set_option autoImplicit false

namespace HostRegistry

/-- An edit of the labels of a record. -/
inductive LabelEdit where
  | add (label : String)
  | remove (label : String)
  | set (family value : String)
  deriving DecidableEq

/-- What an edit leaves of a label: that it is present, or that it is absent; none if the edit does
not concern the label. -/
def LabelEdit.leaves? (label : String) : LabelEdit → Option Bool
  | .add added => if label = added then some true else none
  | .remove removed => if label = removed then some false else none
  | .set family value =>
    if label = family ++ ":" ++ value then some true
    else if label.startsWith (family ++ ":") then some false
    else none

namespace Record

/-- The record after an edit, and what the edit says about having changed it. -/
def afterEdit (r : Record) : LabelEdit → Record × Option Bool
  | .add label => ((r.addLabel label).1, some (r.addLabel label).2)
  | .remove label => ((r.removeLabel label).1, some (r.removeLabel label).2)
  | .set family value => (r.setValue family value, none)

/-- The record after edits one after the other. -/
def afterEdits (r : Record) (edits : List LabelEdit) : Record :=
  edits.foldl (fun r edit => (r.afterEdit edit).1) r

variable {r : Record} {edit : LabelEdit} {edits : List LabelEdit} {label : String}

/-! ## One edit -/

theorem hasLabel_eq : r.hasLabel label = decide (label ∈ r.labels) :=
  List.contains_eq_mem label r.labels

theorem hasLabel_addLabel (r : Record) (added label : String) :
    (r.addLabel added).1.hasLabel label = (decide (label = added) || r.hasLabel label) := by
  unfold addLabel
  split
  next hadded =>
    by_cases h : label = added
    · rw [h, hadded, Bool.or_true]
    · rw [decide_eq_false h, Bool.false_or]
  next =>
    simp only [hasLabel_eq, List.mem_append, List.mem_singleton, Bool.decide_or, Bool.or_comm]

theorem hasLabel_removeLabel (r : Record) (removed label : String) :
    (r.removeLabel removed).1.hasLabel label = (!decide (label = removed) && r.hasLabel label) := by
  simp only [removeLabel, hasLabel_eq, List.mem_filter, bne_iff_ne, ne_eq, Bool.decide_and, decide_not,
    Bool.and_comm]

theorem hasLabel_setValue (r : Record) (family value label : String) :
    (r.setValue family value).hasLabel label = (decide (label = family ++ ":" ++ value) ||
      !label.startsWith (family ++ ":") && r.hasLabel label) := by
  simp only [setValue, hasLabel_eq, List.mem_append, List.mem_filter, List.mem_singleton,
    Label.carries_eq_startsWith, Label.make, Bool.decide_or, Bool.decide_and, Bool.decide_eq_true]
  rw [Bool.or_comm, Bool.and_comm]

/-- An edit leaves a label present or absent if it concerns it, and as it was if not. -/
theorem hasLabel_afterEdit (r : Record) (edit : LabelEdit) (label : String) :
    (r.afterEdit edit).1.hasLabel label = (edit.leaves? label).getD (r.hasLabel label) := by
  cases edit with
  | add added =>
    rw [afterEdit, hasLabel_addLabel, LabelEdit.leaves?]
    split
    next h => rw [decide_eq_true h, Bool.true_or, Option.getD_some]
    next h => rw [decide_eq_false h, Bool.false_or, Option.getD_none]
  | remove removed =>
    rw [afterEdit, hasLabel_removeLabel, LabelEdit.leaves?]
    split
    next h => rw [decide_eq_true h, Bool.not_true, Bool.false_and, Option.getD_some]
    next h => rw [decide_eq_false h, Bool.not_false, Bool.true_and, Option.getD_none]
  | set family value =>
    rw [afterEdit, hasLabel_setValue, LabelEdit.leaves?]
    split
    next h => rw [decide_eq_true h, Bool.true_or, Option.getD_some]
    next h =>
      rw [decide_eq_false h, Bool.false_or]
      split
      next hfamily => rw [hfamily, Bool.not_true, Bool.false_and, Option.getD_some]
      next hfamily =>
        rw [Bool.eq_false_iff.mpr hfamily, Bool.not_false, Bool.true_and, Option.getD_none]

theorem nodup_concat {labels : List String} (h : labels.Nodup) (hlabel : label ∉ labels) :
    (labels ++ [label]).Nodup :=
  List.nodup_append_comm.mpr (List.nodup_cons.mpr ⟨hlabel, h⟩)

/-- An edit puts a label only where it is not. -/
theorem nodup_afterEdit (h : r.labels.Nodup) (edit : LabelEdit) :
    (r.afterEdit edit).1.labels.Nodup := by
  cases edit with
  | add added =>
    rw [afterEdit, addLabel]
    split
    next => exact h
    next hadded =>
      rw [hasLabel_eq, decide_eq_true_eq] at hadded
      exact nodup_concat h hadded
  | remove removed => exact h.filter _
  | set family value =>
    exact nodup_concat (h.filter _) (make_not_mem_others r.labels family value)

theorem filter_filter_of_imp {p q : String → Bool} (h : ∀ label, p label = true → q label = true)
    (labels : List String) : (labels.filter q).filter p = labels.filter p := by
  rw [List.filter_filter]
  apply List.filter_congr
  intro label _
  cases hp : p label with
  | false => exact Bool.false_and _
  | true => rw [h label hp, Bool.true_and]

theorem filter_concat_of_neg {p : String → Bool} (h : ¬p label = true) (labels : List String) :
    (labels ++ [label]).filter p = labels.filter p := by
  rw [List.filter_append, List.filter_cons_of_neg h, List.filter_nil, List.append_nil]

/-- The labels that an edit does not concern stay as they are. -/
theorem filter_afterEdit {p : String → Bool} (h : ∀ label, p label = true → edit.leaves? label = none)
    (r : Record) : (r.afterEdit edit).1.labels.filter p = r.labels.filter p := by
  have hconcerned : ∀ {label present}, edit.leaves? label = some present → ¬p label = true := by
    intro label present hleaves hp
    rw [h label hp] at hleaves
    cases hleaves
  cases edit with
  | add added =>
    rw [afterEdit, addLabel]
    split
    next => rfl
    next => exact filter_concat_of_neg (hconcerned (if_pos rfl)) r.labels
  | remove removed =>
    apply filter_filter_of_imp
    intro label hp
    rw [bne_iff_ne]
    rintro rfl
    exact hconcerned (if_pos rfl) hp
  | set family value =>
    have hmake : ¬p (Label.make family value) = true := hconcerned (if_pos rfl)
    refine (filter_concat_of_neg hmake _).trans (filter_filter_of_imp ?_ r.labels)
    intro label hp
    have hnone := h label hp
    rw [LabelEdit.leaves?] at hnone
    rw [Label.carries_eq_startsWith]
    split at hnone
    next => cases hnone
    next =>
      split at hnone
      next => cases hnone
      next hother => rw [Bool.eq_false_iff.mpr hother, Bool.not_false]

/-- An edit that says so changed the labels, and one that denies it did not. -/
theorem changed_iff {did : Bool} (h : (r.afterEdit edit).2 = some did) :
    did = true ↔ (r.afterEdit edit).1.labels ≠ r.labels := by
  cases edit with
  | add added =>
    cases h
    rw [afterEdit, addLabel]
    split
    next => simp only [Bool.false_eq_true, ne_eq, not_true_eq_false]
    next => simp only [ne_eq, List.append_right_eq_self, List.cons_ne_nil, not_false_eq_true]
  | remove removed =>
    cases h
    show r.hasLabel removed = true ↔ r.labels.filter (· != removed) ≠ r.labels
    rw [hasLabel_eq, decide_eq_true_eq, ne_eq, List.filter_eq_self]
    simp only [bne_iff_ne, ne_eq, not_forall, not_not, exists_prop, exists_eq_right]
  | set family value => cases h

/-! ## A history -/

theorem afterEdits_cons (r : Record) (edit : LabelEdit) (rest : List LabelEdit) :
    r.afterEdits (edit :: rest) = (r.afterEdit edit).1.afterEdits rest :=
  rfl

/-- The last edit that concerns a label decides over it. -/
theorem hasLabel_afterEdits (r : Record) (edits : List LabelEdit) (label : String) :
    (r.afterEdits edits).hasLabel label =
      (edits.reverse.findSome? (LabelEdit.leaves? label)).getD (r.hasLabel label) := by
  induction edits generalizing r with
  | nil => rfl
  | cons edit rest ih =>
    rw [afterEdits_cons, ih, hasLabel_afterEdit, List.reverse_cons, List.findSome?_append,
      Option.getD_or, List.findSome?_singleton]

theorem nodup_afterEdits (h : r.labels.Nodup) (edits : List LabelEdit) :
    (r.afterEdits edits).labels.Nodup := by
  induction edits generalizing r with
  | nil => exact h
  | cons edit rest ih => exact ih (nodup_afterEdit h edit)

/-- The labels that no edit concerns stay as they are. -/
theorem filter_afterEdits {p : String → Bool}
    (h : ∀ edit ∈ edits, ∀ label, p label = true → edit.leaves? label = none) (r : Record) :
    (r.afterEdits edits).labels.filter p = r.labels.filter p := by
  induction edits generalizing r with
  | nil => rfl
  | cons edit rest ih =>
    obtain ⟨hedit, hrest⟩ := List.forall_mem_cons.mp h
    rw [afterEdits_cons, ih hrest, filter_afterEdit hedit]

/-- A history of edits decides over the labels: over each one the last edit that concerns it, and the
labels that none concerns stay in their order, as often as they were there. Labels that are distinct
stay distinct all the way, and each edit that says whether it changed the labels says so truly. -/
theorem history_decides_labels (r : Record) (edits : List LabelEdit) :
    let untouched := fun label => edits.all fun edit => (edit.leaves? label).isNone
    (∀ label, (r.afterEdits edits).hasLabel label =
      (edits.reverse.findSome? (LabelEdit.leaves? label)).getD (r.hasLabel label)) ∧
    (r.labels.Nodup → ∀ before, before <+: edits → (r.afterEdits before).labels.Nodup) ∧
    (r.afterEdits edits).labels.filter untouched = r.labels.filter untouched ∧
    ∀ before edit rest, edits = before ++ edit :: rest →
      let reached := r.afterEdits before
      ∀ did, (reached.afterEdit edit).2 = some did →
        (did = true ↔ (reached.afterEdit edit).1.labels ≠ reached.labels) := by
  intro untouched
  have huntouched : ∀ edit ∈ edits, ∀ label, untouched label = true → edit.leaves? label = none := by
    intro edit hedit label hlabel
    exact Option.isNone_iff_eq_none.mp (List.all_eq_true.mp hlabel edit hedit)
  refine ⟨hasLabel_afterEdits r edits, fun h before _ => nodup_afterEdits h before,
    filter_afterEdits huntouched r, ?_⟩
  intro before edit _ _ reached did hdid
  exact changed_iff hdid

end Record

end HostRegistry
