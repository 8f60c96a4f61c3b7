import HostRegistry.Proofs.SortedMap
import HostRegistry.Proofs.Text.Quoted
import HostRegistry.Record.Display

/-!
The one-line form of a record tells the record, and nothing in it is hidden.

Labels and attributes are quoted, so nothing in them is taken for the end of a text, of a list or of
the line. The form of an empty slot is the form of no record.
-/

set_option autoImplicit false

namespace HostRegistry.Record

open Text (Clear clear_append)

variable {r s : Record}

theorem clear_display (r : Record) : Clear r.display.toList := by
  rw [display, String.toList_ofList]
  unfold displayChars
  rw [clear_append, clear_append, clear_append, clear_append]
  exact ⟨⟨⟨⟨by decide, Text.clear_quotedList r.labels⟩, by decide⟩,
    Text.clear_quotedEntries r.attributes.entries⟩, by decide⟩

/-- Records with the same one-line form are the same. -/
theorem eq_of_display_eq (h : r.display = s.display) : r = s := by
  rw [display, display, String.ofList_inj] at h
  unfold displayChars at h
  simp only [List.append_assoc] at h
  obtain ⟨hlabels, hrest⟩ := Text.selfDelimiting_quotedList.tell (List.append_cancel_left h)
  obtain ⟨hentries, -⟩ := Text.selfDelimiting_quotedEntries.tell (List.append_cancel_left hrest)
  exact Record.ext hlabels (SortedMap.ext_entries hentries)

theorem display_ne_none (r : Record) : r.display ≠ displaySlot none := by
  intro h
  have hchars := congrArg String.toList h
  rw [display, String.toList_ofList] at hchars
  have hhead : some 'H' = some 'N' := congrArg List.head? hchars
  cases hhead

theorem clear_displaySlot (slot : Option Record) : Clear (displaySlot slot).toList := by
  cases slot with
  | none => decide
  | some r => exact clear_display r

theorem eq_of_displaySlot_eq {slot other : Option Record} (h : displaySlot slot = displaySlot other) :
    slot = other := by
  cases slot with
  | none =>
    cases other with
    | none => rfl
    | some s => exact absurd h.symm (display_ne_none s)
  | some r =>
    cases other with
    | none => exact absurd h (display_ne_none r)
    | some s => rw [eq_of_display_eq h]

end HostRegistry.Record
