import HostRegistry.Proofs.Json.Strings
import HostRegistry.Proofs.SortedMap

/-!
What is written follows the grammar.

The printer puts blanks only where the grammar allows them, in both styles and at every level. So a
written text, list or map is one of the forms of its value, and an object written from members is an
object that has these members.
-/

set_option autoImplicit false

namespace HostRegistry.Json

/-- A written text is spelled as it is read. -/
theorem writesText_quote (text : String) : WritesText (quote text) text := by
  obtain ⟨u, hspells, hwritten⟩ := takes_readString_iff.mp (takes_string text [])
  obtain rfl := List.append_cancel_right hwritten
  exact ⟨_, hspells, rfl⟩

/-! ## Blocks -/

theorem further_blockTail (style : Style) (level : Nat) (close : Char) (items : List (List Char)) :
    Further close items (blockTail style level close items) := by
  induction items with
  | nil => exact ⟨style.break level, blanks_break style level, rfl⟩
  | cons item items ih =>
    refine ⟨[], style.break (level + 1), _, blanks_nil, blanks_break style (level + 1), ih, ?_⟩
    rw [blockTail, List.nil_append, List.cons_append, List.cons_append, List.append_assoc]

theorem block_block (style : Style) (level : Nat) (first last : Char) (items : List (List Char)) :
    Block first last items (block style level first last items) := by
  cases items with
  | nil => exact ⟨[], blanks_nil, rfl⟩
  | cons item items =>
    refine ⟨style.break (level + 1), _, blanks_break style (level + 1),
      further_blockTail style level last items, ?_⟩
    rw [block, List.cons_append, List.cons_append, List.append_assoc]

theorem colon_colon (style : Style) : Colon style.colon := by
  obtain ⟨blanks, hblanks, hcolon⟩ := colon_eq style
  exact ⟨[], blanks, blanks_nil, hblanks, hcolon⟩

/-! ## Lists, objects and maps -/

theorem writesTexts_texts (style : Style) (level : Nat) (items : List String) :
    WritesTexts (texts style level items) items := by
  refine ⟨items.map fun item => (item, quote item), ?_, ?_, ?_⟩
  · rw [List.map_map]
    exact block_block style level '[' ']' _
  · intro i hi
    obtain ⟨item, -, rfl⟩ := List.mem_map.mp hi
    exact writesText_quote item
  · rw [List.map_map]
    exact (List.map_id items).symm

/-- An object that is written from members has these members, in their order. -/
theorem writesObject_object (style : Style) (level : Nat) (members : List (String × List Char)) :
    WritesObject (object style level (members.map fun m => member style m.1 m.2)) members := by
  refine ⟨members.map fun m => (m.1, ⟨quote m.1, style.colon, m.2⟩), ?_, ?_, ?_⟩
  · rw [List.map_map]
    have hparts : members.map (fun m => member style m.1 m.2) =
        members.map fun m => Parts.text ⟨quote m.1, style.colon, m.2⟩ :=
      List.map_congr_left fun m _ => List.append_assoc ..
    rw [hparts]
    exact block_block style level '{' '}' _
  · intro p hp
    obtain ⟨m, -, rfl⟩ := List.mem_map.mp hp
    exact ⟨writesText_quote m.1, colon_colon style⟩
  · rw [List.map_map]
    exact (List.map_id members).symm

theorem writesTextMap_textMembers (style : Style) (level : Nat) (m : SortedMap String String) :
    WritesTextMap (textMembers style level m.entries) m := by
  refine ⟨m.entries.map fun e => (e.1, e.2, quote e.2), ?_, ?_, ?_⟩
  · have hobject := writesObject_object style level (m.entries.map fun e => (e.1, quote e.2))
    rw [List.map_map] at hobject ⊢
    exact hobject
  · intro i hi
    obtain ⟨e, -, rfl⟩ := List.mem_map.mp hi
    exact writesText_quote e.2
  · intro key
    rw [List.map_map, SortedMap.eq_ofList_iff.mp (SortedMap.ofList_entries m).symm key]
    exact congrArg (fun entries => SortedMap.lookup key entries.reverse) (List.map_id m.entries).symm

end HostRegistry.Json
