import HostRegistry.Proofs.Files.Shape
import HostRegistry.Proofs.Files.Writing
import HostRegistry.Proofs.Store.Replacement

/-!
A file backend does not look at the record that it replaces.

Persisting reads no file, so what it answers and reports is told by the shape of the file system. Two
file systems that differ in the bytes of the file alone are the same after it: the file holds the new
document, and all else comes from what was the same before.
-/

set_option autoImplicit false

namespace HostRegistry

open FileSystem

namespace FileSystem

variable {paths paths' : List String} {a b after after' : FileSystem} {l : Location}

/-- Other bytes in a file leave the shape as it is. -/
theorem ChangedAt.sameShape {old new : ByteArray} (h : ChangedAt l (some (.file new)) a b)
    (hold : a.find? l = some (.file old)) : a.SameShape b where
  current := h.current
  find? l' := by
    rw [h.find?]
    split
    next heq =>
      rw [heq, hold]
      rfl
    next => rfl

/-- Where the same lay before directories were made, the same lies after it, if it is of one kind. -/
theorem SameShape.find?_of_deepened (h : after.SameShape after') {made made' : FileSystem}
    (hmade : Deepened paths a made) (hmade' : Deepened paths' b made')
    (hfind : after.find? l = made.find? l) (hfind' : after'.find? l = made'.find? l)
    (hsame : b.find? l = a.find? l) : after'.find? l = after.find? l := by
  have hkind := h.find? l
  rw [hfind, hfind'] at hkind ⊢
  cases hold : a.find? l with
  | some e => rw [hmade.find?_eq_some hold, hmade'.find?_eq_some (hsame.trans hold)]
  | none =>
    rw [hold] at hsame
    rcases hmade.find? l with hfree | ⟨-, hnew, -⟩ <;> rcases hmade'.find? l with hfree' | ⟨-, hnew', -⟩
    · rw [hfree, hfree', hold, hsame]
    · rw [hfree, hold, hnew'] at hkind
      cases hkind
    · rw [hnew, hfree', hsame] at hkind
      cases hkind
    · rw [hnew, hnew']

end FileSystem

namespace FileBackend

variable {b : FileBackend} {fs fs' : FileSystem} {l : Location} {old new : ByteArray}

/-! ## No file is read -/

theorem blind_makeParent (b : FileBackend) : b.makeParent.Blind := by
  unfold makeParent
  split
  · exact Files.blind_makeAll _
  · exact .pure _

theorem blind_replace (b : FileBackend) (text : String) : (b.replace text).Blind := by
  apply b.blind_makeParent.bind
  intro made
  split
  · exact .pure _
  have hwrite : (Files.writeText b.temporary text : Script FileEvent _).Blind := .request trivial
  apply hwrite.bind
  intro written
  split
  · exact .pure _
  have hmove : (Script.request (.moveFile b.temporary b.path) : Script FileEvent _).Blind :=
    .request trivial
  apply hmove.bind
  intro moved
  split
  · exact .pure _
  · have hremove : (Script.request (.removeFile b.temporary) : Script FileEvent _).Blind :=
      .request trivial
    exact hremove.bind fun _ => .pure _

theorem blind_persist (record : Record) (b : FileBackend) : (b.persist record).Blind := by
  apply (b.blind_replace record.encode).bind
  intro answer
  split
  · exact .pure _
  · exact (Script.Blind.emit _).bind fun _ => .pure _

/-! ## The file systems after it -/

/-- Replacing a file leaves the same files, whatever it held. -/
theorem files_replace_eq {text : String} (hplace : fs.place? b.path = some l)
    (hold : fs.find? l = some (.file old)) (hnew : ChangedAt l (some (.file new)) fs fs')
    (hvalue : ((b.replace text).run fs).value = .ok ()) :
    ((b.replace text).run fs').files = ((b.replace text).run fs).files := by
  obtain ⟨hvalue', -, hshape⟩ := (b.blind_replace text).run (hnew.sameShape hold)
  obtain ⟨made, s, g, hmade, hkeeps, hs, hg, -, -, hfind⟩ := exists_of_replace_ok hvalue rfl
  obtain ⟨made', s', g', hmade', -, hs', hg', -, -, hfind'⟩ :=
    exists_of_replace_ok (hvalue'.trans hvalue) rfl
  -- Both runs have the same two places, for the shapes after them are the same.
  rw [hshape.target, hs] at hs'
  cases hs'
  rw [hshape.target, hg] at hg'
  cases hg'
  have hl : l = g.place := by
    have hafter := (hmade.keeps.trans hkeeps).place? hplace
    rw [place?_eq_some hg] at hafter
    exact (Option.some.inj hafter).symm
  refine ext_find? (fun l' => ?_) hshape.current
  by_cases hsl : l' = s.place
  · rw [hfind, hfind', if_pos hsl, if_pos hsl]
  by_cases hgl : l' = g.place
  · rw [hfind, hfind', if_neg hsl, if_neg hsl, if_pos hgl, if_pos hgl]
  · apply hshape.find?_of_deepened hmade hmade'
    · rw [hfind, if_neg hsl, if_neg hgl]
    · rw [hfind', if_neg hsl, if_neg hgl]
    · exact hnew.find?_ne (hl ▸ hgl)

/-- Persisting over a file leaves the same files, whatever it held. -/
theorem files_persist_eq {record : Record} (hplace : fs.place? b.path = some l)
    (hold : fs.find? l = some (.file old)) (hnew : ChangedAt l (some (.file new)) fs fs')
    (hvalue : ((b.persist record).run fs).value = .ok ()) :
    ((b.persist record).run fs').files = ((b.persist record).run fs).files := by
  rw [(run_persist record b fs).2, (run_persist record b fs').2]
  exact files_replace_eq hplace hold hnew (replace_of_persist hvalue)

/-- A record that was persisted lies in the file. -/
theorem exists_place?_of_persist {record : Record}
    (hvalue : ((b.persist record).run fs).value = .ok ()) :
    let after := ((b.persist record).run fs).files
    ∃ l, after.place? b.path = some l ∧ after.find? l = some (.file record.encode.toUTF8) := by
  obtain ⟨made, s, g, -, -, hs, hg, -, -, hfind⟩ :=
    exists_of_replace_ok (replace_of_persist hvalue) (run_persist record b fs).2.symm
  refine ⟨g.place, place?_eq_some hg, ?_⟩
  rw [hfind, if_neg (place_ne hs hg).symm, if_pos rfl]

end FileBackend

end HostRegistry
