import HostRegistry.Proofs.Files.Media
import HostRegistry.Proofs.Store.Replacement

/-!
What a file backend leaves on a medium that may break its write off.

The document goes to the temporary file first, so a write that breaks off never shows in the real
one: on the whole way it has its old bytes or the whole document. The part that was written stays in
the temporary file, which only a move that fails removes; so a persist that fails can leave a file
where there was none, and `persist_all_or_part` says exactly when.
-/

set_option autoImplicit false

namespace HostRegistry.FileBackend

open FileSystem Medium

variable {b : FileBackend} {m : Medium} {fs : FileSystem} {text : String} {record : Record}

/-! ## Persisting on a medium -/

theorem on_makeParent (m : Medium) (b : FileBackend) : m.on b.makeParent = b.makeParent := by
  unfold makeParent
  cases Path.parent? b.path with
  | none => rfl
  | some parent => exact m.on_makeAll _

theorem on_settle (m : Medium) (b : FileBackend) : m.on b.settle = b.settle := by
  refine (m.on_request_bind rfl _).trans (congrArg _ (funext fun moved => ?_))
  cases moved <;> rfl

/-- Only the temporary file is written. -/
theorem on_write (m : Medium) (b : FileBackend) (text : String) :
    m.on (b.write text) = m.write b.temporary text.toUTF8 >>= fun
      | .error fault => pure (.error fault)
      | .ok _ => b.settle := by
  rw [write, Files.writeText, m.on_bind, m.on_writeFile]
  refine congrArg _ (funext fun written => ?_)
  cases written with
  | error fault => rfl
  | ok _ => exact on_settle m b

theorem on_replace (m : Medium) (b : FileBackend) (text : String) :
    m.on (b.replace text) = b.makeParent >>= fun
      | .error fault => pure (.error fault)
      | .ok _ => m.on (b.write text) := by
  rw [replace_eq, m.on_bind, on_makeParent]
  refine congrArg _ (funext fun made => ?_)
  cases made <;> rfl

theorem on_persist (m : Medium) (record : Record) (b : FileBackend) :
    m.on (b.persist record) = m.on (b.replace record.encode) >>= b.conclude := by
  rw [persist_eq, m.on_bind]
  refine congrArg _ (funext fun replaced => ?_)
  cases replaced <;> rfl

/-! ## When the document is broken off -/

/-- The directories are there, the temporary file can be opened, and the medium breaks the document
off after `n` bytes. -/
structure BreaksOff (m : Medium) (b : FileBackend) (document : ByteArray) (fs : FileSystem)
    (n : Fin document.size) : Prop where
  made : (b.makeParent.run fs).value = .ok ()
  opens : ((b.makeParent.run fs).files.writeFile b.temporary document).1 = .ok ()
  breaks : ∃ fault, m.breaks b.temporary document = some (n, fault)

/-- A replacement that is not broken off goes as it does by itself. -/
theorem run_on_replace_of_sound (h : ∀ n, ¬ BreaksOff m b text.toUTF8 fs n) :
    (m.on (b.replace text)).run fs = (b.replace text).run fs := by
  rw [← run_on_ample (b.replace text), on_replace, on_replace]
  cases hmade : (b.makeParent.run fs).value with
  | error fault => simp only [Script.run_bind, hmade]
  | ok _ =>
    simp only [Script.run_bind, hmade]
    cases hbreaks : m.breaks b.temporary text.toUTF8 with
    | none => rw [on_write, on_write, write_of_takes hbreaks]
    | some broken =>
      rcases (b.makeParent.run fs).files.writable_or_fails b.temporary with ⟨s, hs⟩ | ⟨fault, hfails⟩
      · obtain ⟨_, hwrite, -⟩ := hs.exists_writeFile text.toUTF8
        exact absurd ⟨hmade, by rw [hwrite], broken.2, hbreaks⟩ (h broken.1)
      · simp only [on_write, Script.run_bind, run_write_of_fails FileEvent _ hfails]

/-- A replacement that is broken off leaves the first bytes of the document in the temporary file. -/
theorem run_on_replace_of_breaksOff {n : Fin text.toUTF8.size} (h : BreaksOff m b text.toUTF8 fs n) :
    let made := (b.makeParent.run fs).files
    let o := (m.on (b.replace text)).run fs
    ∃ fault s, o.value = .error fault ∧ made.Writable b.temporary s ∧
      ChangedAt s.place (some (.file (text.toUTF8.extract 0 n))) made o.files := by
  intro made o
  obtain ⟨fault, hbreaks⟩ := h.breaks
  obtain ⟨s, hs, -⟩ := writable_of_writeFile h.opens
  obtain ⟨after, hwrite, hchange⟩ := run_write_of_breaks FileEvent hs hbreaks
  have hreplace : o.value = .error fault ∧ o.files = after := by
    simp only [o, on_replace, Script.run_bind, h.made, on_write, hwrite]
    exact ⟨rfl, rfl⟩
  refine ⟨fault, s, hreplace.1, hs, ?_⟩
  rwa [hreplace.2]

/-! ## On the way -/

/-- What can lie on the way of a write: so far only the temporary file is another one, or the
document is written to it as a whole and settled. -/
inductive Written (b : FileBackend) (content : ByteArray) (before after : FileSystem) : Prop where
  | begun : Rewritten b.temporary before after → Written b content before after
  | settled {s : Target} {written : FileSystem} {value : Except FileFault Unit} :
    before.Writable b.temporary s → ChangedAt s.place (some (.file content)) before written →
    Settled b content s written after value → Written b content before after

/-- Away from the temporary file, a file is as it was, or it is the real one with the document. -/
theorem Written.fileAt? {content : ByteArray} {before after : FileSystem}
    (h : Written b content before after) {l : Location} (hl : after.place? b.temporary ≠ some l) :
    after.fileAt? l = before.fileAt? l ∨
      after.place? b.path = some l ∧ after.fileAt? l = some content := by
  cases h with
  | begun hbegun =>
    left
    rcases hbegun with rfl | ⟨s, part, hs, hchange⟩
    · rfl
    · have hplace := place?_eq_some (hs.changedAt hchange).target
      refine hchange.fileAt?_ne ?_
      rintro rfl
      exact hl hplace
  | @settled s _ _ hs hchange hsettled =>
    have hwritten := hs.changedAt hchange
    have hkeeps := hsettled.keeps hchange.find?_self
    have hplace := place?_eq_some (hkeeps.target hwritten.target)
    have hne : l ≠ s.place := by
      rintro rfl
      exact hl hplace
    rw [← hchange.fileAt?_ne hne]
    exact (hsettled.fileAt? hs.target hne).imp_right fun ⟨hreal, hfile⟩ =>
      ⟨hkeeps.place? hreal, hfile⟩

theorem within_on_write (m : Medium) (b : FileBackend) (text : String) :
    (m.on (b.write text)).Within (Written b text.toUTF8) := by
  intro fs state hstate
  have hbegun : ∀ state ∈ (m.write b.temporary text.toUTF8 : Script FileEvent _).states fs,
      Rewritten b.temporary fs state := within_write m b.temporary text.toUTF8 fs
  rw [on_write] at hstate
  rcases Script.mem_states_bind hstate with hstate | hstate
  · exact .begun (hbegun state hstate)
  cases hwrite : ((m.write b.temporary text.toUTF8).run fs).value with
  | error fault =>
    rw [hwrite, Script.mem_states_pure] at hstate
    rw [hstate]
    exact .begun (hbegun _ (Script.files_mem_states _ fs))
  | ok _ =>
    rw [hwrite] at hstate
    obtain ⟨s, hs, hchange⟩ := writable_of_run_write hwrite
    have hwritten := hs.changedAt hchange
    obtain ⟨hsettled, hstates⟩ :=
      settle_cases hwritten.target hwritten.slash hwritten.short hchange.find?_self
    rcases hstates state hstate with rfl | rfl
    · exact .begun (hbegun _ (Script.files_mem_states _ fs))
    · exact .settled hs hchange hsettled

/-- On the whole way of a replacement, away from the temporary file a file is as it was, or it is the
real one with the document. -/
theorem fileAt?_of_mem_states_on_replace {state : FileSystem}
    (h : state ∈ (m.on (b.replace text)).states fs) {l : Location}
    (hl : state.place? b.temporary ≠ some l) :
    state.fileAt? l = fs.fileAt? l ∨
      state.place? b.path = some l ∧ state.fileAt? l = some text.toUTF8 := by
  rw [on_replace] at h
  rcases Script.mem_states_bind h with h | h
  · exact Or.inl ((within_makeParent b fs state h).fileAt? l)
  have hmade := (deepened_makeParent b fs).fileAt? l
  cases hvalue : (b.makeParent.run fs).value with
  | error fault =>
    rw [hvalue, Script.mem_states_pure] at h
    rw [h]
    exact Or.inl hmade
  | ok _ =>
    rw [hvalue] at h
    rw [← hmade]
    exact (within_on_write m b text _ state h).fileAt? hl

theorem mem_states_on_persist {state : FileSystem}
    (h : state ∈ (m.on (b.persist record)).states fs) :
    state ∈ (m.on (b.replace record.encode)).states fs := by
  rw [on_persist] at h
  rcases Script.mem_states_bind h with h | h
  · exact h
  · rw [states_conclude, List.mem_singleton] at h
    rw [h]
    exact Script.files_mem_states _ fs

/-! ## All or a part -/

/-- A record whose document is not broken off is persisted as it is by itself. -/
theorem run_on_persist_of_sound (h : ∀ n, ¬ BreaksOff m b record.encode.toUTF8 fs n) :
    (m.on (b.persist record)).run fs = (b.persist record).run fs := by
  rw [on_persist, persist_eq, Script.run_bind, Script.run_bind, run_on_replace_of_sound h]

theorem run_on_persist (m : Medium) (record : Record) (b : FileBackend) (fs : FileSystem) :
    let o := (m.on (b.replace record.encode)).run fs
    ((m.on (b.persist record)).run fs).value =
      o.value.mapError (fun fault => .persist b.describe fault.message) ∧
    ((m.on (b.persist record)).run fs).files = o.files := by
  rw [on_persist]
  exact b.run_bind_conclude _ fs

/-- Where the document is broken off, persisting fails and its first bytes are in the temporary file;
every other file is as it was. -/
theorem persist_of_breaksOff {n : Fin record.encode.toUTF8.size}
    (h : BreaksOff m b record.encode.toUTF8 fs n) :
    let o := (m.on (b.persist record)).run fs
    (∃ error, o.value = .error error) ∧
      ∃ l, o.files.place? b.temporary = some l ∧
        o.files.fileAt? l = some (record.encode.toUTF8.extract 0 n) ∧
        ∀ l', l' ≠ l → o.files.fileAt? l' = fs.fileAt? l' := by
  intro o
  obtain ⟨hvalue, hfiles⟩ := run_on_persist m record b fs
  obtain ⟨fault, s, hfault, hs, hchange⟩ := run_on_replace_of_breaksOff h
  rw [← hfiles] at hchange
  refine ⟨⟨_, by rw [hvalue, hfault]; rfl⟩, s.place, ?_, ?_, ?_⟩
  · exact place?_eq_some (hs.changedAt hchange).target
  · exact fileAt?_eq_some.mpr hchange.find?_self
  · intro l' hl'
    rw [hchange.fileAt?_ne hl']
    exact (deepened_makeParent b fs).fileAt? l'

/-- What a persist that failed leaves: no file but the temporary one came or went, and that one is
gone or holds the part that was written. -/
theorem fileAt?_of_persist_error {error : Error}
    (h : ((m.on (b.persist record)).run fs).value = .error error) (l : Location) :
    let o := (m.on (b.persist record)).run fs
    o.files.fileAt? l = fs.fileAt? l ∨
      o.files.place? b.temporary = some l ∧
        (o.files.fileAt? l = none ∨ ∃ n, BreaksOff m b record.encode.toUTF8 fs n ∧
          o.files.fileAt? l = some (record.encode.toUTF8.extract 0 n)) := by
  intro o
  by_cases hbroken : ∃ n, BreaksOff m b record.encode.toUTF8 fs n
  · obtain ⟨n, hbreaks⟩ := hbroken
    obtain ⟨-, l', hplace, hpart, hothers⟩ := persist_of_breaksOff hbreaks
    by_cases hl : l = l'
    · subst hl
      exact Or.inr ⟨hplace, Or.inr ⟨n, hbreaks, hpart⟩⟩
    · exact Or.inl (hothers l hl)
  · have hrun : (m.on (b.persist record)).run fs = (b.persist record).run fs :=
      run_on_persist_of_sound (not_exists.mp hbroken)
    simp only [o, hrun] at h ⊢
    obtain ⟨fault, hreplace, -⟩ := replace_of_persist_error h
    exact (files_of_replace_error hreplace (run_persist record b fs).2.symm l).imp_right
      fun ⟨hplace, hgone⟩ => ⟨hplace, Or.inl hgone⟩

/-- The file and the temporary file never have the same place. -/
theorem place?_temporary_ne {l : Location} (h : fs.place? b.path = some l) :
    fs.place? b.temporary ≠ some l := by
  intro htemporary
  obtain ⟨g, hg, rfl⟩ := exists_target_of_place? h .busy
  obtain ⟨s, hs, hplace⟩ := exists_target_of_place? htemporary .busy
  exact place_ne hs hg hplace

/-- Persisting on a medium that may break its write off. The file and the temporary file always have
two places. If persisting succeeds, the file holds the document and the temporary file is gone; all
else is as it was, apart from new directories above the file. If it fails, every file is as it was but
the temporary one, which may be gone; and if the document was broken off, which always ends in a
failure, its first bytes are there, in a new file where there was none. On the way, away from the
temporary file a file is as it was, or it is the real one with the whole document. -/
theorem persist_all_or_part (m : Medium) (record : Record) (b : FileBackend) (fs : FileSystem) :
    let o := (m.on (b.persist record)).run fs
    let document := record.encode.toUTF8
    let real := o.files.place? b.path
    let temporary := o.files.place? b.temporary
    (∀ (state : FileSystem) l, state.place? b.path = some l → state.place? b.temporary ≠ some l) ∧
    (o.value = .ok () →
      o.files.readFile b.path = .ok document ∧ o.files.pathExists b.temporary = false ∧
      (∀ l e, fs.find? l = some e → real ≠ some l → temporary ≠ some l →
        o.files.find? l = some e) ∧
      (∀ l e, fs.find? l = none → o.files.find? l = some e → real = some l ∨
        e = .directory ∧ ∃ directory ∈ b.above, o.files.locate directory = .ok l)) ∧
    (∀ error, o.value = .error error →
      (∀ l content, fs.fileAt? l = some content → temporary ≠ some l →
        o.files.fileAt? l = some content) ∧
      (∀ l, real = some l → o.files.fileAt? l = fs.fileAt? l) ∧
      (∀ l content, o.files.fileAt? l = some content → fs.fileAt? l = some content ∨
        temporary = some l ∧ ∃ n, BreaksOff m b document fs n ∧ content = document.extract 0 n)) ∧
    (∀ n, BreaksOff m b document fs n → (∃ error, o.value = .error error) ∧
      ∃ l, temporary = some l ∧ o.files.fileAt? l = some (document.extract 0 n)) ∧
    (∀ state ∈ (m.on (b.persist record)).states fs, ∀ l, state.place? b.temporary ≠ some l →
      state.fileAt? l = fs.fileAt? l ∨
        state.place? b.path = some l ∧ state.fileAt? l = some document) := by
  intro o document real temporary
  refine ⟨fun _ _ => place?_temporary_ne, ?_, ?_, ?_, ?_⟩
  · intro hok
    have hsound : ∀ n, ¬ BreaksOff m b document fs n := by
      intro n hbreaks
      obtain ⟨⟨error, herror⟩, -⟩ := persist_of_breaksOff hbreaks
      cases hok.symm.trans herror
    have hrun : o = (b.persist record).run fs := run_on_persist_of_sound hsound
    rw [hrun] at hok
    refine files_of_replace_ok (replace_of_persist hok) ?_
    rw [hrun, (run_persist record b fs).2]
  · intro error herror
    have hafter := fileAt?_of_persist_error herror
    refine ⟨?_, ?_, ?_⟩
    · intro l content hold hl
      rcases hafter l with hsame | ⟨hplace, -⟩
      · exact hsame.trans hold
      · exact absurd hplace hl
    · intro l hl
      rcases hafter l with hsame | ⟨hplace, -⟩
      · exact hsame
      · exact absurd hplace (place?_temporary_ne hl)
    · intro l content hnew
      rcases hafter l with hsame | ⟨hplace, hgone | ⟨n, hbreaks, hpart⟩⟩
      · exact Or.inl (hsame.symm.trans hnew)
      · cases hgone.symm.trans hnew
      · exact Or.inr ⟨hplace, n, hbreaks, Option.some.inj (hnew.symm.trans hpart)⟩
  · intro n hbreaks
    obtain ⟨herror, l, hplace, hpart, -⟩ := persist_of_breaksOff hbreaks
    exact ⟨herror, l, hplace, hpart⟩
  · intro state hstate l hl
    exact fileAt?_of_mem_states_on_replace (mem_states_on_persist hstate) hl

/-- A medium with room for a few bytes of each content. -/
def cramped (room : Nat) : Medium where
  breaks _ content :=
    if h : room < content.size then
      some (⟨room, h⟩, .other 28 "No space left on device")
    else none

/-- Persisting the first record of a host on a full medium fails and leaves a temporary file that was
not there, with as much of the document as there was room for. -/
theorem persist_leaves_part_of_document :
    let b : FileBackend := ⟨"/h1.json"⟩
    let o := ((cramped 8).on (b.persist ⟨[], ∅⟩)).run .empty
    (∃ error, o.value = .error error) ∧ o.files.place? b.temporary = some ["h1.json.tmp"] ∧
      FileSystem.empty.fileAt? ["h1.json.tmp"] = none ∧
      o.files.fileAt? ["h1.json.tmp"] = some "\x7b\n  \"ser".toUTF8 := by
  intro b o
  have hfails : o.value.isOk = false := by decide +kernel
  refine ⟨?_, ?_, ?_, ?_⟩
  · cases hvalue : o.value with
    | error error => exact ⟨error, rfl⟩
    | ok _ =>
      rw [hvalue] at hfails
      cases hfails
  · decide +kernel
  · decide +kernel
  · decide +kernel

end HostRegistry.FileBackend
