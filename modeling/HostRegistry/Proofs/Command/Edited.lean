import HostRegistry.Proofs.Command.Registry
import HostRegistry.Proofs.Record.Edits
import HostRegistry.Proofs.Store.Neighbours

/-!
What the commands that edit a record store, and what they say about it.

The edited record is the one that the arguments ask for as a whole, and a warning names each argument
that asks for nothing new: what the record had already, or what was asked for before. `Stores` says
what is stored and put out, `Updates` also how the latter is read on either terminal.
-/

set_option autoImplicit false

namespace HostRegistry

/-- A command succeeded: what it put out are these notices, and a load answers this record after
it. -/
structure Stores (b : FileBackend) (o : Outcome Report (Except Error Unit)) (record : Record)
    (notices : List Notice) : Prop where
  value : o.value = .ok ()
  output : visible o.reports = notices.map .notice
  load : (b.load.run o.files).value = .ok record

/-- A command stored this record and told so: with a warning for each of some arguments, and then with
what was updated. A plain terminal has that as lines of standard output, a fancy one as blocks on
standard error, apart from the lines of the log. -/
structure Updates (b : FileBackend) (o : Outcome Report (Except Error Unit)) (record : Record)
    (warning : String) (arguments : List String) (summary : String) : Prop extends
    Stores b o record (arguments.map (.warning warning) ++ [.success summary none]) where
  plain : ∀ settings timestamp, settings.isFancy = false →
    Terminal.standardOutput settings timestamp o.reports =
      String.join (arguments.map fun argument =>
        "  [WARN] " ++ warning ++ " - " ++ argument ++ "\n") ++ ("  [OK] " ++ summary ++ "\n")
  fancy : ∀ settings timestamp, settings.isFancy = true →
    Terminal.standardOutput settings timestamp o.reports = "" ∧
    Terminal.standardError settings timestamp (visible o.reports) =
      String.join (arguments.map fun argument =>
        Terminal.markedBlock "▲" (warning ++ " - " ++ argument)) ++ Terminal.markedBlock "◆" summary

theorem visible_notices (notices : List Notice) :
    visible (notices.map .notice) = notices.map .notice := by
  apply List.filter_eq_self.mpr
  intro report hreport
  obtain ⟨notice, -, rfl⟩ := List.mem_map.mp hreport
  rfl

theorem join_map_empty {ι : Type} (items : List ι) :
    String.join (items.map fun _ => "") = "" := by
  induction items with
  | nil => rfl
  | cons item rest ih => rw [List.map_cons, String.join_cons, ih, String.empty_append]

/-- Warnings and a summary are read on the terminal as they are put out. -/
theorem Stores.updates {b : FileBackend} {o : Outcome Report (Except Error Unit)} {record : Record}
    {warning summary : String} {arguments : List String}
    (h : Stores b o record (arguments.map (.warning warning) ++ [.success summary none])) :
    Updates b o record warning arguments summary where
  toStores := h
  plain settings timestamp hplain := by
    rw [← Terminal.standardOutput_visible, h.output, Terminal.standardOutput]
    simp only [List.map_append, List.map_map, List.map_cons, List.map_nil, String.join_append,
      Function.comp_def, Terminal.render, hplain, Bool.false_eq_true, if_false]
    rfl
  fancy settings timestamp hfancy := by
    constructor
    · rw [← Terminal.standardOutput_visible, h.output, Terminal.standardOutput]
      simp only [List.map_append, List.map_map, List.map_cons, List.map_nil, String.join_append,
        Function.comp_def, Terminal.render, hfancy, if_true, Terminal.fancy, join_map_empty]
      rfl
    · rw [h.output, Terminal.standardError]
      simp only [List.map_append, List.map_map, List.map_cons, List.map_nil, String.join_append,
        Function.comp_def, Terminal.render, hfancy, if_true]
      rfl

section HasFile

variable {context : HostContext} {directory host : String} {fs : FileSystem} {r edited : Record}
  {notices : List Notice}

/-- A command that yields notices and leaves what persisting a record left stores that record. -/
theorem Yields.stores {x : HostCommand.Result} {b : FileBackend}
    (hpersist : ((b.persist edited).run fs).value = .ok ())
    (h : Yields x fs (.ok ()) (notices.map .notice) ((b.persist edited).run fs).files) :
    Stores b (x.run fs) edited notices where
  value := h.value
  output := h.output.trans (visible_notices notices)
  load := by
    rw [h.files]
    exact FileBackend.value_load_of_persist hpersist

variable (h : context.HasFile directory host)
  (hload : ((FileBackend.forHost directory host).load.run fs).value = .ok r)
  (hpersist : (((FileBackend.forHost directory host).persist edited).run fs).value = .ok ())
include h hload hpersist

/-- An edit of labels stores the edited record and names the idle arguments. -/
theorem stores_label {action : LabelAction}
    (hedit : HostCommand.editLabels r action = some (edited, notices)) :
    Stores (.forHost directory host) (((HostCommand.label action).run context).run fs) edited
      (notices ++ [.success (HostCommand.labelSummary edited) none]) := by
  apply Yields.stores hpersist
  apply yields_withRecord h hload
  simp only [hedit]
  exact yields_finish _ fs (some r) edited hpersist notices _

/-- An edit of attributes stores the edited record and names the idle arguments. -/
theorem stores_attribute {action : AttributeAction}
    (hedit : HostCommand.editAttributes r action = some (edited, notices)) :
    Stores (.forHost directory host) (((HostCommand.attribute action).run context).run fs) edited
      (notices ++ [.success (HostCommand.attributeSummary edited) none]) := by
  apply Yields.stores hpersist
  apply yields_withRecord h hload
  simp only [hedit]
  exact yields_finish _ fs (some r) edited hpersist notices _

end HasFile

/-- The commands that edit by lists of arguments store the record with exactly what was asked for, if
it can be persisted, tell how much it has then, and warn about each argument that changed nothing:
because the record is so already, or because the argument was given before. All of it is read on the
terminal. -/
theorem edits_stored_and_told {context : HostContext} {directory host : String} {fs : FileSystem}
    {r : Record} (h : context.HasFile directory host)
    (hload : ((FileBackend.forHost directory host).load.run fs).value = .ok r) :
    let b := FileBackend.forHost directory host
    let persists := fun record => ((b.persist record).run fs).value = .ok ()
    let outcome := fun command => (HostCommand.run context command).run fs
    (∀ labels, ∃ edited : Record,
      edited.labels = r.labels ++ (labels.filter (!r.hasLabel ·)).eraseDups ∧
      edited.attributes = r.attributes ∧
      (persists edited → Updates b (outcome (.label (.add labels))) edited
        "Label already present" (Record.repeated r.hasLabel labels)
        ("Labels updated (" ++ toString edited.labels.length ++ " total)"))) ∧
    (∀ labels, ∃ edited : Record,
      edited.labels = r.labels.filter (!labels.contains ·) ∧
      edited.attributes = r.attributes ∧
      (persists edited → Updates b (outcome (.label (.remove labels))) edited
        "Label not present" (Record.repeated (!r.hasLabel ·) labels)
        ("Labels updated (" ++ toString edited.labels.length ++ " total)"))) ∧
    ∀ keys, ∃ edited : Record,
      edited.labels = r.labels ∧
      edited.attributes.entries = r.attributes.entries.filter (!keys.contains ·.1) ∧
      (persists edited → Updates b (outcome (.attribute (.unset keys))) edited
        "Attribute not set" (Record.repeated (!r.attributes.contains ·) keys)
        ("Attributes updated (" ++ toString edited.attributes.entries.length ++ " total)")) := by
  intro b persists outcome
  refine ⟨?_, ?_, ?_⟩
  · intro labels
    refine ⟨(r.addLabels labels).1, ?_, ?_, ?_⟩
    · rw [Record.addLabels_fst]
    · rw [Record.addLabels_fst]
    · intro hpersist
      apply Stores.updates
      rw [← Record.addLabels_snd]
      exact stores_label h hload hpersist rfl
  · intro labels
    refine ⟨(r.removeLabels labels).1, ?_, ?_, ?_⟩
    · rw [Record.removeLabels_fst]
    · rw [Record.removeLabels_fst]
    · intro hpersist
      apply Stores.updates
      rw [← Record.removeLabels_snd]
      exact stores_label h hload hpersist rfl
  · intro keys
    obtain ⟨hlabels, hentries⟩ := r.removeAttributes_fst keys
    refine ⟨(r.removeAttributes keys).1, hlabels, hentries, ?_⟩
    intro hpersist
    apply Stores.updates
    rw [← Record.removeAttributes_snd]
    exact stores_attribute h hload hpersist rfl

/-- A directory that is missing on an empty file system and can be made. -/
theorem vacant_empty : Vacant .empty "/var/hosts" := by
  refine .absent (by decide) (by decide) ?_ (by decide)
  exact ⟨by decide, by decide, by decide, fun l _ => fileAt?_empty l⟩

theorem fits_h1 : FileBackend.Fits "/var/hosts" "h1" :=
  ⟨by decide, by decide, by decide, by decide, by decide⟩

/-- A label that the host has and one that is named twice, beside a new one. -/
theorem edits_stored_and_told_of_repeated :
    let context : HostContext := ⟨⟨some "h1", none⟩, .default, "/var/hosts"⟩
    let b := FileBackend.forHost "/var/hosts" "h1"
    let fs := ((b.persist ⟨["board:eve"], ∅⟩).run .empty).files
    let o := (HostCommand.run context (.label (.add ["os:cros", "board:eve", "os:cros"]))).run fs
    context.HasFile "/var/hosts" "h1" ∧ (b.load.run fs).value = .ok ⟨["board:eve"], ∅⟩ ∧
      Updates b o ⟨["board:eve", "os:cros"], ∅⟩ "Label already present" ["board:eve", "os:cros"]
        "Labels updated (2 total)" ∧
      Terminal.standardOutput Terminal.quiet "" o.reports =
        "  [WARN] Label already present - board:eve\n" ++
        "  [WARN] Label already present - os:cros\n" ++ "  [OK] Labels updated (2 total)\n" := by
  intro context b fs o
  have hfile : context.HasFile "/var/hosts" "h1" := ⟨rfl, rfl, by decide, rfl⟩
  obtain ⟨hvalue, hreflects⟩ :=
    (Reflects.of_vacant vacant_empty).exists_run_persist fits_h1 ⟨["board:eve"], ∅⟩
  have hload : (b.load.run fs).value = .ok ⟨["board:eve"], ∅⟩ :=
    FileBackend.value_load_of_persist hvalue
  obtain ⟨edited, hlabels, hattributes, hstores⟩ :=
    (edits_stored_and_told hfile hload).1 ["os:cros", "board:eve", "os:cros"]
  have hedited : edited = ⟨["board:eve", "os:cros"], ∅⟩ := by
    cases edited
    rw [Record.mk.injEq]
    exact ⟨hlabels, hattributes⟩
  rw [hedited] at hstores
  have hupdates : Updates b o ⟨["board:eve", "os:cros"], ∅⟩ "Label already present"
      ["board:eve", "os:cros"] "Labels updated (2 total)" :=
    hstores (hreflects.exists_run_persist fits_h1 _).1
  exact ⟨hfile, hload, hupdates, hupdates.plain Terminal.quiet "" rfl⟩

end HostRegistry
