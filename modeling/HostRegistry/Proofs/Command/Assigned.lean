import HostRegistry.CommandLine.Values
import HostRegistry.Proofs.Command.Edited
import HostRegistry.Proofs.Record.Attributes
import Mathlib.Data.List.TakeWhile

/-!
From the arguments that assign attributes to the answers for their keys.

An argument is a key and a value with an equality sign between them, and it is split at the first one
(`readEntry_eq_ok_iff`). What was assigned last under a key is what is read for it. Assignments of
different keys can change places: the commands then do the same, down to the bytes they write.
-/

set_option autoImplicit false

namespace HostRegistry

namespace CommandLine

variable {text : String} {entry : String × String}

/-! ## Arguments -/

/-- The argument that assigns an attribute. -/
def writeEntry (entry : String × String) : String := entry.1 ++ "=" ++ entry.2

/-- Whether an attribute can be assigned by an argument: its key is not empty, and has no equality
sign. -/
def Assignable (entry : String × String) : Prop := entry.1 ≠ "" ∧ '=' ∉ entry.1.toList

theorem toList_writeEntry (entry : String × String) :
    (writeEntry entry).toList = entry.1.toList ++ '=' :: entry.2.toList := by
  rw [writeEntry, String.toList_append, String.toList_append, List.append_assoc]
  rfl

/-- A list is split at the first place of a member. -/
theorem span_append_cons {α : Type} [DecidableEq α] {a : α} {front : List α} (h : a ∉ front)
    (rest : List α) : (front ++ a :: rest).span (· ≠ a) = (front, a :: rest) := by
  have hfront : ∀ b ∈ front, decide (b ≠ a) = true := fun b hb =>
    decide_eq_true fun heq => h (heq ▸ hb)
  have ha : ¬decide (a ≠ a) = true := fun heq => of_decide_eq_true heq rfl
  rw [List.span_eq_takeWhile_dropWhile, List.takeWhile_append_of_pos hfront,
    List.dropWhile_append_of_pos hfront, List.takeWhile_cons, List.dropWhile_cons, if_neg ha, if_neg ha,
    List.append_nil]

/-- What the first equality sign leaves on its left is the key. -/
theorem readEntry_writeEntry (h : '=' ∉ entry.1.toList) :
    readEntry (writeEntry entry) =
      if entry.1 = "" then .error (.noKey (writeEntry entry)) else .ok entry := by
  rw [readEntry, toList_writeEntry, span_append_cons h]
  cases hkey : entry.1.toList with
  | nil => rw [if_pos (String.toList_eq_nil_iff.mp hkey)]
  | cons c rest =>
    rw [if_neg fun hempty => by rw [hempty] at hkey; cases hkey]
    simp only [← hkey, String.ofList_toList]

theorem readEntry_of_not_mem (h : '=' ∉ text.toList) : readEntry text = .error (.noSign text) := by
  have hall : ∀ c ∈ text.toList, decide (c ≠ '=') = true := fun c hc =>
    decide_eq_true fun heq => h (heq ▸ hc)
  rw [readEntry, List.span_eq_takeWhile_dropWhile, List.dropWhile_eq_nil_iff.mpr hall]

/-- A text with an equality sign is an attribute, but for its key that may be empty. -/
theorem exists_writeEntry_of_mem (h : '=' ∈ text.toList) :
    ∃ entry, '=' ∉ entry.1.toList ∧ text = writeEntry entry := by
  obtain ⟨key, value, htext, hkey⟩ := List.eq_append_cons_of_mem h
  refine ⟨(String.ofList key, String.ofList value), ?_, String.toList_inj.mp ?_⟩
  · rwa [String.toList_ofList]
  · rw [toList_writeEntry, String.toList_ofList, String.toList_ofList, htext]

/-- The arguments that are read are those that assign an attribute, and they are read as it. -/
theorem readEntry_eq_ok_iff :
    readEntry text = .ok entry ↔ Assignable entry ∧ text = writeEntry entry := by
  constructor
  · intro hread
    by_cases hmem : '=' ∈ text.toList
    · obtain ⟨found, hsign, rfl⟩ := exists_writeEntry_of_mem hmem
      rw [readEntry_writeEntry hsign] at hread
      split at hread
      next => cases hread
      next hkey =>
        cases hread
        exact ⟨⟨hkey, hsign⟩, rfl⟩
    · rw [readEntry_of_not_mem hmem] at hread
      cases hread
  · rintro ⟨⟨hkey, hsign⟩, rfl⟩
    rw [readEntry_writeEntry hsign, if_neg hkey]

/-- A text is read if it has an equality sign, and does not start with it. -/
theorem exists_readEntry_iff :
    (∃ entry, readEntry text = .ok entry) ↔
      '=' ∈ text.toList ∧ text.toList.head? ≠ some '=' := by
  simp only [readEntry_eq_ok_iff]
  constructor
  · rintro ⟨entry, ⟨hkey, hsign⟩, rfl⟩
    rw [toList_writeEntry]
    refine ⟨List.mem_append_right _ List.mem_cons_self, ?_⟩
    cases hfront : entry.1.toList with
    | nil => exact absurd (String.toList_eq_nil_iff.mp hfront) hkey
    | cons c rest =>
      rintro ⟨⟩
      exact hsign (hfront ▸ List.mem_cons_self)
  · rintro ⟨hmem, hhead⟩
    obtain ⟨entry, hsign, rfl⟩ := exists_writeEntry_of_mem hmem
    refine ⟨entry, ⟨fun hkey => hhead ?_, hsign⟩, rfl⟩
    rw [toList_writeEntry, hkey]
    rfl

theorem readAttribute_eq_ok_iff :
    Values.readAttribute text = .ok entry ↔ Assignable entry ∧ text = writeEntry entry := by
  rw [← readEntry_eq_ok_iff, Values.readAttribute]
  cases readEntry text with
  | error fault => exact iff_of_false (fun h => by cases h) fun h => by cases h
  | ok found => simp only [Except.mapError, Except.ok.injEq]

/-- The arguments that assign attributes are read as these. -/
theorem mapM_readAttribute_map {entries : List (String × String)}
    (h : ∀ entry ∈ entries, Assignable entry) :
    (entries.map writeEntry).mapM Values.readAttribute = .ok entries := by
  induction entries with
  | nil => rfl
  | cons entry rest ih =>
    obtain ⟨hentry, hrest⟩ := List.forall_mem_cons.mp h
    rw [List.map_cons, List.mapM_cons, readAttribute_eq_ok_iff.mpr ⟨hentry, rfl⟩, ih hrest]
    rfl

/-- Arguments that are read assign the attributes that they are read as. -/
theorem of_mapM_readAttribute {texts : List String} {entries : List (String × String)}
    (h : texts.mapM Values.readAttribute = .ok entries) :
    (∀ entry ∈ entries, Assignable entry) ∧ texts = entries.map writeEntry := by
  induction texts generalizing entries with
  | nil =>
    cases h
    exact ⟨nofun, rfl⟩
  | cons text rest ih =>
    rw [List.mapM_cons] at h
    cases hfirst : Values.readAttribute text with
    | error fault =>
      rw [hfirst] at h
      cases h
    | ok entry =>
      cases hrest : rest.mapM Values.readAttribute with
      | error fault =>
        rw [hfirst, hrest] at h
        cases h
      | ok found =>
        rw [hfirst, hrest] at h
        cases h
        obtain ⟨hentry, rfl⟩ := readAttribute_eq_ok_iff.mp hfirst
        obtain ⟨hfound, rfl⟩ := ih hrest
        exact ⟨List.forall_mem_cons.mpr ⟨hentry, hfound⟩, rfl⟩

/-- The command that operands make is to assign the attributes that they are, if there are any. -/
theorem command_assignEntries_eq_ok_iff {v : Values} (h : v.entries = []) {texts : List String}
    {command : Command} :
    (v.assignEntries texts >>= (·.command .attributeSet)) = .ok command ↔
      texts ≠ [] ∧ ∃ entries, (∀ entry ∈ entries, Assignable entry) ∧
        texts = entries.map writeEntry ∧ command = .host (.attribute (.set entries)) := by
  rw [Values.assignEntries, h]
  constructor
  · intro hcommand
    cases hread : texts.mapM Values.readAttribute with
    | error fault =>
      rw [hread] at hcommand
      cases hcommand
    | ok entries =>
      rw [hread] at hcommand
      obtain ⟨hentries, rfl⟩ := of_mapM_readAttribute hread
      cases entries with
      | nil => cases hcommand
      | cons entry rest =>
        cases hcommand
        exact ⟨nofun, _, hentries, rfl, rfl⟩
  · rintro ⟨hne, entries, hentries, rfl, rfl⟩
    rw [mapM_readAttribute_map hentries]
    cases entries with
    | nil => exact absurd rfl hne
    | cons entry rest => rfl

end CommandLine

/-! ## Answers -/

/-- What is read for a key: a command puts the value out as a line, or fails because there is none. -/
inductive AnswersKey (key : String) (o : Outcome Report (Except Error Unit)) : Option String → Prop where
  | found {value : String} : o.value = .ok () →
    (∀ settings timestamp,
      Terminal.standardOutput settings timestamp o.reports = value ++ "\n") →
    AnswersKey key o (some value)
  | missing : o.value = .error (.user ("Attribute not set: " ++ key)) →
    (∀ settings timestamp, Terminal.standardOutput settings timestamp o.reports = "") →
    AnswersKey key o none

namespace Record

variable {key : String}

/-- Assigning attributes is a history of insertions. -/
theorem setAttributes_eq (r : Record) (entries : List (String × String)) :
    r.setAttributes entries = r.afterAttributeEdits (entries.map .ofEntry) := by
  rw [afterAttributeEdits, List.foldl_map]
  rfl

/-- The last value assigned to a key counts. -/
theorem find?_setAttributes (r : Record) (entries : List (String × String)) (key : String) :
    (r.setAttributes entries).attributes.find? key =
      (entries.reverse.lookup key).or (r.attributes.find? key) := by
  rw [setAttributes_eq, find?_afterAttributeEdits, ← List.map_reverse,
    AttributeEdit.findSome?_leaves?_ofEntry, SortedMap.lookup_eq]
  cases entries.reverse.lookup key <;> rfl

/-- Assignments of different keys can change places. -/
theorem setAttributes_of_filter {a b : List (String × String)}
    (h : ∀ key, a.filter (·.1 = key) = b.filter (·.1 = key)) (r : Record) :
    r.setAttributes a = r.setAttributes b := by
  rw [setAttributes_eq, setAttributes_eq]
  apply afterAttributeEdits_of_filter
  intro key
  rw [List.filter_map, List.filter_map]
  exact congrArg (List.map AttributeEdit.ofEntry) (h key)

end Record

section HasFile

variable {context : HostContext} {directory host : String} {fs : FileSystem} {r : Record}

/-- The answer for a key is its value in the record that is loaded. -/
theorem answersKey_attribute (h : context.HasFile directory host)
    (hload : ((FileBackend.forHost directory host).load.run fs).value = .ok r) (key : String) :
    AnswersKey key ((HostCommand.run context (.attribute (.get key))).run fs)
      (r.attributes.find? key) := by
  cases hvalue : r.attributes.find? key with
  | some value =>
    have hyields : Yields (HostCommand.run context (.attribute (.get key))) fs (.ok ())
        [.line value] fs := by
      apply yields_withRecord h hload
      simp only [HostCommand.editAttributes, HostCommand.readAttributes, hvalue]
      exact .answer _ fs
    refine .found hyields.value fun settings timestamp => ?_
    rw [← Terminal.standardOutput_visible, hyields.output]
    change String.join [value ++ "\n"] = _
    rw [String.join_cons, String.join_nil, String.append_empty]
  | none =>
    have hyields : Yields (HostCommand.run context (.attribute (.get key))) fs
        (.error (.user ("Attribute not set: " ++ key))) [] fs := by
      apply yields_withRecord h hload
      simp only [HostCommand.editAttributes, HostCommand.readAttributes, hvalue]
      exact .pure _ fs
    refine .missing hyields.value fun settings timestamp => ?_
    rw [← Terminal.standardOutput_visible, hyields.output]
    rfl

/-- Assignments that differ in the order of different keys do the same. -/
theorem run_set_of_filter {a b : List (String × String)}
    (h : ∀ key, a.filter (·.1 = key) = b.filter (·.1 = key)) (context : HostContext) :
    HostCommand.run context (.attribute (.set a)) = HostCommand.run context (.attribute (.set b)) := by
  simp only [HostCommand.run, HostCommand.runAttribute, HostCommand.editAttributes,
    Record.setAttributes_of_filter h]

end HasFile

open CommandLine in
/-- What is assigned is what is read. The arguments that are accepted are those with an equality sign
that is not their first character, and they are split at the first one; the command that they make
assigns them all. If it can store the record then, the answer for each key is the value of its last
argument, or else the one that the host had; without either there is a failure. And arguments with
different keys can change places: the command does the same to all files. -/
theorem assigned_attributes_are_read :
    (∀ text, (∃ entry, readEntry text = .ok entry) ↔
      '=' ∈ text.toList ∧ text.toList.head? ≠ some '=') ∧
    (∀ text key value, readEntry text = .ok (key, value) ↔
      (key ≠ "" ∧ '=' ∉ key.toList) ∧ text = key ++ "=" ++ value) ∧
    (∀ (v : Values) texts command, v.entries = [] →
      ((v.assignEntries texts >>= (·.command .attributeSet)) = .ok command ↔
        texts ≠ [] ∧ ∃ entries, (∀ entry ∈ entries, Assignable entry) ∧
          texts = entries.map writeEntry ∧ command = .host (.attribute (.set entries)))) ∧
    (∀ context directory host fs r entries, HostContext.HasFile context directory host →
      let b := FileBackend.forHost directory host
      (b.load.run fs).value = .ok r →
      ((b.persist (r.setAttributes entries)).run fs).value = .ok () →
      let assigned := (HostCommand.run context (.attribute (.set entries))).run fs
      assigned.value = .ok () ∧ ∀ key,
        AnswersKey key ((HostCommand.run context (.attribute (.get key))).run assigned.files)
          ((entries.reverse.lookup key).or (r.attributes.find? key))) ∧
    ∀ context fs a b, (∀ key, a.filter (·.1 = key) = b.filter (·.1 = key)) →
      (HostCommand.run context (.attribute (.set a))).run fs =
        (HostCommand.run context (.attribute (.set b))).run fs := by
  refine ⟨fun text => exists_readEntry_iff, fun text key value => readEntry_eq_ok_iff,
    fun v texts command h => command_assignEntries_eq_ok_iff h, ?_, ?_⟩
  · intro context directory host fs r entries h b hload hpersist assigned
    have hstores : Stores b assigned (r.setAttributes entries) _ :=
      stores_attribute h hload hpersist rfl
    refine ⟨hstores.value, fun key => ?_⟩
    rw [← Record.find?_setAttributes]
    exact answersKey_attribute h hstores.load key
  · intro context fs a b h
    rw [run_set_of_filter h]

/-- A value with an equality sign, and a key that is assigned again without a value; the host had
another key. -/
theorem assigned_attributes_are_read_of_repeated :
    let context : HostContext := ⟨⟨some "h1", none⟩, .default, "/var/hosts"⟩
    let b := FileBackend.forHost "/var/hosts" "h1"
    let r : Record := ⟨["board:eve"], (∅ : SortedMap String String).insert "slot" "7"⟩
    let fs := ((b.persist r).run .empty).files
    let assigned :=
      (HostCommand.run context (.attribute (.set [("args", "a=b"), ("rack", "r1"), ("rack", "")]))).run
        fs
    let answer := fun key => (HostCommand.run context (.attribute (.get key))).run assigned.files
    CommandLine.readEntry "args=a=b" = .ok ("args", "a=b") ∧ assigned.value = .ok () ∧
      AnswersKey "args" (answer "args") (some "a=b") ∧ AnswersKey "rack" (answer "rack") (some "") ∧
      AnswersKey "slot" (answer "slot") (some "7") ∧ AnswersKey "owner" (answer "owner") none := by
  intro context b r fs assigned answer
  have hfile : context.HasFile "/var/hosts" "h1" := ⟨rfl, rfl, by decide, rfl⟩
  obtain ⟨hvalue, hreflects⟩ := (Reflects.of_vacant vacant_empty).exists_run_persist fits_h1 r
  have hload : (b.load.run fs).value = .ok r := FileBackend.value_load_of_persist hvalue
  obtain ⟨-, hread, -, hassigned, -⟩ := assigned_attributes_are_read
  obtain ⟨hdone, hanswer⟩ := hassigned context "/var/hosts" "h1" fs r
    [("args", "a=b"), ("rack", "r1"), ("rack", "")] hfile hload (hreflects.exists_run_persist fits_h1 _).1
  refine ⟨(hread "args=a=b" "args" "a=b").mpr (by decide), hdone, ?_, ?_, ?_, ?_⟩
  · exact hanswer "args"
  · exact hanswer "rack"
  · exact hanswer "slot"
  · exact hanswer "owner"

end HostRegistry
