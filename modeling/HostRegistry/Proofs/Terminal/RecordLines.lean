import HostRegistry.Proofs.Record.Display
import HostRegistry.Proofs.Terminal.Line
import HostRegistry.Report

/-!
Lines of the log that show records.

Each of them is one line whatever the record holds, and it tells the record. It starts with words of
its own, so no other line reads like it, whatever that one tells.
-/

set_option autoImplicit false

namespace HostRegistry

open Text (Clear)

/-! ## Words of the log -/

/-- What a line of the log is about. -/
inductive Topic where
  | refreshing
  | held
  | loaded
  | refreshFailed
  | committing
  | updated
  | commitFailed
  | read
  | wrote
  | usingFile
  | usingMemory
  | vacant
  | configMissing
  | configSaved

/-- The words that a line starts with. -/
def Topic.words : Topic → String
  | .refreshing => "Refreshing HostInfo using store "
  | .held => "Old host_info: "
  | .loaded => "New host_info: "
  | .refreshFailed => "Refresh failed, cache invalidated: "
  | .committing => "Committing HostInfo to store "
  | .updated => "HostInfo updated to: "
  | .commitFailed => "Commit failed, cache invalidated: "
  | .read => "Read host info from "
  | .wrote => "Wrote host info to "
  | .usingFile => "Using file store "
  | .usingMemory => "No host info store for "
  | .vacant => "No existing host info: "
  | .configMissing => "Config file not found, using defaults"
  | .configSaved => "Configuration saved to "

/-- What the line of an event is about, and what it tells after its words. -/
def StoreEvent.topic : StoreEvent FileEvent → Topic × String
  | .refreshing store => (.refreshing, store)
  | .held slot => (.held, Record.displaySlot slot)
  | .loaded record => (.loaded, record.display)
  | .refreshFailed error => (.refreshFailed, error.message)
  | .committing store => (.committing, store)
  | .updated record => (.updated, record.display)
  | .commitFailed error => (.commitFailed, error.message)
  | .backend (.read path) => (.read, path)
  | .backend (.wrote path) => (.wrote, path)

/-- What the line of a report is about, and what it tells after its words. -/
def Report.topic? : Report → Option (Topic × String)
  | .store event => some event.topic
  | .usingFile path host => some (.usingFile, path ++ " for " ++ host)
  | .usingMemory host => some (.usingMemory, host ++ ", using in-memory store")
  | .vacant error => some (.vacant, error.message)
  | .configMissing => some (.configMissing, "")
  | .configSaved path => some (.configSaved, path)
  | .notice _ => none
  | .line _ => none

namespace Topic

theorem clear_words (t : Topic) : Clear t.words.toList := by
  cases t <;> rw [words, String.toList_ofList] <;> decide

theorem two_le_length_words (t : Topic) : 2 ≤ t.words.toList.length := by
  cases t <;> rw [words, String.toList_ofList] <;> decide

/-- Two characters tell the topics about records from all others. -/
theorem eq_of_take_two {s t : Topic} (hs : s = .held ∨ s = .loaded ∨ s = .updated)
    (h : t.words.toList.take 2 = s.words.toList.take 2) : t = s := by
  rcases hs with rfl | rfl | rfl
  all_goals
    cases t
    all_goals first
      | rfl
      | rw [words, words, String.toList_ofList, String.toList_ofList] at h
        exact absurd h (by decide)

end Topic

/-- A report about a record that was seen, or about the slot for one. -/
inductive ShowsRecord : Report → Prop where
  | held (slot : Option Record) : ShowsRecord (.store (.held slot))
  | loaded (record : Record) : ShowsRecord (.store (.loaded record))
  | updated (record : Record) : ShowsRecord (.store (.updated record))

variable {report other : Report} {entry : LogLine}

/-- A line of the log is what its report tells, after the words for what it is about. -/
theorem Report.exists_message_eq (h : report.logLine? = some entry) :
    ∃ topic content, report.topic? = some (topic, content) ∧
      entry.message = topic.words ++ content := by
  cases report with
  | store event =>
    cases h
    refine ⟨event.topic.1, event.topic.2, rfl, ?_⟩
    cases event with
    | backend event => cases event <;> rfl
    | _ => rfl
  | usingFile path host =>
    cases h
    refine ⟨_, _, rfl, ?_⟩
    change "Using file store " ++ path ++ " for " ++ host =
      "Using file store " ++ (path ++ " for " ++ host)
    simp only [String.append_assoc]
  | usingMemory host =>
    cases h
    exact ⟨_, _, rfl, String.append_assoc⟩
  | vacant error =>
    cases h
    exact ⟨_, _, rfl, rfl⟩
  | configMissing =>
    cases h
    exact ⟨_, _, rfl, rfl⟩
  | configSaved path =>
    cases h
    exact ⟨_, _, rfl, rfl⟩
  | notice notice => cases h
  | line text => cases h

/-- Nothing is hidden in what a report about a record tells. -/
theorem ShowsRecord.exists_message_eq (h : ShowsRecord report)
    (hentry : report.logLine? = some entry) :
    ∃ topic content, report.topic? = some (topic, content) ∧
      entry.message = topic.words ++ content ∧ Clear content.toList ∧
      (topic = .held ∨ topic = .loaded ∨ topic = .updated) := by
  obtain ⟨topic, content, htopic, hmessage⟩ := Report.exists_message_eq hentry
  refine ⟨topic, content, htopic, hmessage, ?_⟩
  cases h with
  | held slot =>
    cases htopic
    exact ⟨Record.clear_displaySlot slot, Or.inl rfl⟩
  | loaded record =>
    cases htopic
    exact ⟨record.clear_display, Or.inr (Or.inl rfl)⟩
  | updated record =>
    cases htopic
    exact ⟨record.clear_display, Or.inr (Or.inr rfl)⟩

/-- A report with the topic of one about a record is about a record too. -/
theorem ShowsRecord.of_topic (h : ShowsRecord report)
    (hother : other.topic?.map (·.1) = report.topic?.map (·.1)) : ShowsRecord other := by
  cases other with
  | store event =>
    cases event with
    | held slot => exact .held slot
    | loaded record => exact .loaded record
    | updated record => exact .updated record
    | backend event => cases event <;> cases h <;> cases hother
    | _ => cases h <;> cases hother
  | _ => cases h <;> cases hother

/-- No other report tells what a report about a record tells. -/
theorem ShowsRecord.eq_of_topic (h : ShowsRecord report) (hsame : other.topic? = report.topic?) :
    other = report := by
  have hother : ShowsRecord other := h.of_topic (congrArg (Option.map (·.1)) hsame)
  cases h with
  | held slot =>
    cases hother with
    | held shown => rw [Record.eq_of_displaySlot_eq (Prod.mk.inj (Option.some.inj hsame)).2]
    | _ => cases hsame
  | loaded record =>
    cases hother with
    | loaded shown => rw [Record.eq_of_display_eq (Prod.mk.inj (Option.some.inj hsame)).2]
    | _ => cases hsame
  | updated record =>
    cases hother with
    | updated shown => rw [Record.eq_of_display_eq (Prod.mk.inj (Option.some.inj hsame)).2]
    | _ => cases hsame

/-- Nothing is hidden in the line of a report about a record. -/
theorem ShowsRecord.clear_message (h : ShowsRecord report)
    (hentry : report.logLine? = some entry) : Clear entry.message.toList := by
  obtain ⟨topic, content, -, hmessage, hclear, -⟩ := h.exists_message_eq hentry
  rw [hmessage, String.toList_append, Text.clear_append]
  exact ⟨topic.clear_words, hclear⟩

/-- What a line tells about a record no other line tells. -/
theorem ShowsRecord.eq_of_told_eq {entry' : LogLine} {format : Terminal.LogFormat}
    (h : ShowsRecord report) (hentry : report.logLine? = some entry)
    (hother : other.logLine? = some entry')
    (htold : Terminal.told entry.message format = Terminal.told entry'.message format) :
    other = report := by
  obtain ⟨topic, content, htopic, hmessage, hclear, hrecord⟩ := h.exists_message_eq hentry
  obtain ⟨topic', content', htopic', hmessage'⟩ := Report.exists_message_eq hother
  rw [hmessage, hmessage', Terminal.told_append, Terminal.told_append,
    Terminal.told_of_clear topic.clear_words, Terminal.told_of_clear topic'.clear_words,
    Terminal.told_of_clear hclear] at htold
  have hsame : topic' = topic := by
    have htake := congrArg (List.take 2) htold
    rw [List.take_append_of_le_length topic.two_le_length_words,
      List.take_append_of_le_length topic'.two_le_length_words] at htake
    exact Topic.eq_of_take_two hrecord htake.symm
  subst hsame
  -- The other report is about a record as well, so nothing is hidden in what it tells.
  have hshows : ShowsRecord other := h.of_topic (by rw [htopic, htopic']; rfl)
  obtain ⟨_, _, hfound, -, hclear', -⟩ := hshows.exists_message_eq hother
  rw [htopic'] at hfound
  cases hfound
  have hcontent := List.append_cancel_left htold
  rw [Terminal.told_of_clear hclear', String.toList_inj] at hcontent
  apply h.eq_of_topic
  rw [htopic, htopic', hcontent]

/-- The one-line form of a record tells the record and nothing else: records with the same form are the
same, none has the form of an empty slot, and no form has a control character or a separator of lines
or paragraphs. So what the log says about a record is one line in either format, and no other report
makes the same line. -/
theorem display_tells_record :
    (∀ r s : Record, r.display = s.display → r = s) ∧
    (∀ r : Record, r.display ≠ "None" ∧ Record.displaySlot none = "None") ∧
    (∀ r : Record, ∀ c ∈ r.display.toList, ¬Text.Disruptive c) ∧
    ∀ report entry, ShowsRecord report → report.logLine? = some entry →
      (∀ format microseconds, ∃ line : String,
        Terminal.logText format (Terminal.timestamp microseconds) entry = line ++ "\n" ∧
          ∀ c ∈ line.toList, ¬Text.Disruptive c) ∧
      ∀ other entry' format timestamp timestamp', other.logLine? = some entry' →
        Terminal.logText format timestamp entry = Terminal.logText format timestamp' entry' →
        other = report := by
  refine ⟨fun r s => Record.eq_of_display_eq, fun r => ⟨r.display_ne_none, rfl⟩,
    fun r => r.clear_display.not_disruptive, ?_⟩
  intro report entry hshows hentry
  refine ⟨?_, ?_⟩
  · intro format microseconds
    refine ⟨_, Terminal.logText_eq format _ entry, ?_⟩
    rw [String.toList_ofList]
    apply Clear.not_disruptive
    exact Terminal.clear_lineChars (Terminal.clear_timestamp microseconds)
      (hshows.clear_message hentry) format
  · intro other entry' format timestamp timestamp' hother hsame
    rw [Terminal.logText_eq, Terminal.logText_eq, String.append_left_inj, String.ofList_inj] at hsame
    exact hshows.eq_of_told_eq hentry hother (Terminal.told_of_lineChars_eq hsame)

end HostRegistry
