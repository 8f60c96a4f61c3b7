import HostRegistry.Proofs.Json.Written
import HostRegistry.Proofs.Text.Quoted
import HostRegistry.Terminal.Render
import HostRegistry.Terminal.Timestamp

/-!
Lines of the log as text, in both formats.

A line tells its message (`told_of_lineChars_eq`), and nothing is hidden in it if nothing is in its
message (`clear_lineChars`), so such a message makes exactly one line.
-/

set_option autoImplicit false

namespace HostRegistry

open Text (Clear SelfDelimiting clear_append hidden)

/-! ## Quoting -/

namespace Json

/-- Quoting hides nothing that was not hidden. -/
theorem clear_quote {text : String} (h : Clear text.toList) : Clear (quote text) := by
  have hcontent : Clear (text.toList.flatMap escape) := by
    apply Text.clear_flatMap
    intro c hc
    unfold escape
    iterate 7
      split
      next => decide
    split
    next hlow => exact absurd (Or.inl hlow) (Text.not_disruptive (h c hc))
    next =>
      intro d hd
      rw [List.mem_singleton.mp hd]
      exact h c hc
  exact clear_append.mpr ⟨clear_append.mpr ⟨(by decide : Clear ['"']), hcontent⟩, by decide⟩

theorem selfDelimiting_quote : SelfDelimiting quote where
  tell {a b x y} heq := by
    simp only [quote, List.cons_append, List.append_assoc, List.nil_append, List.cons.injEq,
      true_and] at heq
    have htakes := takes_string a x
    rw [heq] at htakes
    obtain ⟨_, hfirst⟩ := htakes
    obtain ⟨_, hsecond⟩ := takes_string b y
    rw [hsecond] at hfirst
    cases hfirst
    exact ⟨rfl, rfl⟩

end Json

namespace Terminal

/-! ## Messages -/

theorem logChar_of_clear {c : Char} (h : hidden c = false) : logChar c = [c] := by
  have hc : ¬Text.Disruptive c := Text.not_disruptive h
  rw [Text.Disruptive] at hc
  rw [logChar, if_neg, if_neg]
  · omega
  · rintro (rfl | rfl | rfl | rfl | rfl) <;> exact absurd hc (by decide)

theorem flatMap_logChar {w : List Char} (h : Clear w) : w.flatMap logChar = w := by
  induction w with
  | nil => rfl
  | cons c w ih =>
    obtain ⟨hc, hw⟩ := List.forall_mem_cons.mp h
    rw [List.flatMap_cons, logChar_of_clear hc, ih hw, List.singleton_append]

/-- What is told of a message by its line of the log. -/
def told (message : String) : LogFormat → List Char
  | .text => message.toList.flatMap logChar
  | .json => message.toList

variable {format : LogFormat} {entry other : LogLine} {timestamp timestamp' : String}

theorem told_append (a b : String) : told (a ++ b) format = told a format ++ told b format := by
  cases format with
  | text => rw [told, told, told, String.toList_append, List.flatMap_append]
  | json => exact String.toList_append

theorem told_of_clear {message : String} (h : Clear message.toList) :
    told message format = message.toList := by
  cases format with
  | text => exact flatMap_logChar h
  | json => rfl

/-! ## Lines -/

/-- A line of the log without its end. -/
def lineChars (timestamp : String) (entry : LogLine) : LogFormat → List Char
  | .text => (paddedLevel entry.level).toList ++ ([' '] ++ told entry.message .text)
  | .json => ['{'] ++ (Json.quote "timestamp" ++ ([':'] ++ (Json.quote timestamp ++ ([','] ++
    (Json.quote "level" ++ ([':'] ++ (Json.quote entry.level.text ++ ([','] ++
      (Json.quote "fields" ++ ([':', '{'] ++ (Json.quote "message" ++ ([':'] ++
        (Json.quote entry.message ++ ['}', '}'])))))))))))))

theorem logText_eq (format : LogFormat) (timestamp : String) (entry : LogLine) :
    logText format timestamp entry = String.ofList (lineChars timestamp entry format) ++ "\n" := by
  cases format with
  | text =>
    apply String.toList_inj.mp
    simp only [logText, lineChars, told, String.toList_append, String.toList_ofList,
      List.append_assoc]
    rfl
  | json =>
    simp only [logText, lineChars, Json.object, Json.block, Json.blockTail, Json.textMembers,
      Json.member, List.map_cons, List.map_nil, Json.Style.colon, Json.Style.break,
      List.append_assoc, List.cons_append, List.nil_append]

theorem length_paddedLevel (level : Level) : (paddedLevel level).toList.length = 5 := by
  cases level <;> rfl

/-- A line of the log says what it tells of its message. -/
theorem told_of_lineChars_eq
    (h : lineChars timestamp entry format = lineChars timestamp' other format) :
    told entry.message format = told other.message format := by
  cases format with
  | text =>
    have hlevel := (length_paddedLevel entry.level).trans (length_paddedLevel other.level).symm
    exact List.append_cancel_left (List.append_inj h hlevel).2
  | json =>
    simp only [lineChars, List.append_cancel_left_eq] at h
    obtain ⟨-, hlevel⟩ := Json.selfDelimiting_quote.tell h
    simp only [List.append_cancel_left_eq] at hlevel
    obtain ⟨-, hmessage⟩ := Json.selfDelimiting_quote.tell hlevel
    simp only [List.append_cancel_left_eq] at hmessage
    exact congrArg String.toList (Json.selfDelimiting_quote.tell hmessage).1

theorem clear_timestamp (microseconds : Nat) : Clear (Terminal.timestamp microseconds).toList := by
  have hpadded : ∀ width n, Clear (padded width n).toList := by
    intro width n
    rw [padded, String.toList_ofList, clear_append]
    refine ⟨fun c hc => ?_, Text.clear_toDigits (by decide) (by decide) n⟩
    rw [List.eq_of_mem_replicate hc]
    rfl
  unfold Terminal.timestamp
  simp only [String.toList_append, clear_append, hpadded, true_and]
  decide

/-- Nothing is hidden in a line if nothing is in its message. -/
theorem clear_lineChars (htimestamp : Clear timestamp.toList) (hmessage : Clear entry.message.toList)
    (format : LogFormat) : Clear (lineChars timestamp entry format) := by
  cases format with
  | text =>
    have hlevel : Clear (paddedLevel entry.level).toList := by
      cases entry.level <;> decide
    rw [lineChars, told_of_clear hmessage, clear_append, clear_append]
    exact ⟨hlevel, by decide, hmessage⟩
  | json =>
    have hlevel : Clear entry.level.text.toList := by
      cases entry.level <;> decide
    simp only [lineChars, clear_append]
    exact ⟨by decide, by decide, by decide, Json.clear_quote htimestamp, by decide, by decide,
      by decide, Json.clear_quote hlevel, by decide, by decide, by decide, by decide, by decide,
      Json.clear_quote hmessage, by decide⟩

end Terminal

end HostRegistry
