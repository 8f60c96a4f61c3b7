import HostRegistry.Json.Fault
import HostRegistry.Text.Rest

/-!
Reading JSON text from the front.

A `Reader` takes what it reads off the front of a text and leaves something shorter, so every loop
over readers ends. The first fault met is the answer. `readString` reads a string with its escapes,
`readElements` a list and `readMembers` an object; the last two fold a state over what they meet,
and are told by the state which reader comes next.
-/

set_option autoImplicit false

namespace HostRegistry.Json
open Text (Rest Remainder hexDigit?)

/-- Reads a value off the front of a text. -/
abbrev Reader (α : Type) : Type := (s : List Char) → Except Fault (α × Rest s)

/-- The blanks of JSON. -/
def isBlank (c : Char) : Bool := c = ' ' || c = '\t' || c = '\n' || c = '\r'

/-- The text from its first character that is not blank. -/
def skipBlanks (s : List Char) : List Char := s.dropWhile isBlank

theorem length_skipBlanks (s : List Char) : (skipBlanks s).length ≤ s.length :=
  Text.length_dropWhile_le isBlank s

theorem length_of_skipBlanks {s r : List Char} {c : Char} (h : skipBlanks s = c :: r) :
    r.length < s.length := by
  have := length_skipBlanks s
  rw [h, List.length_cons] at this
  exact this

/-! ## Strings -/

/-- The number of bytes of a text in UTF-8. -/
def byteLength (s : List Char) : Nat := s.foldr (fun c n => c.utf8Size + n) 0

/-- The value of four hexadecimal digits. -/
def hexValue? (a b c d : Char) : Option Nat := do
  let a ← hexDigit? a
  let b ← hexDigit? b
  let c ← hexDigit? c
  let d ← hexDigit? d
  return ((a * 16 + b) * 16 + c) * 16 + d

/-- Reads the four digits of an escape. With less than four bytes left the text ends too early. -/
def readHex : Reader Nat := fun s =>
  match s with
  | a :: b :: c :: d :: r =>
    match hexValue? a b c d with
    | some n => .ok (n, ⟨r, by simp only [List.length_cons]; omega⟩)
    | none => .error .invalidEscape
  | s => .error (if byteLength s < 4 then .endInString else .invalidEscape)

/-- Reads the second half of a surrogate pair, from the backslash on. -/
def readLowSurrogate (high : Nat) : Reader Char := fun s =>
  match s with
  | '\\' :: 'u' :: r =>
    match readHex r with
    | .error fault => .error fault
    | .ok (low, rest) =>
      if 0xDC00 ≤ low ∧ low ≤ 0xDFFF then
        .ok (Char.ofNat (0x10000 + (high - 0xD800) * 0x400 + (low - 0xDC00)),
          ⟨rest.1, by have := rest.2; simp only [List.length_cons]; omega⟩)
      else .error .loneSurrogate
  | [] => .error .endInString
  | ['\\'] => .error .endInString
  | _ => .error .unpairedSurrogate

/-- Reads a character given by its code, from the first digit on. -/
def readCode : Reader Char := fun s =>
  match readHex s with
  | .error fault => .error fault
  | .ok (n, rest) =>
    if 0xDC00 ≤ n ∧ n ≤ 0xDFFF then .error .loneSurrogate
    else if 0xD800 ≤ n ∧ n ≤ 0xDBFF then
      match readLowSurrogate n rest.1 with
      | .error fault => .error fault
      | .ok (c, rest') => .ok (c, ⟨rest'.1, Nat.lt_trans rest'.2 rest.2⟩)
    else .ok (Char.ofNat n, rest)

/-- The character that a one-letter escape stands for. -/
def shortEscape? : Char → Option Char
  | '"' => some '"'
  | '\\' => some '\\'
  | '/' => some '/'
  | 'b' => some '\x08'
  | 'f' => some '\x0c'
  | 'n' => some '\n'
  | 'r' => some '\r'
  | 't' => some '\t'
  | _ => none

/-- Reads an escape, from the character after the backslash on. -/
def readEscape : Reader Char := fun s =>
  match s with
  | [] => .error .endInString
  | c :: r =>
    if c = 'u' then
      match readCode r with
      | .error fault => .error fault
      | .ok (x, rest) => .ok (x, ⟨rest.1, Nat.lt_succ_of_lt rest.2⟩)
    else
      match shortEscape? c with
      | some x => .ok (x, ⟨r, Nat.lt_succ_self _⟩)
      | none => .error .invalidEscape

/-- Checks the form of an escape, from the character after the backslash on. -/
def skipEscape : Reader Unit := fun s =>
  match s with
  | [] => .error .endInString
  | c :: r =>
    if c = 'u' then
      match readHex r with
      | .error fault => .error fault
      | .ok (_, rest) => .ok ((), ⟨rest.1, Nat.lt_succ_of_lt rest.2⟩)
    else
      match shortEscape? c with
      | some _ => .ok ((), ⟨r, Nat.lt_succ_self _⟩)
      | none => .error .invalidEscape

/-- Reads on to the closing quotation mark; `escape` reads an escape, and what it reads is put
before the characters read so far. -/
def readQuotedFrom {α : Type} (escape : Reader α) (put : α → List Char → List Char)
    (start : List Char) (sofar : List Char) (s : List Char) (h : s.length ≤ start.length) :
    Except Fault (List Char × Rest start) :=
  match s with
  | [] => .error .endInString
  | c :: r =>
    if c = '"' then .ok (sofar, ⟨r, h⟩)
    else if c = '\\' then
      match escape r with
      | .error fault => .error fault
      | .ok (x, rest) =>
        readQuotedFrom escape put start (put x sofar) rest.1
          (by have := rest.2; simp only [List.length_cons] at h; omega)
    else if c.toNat < 0x20 then .error .controlCharacter
    else readQuotedFrom escape put start (c :: sofar) r (Nat.le_of_lt h)
termination_by s.length
decreasing_by
  · have := rest.2; simp only [List.length_cons]; omega
  · exact Nat.lt_succ_self _

/-- Reads the rest of a string, from the character after the opening quotation mark on. -/
def readString : Reader String := fun s =>
  match readQuotedFrom readEscape (· :: ·) s [] s (Nat.le_refl _) with
  | .error fault => .error fault
  | .ok (sofar, rest) => .ok (String.ofList sofar.reverse, rest)

/-- Skips the rest of a string. Escapes are checked for their form only. -/
def skipString : Reader Unit := fun s =>
  match readQuotedFrom skipEscape (fun _ sofar => sofar) s [] s (Nat.le_refl _) with
  | .error fault => .error fault
  | .ok (_, rest) => .ok ((), rest)

/-! ## Lists and objects -/

/-- What is wrong where a list should end. -/
def listEndFault (c : Char) (r : List Char) : Fault :=
  if c = ',' ∧ (skipBlanks r).head? = some ']' then .trailingComma else .trailingCharacters

/-- Reads elements to the closing bracket, folding a state over them. `element` gives the reader for
the next one, and none where the list has to end. -/
def readElementsFrom {σ : Type} (element : σ → Option (Reader σ)) (start : List Char) (first : Bool)
    (state : σ) (s : List Char) (h : s.length ≤ start.length) : Except Fault (σ × Rest start) :=
  match hs : skipBlanks s with
  | [] => .error .endInList
  | c :: r =>
    have hr : r.length < s.length := length_of_skipBlanks hs
    if c = ']' then .ok (state, ⟨r, Nat.lt_of_lt_of_le hr h⟩)
    else
      match element state with
      | none => .error (listEndFault c r)
      | some read =>
        if first then
          match read (c :: r) with
          | .error fault => .error fault
          | .ok (next, rest) =>
            readElementsFrom element start false next rest.1
              (by have := rest.2; simp only [List.length_cons] at this; omega)
        else if c = ',' then
          match skipBlanks r with
          | [] => .error .endInValue
          | ']' :: _ => .error .trailingComma
          | _ =>
            match read r with
            | .error fault => .error fault
            | .ok (next, rest) =>
              readElementsFrom element start false next rest.1 (by have := rest.2; omega)
        else .error .expectedListCommaOrEnd
termination_by s.length
decreasing_by
  · have := rest.2; simp only [List.length_cons] at this; omega
  · have := rest.2; omega

/-- Reads a list, from the character after the opening bracket on. -/
def readElements {σ : Type} (element : σ → Option (Reader σ)) (state : σ) : Reader σ := fun s =>
  readElementsFrom element s true state s (Nat.le_refl _)

/-- Reads a colon. -/
def readColon : Reader Unit := fun s =>
  match hs : skipBlanks s with
  | [] => .error .endInObject
  | c :: r => if c = ':' then .ok ((), ⟨r, length_of_skipBlanks hs⟩) else .error .expectedColon

/-- Reads a member from the character after the opening quotation mark of its key on. The key
decides, before the colon is read, which reader takes the value. -/
def readMember {σ : Type} (member : σ → String → Except Fault (Reader σ)) (state : σ) :
    Reader σ := fun s =>
  match readString s with
  | .error fault => .error fault
  | .ok (key, afterKey) =>
    match member state key with
    | .error fault => .error fault
    | .ok read =>
      match readColon afterKey.1 with
      | .error fault => .error fault
      | .ok (_, afterColon) =>
        match read afterColon.1 with
        | .error fault => .error fault
        | .ok (next, rest) =>
          .ok (next, ⟨rest.1, Nat.lt_trans rest.2 (Nat.lt_trans afterColon.2 afterKey.2)⟩)

/-- Reads members to the closing brace, folding a state over them. -/
def readMembersFrom {σ : Type} (member : σ → String → Except Fault (Reader σ)) (start : List Char)
    (first : Bool) (state : σ) (s : List Char) (h : s.length ≤ start.length) :
    Except Fault (σ × Rest start) :=
  match hs : skipBlanks s with
  | [] => .error .endInObject
  | c :: r =>
    have hr : r.length < s.length := length_of_skipBlanks hs
    if c = '}' then .ok (state, ⟨r, Nat.lt_of_lt_of_le hr h⟩)
    else if first then
      if c = '"' then
        match readMember member state r with
        | .error fault => .error fault
        | .ok (next, rest) =>
          readMembersFrom member start false next rest.1 (by have := rest.2; omega)
      else .error .keyNotString
    else if c = ',' then
      match hk : skipBlanks r with
      | [] => .error .endInValue
      | k :: rk =>
        have hrk : rk.length < r.length := length_of_skipBlanks hk
        if k = '"' then
          match readMember member state rk with
          | .error fault => .error fault
          | .ok (next, rest) =>
            readMembersFrom member start false next rest.1 (by have := rest.2; omega)
        else if k = '}' then .error .trailingComma
        else .error .keyNotString
    else .error .expectedObjectCommaOrEnd
termination_by s.length
decreasing_by
  · have := rest.2; omega
  · have := rest.2; omega

/-- Reads an object, from the character after the opening brace on. -/
def readMembers {σ : Type} (member : σ → String → Except Fault (Reader σ)) (state : σ) :
    Reader σ := fun s =>
  readMembersFrom member s true state s (Nat.le_refl _)

/-- Reads the remaining letters of a literal. -/
def readLiteral : (letters s : List Char) →
    Except Fault (Remainder s)
  | [], s => .ok ⟨s, Nat.le_refl _⟩
  | _ :: _, [] => .error .endInValue
  | l :: letters, c :: r =>
    if c = l then
      match readLiteral letters r with
      | .error fault => .error fault
      | .ok rest => .ok ⟨rest.1, Nat.le_succ_of_le rest.2⟩
    else .error .expectedLiteral

end HostRegistry.Json
