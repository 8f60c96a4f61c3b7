import HostRegistry.Text.Rest

/-!
Texts in quotation marks: reading the four forms, and writing the most readable one.

A basic text has escapes and a literal one has none; three quotation marks instead of one let it run
over several lines and hold single marks. `write` takes the first form that can hold the text as it
is, and escapes only where none can.
-/

set_option autoImplicit false

namespace HostRegistry.Toml
open Text (Rest Remainder hexDigit?)

/-- Reads a value off the front of a text, or refuses it. -/
abbrev Reader (α : Type) : Type := (s : List Char) → Option (α × Rest s)

/-- Whether a character may stand for itself: a tab, or anything that is no ASCII control. -/
def isPlain (c : Char) : Bool := c = '\t' || (0x20 ≤ c.toNat && c.toNat ≠ 0x7F)

/-- Whether a character is a blank within a line. -/
def isBlank (c : Char) : Bool := c = ' ' || c = '\t'

/-- The text from its first character that is no blank. -/
def skipBlanks (s : List Char) : List Char := s.dropWhile isBlank

theorem length_skipBlanks (s : List Char) : (skipBlanks s).length ≤ s.length :=
  Text.length_dropWhile_le isBlank s

/-- The text after the line break at its front. -/
def lineBreak? : (s : List Char) → Option (Rest s)
  | '\n' :: r => some (Rest.tail '\n' r)
  | '\r' :: '\n' :: r => some ((Rest.tail '\n' r).behind '\r')
  | _ => none

/-- The text without a line break at its front. -/
def dropLineBreak (s : List Char) : Remainder s :=
  match lineBreak? s with
  | some rest => rest.remainder
  | none => .all s

/-- The text from its first character that is neither blank nor line break. -/
def skipBlankLines : List Char → List Char
  | ' ' :: r => skipBlankLines r
  | '\t' :: r => skipBlankLines r
  | '\n' :: r => skipBlankLines r
  | '\r' :: '\n' :: r => skipBlankLines r
  | s => s

theorem length_skipBlankLines (s : List Char) : (skipBlankLines s).length ≤ s.length := by
  fun_induction skipBlankLines s with
  | case1 r ih => exact Nat.le_succ_of_le ih
  | case2 r ih => exact Nat.le_succ_of_le ih
  | case3 r ih => exact Nat.le_succ_of_le ih
  | case4 r ih => exact Nat.le_succ_of_le (Nat.le_succ_of_le ih)
  | case5 s => exact Nat.le_refl _

/-! ## Escapes -/

/-- The character that a one-letter escape stands for. -/
def shortEscape? : Char → Option Char
  | 'b' => some '\x08'
  | 't' => some '\t'
  | 'n' => some '\n'
  | 'f' => some '\x0c'
  | 'r' => some '\r'
  | '"' => some '"'
  | '\\' => some '\\'
  | _ => none

/-- The character with a code, unless the code belongs to none. -/
def character? (code : Nat) : Option Char :=
  if Nat.isValidChar code then some (Char.ofNat code) else none

/-- Reads a character given by so many hexadecimal digits. -/
def readCode (digits : Nat) (hpos : 0 < digits) : Reader Char := fun s =>
  if h : digits ≤ s.length then
    match (s.take digits).mapM hexDigit? with
    | none => none
    | some values =>
      (character? (Text.ofDigits 16 values)).map fun c =>
        (c, ⟨s.drop digits, by rw [List.length_drop]; omega⟩)
  else none

/-- Reads an escape, from the character after the backslash on. -/
def readEscape : Reader Char := fun s =>
  match s with
  | [] => none
  | c :: r =>
    if c = 'u' then
      (readCode 4 (by decide) r).map fun p => (p.1, p.2.behind c)
    else if c = 'U' then
      (readCode 8 (by decide) r).map fun p => (p.1, p.2.behind c)
    else (shortEscape? c).map fun x => (x, Rest.tail c r)

/-! ## The four forms -/

/-- Reads on to the closing mark of a text on one line. -/
def readLineFrom (mark : Char) (escapes : Bool) (start sofar s : List Char)
    (h : s.length ≤ start.length) : Option (String × Rest start) :=
  match s with
  | [] => none
  | c :: r =>
    if c = mark then some (String.ofList sofar.reverse, ⟨r, h⟩)
    else if escapes = true ∧ c = '\\' then
      match readEscape r with
      | none => none
      | some (x, rest) =>
        readLineFrom mark escapes start (x :: sofar) rest.1
          (by have := rest.2; simp only [List.length_cons] at h; omega)
    else if isPlain c then readLineFrom mark escapes start (c :: sofar) r (Nat.le_of_lt h)
    else none
termination_by s.length
decreasing_by
  · have := rest.2; simp only [List.length_cons]; omega
  · exact Nat.lt_succ_self _

/-- The text after a backslash that ends a line, with all blanks and line breaks after it. -/
def continued? (s : List Char) : Option (Remainder s) :=
  match lineBreak? (skipBlanks s) with
  | none => none
  | some rest => some ⟨skipBlankLines rest.1, by
      have := length_skipBlankLines rest.1
      have := rest.2
      have := length_skipBlanks s
      omega⟩

/-- Reads on to the closing marks of a text on several lines. Up to two marks may stand before the
closing ones. -/
def readLinesFrom (mark : Char) (escapes : Bool) (start sofar s : List Char)
    (h : s.length ≤ start.length) : Option (String × Rest start) :=
  match s with
  | [] => none
  | c :: r =>
    if c = mark then
      match r with
      | c₂ :: c₃ :: r₃ =>
        if c₂ = mark ∧ c₃ = mark then
          match r₃ with
          | c₄ :: c₅ :: r₅ =>
            if c₄ = mark ∧ c₅ = mark then
              some (String.ofList (mark :: mark :: sofar).reverse,
                ⟨r₅, by simp only [List.length_cons] at h; omega⟩)
            else if c₄ = mark then
              some (String.ofList (mark :: sofar).reverse,
                ⟨c₅ :: r₅, by simp only [List.length_cons] at h ⊢; omega⟩)
            else
              some (String.ofList sofar.reverse,
                ⟨c₄ :: c₅ :: r₅, by simp only [List.length_cons] at h ⊢; omega⟩)
          | [c₄] =>
            if c₄ = mark then
              some (String.ofList (mark :: sofar).reverse,
                ⟨[], by simp only [List.length_cons, List.length_nil] at h ⊢; omega⟩)
            else
              some (String.ofList sofar.reverse,
                ⟨[c₄], by simp only [List.length_cons, List.length_nil] at h ⊢; omega⟩)
          | [] =>
            some (String.ofList sofar.reverse,
              ⟨[], by simp only [List.length_cons, List.length_nil] at h ⊢; omega⟩)
        else readLinesFrom mark escapes start (mark :: sofar) (c₂ :: c₃ :: r₃) (Nat.le_of_lt h)
      | r => readLinesFrom mark escapes start (mark :: sofar) r (Nat.le_of_lt h)
    else if escapes = true ∧ c = '\\' then
      match continued? r with
      | some rest =>
        readLinesFrom mark escapes start sofar rest.1
          (by have := rest.2; simp only [List.length_cons] at h; omega)
      | none =>
        match readEscape r with
        | none => none
        | some (x, rest) =>
          readLinesFrom mark escapes start (x :: sofar) rest.1
            (by have := rest.2; simp only [List.length_cons] at h; omega)
    else
      match lineBreak? (c :: r) with
      | some rest =>
        readLinesFrom mark escapes start ('\n' :: sofar) rest.1
          (by have := rest.2; omega)
      | none =>
        if isPlain c then readLinesFrom mark escapes start (c :: sofar) r (Nat.le_of_lt h) else none
termination_by s.length
decreasing_by
  · exact Nat.lt_succ_self _
  · exact Nat.lt_succ_self _
  · exact Nat.lt_succ_of_le rest.2
  · exact Nat.lt_succ_of_lt rest.2
  · exact rest.2
  · exact Nat.lt_succ_self _

/-- Reads a text on one line or several, from its opening mark on. -/
def readMarked (mark : Char) (escapes : Bool) : Reader String := fun s =>
  match s with
  | c :: r =>
    if c = mark then
      match r with
      | c₂ :: c₃ :: r₃ =>
        if c₂ = mark ∧ c₃ = mark then
          readLinesFrom mark escapes _ [] (dropLineBreak r₃).1
            (by have := (dropLineBreak r₃).2; simp only [List.length_cons]; omega)
        else
          readLineFrom mark escapes _ [] (c₂ :: c₃ :: r₃)
            (by simp only [List.length_cons]; omega)
      | r => readLineFrom mark escapes _ [] r (Text.length_le_cons c r)
    else none
  | [] => none

/-- Reads a text on one line, from its opening mark on. -/
def readOneLine (mark : Char) (escapes : Bool) : Reader String := fun s =>
  match s with
  | c :: r => if c = mark then readLineFrom mark escapes _ [] r (Text.length_le_cons c r) else none
  | [] => none

/-! ## Writing -/

/-- A digit below sixteen, in upper case. -/
def upperHexDigit (n : Nat) : Char := (Nat.digitChar n).toUpper

/-- The written form of one character of a basic text. -/
def escape (c : Char) : List Char :=
  if c = '\x08' then ['\\', 'b']
  else if c = '\t' then ['\\', 't']
  else if c = '\n' then ['\\', 'n']
  else if c = '\x0c' then ['\\', 'f']
  else if c = '\r' then ['\\', 'r']
  else if c = '"' then ['\\', '"']
  else if c = '\\' then ['\\', '\\']
  else if c.toNat < 0x20 ∨ c.toNat = 0x7F then
    ['\\', 'u', '0', '0', upperHexDigit (c.toNat / 16), upperHexDigit (c.toNat % 16)]
  else [c]

/-- The written form of a basic text that may have several lines, after so many quotes in a row.
Two quotes may follow one another there, but not three. -/
def escapeLines (quotes : Nat) : List Char → List Char
  | [] => []
  | c :: r =>
    if c = '"' then
      if quotes = 2 then '\\' :: '"' :: escapeLines 0 r else '"' :: escapeLines (quotes + 1) r
    else if c = '\n' then '\n' :: escapeLines 0 r
    else escape c ++ escapeLines 0 r

/-- Whether a mark stands three times in a row. -/
def hasTriple (mark : Char) : List Char → Bool
  | a :: b :: c :: r => (a = mark && b = mark && c = mark) || hasTriple mark (b :: c :: r)
  | _ => false

/-- The forms in which a text can be written. -/
inductive Form where
  | basic
  | literal
  | basicLines
  | literalLines
  deriving DecidableEq

/-- The form in which a text is written: the first one that can hold it without an escape, or else a
basic one. -/
def formOf (cs : List Char) : Form :=
  let isPrintable := cs.all fun c => isPlain c || c = '\n'
  if isPrintable && cs.all fun c => c ≠ '\\' && c ≠ '"' && c ≠ '\n' then .basic
  else if isPrintable && cs.all fun c => c ≠ '\'' && c ≠ '\n' then .literal
  else if isPrintable && !cs.contains '\\' && !hasTriple '"' cs then .basicLines
  else if isPrintable && !hasTriple '\'' cs then .literalLines
  else if cs.contains '\n' then .basicLines
  else .basic

/-- The line break after the opening marks of a text that has one itself. -/
def openingBreak (cs : List Char) : List Char := if cs.contains '\n' then ['\n'] else []

/-- The written form of a text. -/
def write (text : String) : List Char :=
  let cs := text.toList
  match formOf cs with
  | .basic => '"' :: cs.flatMap escape ++ ['"']
  | .literal => '\'' :: cs ++ ['\'']
  | .basicLines => ['"', '"', '"'] ++ openingBreak cs ++ escapeLines 0 cs ++ ['"', '"', '"']
  | .literalLines => ['\'', '\'', '\''] ++ openingBreak cs ++ cs ++ ['\'', '\'', '\'']

end HostRegistry.Toml
