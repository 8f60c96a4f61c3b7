import HostRegistry.Toml.Item
import HostRegistry.Toml.Scalar

/-!
Reading TOML text.

`readDocument` reads expressions, each on a line of its own: a key with its value, or a header that
says which table the following keys belong to. Values may be nested so deep and keys so long as
`nestingLimit` allows. The answer is the table of the whole text, or nothing where the text is no
TOML.
-/

set_option autoImplicit false

namespace HostRegistry.Toml
open Text (Rest Remainder isDigit)

/-- Keys of this many parts, and arrays and inline tables nested this deep, are refused. -/
def nestingLimit : Nat := 80

/-! ## Ends of lines -/

/-- The text after a comment, if it starts with one. -/
def skipComment (s : List Char) : Remainder s :=
  match s with
  | '#' :: r => ⟨r.dropWhile isPlain, Nat.le_succ_of_le (Text.length_dropWhile_le _ r)⟩
  | s => .all s

/-- The text after the end of a line, with blanks and a comment before it. -/
def lineEnd? (s : List Char) : Option (Remainder s) :=
  let rest := skipComment (skipBlanks s)
  have hle : rest.1.length ≤ s.length := Nat.le_trans rest.2 (length_skipBlanks s)
  match rest.1 with
  | [] => some ⟨[], Nat.zero_le _⟩
  | _ :: _ => (lineBreak? rest.1).map fun after => ⟨after.1, Nat.le_trans (Nat.le_of_lt after.2) hle⟩

/-- The text after blanks, line breaks and comments that end in a line break. -/
def skipLinesFrom (start s : List Char) (h : s.length ≤ start.length) : Option (Remainder start) :=
  match hs : skipBlanks s with
  | [] => some ⟨[], Nat.zero_le _⟩
  | c :: r =>
    have hle : r.length + 1 ≤ s.length := by
      have := length_skipBlanks s
      rw [hs] at this
      exact this
    if c = '#' ∨ c = '\n' ∨ c = '\r' then
      match lineBreak? (skipComment (c :: r)).1 with
      | none => none
      | some rest =>
        skipLinesFrom start rest.1
          (Nat.le_trans rest.length_le (Nat.le_trans (skipComment (c :: r)).2 (Nat.le_trans hle h)))
    else some ⟨c :: r, Nat.le_trans hle h⟩
termination_by s.length
decreasing_by exact Nat.lt_of_lt_of_le rest.2 (Nat.le_trans (skipComment (c :: r)).2 hle)

/-- The text after blanks, line breaks and comments. -/
def skipLines (s : List Char) : Option (Remainder s) := skipLinesFrom s s (Text.length_le_self s)

/-! ## Keys -/

/-- Whether a character may stand in a key without quotation marks. -/
def isBare (c : Char) : Bool :=
  ('A' ≤ c && c ≤ 'Z') || ('a' ≤ c && c ≤ 'z') || isDigit c || c = '-' || c = '_'

/-- Reads one part of a key. -/
def readKeyPart : Reader String := fun s =>
  match s with
  | [] => none
  | c :: r =>
    if c = '"' then readOneLine '"' true (c :: r)
    else if c = '\'' then readOneLine '\'' false (c :: r)
    else if isBare c then
      some (String.ofList (c :: r.takeWhile isBare),
        ⟨r.dropWhile isBare, Nat.lt_succ_of_le (Text.length_dropWhile_le _ r)⟩)
    else none

/-- Reads the parts of a key, with blanks around each. -/
def readKeyFrom (start : List Char) (sofar : List String) (s : List Char)
    (h : s.length ≤ start.length) : Option (List String × Rest start) :=
  match readKeyPart (skipBlanks s) with
  | none => none
  | some (part, rest) =>
    have hrest : rest.1.length < s.length := Nat.lt_of_lt_of_le rest.2 (length_skipBlanks s)
    match hs : skipBlanks rest.1 with
    | [] =>
      some ((part :: sofar).reverse, ⟨[], Nat.lt_of_le_of_lt (Nat.zero_le _) (Nat.lt_of_lt_of_le hrest h)⟩)
    | c :: r =>
      have hr : r.length + 1 ≤ rest.1.length := by
        have := length_skipBlanks rest.1
        rw [hs] at this
        exact this
      if c = '.' then readKeyFrom start (part :: sofar) r (by omega)
      else some ((part :: sofar).reverse, ⟨c :: r, by simp only [List.length_cons]; omega⟩)
termination_by s.length
decreasing_by omega

/-- Reads a key. -/
def readKey : Reader (List String) := fun s =>
  match readKeyFrom s [] s (Text.length_le_self s) with
  | none => none
  | some (parts, rest) => if parts.length < nestingLimit then some (parts, rest) else none

/-- Reads a key and the equals sign after it. -/
def readAssigned : Reader (List String) := fun s =>
  match readKey s with
  | none => none
  | some (parts, rest) =>
    match rest with
    | ⟨'=' :: r, hr⟩ => some (parts, ⟨r, Nat.lt_of_succ_lt hr⟩)
    | _ => none

/-! ## Values -/

/-- Reads the items of an array, from after the opening bracket or a comma on. -/
def readItemsFrom (value : Reader Item) (start : List Char) (sofar : List Item) (s : List Char)
    (h : s.length ≤ start.length) : Option (List Item × Rest start) :=
  match skipLines s with
  | none => none
  | some ⟨[], _⟩ => none
  | some ⟨c :: r, hr⟩ =>
    if c = ']' then some (sofar.reverse, ⟨r, Nat.lt_of_lt_of_le hr h⟩)
    else
      match value (c :: r) with
      | none => none
      | some (item, rest) =>
        have hrest : rest.1.length < s.length := Nat.lt_of_lt_of_le rest.2 hr
        match skipLines rest.1 with
        | none => none
        | some ⟨[], _⟩ => none
        | some ⟨c' :: r', hr'⟩ =>
          have hlt : r'.length < s.length := Nat.lt_trans (Nat.lt_of_succ_le hr') hrest
          if c' = ',' then readItemsFrom value start (item :: sofar) r' (by omega)
          else if c' = ']' then some ((item :: sofar).reverse, ⟨r', Nat.lt_of_lt_of_le hlt h⟩)
          else none
termination_by s.length
decreasing_by exact hlt

/-- Reads the members of an inline table, from after the opening brace or a comma on. -/
def readPairsFrom (value : Reader Item) (start : List Char) (sofar : Entries) (s : List Char)
    (h : s.length ≤ start.length) : Option (Entries × Rest start) :=
  match readAssigned s with
  | none => none
  | some (parts, afterKey) =>
    match value (skipBlanks afterKey.1) with
    | none => none
    | some (item, rest) =>
      have hrest : rest.1.length < s.length :=
        Nat.lt_of_lt_of_le rest.2 (Nat.le_trans (length_skipBlanks _) (Nat.le_of_lt afterKey.2))
      match sofar.addKey parts.dropLast (parts.getLast?.getD "") item with
      | none => none
      | some entries =>
        match hs : skipBlanks rest.1 with
        | [] => none
        | c :: r =>
          have hr : r.length + 1 ≤ rest.1.length := by
            have := length_skipBlanks rest.1
            rw [hs] at this
            exact this
          if c = ',' then readPairsFrom value start entries r (by omega)
          else if c = '}' then some (entries, ⟨r, by omega⟩)
          else none
termination_by s.length
decreasing_by omega

/-- Reads an array, from after the opening bracket on. -/
def readArray (value : Reader Item) : Reader Item := fun s =>
  (readItemsFrom value s [] s (Text.length_le_self s)).map fun p => (.array p.1, p.2)

/-- Reads an inline table, from after the opening brace on. -/
def readInline (value : Reader Item) : Reader Item := fun s =>
  match hs : skipBlanks s with
  | '}' :: r =>
    some (.inline [], ⟨r, by
      have := length_skipBlanks s
      rw [hs] at this
      exact this⟩)
  | _ => (readPairsFrom value s [] s (Text.length_le_self s)).map fun p => (.inline p.1, p.2)

/-- Reads a number, a date or a time. -/
def readScalar : Reader Item := fun s =>
  match scanDateTime s with
  | some rest => some (.dateTime, rest)
  | none =>
    match scanFloat s with
    | some rest => some (.number, rest)
    | none => (scanInteger s).map fun rest => (.number, rest)

/-- Reads a value in which arrays and inline tables may be nested so deep. -/
def readValue : Nat → Reader Item
  | depth, s =>
    match s with
    | [] => none
    | c :: r =>
      if c = '"' then (readMarked '"' true (c :: r)).map fun p => (.text p.1, p.2)
      else if c = '\'' then (readMarked '\'' false (c :: r)).map fun p => (.text p.1, p.2)
      else if c = '[' ∨ c = '{' then
        match depth with
        | 0 => none
        | depth + 1 =>
          ((if c = '[' then readArray else readInline) (readValue depth) r).map fun p =>
            (p.1, p.2.behind c)
      else if c = 't' then (scanWord 't' ['r', 'u', 'e'] (c :: r)).map fun rest => (.boolean, rest)
      else if c = 'f' then
        (scanWord 'f' ['a', 'l', 's', 'e'] (c :: r)).map fun rest => (.boolean, rest)
      else if c = 'i' ∨ c = 'n' then (scanSpecial (c :: r)).map fun rest => (.number, rest)
      else if c = '+' ∨ c = '-' ∨ isDigit c = true then readScalar (c :: r)
      else none

/-! ## Documents -/

/-- What was read so far: all entries, and the header that the next keys stand under. -/
structure Reading where
  entries : Entries
  header : List String

/-- Reads a header, from after its first bracket on. -/
def readHeader (state : Reading) (s : List Char) : Option (Reading × Rest s) :=
  match s with
  | '[' :: r =>
    match readKey r with
    | some (parts, ⟨']' :: ']' :: r', hr'⟩) =>
      (state.entries.openElement parts).map fun entries =>
        (⟨entries, parts⟩, ⟨r', by simp only [List.length_cons] at hr' ⊢; omega⟩)
    | _ => none
  | s =>
    match readKey s with
    | some (parts, ⟨']' :: r', hr'⟩) =>
      (state.entries.openTable parts).map fun entries =>
        (⟨entries, parts⟩, ⟨r', Nat.lt_of_succ_lt hr'⟩)
    | _ => none

/-- Reads a key and its value. -/
def readEntry (state : Reading) (s : List Char) : Option (Reading × Rest s) :=
  match readAssigned s with
  | none => none
  | some (parts, afterKey) =>
    match readValue (nestingLimit - 1) (skipBlanks afterKey.1) with
    | none => none
    | some (item, rest) =>
      (state.entries.addBelow state.header parts.dropLast (parts.getLast?.getD "") item).map
        fun entries =>
          ({ state with entries := entries }, ⟨rest.1, Nat.lt_trans
            (Nat.lt_of_lt_of_le rest.2 (length_skipBlanks _)) afterKey.2⟩)

/-- Reads expressions to the end of the text. -/
def readExpressions (state : Reading) (s : List Char) : Option Entries :=
  match hs : skipBlanks s with
  | [] => some state.entries
  | c :: r =>
    have hr : r.length + 1 ≤ s.length := by
      have := length_skipBlanks s
      rw [hs] at this
      exact this
    if c = '#' then
      match lineEnd? (r.dropWhile isPlain) with
      | none => none
      | some rest => readExpressions state rest.1
    else if c = '\n' ∨ c = '\r' then
      match lineBreak? (c :: r) with
      | none => none
      | some rest => readExpressions state rest.1
    else
      match (if c = '[' then
          (readHeader state r).map fun p =>
            (p.1, p.2.behind c)
        else readEntry state (c :: r)) with
      | none => none
      | some (next, rest) =>
        match lineEnd? rest.1 with
        | none => none
        | some after => readExpressions next after.1
termination_by s.length
decreasing_by
  · have := rest.2
    have := Text.length_dropWhile_le isPlain r
    omega
  · have := rest.2; simp only [List.length_cons] at this; omega
  · have := rest.2
    have := after.2
    simp only [List.length_cons] at *
    omega

/-- The text without a byte order mark at its front. -/
def dropByteOrderMark : List Char → List Char
  | c :: r => if c = '\uFEFF' then r else c :: r
  | [] => []

/-- Reads a whole text; none if it is no TOML. -/
def readDocument (text : String) : Option Entries :=
  readExpressions ⟨[], []⟩ (dropByteOrderMark text.toList)

end HostRegistry.Toml
