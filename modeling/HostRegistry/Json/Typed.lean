import HostRegistry.Json.Skip
import HostRegistry.SortedMap

/-!
Readers for values of a known shape: texts, lists and maps of texts, 32-bit naturals, and structs.

A struct is an object whose members are its fields, in any order, with other members skipped; or a
list of its fields in order, of which the last ones may be left out. Where a value has another shape
the fault names what was found, provided that it is itself well formed up to there.
-/

set_option autoImplicit false

namespace HostRegistry.Json
open Text (Rest isDigit)

/-- The fault of a literal that stands where another shape was expected. -/
def literalFault (expected : Shape) (found : Found) (letters r : List Char) : Fault :=
  match readLiteral letters r with
  | .error fault => fault
  | .ok _ => .invalidType found expected

/-- The fault of a value, without blanks before it, that is not of the expected shape. -/
def shapeFault (expected : Shape) (s : List Char) : Fault :=
  match s with
  | [] => .endInValue
  | c :: r =>
    if c = 'n' then literalFault expected .null ['u', 'l', 'l'] r
    else if c = 't' then literalFault expected (.boolean true) ['r', 'u', 'e'] r
    else if c = 'f' then literalFault expected (.boolean false) ['a', 'l', 's', 'e'] r
    else if c = '-' ∨ isDigit c = true then
      match readNumber (c :: r) with
      | .error fault => fault
      | .ok (number, _) => .invalidType number.found expected
    else if c = '"' then
      match readString r with
      | .error fault => fault
      | .ok (value, _) => .invalidType (.string value) expected
    else if c = '[' then .invalidType .sequence expected
    else if c = '{' then .invalidType .map expected
    else .expectedValue

/-- Reads a value that has to begin with a given character; `body` reads on after it. -/
def readAfter {α : Type} (first : Char) (expected : Shape) (body : Reader α) : Reader α := fun s =>
  match hs : skipBlanks s with
  | [] => .error .endInValue
  | c :: r =>
    if c = first then
      match body r with
      | .error fault => .error fault
      | .ok (value, rest) => .ok (value, ⟨rest.1, Nat.lt_trans rest.2 (length_of_skipBlanks hs)⟩)
    else .error (shapeFault expected (c :: r))

/-- Changes what a reader gives. -/
def Reader.map {α β : Type} (f : α → β) (read : Reader α) : Reader β := fun s =>
  match read s with
  | .error fault => .error fault
  | .ok (value, rest) => .ok (f value, rest)

/-- Reads a text. -/
def readText : Reader String := readAfter '"' .string readString

/-- Reads a list of texts. -/
def readTexts : Reader (List String) :=
  (readAfter '[' .sequence
    (readElements (fun sofar => some (readText.map (· :: sofar))) [])).map List.reverse

/-- Reads a map of texts; the last value of a repeated key counts. -/
def readTextMap : Reader (SortedMap String String) :=
  readAfter '{' .map
    (readMembers (fun sofar key => .ok (readText.map (sofar.insert key ·))) ∅)

/-- The natural below `2^32` that a number is. -/
def Number.natural32 : Number → Except Fault Nat
  | .integer value =>
    if 0 ≤ value ∧ value < 0x100000000 then .ok value.toNat
    else .error (.invalidValue (.integer value) .natural32)
  | .floating value => .error (.invalidType (Number.floating value).found .natural32)

/-- Reads a natural below `2^32`. -/
def readNatural32 : Reader Nat := fun s =>
  match hs : skipBlanks s with
  | [] => .error .endInValue
  | c :: r =>
    if c = '-' ∨ isDigit c = true then
      match readNumber (c :: r) with
      | .error fault => .error fault
      | .ok (number, rest) =>
        match number.natural32 with
        | .error fault => .error fault
        | .ok n => .ok (n, ⟨rest.1, by
            have := length_of_skipBlanks hs
            have := rest.2
            simp only [List.length_cons] at this
            omega⟩)
    else .error (shapeFault .natural32 (c :: r))

/-- A field of a struct that is read into a state. -/
structure Field (σ : Type) where
  name : String
  required : Bool
  present : σ → Bool
  read : σ → Reader σ

/-- The reader for the member with a key: a field that has not come yet, or anything to skip. -/
def memberReader {σ : Type} (fields : List (Field σ)) (state : σ) (key : String) :
    Except Fault (Reader σ) :=
  match fields.find? (·.name = key) with
  | some field =>
    if field.present state then .error (.duplicateField field.name) else .ok (field.read state)
  | none => .ok (skipValue.map fun _ => state)

/-- The reader for the next element, if a field is left. -/
def elementReader {σ : Type} : σ × List (Field σ) → Option (Reader (σ × List (Field σ)))
  | (_, []) => none
  | (state, field :: rest) => some ((field.read state).map fun next => (next, rest))

/-- The first required field that did not come, with its position. -/
def missing? {σ : Type} (state : σ) : List (Field σ) → Nat → Option (Nat × String)
  | [], _ => none
  | field :: rest, i =>
    if field.required ∧ field.present state = false then some (i, field.name)
    else missing? state rest (i + 1)

/-- Reads a struct into a state. -/
def readStruct {σ : Type} (name : String) (fields : List (Field σ)) (state : σ) : Reader σ := fun s =>
  let shape := Shape.struct name fields.length
  match hs : skipBlanks s with
  | [] => .error .endInValue
  | c :: r =>
    if c = '{' then
      match readMembers (memberReader fields) state r with
      | .error fault => .error fault
      | .ok (final, rest) =>
        match missing? final fields 0 with
        | some (_, field) => .error (.missingField field)
        | none => .ok (final, ⟨rest.1, Nat.lt_trans rest.2 (length_of_skipBlanks hs)⟩)
    else if c = '[' then
      match readElements elementReader (state, fields) r with
      | .error fault => .error fault
      | .ok ((final, _), rest) =>
        match missing? final fields 0 with
        | some (length, _) => .error (.invalidLength length shape)
        | none => .ok (final, ⟨rest.1, Nat.lt_trans rest.2 (length_of_skipBlanks hs)⟩)
    else .error (shapeFault shape (c :: r))

/-- Reads a whole text: nothing but blanks may follow the value. -/
def readAll {α : Type} (read : Reader α) (text : String) : Except Fault α :=
  match read text.toList with
  | .error fault => .error fault
  | .ok (value, rest) =>
    match skipBlanks rest.1 with
    | [] => .ok value
    | _ => .error .trailingCharacters

end HostRegistry.Json
