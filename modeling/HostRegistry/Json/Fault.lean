import HostRegistry.Text.Quoted

/-!
What can be wrong with a JSON text, and how it is said.

A fault is one of three categories: the text ends too early, it is not well formed, or it is well
formed and holds something else than expected. `Fault.message` is the one place with the wording.
-/

set_option autoImplicit false

namespace HostRegistry.Json

/-- What a reader expects to find. -/
inductive Shape where
  | natural32
  | string
  | sequence
  | map
  | struct (name : String) (fields : Nat)
  deriving DecidableEq

/-- What a reader found instead. -/
inductive Found where
  | null
  | boolean (value : Bool)
  | integer (value : Int)
  | floating (text : String)
  | string (value : String)
  | sequence
  | map
  deriving DecidableEq

/-- Everything that can be wrong with a text. -/
inductive Fault where
  | endInValue
  | endInString
  | endInList
  | endInObject
  | expectedColon
  | expectedListCommaOrEnd
  | expectedObjectCommaOrEnd
  | expectedLiteral
  | expectedValue
  | invalidEscape
  | invalidNumber
  | numberOutOfRange
  | controlCharacter
  | keyNotString
  | loneSurrogate
  | unpairedSurrogate
  | trailingComma
  | trailingCharacters
  | invalidType (found : Found) (expected : Shape)
  | invalidValue (found : Found) (expected : Shape)
  | invalidLength (length : Nat) (expected : Shape)
  | missingField (name : String)
  | duplicateField (name : String)
  deriving DecidableEq

/-- The kinds of fault. -/
inductive Category where
  | early
  | form
  | content
  deriving DecidableEq

/-- The kind of a fault. -/
def Fault.category : Fault → Category
  | .endInValue | .endInString | .endInList | .endInObject => .early
  | .invalidType .. | .invalidValue .. | .invalidLength .. | .missingField _ | .duplicateField _ =>
    .content
  | _ => .form

/-- The words for what is expected. -/
def Shape.text : Shape → String
  | .natural32 => "u32"
  | .string => "a string"
  | .sequence => "a sequence"
  | .map => "a map"
  | .struct name _ => "struct " ++ name

/-- The words for an expected number of elements. -/
def Shape.lengthText : Shape → String
  | .struct name fields => "struct " ++ name ++ " with " ++ toString fields ++ " elements"
  | shape => shape.text

/-- The words for what was found. -/
def Found.text : Found → String
  | .null => "null"
  | .boolean true => "boolean `true`"
  | .boolean false => "boolean `false`"
  | .integer value => "integer `" ++ toString value ++ "`"
  | .floating text => "floating point `" ++ text ++ "`"
  | .string value => "string " ++ Text.quoted value
  | .sequence => "sequence"
  | .map => "map"

/-- The words for a fault, without the place: ` at line 1 column 5` and the like is left out. -/
def Fault.message : Fault → String
  | .endInValue => "EOF while parsing a value"
  | .endInString => "EOF while parsing a string"
  | .endInList => "EOF while parsing a list"
  | .endInObject => "EOF while parsing an object"
  | .expectedColon => "expected `:`"
  | .expectedListCommaOrEnd => "expected `,` or `]`"
  | .expectedObjectCommaOrEnd => "expected `,` or `\x7d`"
  | .expectedLiteral => "expected ident"
  | .expectedValue => "expected value"
  | .invalidEscape => "invalid escape"
  | .invalidNumber => "invalid number"
  | .numberOutOfRange => "number out of range"
  | .controlCharacter => "control character (\\u0000-\\u001F) found while parsing a string"
  | .keyNotString => "key must be a string"
  | .loneSurrogate => "lone leading surrogate in hex escape"
  | .unpairedSurrogate => "unexpected end of hex escape"
  | .trailingComma => "trailing comma"
  | .trailingCharacters => "trailing characters"
  | .invalidType found expected => "invalid type: " ++ found.text ++ ", expected " ++ expected.text
  | .invalidValue found expected => "invalid value: " ++ found.text ++ ", expected " ++ expected.text
  | .invalidLength length expected =>
    "invalid length " ++ toString length ++ ", expected " ++ expected.lengthText
  | .missingField name => "missing field `" ++ name ++ "`"
  | .duplicateField name => "duplicate field `" ++ name ++ "`"

end HostRegistry.Json
