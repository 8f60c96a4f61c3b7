/-!
Writing JSON text.

`quote` writes a text and `block` a list or an object whose items are written already, either on one
line or with an item per line, indented by two blanks for each level.
-/

set_option autoImplicit false

namespace HostRegistry.Json

/-- How blocks are laid out. -/
inductive Style where
  | compact
  | pretty
  deriving DecidableEq

/-- A digit below sixteen, in lower case. -/
def hexDigit (n : Nat) : Char := Nat.digitChar n

/-- The written form of one character of a text. -/
def escape (c : Char) : List Char :=
  if c = '"' then ['\\', '"']
  else if c = '\\' then ['\\', '\\']
  else if c = '\x08' then ['\\', 'b']
  else if c = '\t' then ['\\', 't']
  else if c = '\n' then ['\\', 'n']
  else if c = '\x0c' then ['\\', 'f']
  else if c = '\r' then ['\\', 'r']
  else if c.toNat < 0x20 then
    ['\\', 'u', '0', '0', hexDigit (c.toNat / 16), hexDigit (c.toNat % 16)]
  else [c]

/-- The written form of a text. -/
def quote (text : String) : List Char := '"' :: text.toList.flatMap escape ++ ['"']

/-- What separates a key from its value. -/
def Style.colon : Style → List Char
  | .compact => [':']
  | .pretty => [':', ' ']

/-- A line break and the indentation of a level, if lines are broken. -/
def Style.break (level : Nat) : Style → List Char
  | .compact => []
  | .pretty => '\n' :: List.replicate (2 * level) ' '

/-- A member of an object. -/
def member (style : Style) (key : String) (value : List Char) : List Char :=
  quote key ++ style.colon ++ value

/-- The items after the first one, a comma before each, and the end of the block. -/
def blockTail (style : Style) (level : Nat) (close : Char) : List (List Char) → List Char
  | [] => style.break level ++ [close]
  | item :: rest => ',' :: style.break (level + 1) ++ item ++ blockTail style level close rest

/-- A bracketed block at a level, with nothing between the brackets if there are no items. -/
def block (style : Style) (level : Nat) (first last : Char) : List (List Char) → List Char
  | [] => [first, last]
  | item :: rest => first :: style.break (level + 1) ++ item ++ blockTail style level last rest

/-- A list of written values. -/
def list (style : Style) (level : Nat) (items : List (List Char)) : List Char :=
  block style level '[' ']' items

/-- An object of written members. -/
def object (style : Style) (level : Nat) (members : List (List Char)) : List Char :=
  block style level '{' '}' members

/-- A list of texts. -/
def texts (style : Style) (level : Nat) (items : List String) : List Char :=
  list style level (items.map quote)

/-- An object of named texts. -/
def textMembers (style : Style) (level : Nat) (entries : List (String × String)) : List Char :=
  object style level (entries.map fun e => member style e.1 (quote e.2))

end HostRegistry.Json
