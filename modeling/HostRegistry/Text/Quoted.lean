import HostRegistry.Text.Hidden

/-!
Text in quotation marks that stays on one line and shows every character.

Five characters have a short escape, a quotation mark and a backslash are escaped by a backslash,
and every other hidden character is written by its code point in braces. `quoted`, `quotedList` and
`quotedEntries` are the forms of a text, a list of texts and a list of named texts.
-/

set_option autoImplicit false

namespace HostRegistry.Text

/-- The written form of one character between quotation marks. -/
def escape (c : Char) : List Char :=
  if c = '\x00' then ['\\', '0']
  else if c = '\t' then ['\\', 't']
  else if c = '\r' then ['\\', 'r']
  else if c = '\n' then ['\\', 'n']
  else if c = '"' then ['\\', '"']
  else if c = '\\' then ['\\', '\\']
  else if hidden c then ['\\', 'u', '{'] ++ Nat.toDigits 16 c.toNat ++ ['}']
  else [c]

/-- The written form of a text, quotation marks included. -/
def quotedChars (cs : List Char) : List Char :=
  '"' :: cs.flatMap escape ++ ['"']

/-- Items with a comma and a space between neighbours. -/
def commaSeparated : List (List Char) → List Char
  | [] => []
  | [item] => item
  | item :: rest => item ++ [',', ' '] ++ commaSeparated rest

/-- A text in quotation marks. -/
def quoted (s : String) : String := String.ofList (quotedChars s.toList)

/-- A list of texts in square brackets. -/
def quotedList (items : List String) : List Char :=
  '[' :: commaSeparated (items.map fun s => quotedChars s.toList) ++ [']']

/-- Named texts in braces, each name before its text. -/
def quotedEntries (entries : List (String × String)) : List Char :=
  '{' :: commaSeparated
    (entries.map fun e => quotedChars e.1.toList ++ [':', ' '] ++ quotedChars e.2.toList) ++ ['}']

end HostRegistry.Text
