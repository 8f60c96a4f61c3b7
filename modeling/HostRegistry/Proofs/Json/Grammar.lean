import HostRegistry.Proofs.Json.Written

/-!
The JSON texts that are legal, without a reader.

Each relation says of a text what it may look like: the spellings of a string, the form of a number,
the layout of a block with blanks wherever they are allowed, and values of any shape, nested to any
depth. A string whose content does not matter may hold halves of surrogate pairs, which no spelling
of a text does; this is the only difference between `Wellformed` and what is read into texts.
-/

set_option autoImplicit false

namespace HostRegistry.Json

/-! ## Strings -/

/-- Four hexadecimal digits and the number they stand for. -/
def Hex (w : List Char) (n : Nat) : Prop :=
  ∃ a b c d, w = [a, b, c, d] ∧ hexValue? a b c d = some n

/-- A character that stands for itself between quotation marks. -/
def Plain (c : Char) : Prop := c ≠ '"' ∧ c ≠ '\\' ∧ ¬ c.toNat < 0x20

/-- The first half of a surrogate pair. -/
def HighSurrogate (n : Nat) : Prop := 0xD800 ≤ n ∧ n ≤ 0xDBFF

/-- The second half of a surrogate pair. -/
def LowSurrogate (n : Nat) : Prop := 0xDC00 ≤ n ∧ n ≤ 0xDFFF

/-- What may follow a backslash, and the character it stands for. -/
inductive Escapes : List Char → Char → Prop
  | letter {l c : Char} (h : shortEscape? l = some c) : Escapes [l] c
  | code {w : List Char} {c : Char} (h : Hex w c.toNat) : Escapes ('u' :: w) c
  | pair {w w' : List Char} {high low : Nat} {c : Char} (hw : Hex w high) (hw' : Hex w' low)
      (hhigh : HighSurrogate high) (hlow : LowSurrogate low)
      (hc : c.toNat = 0x10000 + (high - 0xD800) * 0x400 + (low - 0xDC00)) :
      Escapes ('u' :: (w ++ '\\' :: 'u' :: w')) c

/-- What may follow a backslash where only the form counts. -/
inductive EscapeForm : List Char → Prop
  | letter {l c : Char} (h : shortEscape? l = some c) : EscapeForm [l]
  | code {w : List Char} {n : Nat} (h : Hex w n) : EscapeForm ('u' :: w)

/-- The spellings of characters between quotation marks. -/
inductive Spells : List Char → List Char → Prop
  | nil : Spells [] []
  | plain {c : Char} {w cs : List Char} (h : Plain c) (hw : Spells w cs) : Spells (c :: w) (c :: cs)
  | escape {e w cs : List Char} {c : Char} (h : Escapes e c) (hw : Spells w cs) :
      Spells ('\\' :: (e ++ w)) (c :: cs)

/-- What may stand between quotation marks where only the form counts. -/
inductive StringForm : List Char → Prop
  | nil : StringForm []
  | plain {c : Char} {w : List Char} (h : Plain c) (hw : StringForm w) : StringForm (c :: w)
  | escape {e w : List Char} (h : EscapeForm e) (hw : StringForm w) : StringForm ('\\' :: (e ++ w))

/-- A text stands between quotation marks, in any spelling. -/
def WritesText (w : List Char) (text : String) : Prop :=
  ∃ u, Spells u text.toList ∧ w = '"' :: (u ++ ['"'])

/-- A string of which only the form counts. -/
def WritesString (w : List Char) : Prop := ∃ u, StringForm u ∧ w = '"' :: (u ++ ['"'])

/-! ## Numbers -/

/-- One or more digits. -/
def Digits (w : List Char) : Prop := w ≠ [] ∧ ∀ c ∈ w, Text.isDigit c = true

/-- The digits of an integer: a zero in front is the only digit. -/
def Whole (w : List Char) : Prop := Digits w ∧ (w.head? = some '0' → w = ['0'])

/-- A fraction, or nothing. -/
def Fraction (w : List Char) : Prop := w = [] ∨ ∃ ds, Digits ds ∧ w = '.' :: ds

/-- An exponent, or nothing. -/
def Exponent (w : List Char) : Prop :=
  w = [] ∨ ∃ e sign ds, (e = 'e' ∨ e = 'E') ∧ (sign = [] ∨ sign = ['+'] ∨ sign = ['-']) ∧
    Digits ds ∧ w = e :: (sign ++ ds)

/-- A number. -/
def WritesNumber (w : List Char) : Prop :=
  ∃ sign whole fraction exponent, (sign = [] ∨ sign = ['-']) ∧ Whole whole ∧ Fraction fraction ∧
    Exponent exponent ∧ w = sign ++ (whole ++ (fraction ++ exponent))

/-- A natural number below `2^32`, in decimal. -/
def WritesNatural32 (w : List Char) (n : Nat) : Prop := n < 0x100000000 ∧ w = Nat.toDigits 10 n

/-! ## Blocks -/

/-- What follows an item in a block: further items, a comma before each, and the closing character,
with blanks in front of all of them. -/
def Further (close : Char) : List (List Char) → List Char → Prop
  | [], w => ∃ l, Blanks l ∧ w = l ++ [close]
  | item :: items, w =>
    ∃ l m t, Blanks l ∧ Blanks m ∧ Further close items t ∧ w = l ++ ',' :: (m ++ (item ++ t))

/-- Items between an opening and a closing character. -/
def Block (first last : Char) : List (List Char) → List Char → Prop
  | [], w => ∃ l, Blanks l ∧ w = first :: (l ++ [last])
  | item :: items, w => ∃ l t, Blanks l ∧ Further last items t ∧ w = first :: (l ++ (item ++ t))

/-- A colon with blanks around it. -/
def Colon (w : List Char) : Prop := ∃ l m, Blanks l ∧ Blanks m ∧ w = l ++ ':' :: m

/-- The parts of a member of an object. -/
structure Parts where
  key : List Char
  colon : List Char
  value : List Char

/-- The member that has the parts. -/
def Parts.text (p : Parts) : List Char := p.key ++ (p.colon ++ p.value)

/-- Values of which only the form counts. -/
inductive Wellformed : List Char → Prop
  | null : Wellformed ['n', 'u', 'l', 'l']
  | true : Wellformed ['t', 'r', 'u', 'e']
  | false : Wellformed ['f', 'a', 'l', 's', 'e']
  | number {w : List Char} (h : WritesNumber w) : Wellformed w
  | string {w : List Char} (h : WritesString w) : Wellformed w
  | list {items : List (List Char)} {w : List Char} (h : Block '[' ']' items w)
      (hitems : ∀ item ∈ items, Wellformed item) : Wellformed w
  | object {members : List Parts} {w : List Char} (h : Block '{' '}' (members.map Parts.text) w)
      (hkeys : ∀ p ∈ members, WritesString p.key) (hcolons : ∀ p ∈ members, Colon p.colon)
      (hvalues : ∀ p ∈ members, Wellformed p.value) : Wellformed w

/-! ## Texts, lists and objects -/

/-- A list of texts. -/
def WritesTexts (w : List Char) (texts : List String) : Prop :=
  ∃ items : List (String × List Char), Block '[' ']' (items.map (·.2)) w ∧
    (∀ i ∈ items, WritesText i.2 i.1) ∧ texts = items.map (·.1)

/-- An object that has members with these names and written values, in this order. -/
def WritesObject (w : List Char) (members : List (String × List Char)) : Prop :=
  ∃ parts : List (String × Parts), Block '{' '}' (parts.map (·.2.text)) w ∧
    (∀ p ∈ parts, WritesText p.2.key p.1 ∧ Colon p.2.colon) ∧
    members = parts.map fun p => (p.1, p.2.value)

/-- A map of texts. The value of a repeated key is the last one. -/
def WritesTextMap (w : List Char) (m : SortedMap String String) : Prop :=
  ∃ items : List (String × String × List Char), WritesObject w (items.map fun i => (i.1, i.2.2)) ∧
    (∀ i ∈ items, WritesText i.2.2 i.2.1) ∧
    ∀ key, m.find? key = SortedMap.lookup key (items.map fun i => (i.1, i.2.1)).reverse

end HostRegistry.Json
