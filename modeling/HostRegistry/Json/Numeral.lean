import HostRegistry.Decimal.Shortest
import HostRegistry.Json.Reader

/-!
JSON numbers: their written form, and the number it stands for.

`readNumeral` splits a number into its digits and `Numeral.value` evaluates them. A number without
fraction and exponent is an integer if it fits in 64 bits; every other one is a double, and so is
minus zero. A double is made from the leading digits that fit in 64 bits and a power of ten.
-/

set_option autoImplicit false

namespace HostRegistry.Json
open Text (Rest Remainder isDigit digitValue)

/-- The parts of a written number. -/
structure Numeral where
  negative : Bool
  whole : List Char
  fraction : List Char
  exponent : Option (Bool × List Char)

/-- A number by its kind. -/
inductive Number where
  | integer (value : Int)
  | floating (value : Float)

/-- The digits at the front of a text. -/
def digitsOf (s : List Char) : List Char := s.takeWhile isDigit

/-- The text after the digits at its front. -/
def afterDigits (s : List Char) : List Char := s.dropWhile isDigit

theorem length_afterDigits (s : List Char) : (afterDigits s).length ≤ s.length :=
  Text.length_dropWhile_le isDigit s

/-- Splits off the digits at the front; there has to be one. -/
def readDigits : Reader (List Char) := fun s =>
  match s with
  | [] => .error .endInValue
  | c :: r =>
    if isDigit c then
      .ok (c :: digitsOf r, ⟨afterDigits r, Nat.lt_succ_of_le (length_afterDigits r)⟩)
    else .error .invalidNumber

/-- Splits off digits that form an integer: a zero is not followed by a digit. -/
def readWhole : Reader (List Char) := fun s =>
  match s with
  | '0' :: c :: r =>
    if isDigit c then .error .invalidNumber
    else .ok (['0'], ⟨c :: r, Nat.lt_succ_self _⟩)
  | s => readDigits s

/-- Splits off a fraction if there is one. -/
def readFraction (s : List Char) :
    Except Fault (List Char × Remainder s) :=
  match s with
  | '.' :: r =>
    match readDigits r with
    | .error fault => .error fault
    | .ok (digits, rest) => .ok (digits, (rest.behind '.').remainder)
  | s => .ok ([], .all s)

/-- The sign in front of a text, positive if there is none, and the text after it. -/
def signOf : (s : List Char) → Bool × Remainder s
  | '+' :: r => (true, (Rest.tail '+' r).remainder)
  | '-' :: r => (false, (Rest.tail '-' r).remainder)
  | s => (true, .all s)

/-- Splits off an exponent if there is one; the flag says that it is not negative. -/
def readExponent (s : List Char) :
    Except Fault (Option (Bool × List Char) × Remainder s) :=
  match s with
  | [] => .ok (none, .all [])
  | c :: r =>
    if c = 'e' ∨ c = 'E' then
      match readDigits (signOf r).2.1 with
      | .error fault => .error fault
      | .ok (digits, rest) =>
        .ok (some ((signOf r).1, digits), ⟨rest.1, by
          have := rest.2
          have := (signOf r).2.2
          simp only [List.length_cons]
          omega⟩)
    else .ok (none, .all (c :: r))

/-- Splits off what follows the sign of a number. -/
def readMagnitude (negative : Bool) : Reader Numeral := fun s =>
  match readWhole s with
  | .error fault => .error fault
  | .ok (whole, afterWhole) =>
    match readFraction afterWhole.1 with
    | .error fault => .error fault
    | .ok (fraction, afterFraction) =>
      match readExponent afterFraction.1 with
      | .error fault => .error fault
      | .ok (exponent, rest) =>
        .ok (⟨negative, whole, fraction, exponent⟩,
          ⟨rest.1, Nat.lt_of_le_of_lt rest.2 (Nat.lt_of_le_of_lt afterFraction.2 afterWhole.2)⟩)

/-- Splits off a number. -/
def readNumeral : Reader Numeral := fun s =>
  match s with
  | '-' :: r =>
    match readMagnitude true r with
    | .error fault => .error fault
    | .ok (numeral, rest) => .ok (numeral, rest.behind '-')
  | s => readMagnitude false s

/-- Appends digits to a number as long as it stays at most `limit`; the second part is how many
digits are left over. -/
def appendDigits (limit : Nat) : Nat → List Char → Nat × Nat
  | n, [] => (n, 0)
  | n, d :: rest =>
    if n * 10 + digitValue d ≤ limit then appendDigits limit (n * 10 + digitValue d) rest
    else (n, rest.length + 1)

/-- A power of ten as a double. -/
def powerOfTen (exponent : Nat) : Float := Float.ofScientific 1 false exponent

/-- Divides by powers of ten while the exponent is below the smallest one. -/
def lowerTo308 : Nat → Float → Int → Float × Int
  | 0, x, e => (x, e)
  | fuel + 1, x, e =>
    if e < -308 ∧ x.toBits ≠ 0 then lowerTo308 fuel (x / powerOfTen 308) (e + 308) else (x, e)

/-- The double nearest to a product by a power of ten, as far as rounding twice allows; none if it
is too large. The quotient by `10^308` vanishes after three steps. -/
def scale (significand : Nat) (exponent : Int) : Option Float :=
  let (x, e) := lowerTo308 4 (Float.ofNat significand) exponent
  if x.toBits = 0 then some x
  else if e > 308 then none
  else if 0 ≤ e then
    let y := x * powerOfTen e.natAbs
    if y.isInf then none else some y
  else some (x / powerOfTen e.natAbs)

/-- The double of a number that is not an integer in 64 bits. -/
def Numeral.floating (n : Numeral) : Except Fault Float :=
  let (leading, dropped) := appendDigits (Nat.pow 2 64 - 1) 0 n.whole
  let (significand, unused) := appendDigits (Nat.pow 2 64 - 1) leading n.fraction
  let shift : Int := (dropped : Int) - ((n.fraction.length : Int) - (unused : Int))
  let sign (x : Float) : Float := if n.negative then -x else x
  match n.exponent with
  | none =>
    match scale significand shift with
    | some x => .ok (sign x)
    | none => .error .numberOutOfRange
  | some (up, digits) =>
    match appendDigits (Nat.pow 2 31 - 1) 0 digits with
    | (e, 0) =>
      match scale significand (if up then shift + e else shift - e) with
      | some x => .ok (sign x)
      | none => .error .numberOutOfRange
    | _ => if up ∧ significand ≠ 0 then .error .numberOutOfRange else .ok (sign 0)

/-- The number that a written form stands for. -/
def Numeral.value (n : Numeral) : Except Fault Number :=
  let magnitude := n.whole.foldl (fun acc d => acc * 10 + digitValue d) 0
  if n.fraction = [] ∧ n.exponent = none ∧
      (if n.negative then 0 < magnitude ∧ magnitude ≤ Nat.pow 2 63 else magnitude < Nat.pow 2 64) then
    .ok (.integer (if n.negative then -Int.ofNat magnitude else Int.ofNat magnitude))
  else n.floating.map .floating

/-- What a number is called where something else was expected. -/
def Number.found : Number → Found
  | .integer value => .integer value
  | .floating value => .floating (Decimal.text value)

/-- Reads a number. -/
def readNumber : Reader Number := fun s =>
  match readNumeral s with
  | .error fault => .error fault
  | .ok (numeral, rest) =>
    match numeral.value with
    | .error fault => .error fault
    | .ok number => .ok (number, rest)

end HostRegistry.Json
