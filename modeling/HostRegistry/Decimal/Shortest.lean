/-!
The shortest decimal text that reads back as a binary floating point number.

A finite double is `m · 2^q` for naturals `m` and an integer `q`. The reals that round to it form an
interval, ends included exactly if `m` is even. `shortest` tries one digit, then two, and so on, and
takes the first decimal grid with a point in the interval; of two points the nearer one wins. All
comparisons are between natural numbers.
-/

set_option autoImplicit false

namespace HostRegistry.Decimal

/-- A non-negative fraction; the denominator of those built here is positive. -/
structure Fraction where
  num : Nat
  den : Nat

namespace Fraction

/-- `num · base ^ exponent`. -/
def scaled (num base : Nat) (exponent : Int) : Fraction :=
  match exponent with
  | .ofNat e => ⟨num * Nat.pow base e, 1⟩
  | .negSucc e => ⟨num, Nat.pow base (e + 1)⟩

/-- Whether the first fraction is at most the second. -/
def le (a b : Fraction) : Bool := a.num * b.den ≤ b.num * a.den

/-- Whether the first fraction is below the second. -/
def lt (a b : Fraction) : Bool := a.num * b.den < b.num * a.den

/-- The distance of two fractions. -/
def distance (a b : Fraction) : Fraction :=
  ⟨(a.num * b.den - b.num * a.den) + (b.num * a.den - a.num * b.den), a.den * b.den⟩

end Fraction

/-- The reals that round to one double. -/
structure Interval where
  low : Fraction
  high : Fraction
  closed : Bool

/-- Whether a fraction rounds to the double of the interval. -/
def Interval.contains (i : Interval) (x : Fraction) : Bool :=
  if i.closed then i.low.le x && x.le i.high else i.low.lt x && x.lt i.high

/-- Mantissa and binary exponent of a positive finite double, from its bits. -/
def binaryParts (bits : Nat) : Nat × Int :=
  let mantissa := bits % Nat.pow 2 52
  let exponent : Nat := bits / Nat.pow 2 52 % Nat.pow 2 11
  if exponent = 0 then (mantissa, -1074)
  else (mantissa + Nat.pow 2 52, Int.ofNat exponent - 1075)

/-- The interval of `m · 2^q`: half a unit up, and half a unit down or a quarter below a power of
two. -/
def Interval.around (m : Nat) (q : Int) : Interval :=
  { low := if m = Nat.pow 2 52 ∧ q > -1074 then .scaled (4 * m - 1) 2 (q - 2)
      else .scaled (2 * m - 1) 2 (q - 1)
    high := .scaled (2 * m + 1) 2 (q - 1)
    closed := m % 2 = 0 }

/-- The exponent of the leading decimal digit of a positive fraction, searched from `start` down. -/
def leadingExponent (x : Fraction) : Nat → Int → Int
  | 0, e => e
  | fuel + 1, e => if (Fraction.scaled 1 10 e).le x then e else leadingExponent x fuel (e - 1)

/-- A decimal `digits · 10^exponent`. -/
structure Point where
  digits : Nat
  exponent : Int

/-- The value of a decimal. -/
def Point.value (p : Point) : Fraction := .scaled p.digits 10 p.exponent

/-- The point of the grid `10^exponent` in the interval that is nearest to the value. -/
def nearestOnGrid (x : Fraction) (i : Interval) (exponent : Int) : Option Point :=
  let unit := Fraction.scaled 1 10 exponent
  let floor := x.num * unit.den / (x.den * unit.num)
  let below : Point := ⟨floor, exponent⟩
  let above : Point := ⟨floor + 1, exponent⟩
  match i.contains below.value, i.contains above.value with
  | true, true =>
    let down := below.value.distance x
    let up := above.value.distance x
    if down.lt up || (down.le up && floor % 2 == 0) then some below else some above
  | true, false => some below
  | false, true => some above
  | false, false => none

/-- The first grid, from `digits` digits on, that has a point in the interval. -/
def firstGrid (x : Fraction) (i : Interval) (leading : Int) : Nat → Nat → Point
  | 0, digits => ⟨x.num, leading - digits⟩
  | fuel + 1, digits =>
    match nearestOnGrid x i (leading - digits + 1) with
    | some p => p
    | none => firstGrid x i leading fuel (digits + 1)

/-- The shortest decimal of a positive finite double given by its bits. -/
def shortest (bits : Nat) : Point :=
  let (m, q) := binaryParts bits
  let x := Fraction.scaled m 2 q
  firstGrid x (.around m q) (leadingExponent x 700 309) 17 1

/-- How many zeros end a decimal number, out of at most so many digits. -/
def trailingZeros : Nat → Nat → Nat
  | 0, _ => 0
  | fuel + 1, n => if n ≠ 0 ∧ n % 10 = 0 then trailingZeros fuel (n / 10) + 1 else 0

/-- The text of a positive decimal: positional from `10^-5` to below `10^16`, with at least one
place, and otherwise with a signed exponent. -/
def Point.text (p : Point) : String :=
  let zeros := trailingZeros 20 p.digits
  let digits := (Nat.toDigits 10 (p.digits / Nat.pow 10 zeros))
  let exponent := p.exponent + zeros
  let point : Int := digits.length + exponent
  let body : List Char :=
    if 0 ≤ exponent ∧ point ≤ 16 then
      digits ++ List.replicate exponent.toNat '0' ++ ['.', '0']
    else if 0 < point ∧ point ≤ 16 then
      digits.take point.toNat ++ '.' :: digits.drop point.toNat
    else if -5 < point ∧ point ≤ 0 then
      ['0', '.'] ++ List.replicate (-point).toNat '0' ++ digits
    else
      let lead := match digits with
        | [] => []
        | [d] => [d]
        | d :: rest => d :: '.' :: rest
      let sign := if 0 < point then '+' else '-'
      lead ++ ['e', sign] ++ Nat.toDigits 10 (point - 1).natAbs
  String.ofList body

/-- The text of a double that is not infinite. -/
def text (x : Float) : String :=
  let bits := x.toBits.toNat
  let magnitude := bits % Nat.pow 2 63
  let sign := if bits / Nat.pow 2 63 = 1 then "-" else ""
  if magnitude = 0 then sign ++ "0.0" else sign ++ (shortest magnitude).text

end HostRegistry.Decimal
