import HostRegistry.Toml.Quoted

/-!
Numbers, dates and times. They are checked in full, and only their kind is kept.

Every scan here takes the longest scalar it can off the front of a text. What follows a value can
begin with none of the characters of a scalar, so a scalar that breaks off in the middle is refused
by whatever comes next.
-/

set_option autoImplicit false

namespace HostRegistry.Toml
open Text (Rest Remainder isDigit digitValue hexDigit?)

/-- Takes something off the front of a text, or refuses it. -/
abbrev Scan : Type := (s : List Char) → Option (Rest s)

/-- One scan after another. -/
def Scan.andThen (first second : Scan) : Scan := fun s =>
  match first s with
  | none => none
  | some rest =>
    match second rest.1 with
    | none => none
    | some rest' => some (rest.further rest')

/-- One scan, or another where it refuses. -/
def Scan.orElse (first second : Scan) : Scan := fun s =>
  match first s with
  | some rest => some rest
  | none => second s

/-- What a scan leaves, or the whole text where it refuses. -/
def Scan.optional (scan : Scan) (s : List Char) : Remainder s :=
  match scan s with
  | some rest => rest.remainder
  | none => .all s

/-- One scan, and another one after it if it can. -/
def Scan.thenMaybe (first second : Scan) : Scan := fun s =>
  match first s with
  | none => none
  | some rest =>
    some ⟨(second.optional rest.1).1, Nat.lt_of_le_of_lt (second.optional rest.1).2 rest.2⟩

/-- Takes a character with a property. -/
def scanChar (p : Char → Bool) : Scan := fun s =>
  match s with
  | c :: r => if p c then some (Rest.tail c r) else none
  | [] => none

/-- Takes given letters. -/
def scanWord : Char → List Char → Scan
  | c, [] => scanChar (· = c)
  | c, c' :: rest => (scanChar (· = c)).andThen (scanWord c' rest)

/-! ## Dates and times -/

/-- The days of a month. -/
def daysIn (year month : Nat) : Nat :=
  if month = 2 then (if year % 4 = 0 ∧ (year % 100 ≠ 0 ∨ year % 400 = 0) then 29 else 28)
  else if month = 4 ∨ month = 6 ∨ month = 9 ∨ month = 11 then 30
  else 31

/-- The number of decimal digits. -/
def decimal (digits : List Char) : Nat := Text.ofDigits 10 (digits.map digitValue)

/-- Takes a date: year, month and day. -/
def scanDate : Scan := fun s =>
  match s with
  | y₁ :: y₂ :: y₃ :: y₄ :: a :: m₁ :: m₂ :: b :: d₁ :: d₂ :: r =>
    let year := decimal [y₁, y₂, y₃, y₄]
    let month := decimal [m₁, m₂]
    let day := decimal [d₁, d₂]
    if [y₁, y₂, y₃, y₄, m₁, m₂, d₁, d₂].all isDigit ∧ a = '-' ∧ b = '-' ∧
        1 ≤ month ∧ month ≤ 12 ∧ 1 ≤ day ∧ day ≤ daysIn year month then
      some ⟨r, by simp only [List.length_cons]; omega⟩
    else none
  | _ => none

/-- Takes two digits whose number is at most a limit. -/
def scanTwoDigits (limit : Nat) : Scan := fun s =>
  match s with
  | a :: b :: r =>
    if isDigit a ∧ isDigit b ∧ decimal [a, b] ≤ limit then some ((Rest.tail b r).behind a) else none
  | _ => none

/-- Takes a digit and all that follow it. -/
def scanDigits : Scan := fun s =>
  match s with
  | c :: r =>
    if isDigit c then
      some ⟨r.dropWhile isDigit, Nat.lt_succ_of_le (Text.length_dropWhile_le _ r)⟩
    else none
  | [] => none

/-- Takes a colon. -/
def scanColon : Scan := scanChar (· = ':')

/-- Takes a time of day. -/
def scanTime : Scan :=
  ((scanTwoDigits 23).andThen <| scanColon.andThen <| (scanTwoDigits 59).andThen <|
    scanColon.andThen (scanTwoDigits 60)).thenMaybe
  ((scanChar (· = '.')).andThen scanDigits)

/-- Takes the distance from universal time. -/
def scanOffset : Scan :=
  (scanChar fun c => c = 'Z' || c = 'z').orElse <|
    (scanChar fun c => c = '+' || c = '-').andThen <|
      (scanTwoDigits 23).andThen <| scanColon.andThen (scanTwoDigits 59)

/-- Takes a date, a time, or both. -/
def scanDateTime : Scan :=
  (scanDate.thenMaybe <|
    (scanChar fun c => c = 'T' || c = 't' || c = ' ').andThen (scanTime.thenMaybe scanOffset)).orElse
    scanTime

/-! ## Numbers -/

/-- The digits at the front of a text, with single underscores between them left out. -/
def digitRun (p : Char → Bool) : List Char → List Char
  | [] => []
  | c :: r =>
    if p c then c :: digitRun p r
    else if c = '_' then
      match r with
      | d :: r' => if p d then d :: digitRun p r' else []
      | [] => []
    else []

/-- The text after the digits at its front. -/
def afterRun (p : Char → Bool) : (s : List Char) → Remainder s
  | [] => .all []
  | c :: r =>
    if p c then
      let rest := afterRun p r
      ⟨rest.1, Nat.le_succ_of_le rest.2⟩
    else if c = '_' then
      match r with
      | d :: r' =>
        if p d then
          let rest := afterRun p r'
          ⟨rest.1, Nat.le_succ_of_le (Nat.le_succ_of_le rest.2)⟩
        else .all (c :: d :: r')
      | [] => .all [c]
    else .all (c :: r)

/-- Reads digits of which the first is no underscore. -/
def readRun (p : Char → Bool) : Reader (List Char) := fun s =>
  match s with
  | c :: r =>
    if p c then some (c :: digitRun p r, (afterRun p r).behind c)
    else none
  | [] => none

/-- Whether a number starts with a minus sign, and the text after its sign. -/
def signOf : (s : List Char) → Bool × Remainder s
  | '+' :: r => (false, (Rest.tail '+' r).remainder)
  | '-' :: r => (true, (Rest.tail '-' r).remainder)
  | s => (false, .all s)

/-- Reads decimal digits without a leading zero. -/
def readDecimal : Reader (List Char) := fun s =>
  match s with
  | '0' :: r => some (['0'], Rest.tail '0' r)
  | s => readRun isDigit s

/-- The least number that rounds to infinity among doubles. -/
def infinityThreshold : Nat := Nat.pow 2 1024 - Nat.pow 2 970

/-- Whether digits times a power of ten round to infinity. -/
def roundsToInfinity (digits : List Char) (exponent : Int) : Bool :=
  let n := decimal digits
  let magnitude := ((digits.dropWhile (· = '0')).length : Int) + exponent
  if n = 0 ∨ magnitude < 300 then false
  else if 400 < magnitude then true
  else
    match exponent with
    | .ofNat e => infinityThreshold ≤ n * Nat.pow 10 e
    | .negSucc e => infinityThreshold * Nat.pow 10 (e + 1) ≤ n

/-- Reads an exponent if there is one. -/
def readExponent (s : List Char) : Option (Option Int × Remainder s) :=
  match s with
  | c :: r =>
    if c = 'e' ∨ c = 'E' then
      match readRun isDigit (signOf r).2.1 with
      | none => none
      | some (digits, rest) =>
        let magnitude : Int := decimal digits
        some (some (if (signOf r).1 then -magnitude else magnitude), ⟨rest.1, by
          have := rest.2
          have := (signOf r).2.2
          simp only [List.length_cons]
          omega⟩)
    else some (none, .all (c :: r))
  | [] => some (none, .all [])

/-- Reads the digits after a decimal point if there is one. -/
def readFraction (s : List Char) : Option (Option (List Char) × Remainder s) :=
  match s with
  | '.' :: r =>
    match readRun isDigit r with
    | none => none
    | some (digits, rest) => some (some digits, (rest.behind '.').remainder)
  | s => some (none, .all s)

/-- Takes infinity or no number, without a sign. -/
def scanSpecial : Scan := (scanWord 'i' ['n', 'f']).orElse (scanWord 'n' ['a', 'n'])

/-- Takes a number with a fraction or an exponent. Only negative ones may be too large. -/
def scanFloat : Scan := fun s =>
  match readDecimal (signOf s).2.1 with
  | none =>
    match scanSpecial (signOf s).2.1 with
    | some rest => some ⟨rest.1, Nat.lt_of_lt_of_le rest.2 (signOf s).2.2⟩
    | none => none
  | some (whole, afterWhole) =>
    match readFraction afterWhole.1 with
    | none => none
    | some (fraction, afterFraction) =>
      match readExponent afterFraction.1 with
      | none => none
      | some (exponent, rest) =>
        let places := fraction.getD []
        if fraction.isNone ∧ exponent.isNone then none
        else if (signOf s).1 = false ∧
            roundsToInfinity (whole ++ places) (exponent.getD 0 - places.length) then none
        else some ⟨rest.1, by
          have := rest.2
          have := afterFraction.2
          have := afterWhole.2
          have := (signOf s).2.2
          omega⟩

/-- Takes digits of a base after a zero and a letter; the number has to fit in 63 bits. -/
def scanBased (base : Nat) (s : List Char) : Option (Rest s) :=
  let inBase (c : Char) : Bool :=
    match hexDigit? c with
    | some d => d < base
    | none => false
  match readRun inBase s with
  | none => none
  | some (digits, rest) =>
    if Text.ofDigits base (digits.filterMap hexDigit?) < Nat.pow 2 63 then some rest else none

/-- Takes an integer in 64 bits. -/
def scanInteger : Scan := fun s =>
  match s with
  | '0' :: 'x' :: r => (scanBased 16 r).map fun rest => (rest.behind 'x').behind '0'
  | '0' :: 'o' :: r => (scanBased 8 r).map fun rest => (rest.behind 'o').behind '0'
  | '0' :: 'b' :: r => (scanBased 2 r).map fun rest => (rest.behind 'b').behind '0'
  | s =>
    match readDecimal (signOf s).2.1 with
    | none => none
    | some (digits, rest) =>
      if decimal digits < Nat.pow 2 63 ∨ ((signOf s).1 = true ∧ decimal digits = Nat.pow 2 63) then
        some ⟨rest.1, Nat.lt_of_lt_of_le rest.2 (signOf s).2.2⟩
      else none

end HostRegistry.Toml
