/-!
Moments as texts: the date and the time of day in universal time.
-/

set_option autoImplicit false

namespace HostRegistry.Terminal

/-- The year, month and day after so many days from the start of 1970. Years are counted from March
here, so that the day which only some years have is the last one. -/
def dateOfDays (days : Nat) : Nat × Nat × Nat :=
  let shifted := days + 719468
  let cycle := shifted / 146097
  let dayOfCycle := shifted % 146097
  let yearOfCycle :=
    (dayOfCycle - dayOfCycle / 1460 + dayOfCycle / 36524 - dayOfCycle / 146096) / 365
  let dayOfYear := dayOfCycle - (365 * yearOfCycle + yearOfCycle / 4 - yearOfCycle / 100)
  let monthFromMarch := (5 * dayOfYear + 2) / 153
  let day := dayOfYear - (153 * monthFromMarch + 2) / 5 + 1
  let month := if monthFromMarch < 10 then monthFromMarch + 3 else monthFromMarch - 9
  (400 * cycle + yearOfCycle + (if month ≤ 2 then 1 else 0), month, day)

/-- A number with zeros before it, up to a width. -/
def padded (width n : Nat) : String :=
  let digits := Nat.toDigits 10 n
  String.ofList (List.replicate (width - digits.length) '0' ++ digits)

/-- The text of the moment so many microseconds after the start of 1970. -/
def timestamp (microseconds : Nat) : String :=
  let seconds := microseconds / 1000000
  let (year, month, day) := dateOfDays (seconds / 86400)
  let minutes := seconds / 60
  padded 4 year ++ "-" ++ padded 2 month ++ "-" ++ padded 2 day ++ "T" ++
    padded 2 (minutes / 60 % 24) ++ ":" ++ padded 2 (minutes % 60) ++ ":" ++
    padded 2 (seconds % 60) ++ "." ++ padded 6 (microseconds % 1000000) ++ "Z"

end HostRegistry.Terminal
