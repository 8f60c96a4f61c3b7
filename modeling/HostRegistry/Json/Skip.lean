import HostRegistry.Json.Numeral

/-!
Skipping a JSON value whose content does not matter.

The value is checked for its form only, and may be nested to any depth: the brackets that are still
open are kept on a stack. Every problem in a skipped number is the same fault, and surrogate
escapes are not paired.
-/

set_option autoImplicit false

namespace HostRegistry.Json
open Text (Rest Remainder isDigit)

/-- The two kinds of bracket. -/
inductive Bracket where
  | square
  | curly
  deriving DecidableEq

namespace Bracket

/-- The closing character. -/
def close : Bracket → Char
  | .square => ']'
  | .curly => '}'

/-- What is wrong where neither a comma nor the closing character follows a value. -/
def separatorFault : Bracket → Fault
  | .square => .expectedListCommaOrEnd
  | .curly => .expectedObjectCommaOrEnd

/-- What is wrong where the text ends between the brackets. -/
def endFault : Bracket → Fault
  | .square => .endInList
  | .curly => .endInObject

end Bracket

/-- Skips a number. -/
def skipNumber : Reader Unit := fun s =>
  match readNumeral s with
  | .error _ => .error .invalidNumber
  | .ok (_, rest) => .ok ((), rest)

/-- Skips a value without brackets. -/
def skipScalar : Reader Unit := fun s =>
  match s with
  | [] => .error .endInValue
  | c :: r =>
    let literal (letters : List Char) : Except Fault (Unit × Rest (c :: r)) :=
      match readLiteral letters r with
      | .error fault => .error fault
      | .ok rest => .ok ((), rest.behind c)
    if c = '"' then
      match skipString r with
      | .error fault => .error fault
      | .ok (_, rest) => .ok ((), rest.behind c)
    else if c = 'n' then literal ['u', 'l', 'l']
    else if c = 't' then literal ['r', 'u', 'e']
    else if c = 'f' then literal ['a', 'l', 's', 'e']
    else if c = '-' ∨ isDigit c = true then skipNumber (c :: r)
    else .error .expectedValue

/-- Skips the key and the colon that stand before a value in curly brackets. -/
def skipKey (bracket : Bracket) (s : List Char) :
    Except Fault (Remainder s) :=
  match bracket with
  | .square => .ok (.all s)
  | .curly =>
    match hs : skipBlanks s with
    | [] => .error .endInObject
    | c :: r =>
      if c = '"' then
        match skipString r with
        | .error fault => .error fault
        | .ok (_, afterKey) =>
          match readColon afterKey.1 with
          | .error fault => .error fault
          | .ok (_, rest) =>
            .ok ⟨rest.1, Nat.le_of_lt
              (Nat.lt_trans (afterKey.length_lt rest) (length_of_skipBlanks hs))⟩
      else .error .keyNotString

/-- The bracket that a character opens. -/
def opened? : Char → Option Bracket
  | '[' => some .square
  | '{' => some .curly
  | _ => none

/-- What a skip meets next: a value, or what follows one. -/
inductive Awaiting where
  | value
  | separator
  deriving DecidableEq

/-- Skips to the end of the outermost value. `stack` holds the open brackets, innermost first. -/
def skipFrom (start : List Char) (awaiting : Awaiting) (stack : List Bracket) (s : List Char)
    (h : s.length + (if awaiting = .value then 0 else 1) ≤ start.length) :
    Except Fault (Unit × Rest start) :=
  match awaiting with
  | .value =>
    match hs : skipBlanks s with
    | [] => .error .endInValue
    | c :: r =>
      have hr : r.length < s.length := length_of_skipBlanks hs
      have hle : s.length ≤ start.length := h
      match opened? c with
      | some bracket =>
        match ht : skipBlanks r with
        | [] => .error bracket.endFault
        | k :: rk =>
          have hrk : rk.length < r.length := length_of_skipBlanks ht
          if k = bracket.close then
            skipFrom start .separator stack rk (by simp only [reduceCtorEq, if_false]; omega)
          else
            match skipKey bracket r with
            | .error fault => .error fault
            | .ok rest =>
              skipFrom start .value (bracket :: stack) rest.1
                (by have := rest.2; simp only [if_true]; omega)
      | none =>
        match skipScalar (c :: r) with
        | .error fault => .error fault
        | .ok (_, rest) =>
          skipFrom start .separator stack rest.1 (by
            have := rest.2
            simp only [List.length_cons] at this
            simp only [reduceCtorEq, if_false]
            omega)
  | .separator =>
    match stack with
    | [] => .ok ((), ⟨s, h⟩)
    | bracket :: stack =>
      have hlt : s.length + 1 ≤ start.length := h
      match hs : skipBlanks s with
      | [] => .error bracket.endFault
      | c :: r =>
        have hr : r.length < s.length := length_of_skipBlanks hs
        if c = ',' then
          match skipKey bracket r with
          | .error fault => .error fault
          | .ok rest =>
            skipFrom start .value (bracket :: stack) rest.1
              (by have := rest.2; simp only [if_true]; omega)
        else if c = bracket.close then
          skipFrom start .separator stack r (by simp only [reduceCtorEq, if_false]; omega)
        else .error bracket.separatorFault
termination_by s.length
decreasing_by
  · omega
  · exact Nat.lt_of_le_of_lt rest.2 hr
  · exact Nat.lt_of_lt_of_le rest.2 hr
  · exact Nat.lt_of_le_of_lt rest.2 hr
  · exact hr

/-- Skips a value. -/
def skipValue : Reader Unit := fun s => skipFrom s .value [] s (Nat.le_refl _)

end HostRegistry.Json
