import HostRegistry.Json.Skip
import HostRegistry.Proofs.Json.Exact
import HostRegistry.Proofs.Json.Numbers

/-!
Skipping takes exactly the well-formed values, nested to any depth.

While it runs, what is left to skip is what closes the brackets on the stack, which `Closes` says.
-/

set_option autoImplicit false

namespace HostRegistry.Json
open Text (Rest Remainder isDigit)

/-! ## Values without brackets -/

theorem readLiteral_iff {letters s rest : List Char} :
    (∃ h, readLiteral letters s = .ok ⟨rest, h⟩) ↔ s = letters ++ rest := by
  induction letters generalizing s with
  | nil =>
    constructor
    · rintro ⟨h, hread⟩
      cases hread
      rfl
    · rintro rfl
      exact ⟨Nat.le_refl _, rfl⟩
  | cons l letters ih =>
    cases s with
    | nil => exact ⟨fun ⟨_, hread⟩ => (by cases hread), fun h => by cases h⟩
    | cons c r =>
      constructor
      · rintro ⟨h, hread⟩
        unfold readLiteral at hread
        split at hread
        next hc =>
          split at hread
          next => cases hread
          next mid hmid =>
            cases hread
            subst hc
            exact congrArg _ (ih.mp ⟨mid.2, hmid⟩)
        next => cases hread
      · intro h
        obtain ⟨rfl, hr⟩ := List.cons.inj h
        obtain ⟨hle, hread⟩ := ih.mpr hr
        exact ⟨Nat.le_succ_of_le hle, by simp only [readLiteral, if_true, hread]⟩

theorem takes_skipNumber_iff {s rest : List Char} {x : Unit} :
    Takes skipNumber s x rest ↔ ∃ n, Takes readNumeral s n rest := by
  constructor
  · rintro ⟨hlt, hread⟩
    unfold skipNumber at hread
    split at hread
    next => cases hread
    next n mid hmid =>
      cases hread
      exact ⟨n, _, hmid⟩
  · rintro ⟨n, hlt, hread⟩
    exact ⟨hlt, by simp only [skipNumber, hread]⟩

/-- What is skipped without looking into brackets is a value. -/
theorem wellformed_of_skipScalar {s rest : List Char} {x : Unit} (h : Takes skipScalar s x rest) :
    ∃ w, Wellformed w ∧ s = w ++ rest := by
  obtain ⟨hlt, hread⟩ := h
  unfold skipScalar at hread
  split at hread
  next => cases hread
  next c r =>
    dsimp only at hread
    have literal : ∀ {letters : List Char} {mid : Remainder r},
        readLiteral letters r = .ok mid → c :: r = (c :: letters) ++ mid.1 :=
      fun {_ mid} hmid => congrArg _ (readLiteral_iff.mp ⟨mid.2, hmid⟩)
    split at hread
    next hc =>
      split at hread
      next => cases hread
      next y mid hmid =>
        cases hread
        obtain ⟨u, hu, hr⟩ := takes_skipString_iff.mp ⟨mid.2, hmid⟩
        refine ⟨_, .string ⟨u, hu, rfl⟩, ?_⟩
        rw [hc, List.cons_append, List.append_assoc]
        exact congrArg _ hr
    split at hread
    next hc =>
      split at hread
      next => cases hread
      next mid hmid =>
        cases hread
        exact ⟨_, .null, hc ▸ literal hmid⟩
    split at hread
    next hc =>
      split at hread
      next => cases hread
      next mid hmid =>
        cases hread
        exact ⟨_, .true, hc ▸ literal hmid⟩
    split at hread
    next hc =>
      split at hread
      next => cases hread
      next mid hmid =>
        cases hread
        exact ⟨_, .false, hc ▸ literal hmid⟩
    split at hread
    next =>
      obtain ⟨n, hn⟩ := takes_skipNumber_iff.mp ⟨hlt, hread⟩
      obtain ⟨w, hw, hs, -⟩ := writesNumber_of_takes hn
      exact ⟨w, .number hw, hs⟩
    next => cases hread

theorem takes_skipScalar_literal {c : Char} {letters : List Char} (rest : List Char)
    (h : ('n', ['u', 'l', 'l']) = (c, letters) ∨ ('t', ['r', 'u', 'e']) = (c, letters) ∨
      ('f', ['a', 'l', 's', 'e']) = (c, letters)) :
    Takes skipScalar (c :: (letters ++ rest)) () rest := by
  obtain ⟨hle, hread⟩ := readLiteral_iff.mpr (rfl : letters ++ rest = letters ++ rest)
  refine ⟨Nat.lt_succ_of_le hle, ?_⟩
  rcases h with h | h | h
  all_goals
    obtain ⟨rfl, rfl⟩ := Prod.mk.inj h
    simp only [skipScalar, Char.reduceEq, if_false, if_true, hread]
    rfl

theorem WritesString.takes_skipScalar {w : List Char} (hw : WritesString w) (rest : List Char) :
    Takes skipScalar (w ++ rest) () rest := by
  obtain ⟨u, hu, rfl⟩ := hw
  obtain ⟨hlt, hread⟩ := takes_skipString_iff (x := ()).mpr
    ⟨u, hu, (rfl : u ++ '"' :: rest = u ++ '"' :: rest)⟩
  rw [List.cons_append, List.append_assoc]
  refine ⟨Nat.lt_succ_of_lt hlt, ?_⟩
  simp only [skipScalar, if_true, List.singleton_append, hread]
  rfl

theorem WritesNumber.exists_cons {w : List Char} (hw : WritesNumber w) :
    ∃ c u, w = c :: u ∧ (c = '-' ∨ isDigit c = true) := by
  obtain ⟨sign, whole, fraction, exponent, rfl | rfl, hwhole, -, -, rfl⟩ := hw
  · obtain ⟨c, r, rfl, hc⟩ := hwhole.exists_cons
    exact ⟨c, _, rfl, Or.inr hc⟩
  · exact ⟨'-', _, rfl, Or.inl rfl⟩

theorem not_special_of_numeric {c : Char} (hc : c = '-' ∨ isDigit c = true) {d : Char}
    (hd : d ≠ '-' ∧ isDigit d = false) : c ≠ d := by
  rintro rfl
  rcases hc with rfl | hc
  · exact hd.1 rfl
  · rw [hd.2] at hc
    cases hc

theorem WritesNumber.takes_skipScalar {w rest : List Char} (hw : WritesNumber w)
    (hrest : Apart rest) : Takes skipScalar (w ++ rest) () rest := by
  have htakes := takes_skipNumber_iff (x := ()).mpr (hw.takes hrest)
  obtain ⟨c, u, rfl, hc⟩ := hw.exists_cons
  have special : ∀ {d : Char}, d ≠ '-' ∧ isDigit d = false → c ≠ d := not_special_of_numeric hc
  have hquote : c ≠ '"' := special (by decide)
  have hn : c ≠ 'n' := special (by decide)
  have ht : c ≠ 't' := special (by decide)
  have hf : c ≠ 'f' := special (by decide)
  obtain ⟨hlt, hread⟩ := htakes
  refine ⟨hlt, ?_⟩
  simp only [List.cons_append] at hread ⊢
  simp only [skipScalar, hquote, hn, ht, hf, hc, if_false, if_true, hread]

/-! ## Brackets -/

/-- The opening character. -/
def Bracket.opening : Bracket → Char
  | .square => '['
  | .curly => '{'

theorem opened?_eq_some_iff {c : Char} {bracket : Bracket} :
    opened? c = some bracket ↔ c = bracket.opening := by
  constructor
  · intro h
    unfold opened? at h
    split at h
    · cases h
      rfl
    · cases h
      rfl
    · cases h
  · rintro rfl
    cases bracket <;> rfl

/-- What stands before a value in brackets. -/
def SkippedKey : Bracket → List Char → Prop
  | .square, w => w = []
  | .curly, w => ∃ l key m, Blanks l ∧ WritesString key ∧ Blanks m ∧ w = l ++ (key ++ (m ++ [':']))

/-- An item of a block of which only the form counts. -/
def SkippedItem : Bracket → List Char → Prop
  | .square, w => Wellformed w
  | .curly, w => ∃ p : Parts, w = p.text ∧ WritesString p.key ∧ Colon p.colon ∧ Wellformed p.value

theorem key_of_skipKey {s rest : List Char} {h : rest.length ≤ s.length}
    (hread : skipKey .curly s = .ok ⟨rest, h⟩) : ∃ w, SkippedKey .curly w ∧ s = w ++ rest := by
  simp only [skipKey] at hread
  split at hread
  next => cases hread
  next c r hskip =>
    split at hread
    next hc =>
      split at hread
      next => cases hread
      next x afterKey hkey =>
        split at hread
        next => cases hread
        next y mid hcolon =>
          cases hread
          obtain ⟨u, hu, hr⟩ := takes_skipString_iff.mp ⟨afterKey.2, hkey⟩
          obtain ⟨m, hm, hafter⟩ := takes_readColon_iff.mp ⟨mid.2, hcolon⟩
          obtain ⟨l, hl, hs⟩ := blanks_of_skipBlanks hskip
          refine ⟨_, ⟨l, _, m, hl, ⟨u, hu, rfl⟩, hm, rfl⟩, ?_⟩
          have hr' : r = u ++ '"' :: (m ++ ':' :: mid.1) := by
            rw [← hafter]
            exact hr
          rw [hs, hc]
          simp only [hr', List.append_assoc, List.cons_append, List.nil_append]
    next => cases hread

theorem skipKey_of_key {w : List Char} (hw : SkippedKey .curly w) (rest : List Char) :
    ∃ h, skipKey .curly (w ++ rest) = .ok ⟨rest, h⟩ := by
  obtain ⟨l, _, m, hl, ⟨u, hu, rfl⟩, hm, rfl⟩ := hw
  obtain ⟨hltColon, hcolon⟩ : Takes readColon (m ++ ':' :: rest) () rest :=
    takes_readColon_iff.mpr ⟨m, hm, rfl⟩
  obtain ⟨hltKey, hkey⟩ :
      Takes skipString (u ++ '"' :: (m ++ ':' :: rest)) () (m ++ ':' :: rest) :=
    takes_skipString_iff.mpr ⟨u, hu, rfl⟩
  have heq : l ++ ('"' :: (u ++ ['"']) ++ (m ++ [':'])) ++ rest =
      l ++ '"' :: (u ++ '"' :: (m ++ ':' :: rest)) := by
    simp only [List.append_assoc, List.cons_append, List.nil_append]
  have hskip := skipBlanks_append_cons (c := '"') hl rfl (u ++ '"' :: (m ++ ':' :: rest))
  rw [heq]
  refine ⟨Nat.le_of_lt (Nat.lt_trans (Nat.lt_trans hltColon hltKey)
    (length_of_skipBlanks hskip)), ?_⟩
  simp only [skipKey]
  split
  next hs => rw [hskip] at hs; cases hs
  next c r hs =>
    obtain ⟨rfl, rfl⟩ := List.cons.inj (hskip.symm.trans hs)
    simp only [if_true, hkey, hcolon]

theorem skipKey_iff {bracket : Bracket} {s rest : List Char} :
    (∃ h, skipKey bracket s = .ok ⟨rest, h⟩) ↔ ∃ w, SkippedKey bracket w ∧ s = w ++ rest := by
  cases bracket with
  | square =>
    constructor
    · rintro ⟨h, hread⟩
      cases hread
      exact ⟨[], rfl, rfl⟩
    · rintro ⟨_, rfl, rfl⟩
      exact ⟨Nat.le_refl _, rfl⟩
  | curly =>
    constructor
    · rintro ⟨h, hread⟩
      exact key_of_skipKey hread
    · rintro ⟨w, hw, rfl⟩
      exact skipKey_of_key hw rest

/-- A key and a value are an item, with blanks before it. -/
theorem SkippedKey.item {bracket : Bracket} {key l value : List Char}
    (hkey : SkippedKey bracket key) (hl : Blanks l) (hvalue : Wellformed value) :
    ∃ m item, Blanks m ∧ SkippedItem bracket item ∧ key ++ (l ++ value) = m ++ item := by
  cases bracket with
  | square =>
    obtain rfl := hkey
    exact ⟨l, value, hl, hvalue, rfl⟩
  | curly =>
    obtain ⟨m, key, n, hm, hkey, hn, rfl⟩ := hkey
    refine ⟨m, _, hm, ⟨⟨key, n ++ ':' :: l, value⟩, rfl, hkey, ⟨n, l, hn, hl, rfl⟩, hvalue⟩, ?_⟩
    simp only [Parts.text, List.append_assoc, List.cons_append, List.nil_append]

theorem exists_members {items : List (List Char)} (h : ∀ item ∈ items, SkippedItem .curly item) :
    ∃ members : List Parts, items = members.map Parts.text ∧
      ∀ p ∈ members, WritesString p.key ∧ Colon p.colon ∧ Wellformed p.value := by
  induction items with
  | nil => exact ⟨[], rfl, nofun⟩
  | cons item items ih =>
    obtain ⟨⟨p, rfl, hp⟩, hitems⟩ := List.forall_mem_cons.mp h
    obtain ⟨members, rfl, hmembers⟩ := ih hitems
    exact ⟨p :: members, rfl, List.forall_mem_cons.mpr ⟨hp, hmembers⟩⟩

/-- A block of items is a value. -/
theorem wellformed_of_block (bracket : Bracket) (items : List (List Char)) {w : List Char}
    (hblock : Block bracket.opening bracket.close items w)
    (hitems : ∀ item ∈ items, SkippedItem bracket item) : Wellformed w := by
  cases bracket with
  | square => exact .list hblock hitems
  | curly =>
    obtain ⟨members, rfl, hmembers⟩ := exists_members hitems
    exact .object hblock (fun p hp => (hmembers p hp).1) (fun p hp => (hmembers p hp).2.1)
      fun p hp => (hmembers p hp).2.2

/-! ## What is taken is well-formed -/

/-- A text that ends the value before it and then closes the brackets, innermost first. -/
def Closes : List Bracket → List Char → Prop
  | [], w => w = []
  | bracket :: stack, w => ∃ items t u, Further bracket.close items t ∧
      (∀ item ∈ items, SkippedItem bracket item) ∧ Closes stack u ∧ w = t ++ u

/-- A text that goes on as it is awaited and then closes the brackets. -/
def Continues (stack : List Bracket) : Awaiting → List Char → Prop
  | .value, w => ∃ l v u, Blanks l ∧ Wellformed v ∧ Closes stack u ∧ w = l ++ (v ++ u)
  | .separator, w => Closes stack w

/-- After its key, a value in a bracket is the rest of an item, and further items follow it. -/
theorem SkippedKey.items {bracket : Bracket} {stack : List Bracket} {key w : List Char}
    (hkey : SkippedKey bracket key) (hw : Continues (bracket :: stack) .value w) :
    ∃ m item items t u, Blanks m ∧ (∀ i ∈ item :: items, SkippedItem bracket i) ∧
      Further bracket.close items t ∧ Closes stack u ∧ key ++ w = m ++ (item ++ (t ++ u)) := by
  obtain ⟨l, v, _, hl, hv, ⟨items, t, u, ht, hitems, hu, rfl⟩, rfl⟩ := hw
  obtain ⟨m, item, hm, hitem, heq⟩ := hkey.item hl hv
  refine ⟨m, item, items, t, u, hm, List.forall_mem_cons.mpr ⟨hitem, hitems⟩, ht, hu, ?_⟩
  calc key ++ (l ++ (v ++ (t ++ u))) = key ++ (l ++ v) ++ (t ++ u) := by
        simp only [List.append_assoc]
    _ = m ++ (item ++ (t ++ u)) := by rw [heq, List.append_assoc]

/-- What is skipped ends the value that is awaited and closes the brackets on the stack. -/
theorem continues_of_skipFrom {start s rest : List Char} {awaiting : Awaiting}
    {stack : List Bracket} {h : s.length + (if awaiting = .value then 0 else 1) ≤ start.length}
    {hr : rest.length < start.length}
    (hread : skipFrom start awaiting stack s h = .ok ((), ⟨rest, hr⟩)) :
    ∃ w, Continues stack awaiting w ∧ s = w ++ rest := by
  fun_induction skipFrom start awaiting stack s h with
  | case1 | case2 | case4 | case6 | case9 | case10 | case13 => cases hread
  | case3 stack s _ c r hskip _ _ bracket hopened r' _ hskip' _ ih =>
    obtain ⟨u, hu, hr'⟩ := ih hread
    obtain ⟨l, hl, hs⟩ := blanks_of_skipBlanks hskip
    obtain ⟨m, hm, hr⟩ := blanks_of_skipBlanks hskip'
    have hvalue : Wellformed (c :: (m ++ [bracket.close])) :=
      wellformed_of_block bracket []
        ⟨m, hm, by rw [opened?_eq_some_iff.mp hopened]⟩ nofun
    refine ⟨_, ⟨l, _, u, hl, hvalue, hu, rfl⟩, ?_⟩
    rw [hs, hr, hr']
    simp only [List.append_assoc, List.cons_append, List.nil_append]
  | case5 stack s _ c r hskip _ _ bracket hopened _ _ _ _ _ mid hkey _ ih =>
    obtain ⟨w, hw, hmid⟩ := ih hread
    obtain ⟨l, hl, hs⟩ := blanks_of_skipBlanks hskip
    obtain ⟨key, hkey, hr⟩ := skipKey_iff.mp ⟨mid.2, hkey⟩
    obtain ⟨m, item, items, t, u, hm, hitems, ht, hu, heq⟩ := hkey.items hw
    have hvalue : Wellformed (c :: (m ++ (item ++ t))) :=
      wellformed_of_block bracket (item :: items)
        ⟨m, t, hm, ht, by rw [opened?_eq_some_iff.mp hopened]⟩ hitems
    refine ⟨_, ⟨l, _, u, hl, hvalue, hu, rfl⟩, ?_⟩
    rw [hs, hr, hmid, ← List.append_assoc, heq]
    simp only [List.append_assoc, List.cons_append]
  | case7 stack s _ c r hskip _ _ _ _ mid hscalar _ ih =>
    obtain ⟨u, hu, hmid⟩ := ih hread
    obtain ⟨l, hl, hs⟩ := blanks_of_skipBlanks hskip
    obtain ⟨v, hv, hr⟩ := wellformed_of_skipScalar ⟨mid.2, hscalar⟩
    refine ⟨_, ⟨l, v, u, hl, hv, hu, rfl⟩, ?_⟩
    rw [hs, hr, hmid]
    simp only [List.append_assoc]
  | case8 =>
    cases hread
    exact ⟨[], rfl, rfl⟩
  | case11 s _ bracket stack _ r mid hkey _ hskip _ ih =>
    obtain ⟨w, hw, hmid⟩ := ih hread
    obtain ⟨l, hl, hs⟩ := blanks_of_skipBlanks hskip
    obtain ⟨key, hkey, hr⟩ := skipKey_iff.mp ⟨mid.2, hkey⟩
    obtain ⟨m, item, items, t, u, hm, hitems, ht, hu, heq⟩ := hkey.items hw
    refine ⟨_, ⟨item :: items, _, u, ⟨l, m, t, hl, hm, ht, rfl⟩, hitems, hu, rfl⟩, ?_⟩
    rw [hs, hr, hmid, ← List.append_assoc, heq]
    simp only [List.append_assoc, List.cons_append]
  | case12 s _ bracket stack _ r _ hskip _ _ ih =>
    obtain ⟨u, hu, hr⟩ := ih hread
    obtain ⟨l, hl, hs⟩ := blanks_of_skipBlanks hskip
    refine ⟨_, ⟨[], _, u, ⟨l, hl, rfl⟩, nofun, hu, rfl⟩, ?_⟩
    rw [hs, hr]
    simp only [List.append_assoc, List.cons_append, List.nil_append]

/-! ## What is well-formed is taken -/

section Steps

variable {start s r rest : List Char} {c : Char} {stack : List Bracket} {bracket : Bracket}

theorem skipFrom_scalar (hskip : skipBlanks s = c :: r) (hopened : opened? c = none)
    (htakes : Takes skipScalar (c :: r) () rest)
    (h : s.length + (if Awaiting.value = .value then 0 else 1) ≤ start.length) :
    ∃ h', skipFrom start .value stack s h = skipFrom start .separator stack rest h' := by
  obtain ⟨hlt, hread⟩ := htakes
  have hr := length_of_skipBlanks hskip
  have hle : rest.length ≤ r.length := Nat.le_of_lt_succ hlt
  refine ⟨by simp only [reduceCtorEq, if_false, if_true] at *; omega, ?_⟩
  rw [skipFrom]
  split
  next hs => rw [hskip] at hs; cases hs
  next c' r' hs =>
    obtain ⟨rfl, rfl⟩ := List.cons.inj (hskip.symm.trans hs)
    split
    next hopened' => rw [hopened] at hopened'; cases hopened'
    next => simp only [hread]

theorem skipFrom_empty (hskip : skipBlanks s = bracket.opening :: r)
    (hclose : skipBlanks r = bracket.close :: rest)
    (h : s.length + (if Awaiting.value = .value then 0 else 1) ≤ start.length) :
    ∃ h', skipFrom start .value stack s h = skipFrom start .separator stack rest h' := by
  have hr := length_of_skipBlanks hskip
  have hrest := length_of_skipBlanks hclose
  refine ⟨by simp only [reduceCtorEq, if_false, if_true] at *; omega, ?_⟩
  have hopened : opened? bracket.opening = some bracket := opened?_eq_some_iff.mpr rfl
  rw [skipFrom]
  split
  next hs => rw [hskip] at hs; cases hs
  next c' r' hs =>
    obtain ⟨rfl, rfl⟩ := List.cons.inj (hskip.symm.trans hs)
    split
    next bracket' hopened' =>
      obtain rfl := Option.some.inj (hopened.symm.trans hopened')
      split
      next hs' => rw [hclose] at hs'; cases hs'
      next k rk hs' =>
        obtain ⟨rfl, rfl⟩ := List.cons.inj (hclose.symm.trans hs')
        rw [if_pos rfl]
    next hopened' => rw [hopened] at hopened'; cases hopened'

theorem skipFrom_open {k : Char} {rk mid : List Char} (hskip : skipBlanks s = bracket.opening :: r)
    (hskip' : skipBlanks r = k :: rk) (hclose : k ≠ bracket.close)
    (hkey : ∃ h, skipKey bracket r = .ok ⟨mid, h⟩)
    (h : s.length + (if Awaiting.value = .value then 0 else 1) ≤ start.length) :
    ∃ h', skipFrom start .value stack s h = skipFrom start .value (bracket :: stack) mid h' := by
  obtain ⟨hle, hkey⟩ := hkey
  have hr := length_of_skipBlanks hskip
  refine ⟨by simp only [if_true] at *; omega, ?_⟩
  have hopened : opened? bracket.opening = some bracket := opened?_eq_some_iff.mpr rfl
  rw [skipFrom]
  split
  next hs => rw [hskip] at hs; cases hs
  next c' r' hs =>
    obtain ⟨rfl, rfl⟩ := List.cons.inj (hskip.symm.trans hs)
    split
    next bracket' hopened' =>
      obtain rfl := Option.some.inj (hopened.symm.trans hopened')
      split
      next hs' => rw [hskip'] at hs'; cases hs'
      next k' rk' hs' =>
        obtain ⟨rfl, rfl⟩ := List.cons.inj (hskip'.symm.trans hs')
        rw [if_neg hclose]
        simp only [hkey]
    next hopened' => rw [hopened] at hopened'; cases hopened'

theorem skipFrom_comma {mid : List Char} (hskip : skipBlanks s = ',' :: r)
    (hkey : ∃ h, skipKey bracket r = .ok ⟨mid, h⟩)
    (h : s.length + (if Awaiting.separator = .value then 0 else 1) ≤ start.length) :
    ∃ h', skipFrom start .separator (bracket :: stack) s h =
      skipFrom start .value (bracket :: stack) mid h' := by
  obtain ⟨hle, hkey⟩ := hkey
  have hr := length_of_skipBlanks hskip
  refine ⟨by simp only [reduceCtorEq, if_false, if_true] at *; omega, ?_⟩
  conv => lhs; rw [skipFrom]
  split
  next hs => rw [hskip] at hs; cases hs
  next c' r' hs =>
    obtain ⟨rfl, rfl⟩ := List.cons.inj (hskip.symm.trans hs)
    rw [if_pos rfl]
    simp only [hkey]

theorem skipFrom_close (hskip : skipBlanks s = bracket.close :: rest)
    (h : s.length + (if Awaiting.separator = .value then 0 else 1) ≤ start.length) :
    ∃ h', skipFrom start .separator (bracket :: stack) s h =
      skipFrom start .separator stack rest h' := by
  have hr := length_of_skipBlanks hskip
  refine ⟨by simp only [reduceCtorEq, if_false] at *; omega, ?_⟩
  have hcomma : bracket.close ≠ ',' := by cases bracket <;> decide
  rw [skipFrom]
  split
  next hs => rw [hskip] at hs; cases hs
  next c' r' hs =>
    obtain ⟨rfl, rfl⟩ := List.cons.inj (hskip.symm.trans hs)
    rw [if_neg hcomma, if_pos rfl]

end Steps

/-- A written value is skipped, after any blanks and up to what stands apart from it. -/
def Skips (w : List Char) : Prop :=
  ∀ (start blanks rest : List Char) (stack : List Bracket)
    (h : (blanks ++ (w ++ rest)).length + (if Awaiting.value = .value then 0 else 1) ≤
      start.length),
    Blanks blanks → Apart rest → ∃ h',
      skipFrom start .value stack (blanks ++ (w ++ rest)) h =
        skipFrom start .separator stack rest h'

/-- A written item is skipped: the key in front of it if there is one, and its value. -/
def SkipsItem (bracket : Bracket) (item : List Char) : Prop :=
  (∃ c u, item = c :: u ∧ isBlank c = false ∧ c ≠ bracket.close) ∧
    ∀ m, Blanks m → ∃ key l value, SkippedKey bracket key ∧ Blanks l ∧ Skips value ∧
      m ++ item = key ++ (l ++ value)

/-- An item is skipped from after its opening bracket or comma up to what stands apart from it. -/
theorem SkipsItem.skipFrom {bracket : Bracket} {item m : List Char} (hitem : SkipsItem bracket item)
    (hm : Blanks m) {rest : List Char} (hrest : Apart rest) :
    ∃ mid, (∃ h, skipKey bracket (m ++ (item ++ rest)) = .ok ⟨mid, h⟩) ∧
      ∀ (start : List Char) (stack : List Bracket)
        (h : mid.length + (if Awaiting.value = .value then 0 else 1) ≤ start.length),
        ∃ h', Json.skipFrom start .value stack mid h =
          Json.skipFrom start .separator stack rest h' := by
  obtain ⟨key, l, value, hkey, hl, hvalue, heq⟩ := hitem.2 m hm
  refine ⟨l ++ (value ++ rest), skipKey_iff.mpr ⟨key, hkey, ?_⟩,
    fun start stack h => hvalue start l rest stack h hl hrest⟩
  rw [← List.append_assoc, heq]
  simp only [List.append_assoc]

theorem Bracket.close_cases (bracket : Bracket) :
    isBlank bracket.close = false ∧ (bracket.close = ']' ∨ bracket.close = '}') := by
  cases bracket <;> decide

/-- Further items are skipped to the closing bracket. -/
theorem skipFrom_further {bracket : Bracket} {items : List (List Char)} {start t rest : List Char}
    {stack : List Bracket} (ht : Further bracket.close items t)
    (hitems : ∀ item ∈ items, SkipsItem bracket item)
    (h : (t ++ rest).length + (if Awaiting.separator = .value then 0 else 1) ≤ start.length) :
    ∃ h', skipFrom start .separator (bracket :: stack) (t ++ rest) h =
      skipFrom start .separator stack rest h' := by
  obtain ⟨hblank, hclose⟩ := bracket.close_cases
  induction items generalizing t with
  | nil =>
    obtain ⟨l, hl, rfl⟩ := ht
    refine skipFrom_close ?_ h
    rw [List.append_assoc]
    exact skipBlanks_append_cons hl hblank rest
  | cons item items ih =>
    obtain ⟨hitem, hitems⟩ := List.forall_mem_cons.mp hitems
    obtain ⟨l, m, u, hl, hm, hu, rfl⟩ := ht
    have hskip : skipBlanks (l ++ ',' :: (m ++ (item ++ u)) ++ rest) =
        ',' :: (m ++ (item ++ (u ++ rest))) := by
      simp only [List.append_assoc, List.cons_append]
      exact skipBlanks_append_cons hl rfl _
    obtain ⟨mid, hkey, hvalue⟩ := hitem.skipFrom hm (apart_further hclose hu rest)
    obtain ⟨h₁, hcomma⟩ := skipFrom_comma hskip hkey h
    obtain ⟨h₂, hskipped⟩ := hvalue start (bracket :: stack) h₁
    obtain ⟨h₃, htail⟩ := ih hu hitems h₂
    exact ⟨h₃, hcomma.trans (hskipped.trans htail)⟩

/-- A block is skipped if its items are. -/
theorem skips_block (bracket : Bracket) {items : List (List Char)} {w : List Char}
    (hblock : Block bracket.opening bracket.close items w)
    (hitems : ∀ item ∈ items, SkipsItem bracket item) : Skips w := by
  intro start blanks rest stack h hblanks hrest
  obtain ⟨hblank, hclose⟩ := bracket.close_cases
  have hopening : isBlank bracket.opening = false := by cases bracket <;> rfl
  cases items with
  | nil =>
    obtain ⟨l, hl, rfl⟩ := hblock
    refine skipFrom_empty (r := l ++ bracket.close :: rest) ?_
      (skipBlanks_append_cons hl hblank rest) h
    simp only [List.cons_append, List.append_assoc, List.nil_append]
    exact skipBlanks_append_cons hblanks hopening _
  | cons item items =>
    obtain ⟨hitem, hfurther⟩ := List.forall_mem_cons.mp hitems
    obtain ⟨c, u, rfl, hc, hne⟩ := hitem.1
    obtain ⟨l, t, hl, ht, rfl⟩ := hblock
    have hskip : skipBlanks (blanks ++ (bracket.opening :: (l ++ (c :: u ++ t)) ++ rest)) =
        bracket.opening :: (l ++ (c :: u ++ (t ++ rest))) := by
      simp only [List.cons_append, List.append_assoc]
      exact skipBlanks_append_cons hblanks hopening _
    have hfirst : skipBlanks (l ++ (c :: u ++ (t ++ rest))) = c :: (u ++ (t ++ rest)) :=
      skipBlanks_append_cons hl hc _
    obtain ⟨mid, hkey, hvalue⟩ := hitem.skipFrom hl (apart_further hclose ht rest)
    obtain ⟨h₁, hopen⟩ := skipFrom_open hskip hfirst hne hkey h
    obtain ⟨h₂, hskipped⟩ := hvalue start (bracket :: stack) h₁
    obtain ⟨h₃, htail⟩ := skipFrom_further ht hfurther h₂
    exact ⟨h₃, hopen.trans (hskipped.trans htail)⟩

/-- A value without brackets is skipped if it is skipped as such. -/
theorem skips_scalar {c : Char} {u : List Char} (hblank : isBlank c = false)
    (hopened : opened? c = none)
    (htakes : ∀ rest, Apart rest → Takes skipScalar (c :: u ++ rest) () rest) : Skips (c :: u) := by
  intro start blanks rest stack h hblanks hrest
  exact skipFrom_scalar (skipBlanks_append_cons hblanks hblank _) hopened (htakes rest hrest) h

theorem numeric_begins {c : Char} (hc : c = '-' ∨ isDigit c = true) :
    isBlank c = false ∧ opened? c = none ∧ c ≠ ']' := by
  have special : ∀ {d : Char}, d ≠ '-' ∧ isDigit d = false → c ≠ d := not_special_of_numeric hc
  refine ⟨?_, ?_, special (by decide)⟩
  · rcases hc with rfl | hc
    · rfl
    · exact isBlank_of_isDigit hc
  · have hsquare : c ≠ '[' := special (by decide)
    have hcurly : c ≠ '{' := special (by decide)
    unfold opened?
    split
    · exact absurd rfl hsquare
    · exact absurd rfl hcurly
    · rfl

theorem Wellformed.begins {w : List Char} (hw : Wellformed w) : Begins w := by
  cases hw with
  | null => exact ⟨_, _, rfl, rfl, by decide⟩
  | true => exact ⟨_, _, rfl, rfl, by decide⟩
  | false => exact ⟨_, _, rfl, rfl, by decide⟩
  | number hw =>
    obtain ⟨c, u, rfl, hc⟩ := hw.exists_cons
    obtain ⟨hblank, -, hne⟩ := numeric_begins hc
    exact ⟨c, u, rfl, hblank, hne⟩
  | string hw =>
    obtain ⟨u, -, rfl⟩ := hw
    exact ⟨_, _, rfl, rfl, by decide⟩
  | list hblock =>
    obtain ⟨u, rfl⟩ := hblock.exists_cons
    exact ⟨_, _, rfl, rfl, by decide⟩
  | object hblock =>
    obtain ⟨u, rfl⟩ := hblock.exists_cons
    exact ⟨_, _, rfl, rfl, by decide⟩

/-- A member is skipped if its value is. -/
theorem skipsItem_member {p : Parts} (hkey : WritesString p.key) (hcolon : Colon p.colon)
    (hvalue : Skips p.value) : SkipsItem .curly p.text := by
  obtain ⟨key, colon, value⟩ := p
  obtain ⟨l, m, hl, hm, rfl⟩ := hcolon
  refine ⟨?_, fun b hb => ⟨b ++ (key ++ (l ++ [':'])), m, value, ⟨b, key, l, hb, hkey, hl, rfl⟩, hm,
    hvalue, ?_⟩⟩
  · obtain ⟨u, -, rfl⟩ := hkey
    exact ⟨_, _, rfl, rfl, by decide⟩
  · simp only [Parts.text, List.append_assoc, List.cons_append, List.nil_append]

/-- Every well-formed value is skipped. -/
theorem Wellformed.skips {w : List Char} (hw : Wellformed w) : Skips w := by
  induction hw with
  | null => exact skips_scalar rfl rfl fun rest _ => takes_skipScalar_literal rest (by decide)
  | true => exact skips_scalar rfl rfl fun rest _ => takes_skipScalar_literal rest (by decide)
  | false => exact skips_scalar rfl rfl fun rest _ => takes_skipScalar_literal rest (by decide)
  | number hw =>
    obtain ⟨c, u, rfl, hc⟩ := hw.exists_cons
    obtain ⟨hblank, hopened, -⟩ := numeric_begins hc
    exact skips_scalar hblank hopened fun _ hrest => hw.takes_skipScalar hrest
  | string hw =>
    obtain ⟨u, hu, rfl⟩ := hw
    exact skips_scalar rfl rfl fun rest _ => WritesString.takes_skipScalar ⟨u, hu, rfl⟩ rest
  | list hblock hitems ih =>
    refine skips_block .square hblock fun item hitem => ?_
    exact ⟨(hitems item hitem).begins, fun m hm => ⟨[], m, item, rfl, hm, ih item hitem, rfl⟩⟩
  | object hblock hkeys hcolons hvalues ih =>
    refine skips_block .curly hblock fun item hitem => ?_
    obtain ⟨p, hp, rfl⟩ := List.mem_map.mp hitem
    exact skipsItem_member (hkeys p hp) (hcolons p hp) (ih p hp)

/-- Skipping takes the well-formed values and nothing else. -/
theorem exact_skipValue : Exact skipValue fun w _ => Wellformed w where
  reads := by
    intro w _ hw blanks rest hblanks hrest
    obtain ⟨h, hskipped⟩ := hw.skips _ blanks rest [] (Nat.le_refl _) hblanks hrest
    refine ⟨h, ?_⟩
    rw [skipValue, hskipped, skipFrom]
  takes := by
    rintro s rest _ ⟨hlt, hread⟩
    obtain ⟨_, ⟨l, v, _, hl, hv, rfl, rfl⟩, hs⟩ := continues_of_skipFrom hread
    exact ⟨l, v, hl, by rw [hs, List.append_nil, List.append_assoc], hv⟩
  begins := fun hw => hw.begins

end HostRegistry.Json
