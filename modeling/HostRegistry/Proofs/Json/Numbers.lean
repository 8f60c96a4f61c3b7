import HostRegistry.Proofs.Json.Grammar

/-!
The number readers take exactly the numbers of the grammar.

Digits are taken as far as they go, so every statement says as well what cannot follow. A natural
below `2^32` is an integer without sign, and its digits are the decimal digits of its value.
-/

set_option autoImplicit false

namespace HostRegistry.Json
open Text (Rest Remainder isDigit digitValue)

/-- A text that does not go on with a digit. -/
def NoDigit (s : List Char) : Prop := ∀ c ∈ s.head?, isDigit c = false

/-! ## Digits -/

theorem takes_readDigits_iff {s ds rest : List Char} :
    Takes readDigits s ds rest ↔ Digits ds ∧ NoDigit rest ∧ s = ds ++ rest := by
  constructor
  · rintro ⟨hlt, hread⟩
    unfold readDigits at hread
    split at hread
    next => cases hread
    next c r =>
      split at hread
      next hc =>
        cases hread
        refine ⟨⟨List.cons_ne_nil _ _, ?_⟩, ?_, ?_⟩
        · intro d hd
          rcases List.mem_cons.mp hd with rfl | hd
          · exact hc
          · exact List.all_eq_true.mp List.all_takeWhile d hd
        · intro d hd
          have hstop := List.head?_dropWhile_not isDigit r
          rw [afterDigits] at hd
          rw [Option.mem_def.mp hd] at hstop
          exact hstop
        · exact congrArg _ List.takeWhile_append_dropWhile.symm
      next => cases hread
  · rintro ⟨⟨hne, hall⟩, hstop, rfl⟩
    cases ds with
    | nil => exact absurd rfl hne
    | cons c ds =>
      obtain ⟨hc, hds⟩ := List.forall_mem_cons.mp hall
      obtain ⟨htake, hdrop⟩ := Text.takeWhile_append_stop hds hstop
      refine ⟨by simp only [List.length_append, List.length_cons]; omega, ?_⟩
      simp only [List.cons_append, readDigits, hc, if_true, digitsOf, afterDigits, htake, hdrop]

theorem takes_readWhole_iff {s ds rest : List Char} :
    Takes readWhole s ds rest ↔ Whole ds ∧ NoDigit rest ∧ s = ds ++ rest := by
  have hzero : Digits ['0'] := ⟨List.cons_ne_nil _ _, List.forall_mem_singleton.mpr rfl⟩
  constructor
  · rintro ⟨hlt, hread⟩
    unfold readWhole at hread
    split at hread
    next c r =>
      split at hread
      next => cases hread
      next hc =>
        cases hread
        refine ⟨⟨hzero, fun _ => rfl⟩, ?_, rfl⟩
        intro d hd
        cases hd
        exact eq_false_of_ne_true hc
    next s hs =>
      obtain ⟨hds, hstop, rfl⟩ := takes_readDigits_iff.mp ⟨_, hread⟩
      refine ⟨⟨hds, fun hhead => ?_⟩, hstop, rfl⟩
      -- A zero with anything after it is read by the first case.
      cases ds with
      | nil => cases hhead
      | cons c ds =>
        cases hhead
        cases htail : ds ++ rest with
        | nil => rw [(List.append_eq_nil_iff.mp htail).1]
        | cons d r => exact absurd (congrArg _ htail) (hs d r)
  · rintro ⟨⟨hds, hhead⟩, hstop, hs⟩
    obtain ⟨hlt, hread⟩ := takes_readDigits_iff.mpr ⟨hds, hstop, hs⟩
    refine ⟨hlt, ?_⟩
    unfold readWhole
    split
    next c r =>
      cases ds with
      | nil => exact absurd rfl hds.1
      | cons d ds =>
        obtain ⟨rfl, htail⟩ := List.cons.inj hs
        obtain ⟨-, rfl⟩ := List.cons.inj (hhead rfl)
        obtain rfl : c :: r = rest := htail
        have hc : isDigit c = false := hstop c rfl
        simp only [hc, Bool.false_eq_true, if_false]
    next => exact hread

/-! ## Fractions and exponents -/

/-- A fraction is read, or there is none. -/
theorem readFraction_iff {s ds rest : List Char} :
    (∃ h, readFraction s = .ok (ds, ⟨rest, h⟩)) ↔
      (ds = [] ∧ s = rest ∧ s.head? ≠ some '.') ∨
        (Digits ds ∧ NoDigit rest ∧ s = '.' :: (ds ++ rest)) := by
  constructor
  · rintro ⟨h, hread⟩
    unfold readFraction at hread
    split at hread
    next r =>
      split at hread
      next => cases hread
      next digits mid hdigits =>
        cases hread
        obtain ⟨hds, hstop, hr⟩ := takes_readDigits_iff.mp ⟨mid.2, hdigits⟩
        exact Or.inr ⟨hds, hstop, congrArg _ hr⟩
    next s hs =>
      cases hread
      refine Or.inl ⟨rfl, rfl, fun hhead => ?_⟩
      obtain ⟨r, hr⟩ := List.head?_eq_some_iff.mp hhead
      exact hs r hr
  · rintro (⟨rfl, rfl, hhead⟩ | ⟨hds, hstop, rfl⟩)
    · refine ⟨Nat.le_refl _, ?_⟩
      rw [readFraction]
      · rfl
      · rintro r rfl
        exact hhead rfl
    · obtain ⟨hlt, hread⟩ := takes_readDigits_iff.mpr ⟨hds, hstop, rfl⟩
      exact ⟨Nat.le_of_lt (Nat.lt_succ_of_lt hlt), by simp only [readFraction, hread]; rfl⟩

/-- A written sign of an exponent, and whether it says that the exponent is not negative. -/
def WritesSign (w : List Char) (up : Bool) : Prop :=
  (w = [] ∨ w = ['+']) ∧ up = true ∨ w = ['-'] ∧ up = false

theorem writesSign_signOf (s : List Char) :
    ∃ w, WritesSign w (signOf s).1 ∧ s = w ++ (signOf s).2.1 := by
  unfold signOf
  split
  next r => exact ⟨['+'], Or.inl ⟨Or.inr rfl, rfl⟩, rfl⟩
  next r => exact ⟨['-'], Or.inr ⟨rfl, rfl⟩, rfl⟩
  next => exact ⟨[], Or.inl ⟨Or.inl rfl, rfl⟩, rfl⟩

theorem signOf_of_writes {w ds rest s : List Char} {up : Bool} (hw : WritesSign w up)
    (hds : Digits ds) (hs : s = w ++ (ds ++ rest)) :
    (signOf s).1 = up ∧ (signOf s).2.1 = ds ++ rest := by
  rcases hw with ⟨rfl | rfl, rfl⟩ | ⟨rfl, rfl⟩
  · cases ds with
    | nil => exact absurd rfl hds.1
    | cons d ds =>
      have hd : isDigit d = true := hds.2 d List.mem_cons_self
      unfold signOf
      split
      next =>
        obtain ⟨rfl, -⟩ := List.cons.inj hs
        cases hd
      next =>
        obtain ⟨rfl, -⟩ := List.cons.inj hs
        cases hd
      next => exact ⟨rfl, hs⟩
  · subst hs
    exact ⟨rfl, rfl⟩
  · subst hs
    exact ⟨rfl, rfl⟩

/-- An exponent is read, or there is none. -/
theorem readExponent_iff {s rest : List Char} {exponent : Option (Bool × List Char)} :
    (∃ h, readExponent s = .ok (exponent, ⟨rest, h⟩)) ↔
      (exponent = none ∧ s = rest ∧ s.head? ≠ some 'e' ∧ s.head? ≠ some 'E') ∨
        ∃ e w up ds, (e = 'e' ∨ e = 'E') ∧ WritesSign w up ∧ Digits ds ∧ NoDigit rest ∧
          exponent = some (up, ds) ∧ s = e :: (w ++ (ds ++ rest)) := by
  constructor
  · rintro ⟨h, hread⟩
    unfold readExponent at hread
    split at hread
    next =>
      cases hread
      exact Or.inl ⟨rfl, rfl, nofun, nofun⟩
    next c r =>
      split at hread
      next hc =>
        split at hread
        next => cases hread
        next ds mid hdigits =>
          cases hread
          obtain ⟨hds, hstop, hr⟩ := takes_readDigits_iff.mp ⟨mid.2, hdigits⟩
          obtain ⟨w, hw, hsign⟩ := writesSign_signOf r
          exact Or.inr ⟨c, w, _, ds, hc, hw, hds, hstop, rfl, by rw [← hr, ← hsign]⟩
      next hc =>
        cases hread
        obtain ⟨he, hE⟩ := not_or.mp hc
        exact Or.inl ⟨rfl, rfl, fun h => he (Option.some.inj h), fun h => hE (Option.some.inj h)⟩
  · rintro (⟨rfl, rfl, he, hE⟩ | ⟨e, w, up, ds, he, hw, hds, hstop, rfl, rfl⟩)
    · refine ⟨Nat.le_refl _, ?_⟩
      cases s with
      | nil => rfl
      | cons c r =>
        have hc : ¬ (c = 'e' ∨ c = 'E') :=
          not_or.mpr ⟨fun h => he (congrArg some h), fun h => hE (congrArg some h)⟩
        simp only [readExponent, hc, if_false]
        rfl
    · obtain ⟨hup, hrest⟩ := signOf_of_writes hw hds rfl
      obtain ⟨hlt, hread⟩ := takes_readDigits_iff.mpr ⟨hds, hstop, hrest⟩
      refine ⟨by simp only [List.length_cons, List.length_append]; omega, ?_⟩
      simp only [readExponent, he, if_true, hread, hup]

/-! ## Numbers -/

/-- The parts of a number are read one after the other. -/
theorem takes_readMagnitude_iff {negative : Bool} {s rest : List Char} {n : Numeral} :
    Takes (readMagnitude negative) s n rest ↔ n.negative = negative ∧
      ∃ s₁ s₂, Takes readWhole s n.whole s₁ ∧ (∃ h, readFraction s₁ = .ok (n.fraction, ⟨s₂, h⟩)) ∧
        ∃ h, readExponent s₂ = .ok (n.exponent, ⟨rest, h⟩) := by
  constructor
  · rintro ⟨hlt, hread⟩
    unfold readMagnitude at hread
    split at hread
    next => cases hread
    next whole s₁ hwhole =>
      split at hread
      next => cases hread
      next fraction s₂ hfraction =>
        split at hread
        next => cases hread
        next exponent s₃ hexponent =>
          cases hread
          exact ⟨rfl, s₁.1, s₂.1, ⟨s₁.2, hwhole⟩, ⟨s₂.2, hfraction⟩, s₃.2, hexponent⟩
  · rintro ⟨rfl, s₁, s₂, ⟨hlt, hwhole⟩, ⟨hle, hfraction⟩, hle', hexponent⟩
    refine ⟨by omega, ?_⟩
    simp only [readMagnitude, hwhole, hfraction, hexponent]

/-- What stands apart from a number continues none. -/
theorem not_numeric_of_apart {c : Char} {r : List Char} (h : Apart (c :: r)) :
    isDigit c = false ∧ c ≠ '.' ∧ c ≠ 'e' ∧ c ≠ 'E' := by
  have hc := h c rfl
  simp only [isBlank, Bool.or_eq_true, decide_eq_true_eq] at hc
  rcases hc with (((rfl | rfl) | rfl) | rfl) | rfl | rfl | rfl <;> decide

theorem noDigit_of_apart {rest : List Char} (h : Apart rest) :
    NoDigit rest ∧ rest.head? ≠ some '.' ∧ rest.head? ≠ some 'e' ∧ rest.head? ≠ some 'E' := by
  cases rest with
  | nil => exact ⟨nofun, nofun, nofun, nofun⟩
  | cons c r =>
    obtain ⟨hdigit, hdot, he, hE⟩ := not_numeric_of_apart h
    refine ⟨?_, fun h => hdot (Option.some.inj h), fun h => he (Option.some.inj h),
      fun h => hE (Option.some.inj h)⟩
    intro d hd
    cases hd
    exact hdigit

/-- An exponent, or what stands apart, is read after a number without one. -/
theorem readExponent_append {w rest : List Char} (hw : Exponent w) (hrest : Apart rest) :
    NoDigit (w ++ rest) ∧ (w ++ rest).head? ≠ some '.' ∧
      ∃ exponent h, readExponent (w ++ rest) = .ok (exponent, ⟨rest, h⟩) := by
  obtain ⟨hdigit, hdot, he, hE⟩ := noDigit_of_apart hrest
  rcases hw with rfl | ⟨e, sign, ds, he, hsign, hds, rfl⟩
  · exact ⟨hdigit, hdot, none, readExponent_iff.mpr (Or.inl ⟨rfl, rfl, he, hE⟩)⟩
  · have hup : ∃ up, WritesSign sign up := by
      rcases hsign with rfl | rfl | rfl
      · exact ⟨true, Or.inl ⟨Or.inl rfl, rfl⟩⟩
      · exact ⟨true, Or.inl ⟨Or.inr rfl, rfl⟩⟩
      · exact ⟨false, Or.inr ⟨rfl, rfl⟩⟩
    obtain ⟨up, hup⟩ := hup
    refine ⟨?_, ?_, some (up, ds), readExponent_iff.mpr (Or.inr ⟨e, sign, up, ds, he, hup, hds,
      hdigit, rfl, by rw [List.cons_append, List.append_assoc]⟩)⟩
    · intro c hc
      cases hc
      rcases he with rfl | rfl <;> decide
    · intro h
      cases h
      rcases he with he | he <;> cases he

/-- A fraction is read up to what follows it. -/
theorem readFraction_append {w rest : List Char} (hw : Fraction w) (hdigit : NoDigit rest)
    (hdot : rest.head? ≠ some '.') :
    NoDigit (w ++ rest) ∧ ∃ ds h, readFraction (w ++ rest) = .ok (ds, ⟨rest, h⟩) := by
  rcases hw with rfl | ⟨ds, hds, rfl⟩
  · exact ⟨hdigit, [], readFraction_iff.mpr (Or.inl ⟨rfl, rfl, hdot⟩)⟩
  · refine ⟨?_, ds, readFraction_iff.mpr (Or.inr ⟨hds, hdigit, rfl⟩)⟩
    intro c hc
    cases hc
    rfl

theorem readNumeral_of_digit {c : Char} (hc : isDigit c = true) (r : List Char) :
    readNumeral (c :: r) = readMagnitude false (c :: r) := by
  rw [readNumeral]
  rintro r' heq
  obtain ⟨rfl, -⟩ := List.cons.inj heq
  cases hc

theorem Whole.exists_cons {w : List Char} (h : Whole w) :
    ∃ c r, w = c :: r ∧ isDigit c = true := by
  cases w with
  | nil => exact absurd rfl h.1.1
  | cons c r => exact ⟨c, r, rfl, h.1.2 c List.mem_cons_self⟩

/-- A number is read up to what stands apart from it. -/
theorem WritesNumber.takes {w rest : List Char} (hw : WritesNumber w) (hrest : Apart rest) :
    ∃ n, Takes readNumeral (w ++ rest) n rest := by
  obtain ⟨sign, whole, fraction, exponent, hsign, hwhole, hfraction, hexponent, rfl⟩ := hw
  obtain ⟨hdigit, hdot, e, hreadExponent⟩ := readExponent_append hexponent hrest
  obtain ⟨hdigit', ds, hreadFraction⟩ := readFraction_append hfraction hdigit hdot
  have htakes := fun negative => (takes_readMagnitude_iff (n := ⟨negative, whole, ds, e⟩)).mpr
    ⟨rfl, _, _, takes_readWhole_iff.mpr ⟨hwhole, hdigit', rfl⟩, hreadFraction, hreadExponent⟩
  simp only [List.append_assoc]
  rcases hsign with rfl | rfl
  · obtain ⟨c, r, rfl, hc⟩ := hwhole.exists_cons
    obtain ⟨hlt, hread⟩ := htakes false
    exact ⟨_, hlt, (readNumeral_of_digit hc _).trans hread⟩
  · obtain ⟨hlt, hread⟩ := htakes true
    refine ⟨⟨true, whole, ds, e⟩, Nat.lt_succ_of_lt hlt, ?_⟩
    simp only [List.singleton_append, readNumeral, hread]
    rfl

/-- What is read as a fraction is one, and is nothing if there are no digits. -/
theorem fraction_of_readFraction {s ds rest : List Char} {h : rest.length ≤ s.length}
    (hread : readFraction s = .ok (ds, ⟨rest, h⟩)) :
    ∃ w, Fraction w ∧ s = w ++ rest ∧ (ds = [] → w = []) := by
  rcases readFraction_iff.mp ⟨h, hread⟩ with ⟨-, rfl, -⟩ | ⟨hds, -, rfl⟩
  · exact ⟨[], Or.inl rfl, rfl, fun _ => rfl⟩
  · exact ⟨_, Or.inr ⟨ds, hds, rfl⟩, rfl, fun hnil => absurd hnil hds.1⟩

/-- What is read as an exponent is one, and is nothing if there is none. -/
theorem exponent_of_readExponent {s rest : List Char} {exponent : Option (Bool × List Char)}
    {h : rest.length ≤ s.length} (hread : readExponent s = .ok (exponent, ⟨rest, h⟩)) :
    ∃ w, Exponent w ∧ s = w ++ rest ∧ (exponent = none → w = []) := by
  rcases readExponent_iff.mp ⟨h, hread⟩ with
    ⟨-, rfl, -⟩ | ⟨e, sign, up, ds, he, hsign, hds, -, rfl, rfl⟩
  · exact ⟨[], Or.inl rfl, rfl, fun _ => rfl⟩
  · refine ⟨e :: (sign ++ ds), Or.inr ⟨e, sign, ds, he, ?_, hds, rfl⟩, ?_, nofun⟩
    · rcases hsign with ⟨hsign | hsign, -⟩ | ⟨hsign, -⟩
      · exact Or.inl hsign
      · exact Or.inr (Or.inl hsign)
      · exact Or.inr (Or.inr hsign)
    · rw [List.cons_append, List.append_assoc]

/-- A number is a sign, if it is negative, and what follows the sign. -/
theorem magnitude_of_readNumeral {s rest : List Char} {n : Numeral}
    (h : Takes readNumeral s n rest) :
    ∃ sign s', (sign = [] ∧ n.negative = false ∨ sign = ['-'] ∧ n.negative = true) ∧
      s = sign ++ s' ∧ Takes (readMagnitude n.negative) s' n rest := by
  obtain ⟨hlt, hread⟩ := h
  unfold readNumeral at hread
  split at hread
  next r =>
    split at hread
    next => cases hread
    next n' mid hmid =>
      cases hread
      have hsign := (takes_readMagnitude_iff.mp ⟨mid.2, hmid⟩).1
      exact ⟨['-'], r, Or.inr ⟨rfl, hsign⟩, rfl, hsign ▸ ⟨mid.2, hmid⟩⟩
  next =>
    have hsign := (takes_readMagnitude_iff.mp ⟨hlt, hread⟩).1
    exact ⟨[], s, Or.inl ⟨rfl, hsign⟩, rfl, hsign ▸ ⟨hlt, hread⟩⟩

/-- What is read as a number is one; it is its own integer part if there is nothing else. -/
theorem writesNumber_of_takes {s rest : List Char} {n : Numeral} (h : Takes readNumeral s n rest) :
    ∃ w, WritesNumber w ∧ s = w ++ rest ∧
      (n.negative = false → n.fraction = [] → n.exponent = none → Whole w ∧ w = n.whole) := by
  obtain ⟨sign, s', hsign, rfl, hmagnitude⟩ := magnitude_of_readNumeral h
  obtain ⟨-, s₁, s₂, hreadWhole, ⟨_, hreadFraction⟩, _, hreadExponent⟩ :=
    takes_readMagnitude_iff.mp hmagnitude
  obtain ⟨hwhole, -, rfl⟩ := takes_readWhole_iff.mp hreadWhole
  obtain ⟨fraction, hfraction, rfl, hnoFraction⟩ := fraction_of_readFraction hreadFraction
  obtain ⟨exponent, hexponent, rfl, hnoExponent⟩ := exponent_of_readExponent hreadExponent
  refine ⟨_, ⟨sign, n.whole, fraction, exponent, ?_, hwhole, hfraction, hexponent, rfl⟩, ?_, ?_⟩
  · exact hsign.imp And.left And.left
  · simp only [List.append_assoc]
  · intro hpositive hnil hnone
    rcases hsign with ⟨rfl, -⟩ | ⟨-, hnegative⟩
    · rw [hnoFraction hnil, hnoExponent hnone]
      simp only [List.append_nil, List.nil_append]
      exact ⟨hwhole, trivial⟩
    · rw [hpositive] at hnegative
      cases hnegative

/-- An integer without sign is read up to what stands apart from it. -/
theorem Whole.takes {w rest : List Char} (hw : Whole w) (hrest : Apart rest) :
    Takes readNumeral (w ++ rest) ⟨false, w, [], none⟩ rest := by
  obtain ⟨hdigit, hdot, he, hE⟩ := noDigit_of_apart hrest
  have htakes : Takes (readMagnitude false) (w ++ rest) ⟨false, w, [], none⟩ rest :=
    takes_readMagnitude_iff.mpr ⟨rfl, rest, rest, takes_readWhole_iff.mpr ⟨hw, hdigit, rfl⟩,
      readFraction_iff.mpr (Or.inl ⟨rfl, rfl, hdot⟩),
      readExponent_iff.mpr (Or.inl ⟨rfl, rfl, he, hE⟩)⟩
  obtain ⟨c, r, rfl, hc⟩ := hw.exists_cons
  obtain ⟨hlt, hread⟩ := htakes
  exact ⟨hlt, (readNumeral_of_digit hc _).trans hread⟩

/-! ## Naturals -/

theorem digitChar_digitValue {c : Char} (hc : isDigit c = true) :
    digitValue c < 10 ∧ Nat.digitChar (digitValue c) = c := by
  have le_toNat : ∀ {a b : Char}, a ≤ b → a.toNat ≤ b.toNat := fun h => h
  simp only [isDigit, Bool.and_eq_true, decide_eq_true_eq] at hc
  have hlow := le_toNat hc.1
  have hhigh := le_toNat hc.2
  simp only [Char.reduceToNat] at hlow hhigh
  have hcase : ∀ n < 10, Nat.digitChar n = Char.ofNat (n + 48) := by decide
  have hlt : c.toNat - 48 < 10 := by omega
  refine ⟨hlt, ?_⟩
  show Nat.digitChar (c.toNat - 48) = c
  rw [hcase _ hlt, Nat.sub_add_cancel hlow, Char.ofNat_toNat]

/-- Digits after a leading one that is not zero are the decimal digits of the value. -/
theorem toDigits_append_digits {n : Nat} (hn : 0 < n) {ds : List Char}
    (hds : ∀ c ∈ ds, isDigit c = true) :
    Nat.toDigits 10 n ++ ds = Nat.toDigits 10 (Nat.ofDigitChars 10 ds n) := by
  induction ds generalizing n with
  | nil => exact List.append_nil _
  | cons d ds ih =>
    obtain ⟨hd, hds⟩ := List.forall_mem_cons.mp hds
    obtain ⟨hlt, hchar⟩ := digitChar_digitValue hd
    have hstep := Nat.toDigits_append_toDigits (b := 10) (by decide) hn hlt
    rw [Nat.toDigits_of_lt_base hlt, hchar] at hstep
    calc Nat.toDigits 10 n ++ d :: ds = (Nat.toDigits 10 n ++ [d]) ++ ds := by
          rw [List.append_assoc, List.singleton_append]
      _ = Nat.toDigits 10 (10 * n + digitValue d) ++ ds := by rw [hstep]
      _ = Nat.toDigits 10 (Nat.ofDigitChars 10 (d :: ds) n) := ih (by omega) hds

/-- The digits of an integer are the decimal digits of its value. -/
theorem Whole.eq_toDigits {w : List Char} (hw : Whole w) :
    w = Nat.toDigits 10 (Nat.ofDigitChars 10 w 0) := by
  obtain ⟨c, r, rfl, hc⟩ := hw.exists_cons
  obtain ⟨hlt, hchar⟩ := digitChar_digitValue hc
  by_cases hzero : digitValue c = 0
  · rw [hzero] at hchar
    obtain rfl : '0' = c := hchar
    rw [hw.2 rfl]
    rfl
  · have hr := (List.forall_mem_cons.mp hw.1.2).2
    have happend := toDigits_append_digits (Nat.pos_of_ne_zero hzero) hr
    rw [Nat.toDigits_of_lt_base hlt, hchar] at happend
    have hvalue : Nat.ofDigitChars 10 (c :: r) 0 = Nat.ofDigitChars 10 r (digitValue c) := by
      rw [Nat.ofDigitChars_cons, Nat.mul_zero, Nat.zero_add]
      rfl
    rw [hvalue, ← happend]
    rfl

theorem head?_toDigits (n : Nat) (hn : 0 < n) : (Nat.toDigits 10 n).head? ≠ some '0' := by
  induction n using Nat.strongRecOn with
  | ind n ih =>
    by_cases hlt : n < 10
    · rw [Nat.toDigits_of_lt_base hlt]
      intro hhead
      have hzero := Nat.digitChar_eq_zero.mp (Option.some.inj hhead)
      omega
    · have hfront := ih (n / 10) (by omega) (by omega)
      rw [Nat.toDigits_of_base_le (by decide) (by omega), List.head?_append]
      cases hhead : (Nat.toDigits 10 (n / 10)).head? with
      | none => exact absurd (List.head?_eq_none_iff.mp hhead) Nat.toDigits_ne_nil
      | some c => rwa [hhead] at hfront

theorem whole_toDigits (n : Nat) : Whole (Nat.toDigits 10 n) := by
  have hdigits : ∀ c ∈ Nat.toDigits 10 n, isDigit c = true := by
    intro c hc
    have hdigit := Nat.isDigit_of_mem_toDigits (by decide) (by decide) hc
    simp only [Char.isDigit, Bool.and_eq_true, decide_eq_true_eq] at hdigit
    simp only [isDigit, Bool.and_eq_true, decide_eq_true_eq]
    exact hdigit
  refine ⟨⟨Nat.toDigits_ne_nil, hdigits⟩, fun hhead => ?_⟩
  by_cases hn : 0 < n
  · exact absurd hhead (head?_toDigits n hn)
  · obtain rfl : n = 0 := by omega
    rfl

theorem magnitude_eq (w : List Char) :
    w.foldl (fun acc d => acc * 10 + digitValue d) 0 = Nat.ofDigitChars 10 w 0 := by
  rw [Nat.ofDigitChars]
  congr 1
  funext acc d
  rw [Nat.mul_comm]
  rfl

theorem isBlank_of_isDigit {c : Char} (hc : isDigit c = true) : isBlank c = false := by
  cases hblank : isBlank c with
  | false => rfl
  | true =>
    simp only [isBlank, Bool.or_eq_true, decide_eq_true_eq] at hblank
    rcases hblank with ((rfl | rfl) | rfl) | rfl <;> cases hc

/-- An integer without sign that fits in 64 bits is read as its value. -/
theorem Whole.takes_readNumber {w rest : List Char} (hw : Whole w) (hrest : Apart rest)
    (hsmall : Nat.ofDigitChars 10 w 0 < Nat.pow 2 64) :
    Takes readNumber (w ++ rest) (.integer (Nat.ofDigitChars 10 w 0)) rest := by
  obtain ⟨hlt, hnumeral⟩ := hw.takes hrest
  have hvalue : (Numeral.mk false w [] none).value = .ok (.integer (Nat.ofDigitChars 10 w 0)) := by
    simp only [Numeral.value, magnitude_eq, Bool.false_eq_true, if_false, hsmall, and_self, if_true]
    rfl
  exact ⟨hlt, by simp only [readNumber, hnumeral, hvalue]⟩

/-- A number in front is read if it is a natural. -/
theorem takes_readNatural32 {s r rest : List Char} {c : Char} {number : Number} {n : Nat}
    (hskip : skipBlanks s = c :: r) (hc : isDigit c = true)
    (hnumber : Takes readNumber (c :: r) number rest) (hnatural : number.natural32 = .ok n) :
    Takes readNatural32 s n rest := by
  obtain ⟨hlt, hread⟩ := hnumber
  have hr := length_of_skipBlanks hskip
  refine ⟨by rw [List.length_cons] at hlt; omega, ?_⟩
  rw [readNatural32]
  split
  next hs => rw [hskip] at hs; cases hs
  next c' r' hs =>
    obtain ⟨rfl, rfl⟩ := List.cons.inj (hskip.symm.trans hs)
    simp only [hc, or_true, if_true, hread, hnatural]

theorem natural32_of_lt {n : Nat} (hn : n < 0x100000000) :
    (Number.integer n).natural32 = .ok n := by
  have hbounds : (0 : Int) ≤ n ∧ (n : Int) < 0x100000000 := by omega
  simp only [Number.natural32, hbounds, and_self, if_true, Int.toNat_natCast]

/-- The decimal digits of a natural are read as the natural. -/
theorem reads_natural32 {n : Nat} (hn : n < 0x100000000) :
    Reads readNatural32 (Nat.toDigits 10 n) n := by
  intro blanks rest hblanks hrest
  have hwhole := whole_toDigits n
  have hvalue : Nat.ofDigitChars 10 (Nat.toDigits 10 n) 0 = n :=
    Nat.ofDigitChars_toDigits (by decide) (by decide)
  have hsmall : Nat.ofDigitChars 10 (Nat.toDigits 10 n) 0 < Nat.pow 2 64 := by
    rw [hvalue]
    exact Nat.lt_trans hn (by decide)
  have htakes := hwhole.takes_readNumber hrest hsmall
  rw [hvalue] at htakes
  obtain ⟨c, w, hcons, hc⟩ := hwhole.exists_cons
  rw [hcons] at htakes ⊢
  have hskip : skipBlanks (blanks ++ (c :: w ++ rest)) = c :: (w ++ rest) := by
    rw [skipBlanks_append hblanks]
    exact skipBlanks_cons (isBlank_of_isDigit hc) _
  exact takes_readNatural32 hskip hc htakes (natural32_of_lt hn)

/-- A number that is an integer has neither fraction nor exponent. -/
theorem integer_of_value {n : Numeral} {v : Int} (h : n.value = .ok (.integer v)) :
    n.fraction = [] ∧ n.exponent = none ∧
      (n.negative = true ∧ v < 0 ∨ n.negative = false ∧ v = Nat.ofDigitChars 10 n.whole 0) := by
  have not_floating : n.floating.map Number.floating ≠ .ok (.integer v) := by
    cases n.floating <;> exact nofun
  obtain ⟨negative, whole, fraction, exponent⟩ := n
  cases negative with
  | false =>
    simp only [Numeral.value, magnitude_eq, Bool.false_eq_true, if_false] at h
    split at h
    next hform =>
      cases h
      exact ⟨hform.1, hform.2.1, Or.inr ⟨rfl, rfl⟩⟩
    next => exact absurd h not_floating
  | true =>
    simp only [Numeral.value, magnitude_eq, if_true] at h
    split at h
    next hform =>
      cases h
      obtain ⟨hfraction, hexponent, hpositive, -⟩ := hform
      refine ⟨hfraction, hexponent, Or.inl ⟨rfl, ?_⟩⟩
      simp only [Int.ofNat_eq_natCast]
      omega
    next => exact absurd h not_floating

/-- Nothing else is read as a natural. -/
theorem writesNatural32_of_takes {s rest : List Char} {n : Nat} (h : Takes readNatural32 s n rest) :
    ∃ w, WritesNatural32 w n ∧ skipBlanks s = w ++ rest := by
  obtain ⟨hlt, hread⟩ := h
  rw [readNatural32] at hread
  split at hread
  next => cases hread
  next c r hskip =>
    split at hread
    next =>
      split at hread
      next => cases hread
      next number mid hnumber =>
        split at hread
        next => cases hread
        next m hnatural =>
          cases hread
          unfold readNumber at hnumber
          split at hnumber
          next => cases hnumber
          next numeral mid' hnumeral =>
            split at hnumber
            next => cases hnumber
            next number' hvalue =>
              cases hnumber
              cases number with
              | floating x => cases hnatural
              | integer v =>
                simp only [Number.natural32] at hnatural
                split at hnatural
                next hbounds =>
                  cases hnatural
                  obtain ⟨hfraction, hexponent, ⟨-, hlow⟩ | ⟨hpositive, rfl⟩⟩ :=
                    integer_of_value hvalue
                  · omega
                  · obtain ⟨w, -, hs, hwhole⟩ := writesNumber_of_takes ⟨mid.2, hnumeral⟩
                    obtain ⟨hwhole, rfl⟩ := hwhole hpositive hfraction hexponent
                    refine ⟨numeral.whole, ⟨by omega, ?_⟩, hskip.trans hs⟩
                    rw [Int.toNat_natCast]
                    exact hwhole.eq_toDigits
                next => cases hnatural
    next => cases hread

end HostRegistry.Json
