import HostRegistry.SortedMap
import Mathlib.Algebra.Group.Nat.Defs

/-!
Texts in the order of their bytes.

Texts are compared character by character. In UTF-8 the first byte of a character tells how many
bytes follow, and grows with the character (`firstByte_lt_or`); those that follow are the digits of
the character in base 64. So the bytes of two texts are in the order of the texts
(`compare_eq_lt_iff`).
-/

set_option autoImplicit false

namespace HostRegistry

namespace Text

/-- The bytes of a text in UTF-8. -/
def bytes (s : String) : List UInt8 := s.toUTF8.data.toList

theorem bytes_eq_flatMap (s : String) : bytes s = s.toList.flatMap String.utf8EncodeChar := by
  rw [bytes, String.toUTF8_eq_toByteArray, ← String.utf8Encode_toList, List.utf8Encode,
    List.toList_data_toByteArray]

/-! ## The bytes of one character -/

/-- The last digits of a number in base 64, each in a byte that continues a character. -/
def continuation : Nat → Nat → List UInt8
  | 0, _ => []
  | n + 1, code => UInt8.ofNat (code / 64 ^ n % 64 + 128) :: continuation n code

/-- How many bytes follow the first one. -/
def following (code : Nat) : Nat :=
  if code ≤ 0x7F then 0 else if code ≤ 0x7FF then 1 else if code ≤ 0xFFFF then 2 else 3

/-- The first byte. -/
def firstByte (code : Nat) : Nat :=
  if code ≤ 0x7F then code
  else if code ≤ 0x7FF then code / 64 % 32 + 192
  else if code ≤ 0xFFFF then code / 4096 % 16 + 224
  else code / 262144 % 8 + 240

theorem utf8EncodeChar_eq (c : Char) : String.utf8EncodeChar c =
    UInt8.ofNat (firstByte c.toNat) :: continuation (following c.toNat) c.toNat := by
  rw [String.utf8EncodeChar.eq_1, firstByte, following]
  simp only [show c.val.toNat = c.toNat from rfl]
  split
  next => rfl
  next =>
    split
    next => simp only [continuation, Nat.pow_zero, Nat.div_one]
    next =>
      split
      next => simp only [continuation, Nat.pow_zero, Nat.pow_one, Nat.div_one]
      next => simp only [continuation, Nat.pow_zero, Nat.pow_one, Nat.reducePow, Nat.div_one]

/-- The digits of a number in the order of the number. -/
theorem continuation_append_lt {n v w : Nat} (h : v % 64 ^ n < w % 64 ^ n) (xs ys : List UInt8) :
    continuation n v ++ xs < continuation n w ++ ys := by
  induction n with
  | zero =>
    rw [Nat.pow_zero, Nat.mod_one, Nat.mod_one] at h
    exact absurd h (Nat.lt_irrefl 0)
  | succ n ih =>
    have hdigit : ∀ code : Nat, (UInt8.ofNat (code / 64 ^ n % 64 + 128)).toNat =
        code / 64 ^ n % 64 + 128 := by
      intro code
      rw [UInt8.toNat_ofNat']
      omega
    rw [Nat.mod_pow_succ, Nat.mod_pow_succ] at h
    rw [continuation, continuation, List.cons_append, List.cons_append, List.cons_lt_cons_iff,
      UInt8.lt_iff_toNat_lt, ← UInt8.toNat_inj, hdigit, hdigit]
    -- The leading digit decides, or else the digits that are left.
    rcases Nat.lt_trichotomy (v / 64 ^ n % 64) (w / 64 ^ n % 64) with hlt | heq | hgt
    · exact Or.inl (Nat.add_lt_add_right hlt 128)
    · rw [heq] at h ⊢
      exact Or.inr ⟨rfl, ih (Nat.lt_of_add_lt_add_right h)⟩
    · have hsmall : w % 64 ^ n < 64 ^ n := Nat.mod_lt _ (Nat.pow_pos (by decide))
      have hstep := Nat.mul_le_mul_left (64 ^ n) (Nat.succ_le_of_lt hgt)
      rw [Nat.mul_succ] at hstep
      omega

/-- The first byte of a larger character is larger, or it is the same and the digits after it are
those of a larger number. -/
theorem firstByte_lt_or {v w : Nat} (h : v < w) (hmax : w < 0x110000) :
    firstByte v < firstByte w ∨ firstByte v = firstByte w ∧ following v = following w ∧
      v % 64 ^ following v < w % 64 ^ following v := by
  unfold firstByte following
  split
  · split
    · exact Or.inl h
    · left
      split
      · omega
      split <;> omega
  rw [if_neg (show ¬w ≤ 0x7F by omega), if_neg (show ¬w ≤ 0x7F by omega)]
  split
  · split
    · omega
    · left
      split <;> omega
  rw [if_neg (show ¬w ≤ 0x7FF by omega), if_neg (show ¬w ≤ 0x7FF by omega)]
  split
  · split <;> omega
  · rw [if_neg (show ¬w ≤ 0xFFFF by omega), if_neg (show ¬w ≤ 0xFFFF by omega)]
    omega

theorem firstByte_lt_256 (code : Nat) : firstByte code < 256 := by
  unfold firstByte
  split
  · omega
  split
  · omega
  split <;> omega

/-- The bytes of a larger character are larger, whatever follows. -/
theorem utf8EncodeChar_append_lt {c d : Char} (h : c < d) (xs ys : List UInt8) :
    String.utf8EncodeChar c ++ xs < String.utf8EncodeChar d ++ ys := by
  have hbyte : ∀ code : Nat, (UInt8.ofNat (firstByte code)).toNat = firstByte code := by
    intro code
    rw [UInt8.toNat_ofNat']
    exact Nat.mod_eq_of_lt (firstByte_lt_256 code)
  have hmax : d.toNat < 0x110000 := by
    rcases d.valid with hsmall | hlarge
    · exact Nat.lt_trans hsmall (by decide)
    · exact hlarge.2
  rw [utf8EncodeChar_eq, utf8EncodeChar_eq, List.cons_append, List.cons_append,
    List.cons_lt_cons_iff, UInt8.lt_iff_toNat_lt, ← UInt8.toNat_inj, hbyte, hbyte]
  have hlt : c.toNat < d.toNat := h
  rcases firstByte_lt_or hlt hmax with hfirst | ⟨heq, hsame, hrest⟩
  · exact Or.inl hfirst
  · rw [← hsame]
    exact Or.inr ⟨heq, continuation_append_lt hrest xs ys⟩

/-! ## Texts -/

theorem flatMap_utf8EncodeChar_lt {cs ds : List Char} (h : cs < ds) :
    cs.flatMap String.utf8EncodeChar < ds.flatMap String.utf8EncodeChar := by
  induction h with
  | @nil d ds =>
    rw [List.flatMap_nil, List.flatMap_cons, utf8EncodeChar_eq, List.cons_append]
    exact List.nil_lt_cons _ _
  | rel hlt =>
    rw [List.flatMap_cons, List.flatMap_cons]
    exact utf8EncodeChar_append_lt hlt _ _
  | cons _ ih =>
    rw [List.flatMap_cons, List.flatMap_cons]
    exact List.append_left_lt ih

theorem bytes_lt_of_compare {s t : String} (h : compare s t = .lt) : bytes s < bytes t := by
  have hlt : s.toList < t.toList := String.lt_iff.mp (compareOfLessAndEq_eq_lt.mp h)
  rw [bytes_eq_flatMap, bytes_eq_flatMap]
  exact flatMap_utf8EncodeChar_lt hlt

/-- Texts are in the order of their bytes. -/
theorem compare_eq_lt_iff {s t : String} : compare s t = .lt ↔ bytes s < bytes t := by
  refine ⟨bytes_lt_of_compare, ?_⟩
  intro h
  cases hcompare : compare s t with
  | lt => rfl
  | eq =>
    rw [Std.LawfulEqCmp.eq_of_compare hcompare] at h
    exact absurd h (List.lt_irrefl _)
  | gt => exact absurd h (List.lt_asymm (bytes_lt_of_compare (Std.OrientedCmp.lt_of_gt hcompare)))

end Text

namespace SortedMap

variable {ν : Type}

/-- Keys that are texts are listed in the order of their bytes. -/
theorem keys_ascending (m : SortedMap String ν) :
    (m.entries.map (·.1)).Pairwise fun a b => Text.bytes a < Text.bytes b :=
  List.pairwise_map.mpr (m.ascending.imp Text.compare_eq_lt_iff.mp)

theorem keys_nodup (m : SortedMap String ν) : (m.entries.map (·.1)).Nodup := by
  apply m.keys_ascending.imp
  intro a b h heq
  rw [heq] at h
  exact List.lt_irrefl _ h

end SortedMap

end HostRegistry
