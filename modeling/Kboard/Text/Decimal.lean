import Mathlib.Algebra.Order.Group.Int
import Mathlib.Data.List.Induction
import Mathlib.Tactic.Ring

/-!
# Decimal numerals as bytes

The number a string of digits denotes, read from the left, and the numerals
that denote a given number: the canonical one, and those of a fixed width with
leading zeros. A machine that accumulates the digits in a word of fixed size
gets the number modulo the size of the word.
-/

set_option autoImplicit false

namespace Kboard.Text

def isDigit (b : UInt8) : Bool := 48 ≤ b.toNat && b.toNat ≤ 57

def digitValue (b : UInt8) : Nat := b.toNat - 48

def digitByte (digit : Nat) : UInt8 := UInt8.ofNat (48 + digit % 10)

def value (digits : List UInt8) : Nat :=
  digits.foldl (fun total b => 10 * total + digitValue b) 0

/-- The digits accumulated in a word of `w` bits that wraps around. -/
def accumulate (w : Nat) (digits : List UInt8) : BitVec w :=
  digits.foldl (fun total b => 10 * total + BitVec.ofNat w (digitValue b)) 0

/-- The canonical numeral, without leading zeros. -/
def numeral (n : Nat) : List UInt8 :=
  if n < 10 then [digitByte n] else numeral (n / 10) ++ [digitByte (n % 10)]

/-- The last `width` digits of a number. -/
def fixedNumeral : Nat → Nat → List UInt8
  | 0, _ => []
  | width + 1, n => fixedNumeral width (n / 10) ++ [digitByte (n % 10)]

/-! ## Digits -/

theorem toNat_digitByte (digit : Nat) : (digitByte digit).toNat = 48 + digit % 10 := by
  unfold digitByte
  rw [UInt8.toNat_ofNat']
  omega

theorem isDigit_digitByte (digit : Nat) : isDigit (digitByte digit) := by
  simp only [isDigit, toNat_digitByte, Bool.and_eq_true, decide_eq_true_eq]
  omega

theorem digitValue_digitByte {digit : Nat} (small : digit < 10) :
    digitValue (digitByte digit) = digit := by
  rw [digitValue, toNat_digitByte]
  omega

theorem value_snoc (digits : List UInt8) (b : UInt8) :
    value (digits ++ [b]) = 10 * value digits + digitValue b := by
  simp [value]

theorem accumulate_eq (w : Nat) (digits : List UInt8) :
    accumulate w digits = BitVec.ofNat w (value digits) := by
  induction digits using List.reverseRecOn with
  | nil => rfl
  | append_singleton digits b ih =>
      rw [value_snoc, accumulate, List.foldl_append, ← accumulate, ih]
      simp [BitVec.ofNat_add, BitVec.ofNat_mul]

/-! ## Numerals -/

theorem isDigit_of_mem_numeral (n : Nat) : ∀ b ∈ numeral n, isDigit b := by
  induction n using numeral.induct with
  | case1 n small =>
      rw [numeral, if_pos small]
      simp [isDigit_digitByte]
  | case2 n large ih =>
      rw [numeral, if_neg large]
      intro b member
      rcases List.mem_append.mp member with earlier | last
      · exact ih b earlier
      · rw [List.mem_singleton.mp last]
        exact isDigit_digitByte _

theorem value_numeral (n : Nat) : value (numeral n) = n := by
  induction n using numeral.induct with
  | case1 n small =>
      rw [numeral, if_pos small, ← List.nil_append [_], value_snoc, digitValue_digitByte small]
      simp [value]
  | case2 n large ih =>
      rw [numeral, if_neg large, value_snoc, ih, digitValue_digitByte (by omega)]
      omega

theorem numeral_ne_nil (n : Nat) : numeral n ≠ [] := by
  rw [numeral]
  split <;> simp

theorem length_numeral_le {n width : Nat} (small : n < 10 ^ (width + 1)) :
    (numeral n).length ≤ width + 1 := by
  induction width generalizing n with
  | zero =>
      rw [numeral, if_pos (by simpa using small)]
      simp
  | succ width ih =>
      rw [numeral]
      split
      · simp
      · have quotient : n / 10 < 10 ^ (width + 1) := by
          rw [Nat.div_lt_iff_lt_mul (by decide), ← pow_succ]
          exact small
        have shorter := ih quotient
        simp only [List.length_append, List.length_singleton]
        omega

theorem length_fixedNumeral (width n : Nat) : (fixedNumeral width n).length = width := by
  induction width generalizing n with
  | zero => rfl
  | succ width ih => simp [fixedNumeral, ih]

theorem isDigit_of_mem_fixedNumeral (width n : Nat) : ∀ b ∈ fixedNumeral width n, isDigit b := by
  induction width generalizing n with
  | zero => simp [fixedNumeral]
  | succ width ih =>
      intro b member
      rcases List.mem_append.mp member with earlier | last
      · exact ih (n / 10) b earlier
      · rw [List.mem_singleton.mp last]
        exact isDigit_digitByte _

theorem value_append_fixedNumeral (digits : List UInt8) {width n : Nat} (small : n < 10 ^ width) :
    value (digits ++ fixedNumeral width n) = value digits * 10 ^ width + n := by
  induction width generalizing n with
  | zero =>
      obtain rfl : n = 0 := by simpa using small
      simp [fixedNumeral]
  | succ width ih =>
      have quotient : n / 10 < 10 ^ width := by
        rw [Nat.div_lt_iff_lt_mul (by decide), ← pow_succ]
        exact small
      rw [fixedNumeral, ← List.append_assoc, value_snoc, ih quotient,
        digitValue_digitByte (by omega), pow_succ]
      have split : n = 10 * (n / 10) + n % 10 := by omega
      calc 10 * (value digits * 10 ^ width + n / 10) + n % 10
          _ = value digits * (10 ^ width * 10) + (10 * (n / 10) + n % 10) := by ring
          _ = value digits * (10 ^ width * 10) + n := by rw [← split]

end Kboard.Text
