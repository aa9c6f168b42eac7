/-
# Decimal numerals in ASCII

A numeral is a list of bytes with the most significant digit in front.  `decimalFrom v ds` is the value
of the digits `ds` behind a number that was read as `v`, which is how a loop from the front reads them.
`decimal n` are the digits of `n` without leading zeros (none for zero), which are the only such ones:
they have the value of `n` (`decimalFrom_decimal`), and the first of them is not `0`
(`head?_decimal_ne_zero`).

A loop that takes remainders produces them from the back (`decimal_pos`), and how many there are is a
matter of powers of ten (`length_decimal_le_iff`).
-/
import Mathlib.Data.Nat.Digits.Lemmas
import Mathlib.Data.UInt

namespace Decimal

/-- The byte of a digit. -/
def digitByte (d : Nat) : UInt8 := UInt8.ofNat (48 + d)

/-- The byte is a decimal digit. -/
def IsDigit (c : UInt8) : Prop := 48 ≤ c.toNat ∧ c.toNat ≤ 57

instance (c : UInt8) : Decidable (IsDigit c) := inferInstanceAs (Decidable (_ ∧ _))

/-- What a number grows to when the digits `ds` are read behind it. -/
def decimalFrom (v : Nat) (ds : List UInt8) : Nat := ds.foldl (fun v c => 10 * v + (c.toNat - 48)) v

/-- The digits of a number, without leading zeros. -/
def decimal (n : Nat) : List UInt8 := (Nat.digits 10 n).reverse.map digitByte

theorem toNat_digitByte {d : Nat} (h : d < 10) : (digitByte d).toNat = 48 + d := by
  unfold digitByte
  rw [UInt8.toNat_ofNat']
  omega

theorem isDigit_digitByte {d : Nat} (h : d < 10) : IsDigit (digitByte d) := by
  unfold IsDigit
  rw [toNat_digitByte h]
  omega

/-! ## 1. The value of digits -/

@[simp] theorem decimalFrom_nil (v : Nat) : decimalFrom v [] = v := List.foldl_nil

@[simp] theorem decimalFrom_cons (v : Nat) (c : UInt8) (ds : List UInt8) :
    decimalFrom v (c :: ds) = decimalFrom (10 * v + (c.toNat - 48)) ds := List.foldl_cons ..

@[simp] theorem decimalFrom_append (v : Nat) (ds es : List UInt8) :
    decimalFrom v (ds ++ es) = decimalFrom (decimalFrom v ds) es := List.foldl_append

/-! ## 2. The digits of a number -/

@[simp] theorem decimal_zero : decimal 0 = [] := by
  simp [decimal]

/-- The last digit is the remainder, those before it are the digits of the quotient. -/
theorem decimal_pos {n : Nat} (h : 0 < n) : decimal n = decimal (n / 10) ++ [digitByte (n % 10)] := by
  unfold decimal
  rw [Nat.digits_def' (by decide) h, List.reverse_cons, List.map_append, List.map_singleton]

@[simp] theorem decimal_eq_nil {n : Nat} : decimal n = [] ↔ n = 0 := by
  simp [decimal, Nat.digits_eq_nil_iff_eq_zero]

@[simp] theorem length_decimal (n : Nat) : (decimal n).length = (Nat.digits 10 n).length := by
  simp [decimal]

theorem isDigit_of_mem_decimal {n : Nat} {c : UInt8} (h : c ∈ decimal n) : IsDigit c := by
  unfold decimal at h
  obtain ⟨d, hd, rfl⟩ := List.mem_map.mp h
  exact isDigit_digitByte (Nat.digits_lt_base (by decide) (List.mem_reverse.mp hd))

/-- How many digits there are. -/
theorem length_decimal_le_iff {n k : Nat} : (decimal n).length ≤ k ↔ n < 10 ^ k := by
  rw [length_decimal]
  exact Nat.digits_length_le_iff (by decide) n

/-- **The digits of a number have its value.** -/
theorem decimalFrom_decimal (n : Nat) : decimalFrom 0 (decimal n) = n := by
  induction n using Nat.strong_induction_on with
  | h n ih =>
    rcases Nat.eq_zero_or_pos n with rfl | hpos
    · rfl
    · have hd := toNat_digitByte (Nat.mod_lt n (by decide : 10 > 0))
      rw [decimal_pos hpos, decimalFrom_append, ih (n / 10) (by omega)]
      simp only [decimalFrom_cons, decimalFrom_nil, hd]
      omega

/-- **No leading zero.** -/
theorem head?_decimal_ne_zero (n : Nat) : (decimal n).head? ≠ some 48 := by
  induction n using Nat.strong_induction_on with
  | h n ih =>
    rcases Nat.eq_zero_or_pos n with rfl | hpos
    · simp
    · rw [decimal_pos hpos]
      rcases Nat.eq_zero_or_pos (n / 10) with hzero | hmore
      · have hd := toNat_digitByte (Nat.mod_lt n (by decide : 10 > 0))
        intro heq
        rw [hzero, decimal_zero, List.nil_append, List.head?_cons, Option.some_inj] at heq
        rw [heq] at hd
        have : n % 10 = n := by omega
        simp at hd
        omega
      · rw [List.head?_append_of_ne_nil _ (by simpa using hmore.ne')]
        exact ih (n / 10) (by omega)

end Decimal
