import Mathlib.Data.Int.Notation
import Mathlib.Data.List.Basic
import Mathlib.Tactic.Common

/-!
# Numerals as Text

Digits in bases up to sixteen, the value of a digit string, and the formats `%x`, `%#x`
and `%02x`. The main rule is `numeralValue_toDigits`: a number printed in a base reads
back as itself. Printing is `Nat.toDigits` of the core library.
-/

namespace GumstixExtras.Lib

/-! ## §1 Digits -/

/-- The value of a digit, letters in either case. -/
def digitValue (c : Char) : Option ℕ :=
  if 'A' ≤ c ∧ c ≤ 'F' then some (c.toNat - 'A'.toNat + 10)
  else if 'a' ≤ c ∧ c ≤ 'f' then some (c.toNat - 'a'.toNat + 10)
  else if '0' ≤ c ∧ c ≤ '9' then some (c.toNat - '0'.toNat)
  else none

/-- A digit of base `b`. -/
def isBaseDigit (b : ℕ) (c : Char) : Bool :=
  match digitValue c with
  | some d => d < b
  | none => false

/-- A printed digit reads back as its value. -/
theorem digitValue_digitChar {d : ℕ} (h : d < 16) : digitValue (Nat.digitChar d) = some d := by
  have hall : ∀ n : Fin 16, digitValue (Nat.digitChar n) = some n.val := by decide
  exact hall ⟨d, h⟩

theorem isBaseDigit_digitChar {b d : ℕ} (hd : d < b) (hb : b ≤ 16) :
    isBaseDigit b (Nat.digitChar d) = true := by
  rw [isBaseDigit, digitValue_digitChar (by omega)]
  simpa using hd

/-! ## §2 Digit strings -/

/-- The value of a digit string in base `b`. -/
def numeralValue (b : ℕ) (cs : List Char) : ℕ :=
  cs.foldl (fun n c => b * n + (digitValue c).getD 0) 0

theorem numeralValue_snoc (b : ℕ) (cs : List Char) (c : Char) :
    numeralValue b (cs ++ [c]) = b * numeralValue b cs + (digitValue c).getD 0 := by
  simp [numeralValue]

/-- A number printed in base `b` reads back as itself. -/
theorem numeralValue_toDigits {b : ℕ} (hb : 1 < b) (hb' : b ≤ 16) (n : ℕ) :
    numeralValue b (Nat.toDigits b n) = n := by
  -- induction along the division by the base
  induction n using Nat.strongRecOn with
  | ind n ih =>
    by_cases hn : n < b
    · rw [Nat.toDigits_of_lt_base hn]
      simp [numeralValue, digitValue_digitChar (by omega : n < 16)]
    · -- the last digit is the remainder, the digits before it are those of the quotient
      have hmod : n % b < b := Nat.mod_lt n (by omega)
      have hdiv : n / b < n := Nat.div_lt_self (by omega) hb
      rw [Nat.toDigits_of_base_le hb (by omega), numeralValue_snoc, ih _ hdiv,
        digitValue_digitChar (by omega), Option.getD_some, Nat.div_add_mod]

/-- Every character of a printed number is a digit of its base. -/
theorem isBaseDigit_of_mem_toDigits {b : ℕ} (hb : 1 < b) (hb' : b ≤ 16) {n : ℕ} {c : Char}
    (h : c ∈ Nat.toDigits b n) : isBaseDigit b c = true := by
  induction n using Nat.strongRecOn with
  | ind n ih =>
    by_cases hn : n < b
    · rw [Nat.toDigits_of_lt_base hn, List.mem_singleton] at h
      rw [h]
      exact isBaseDigit_digitChar hn hb'
    · rw [Nat.toDigits_of_base_le hb (by omega), List.mem_append, List.mem_singleton] at h
      rcases h with h | rfl
      · exact ih _ (Nat.div_lt_self (by omega) hb) h
      · exact isBaseDigit_digitChar (Nat.mod_lt n (by omega)) hb'

/-! ## §3 Formats -/

/-- `%#x` of a natural number. -/
def fmtHex (n : ℕ) : List Char := '0' :: 'x' :: Nat.toDigits 16 n

/-- A hexadecimal numeral behind `0x`, and its value. -/
def IsHexNumeral (s : List Char) (n : ℕ) : Prop :=
  ∃ digits, s = '0' :: 'x' :: digits ∧ digits ≠ [] ∧ (∀ c ∈ digits, isBaseDigit 16 c = true) ∧
    numeralValue 16 digits = n

theorem isHexNumeral_fmtHex (n : ℕ) : IsHexNumeral (fmtHex n) n :=
  ⟨_, rfl, Nat.toDigits_ne_nil, fun _ hc => isBaseDigit_of_mem_toDigits (by decide) (by decide) hc,
    numeralValue_toDigits (by decide) (by decide) n⟩

/-- A numeral without its optional `0x` marker. -/
def stripHexMarker : List Char → List Char
  | '0' :: x :: digits => if x = 'x' ∨ x = 'X' then digits else '0' :: x :: digits
  | cs => cs

@[simp] theorem stripHexMarker_fmtHex (n : ℕ) :
    stripHexMarker (fmtHex n) = Nat.toDigits 16 n := rfl

/-- `%02x` of a byte. -/
def fmtByte (b : UInt8) : List Char :=
  [Nat.digitChar (b.toNat / 16), Nat.digitChar (b.toNat % 16)]

/-- `%0wx` of a natural number. -/
def fmtHexPad (w n : ℕ) : List Char :=
  List.replicate (w - (Nat.toDigits 16 n).length) '0' ++ Nat.toDigits 16 n

/-- `%d` of an integer. -/
def fmtInt (n : ℤ) : List Char :=
  if n < 0 then '-' :: Nat.toDigits 10 n.natAbs else Nat.toDigits 10 n.natAbs

theorem isHexNumeral_fmtByte (b : UInt8) : IsHexNumeral ('0' :: 'x' :: fmtByte b) b.toNat := by
  have hhi : b.toNat / 16 < 16 := by
    have := b.toNat_lt
    omega
  have hlo : b.toNat % 16 < 16 := Nat.mod_lt _ (by decide)
  refine ⟨_, rfl, by simp [fmtByte], ?_, ?_⟩
  · simp only [fmtByte, List.forall_mem_cons]
    exact ⟨isBaseDigit_digitChar hhi (by decide), isBaseDigit_digitChar hlo (by decide), by simp⟩
  · simp only [numeralValue, fmtByte, List.foldl_cons, List.foldl_nil, digitValue_digitChar hhi,
      digitValue_digitChar hlo, Option.getD_some]
    omega

end GumstixExtras.Lib
