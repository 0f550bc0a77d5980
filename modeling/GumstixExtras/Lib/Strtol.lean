import GumstixExtras.Lib.Numeral
import Mathlib.Data.List.TakeWhile

/-!
# `strtol` with Base Zero

The conversion of the C library for base `0`: leading white space, an optional sign, a
`0x` prefix for hexadecimal or a leading `0` for octal, and the longest run of digits of
that base. The result saturates at the range of `long`, whose width is that of the data
model. Without any digit the value is zero and nothing is consumed.
-/

namespace GumstixExtras.Lib

/-! ## §1 Integer types -/

/-- The width of `long`: 32 bits on the ILP32 targets, 64 on the LP64 ones. -/
inductive DataModel
  | ilp32
  | lp64
  deriving DecidableEq, Repr

/-- `LONG_MAX`. -/
def DataModel.longMax : DataModel → ℤ
  | .ilp32 => 2147483647
  | .lp64 => 9223372036854775807

/-- `LONG_MIN`. -/
def DataModel.longMin (dm : DataModel) : ℤ := -dm.longMax - 1

/-- The conversion of a `long` to `int` (32 bits on both targets). -/
def toCInt (v : ℤ) : ℤ := Int.bmod v 0x100000000

/-- A value of `int` survives the conversion. -/
theorem toCInt_eq {v : ℤ} (hlo : -2147483648 ≤ v) (hhi : v ≤ 2147483647) : toCInt v = v :=
  Int.bmod_eq_of_le (by omega) (by omega)

/-! ## §2 The conversion -/

/-- `isspace` in the C locale. -/
def isSpace (c : Char) : Bool :=
  c = ' ' || c = '\t' || c = '\n' || c = '\x0b' || c = '\x0c' || c = '\r'

/-- The base a numeral announces, and its text without a `0x` prefix. -/
def announcedBase : List Char → ℕ × List Char
  | '0' :: x :: c :: rest =>
    -- `0x` counts only in front of a digit
    if (x = 'x' ∨ x = 'X') ∧ isBaseDigit 16 c then (16, c :: rest)
    else (8, '0' :: x :: c :: rest)
  | '0' :: rest => (8, '0' :: rest)
  | cs => (10, cs)

/-- An optional sign: whether it is a minus, and the text behind it. -/
def splitSign : List Char → Bool × List Char
  | '-' :: rest => (true, rest)
  | '+' :: rest => (false, rest)
  | cs => (false, cs)

/-- `strtol(s, &end, 0)`: the value, and the text at `end`. -/
def strtol (dm : DataModel) (s : List Char) : ℤ × List Char :=
  let signed := splitSign (s.dropWhile isSpace)
  let based := announcedBase signed.2
  let digits := based.2.takeWhile (isBaseDigit based.1)
  if digits = [] then
    -- nothing was converted: the end is the start, before any white space
    (0, s)
  else
    let magnitude : ℤ := numeralValue based.1 digits
    let value := if signed.1 then -magnitude else magnitude
    (max dm.longMin (min dm.longMax value), based.2.drop digits.length)

example : strtol .ilp32 " -0x1Fz".toList = (-31, ['z']) := by decide
example : strtol .ilp32 "0xz".toList = (0, ['x', 'z']) := by decide

/-! ## §3 Printed numerals -/

/-- A hexadecimal numeral is read to its end, and saturates. -/
theorem strtol_hexNumeral (dm : DataModel) {s : List Char} {n : ℕ} (h : IsHexNumeral s n) :
    strtol dm s = (min dm.longMax n, []) := by
  obtain ⟨digits, rfl, hne, hall, rfl⟩ := h
  obtain ⟨c, rest, hdigits⟩ := List.exists_cons_of_ne_nil hne
  have hc : isBaseDigit 16 c = true := hall c (by simp [hdigits])
  -- the marker announces base 16 because a digit follows it
  have hbase : announcedBase ('0' :: 'x' :: digits) = (16, digits) := by
    simp [hdigits, announcedBase, hc]
  have hsign : splitSign ('0' :: 'x' :: digits) = (false, '0' :: 'x' :: digits) := rfl
  have hspace : ('0' :: 'x' :: digits).dropWhile isSpace = '0' :: 'x' :: digits := rfl
  have htake : digits.takeWhile (isBaseDigit 16) = digits := List.takeWhile_eq_self_iff.mpr hall
  -- the value is not negative, so only the upper bound can cut it
  have hmin : dm.longMin ≤ 0 := by cases dm <;> decide
  have hmax : 0 ≤ dm.longMax := by cases dm <;> decide
  simp only [strtol, hspace, hsign, hbase, htake, hne, if_false, List.drop_length,
    Bool.false_eq_true, Prod.mk.injEq, and_true]
  omega

/-! ## §4 The grammar -/

/-- The unsigned numerals: decimal from a digit other than zero, octal from a zero, and
hexadecimal behind `0x` or `0X`. -/
inductive IsMagnitude : List Char → ℕ → Prop
  | decimal {c : Char} {digits : List Char} (hzero : c ≠ '0')
      (hall : ∀ d ∈ c :: digits, isBaseDigit 10 d = true) :
      IsMagnitude (c :: digits) (numeralValue 10 (c :: digits))
  | octal {digits : List Char} (hall : ∀ d ∈ digits, isBaseDigit 8 d = true) :
      IsMagnitude ('0' :: digits) (numeralValue 8 ('0' :: digits))
  | hexadecimal {x : Char} {digits : List Char} (hx : x = 'x' ∨ x = 'X') (hne : digits ≠ [])
      (hall : ∀ d ∈ digits, isBaseDigit 16 d = true) :
      IsMagnitude ('0' :: x :: digits) (numeralValue 16 digits)

/-- The numerals of `strtol` with base zero and their values: white space, an optional sign,
and an unsigned numeral. -/
inductive IsNumeral : List Char → ℤ → Prop
  | unsigned {space text : List Char} {n : ℕ} (hspace : ∀ c ∈ space, isSpace c = true)
      (h : IsMagnitude text n) : IsNumeral (space ++ text) n
  | plus {space text : List Char} {n : ℕ} (hspace : ∀ c ∈ space, isSpace c = true)
      (h : IsMagnitude text n) : IsNumeral (space ++ '+' :: text) n
  | minus {space text : List Char} {n : ℕ} (hspace : ∀ c ∈ space, isSpace c = true)
      (h : IsMagnitude text n) : IsNumeral (space ++ '-' :: text) (-n)

theorem isNumeral_of_isHexNumeral {s : List Char} {n : ℕ} (h : IsHexNumeral s n) :
    IsNumeral s n := by
  obtain ⟨digits, rfl, hne, hall, rfl⟩ := h
  exact @IsNumeral.unsigned [] _ _ (by simp) (.hexadecimal (.inl rfl) hne hall)

/-- The value `strtol` gives for a number that may be out of the range of `long`. -/
def DataModel.clamp (dm : DataModel) (v : ℤ) : ℤ := max dm.longMin (min dm.longMax v)

theorem digitValue_lt {c : Char} {d : ℕ} (h : digitValue c = some d) : d < 16 := by
  unfold digitValue at h
  -- each run of digits is counted from its first character
  have hle : ∀ {a b : Char}, a ≤ b → a.toNat ≤ b.toNat := fun h => h
  split at h
  · next hc =>
    have := hle hc.2
    cases h
    simp at this ⊢
    omega
  · split at h
    · next hc =>
      have := hle hc.2
      cases h
      simp at this ⊢
      omega
    · split at h
      · next hc =>
        have := hle hc.2
        cases h
        simp at this ⊢
        omega
      · cases h

/-- The text of a magnitude is all digits of the base it announces. -/
theorem announcedBase_of_isMagnitude {text : List Char} {n : ℕ} (h : IsMagnitude text n) :
    ∃ b digits, announcedBase text = (b, digits) ∧ digits ≠ [] ∧
      (∀ d ∈ digits, isBaseDigit b d = true) ∧ numeralValue b digits = n := by
  cases h with
  | decimal hzero hall =>
    refine ⟨10, _, ?_, List.cons_ne_nil _ _, hall, rfl⟩
    unfold announcedBase
    split
    · next heq => exact absurd (List.cons.inj heq).1 hzero
    · next heq => exact absurd (List.cons.inj heq).1 hzero
    · rfl
  | octal hall =>
    have hzero : isBaseDigit 8 '0' = true := by decide
    refine ⟨8, _, ?_, List.cons_ne_nil _ _, List.forall_mem_cons.mpr ⟨hzero, hall⟩, rfl⟩
    unfold announcedBase
    split
    · next x c rest heq =>
      -- an x is no octal digit
      obtain ⟨-, rfl⟩ := List.cons.inj heq
      have hx : isBaseDigit 8 x = true := hall x List.mem_cons_self
      rw [if_neg]
      rintro ⟨rfl | rfl, -⟩ <;> exact absurd hx (by decide)
    · next rest _ heq =>
      obtain ⟨-, rfl⟩ := List.cons.inj heq
      rfl
    · next _ hno => exact absurd rfl (hno _)
  | hexadecimal hx hne hall =>
    obtain ⟨c, rest, rfl⟩ := List.exists_cons_of_ne_nil hne
    have hc : isBaseDigit 16 c = true := hall c List.mem_cons_self
    exact ⟨16, c :: rest, by simp [announcedBase, hx, hc], hne, hall, rfl⟩

/-- A text of digits of the base it announces is a magnitude. -/
theorem isMagnitude_of_announcedBase {text digits : List Char} {b : ℕ}
    (h : announcedBase text = (b, digits)) (hne : digits ≠ [])
    (hall : ∀ d ∈ digits, isBaseDigit b d = true) :
    IsMagnitude text (numeralValue b digits) := by
  unfold announcedBase at h
  split at h
  · next x c rest =>
    split at h
    · next hx =>
      cases h
      exact .hexadecimal hx.1 hne hall
    · -- the first three characters announce no base 16, so the text is octal
      cases h
      exact .octal fun d hd => hall d (List.mem_cons_of_mem _ hd)
  · next rest _ =>
    cases h
    exact .octal fun d hd => hall d (List.mem_cons_of_mem _ hd)
  · next hno =>
    cases h
    -- no leading zero
    obtain ⟨c, rest, rfl⟩ := List.exists_cons_of_ne_nil hne
    refine .decimal ?_ hall
    rintro rfl
    exact absurd rfl (hno rest)

/-- A magnitude starts with a digit. -/
theorem IsMagnitude.head {text : List Char} {n : ℕ} (h : IsMagnitude text n) :
    ∃ c rest, text = c :: rest ∧ isBaseDigit 10 c = true := by
  cases h with
  | decimal hzero hall => exact ⟨_, _, rfl, hall _ List.mem_cons_self⟩
  | octal hall => exact ⟨_, _, rfl, by decide⟩
  | hexadecimal hx hne hall => exact ⟨_, _, rfl, by decide⟩

/-- A text in which a magnitude follows the white space and the sign is read to its end. -/
theorem strtol_magnitude (dm : DataModel) {space signed text : List Char} {n : ℕ} {neg : Bool}
    (hspace : ∀ c ∈ space, isSpace c = true) (hstart : signed.dropWhile isSpace = signed)
    (hsign : splitSign signed = (neg, text)) (h : IsMagnitude text n) :
    strtol dm (space ++ signed) = (dm.clamp (if neg then -n else n), []) := by
  obtain ⟨b, digits, hbase, hne, hall, rfl⟩ := announcedBase_of_isMagnitude h
  have htake : digits.takeWhile (isBaseDigit b) = digits := List.takeWhile_eq_self_iff.mpr hall
  simp only [strtol, List.dropWhile_append_of_pos hspace, hstart, hsign, hbase, htake, hne,
    if_false, List.drop_length, DataModel.clamp]

/-- A numeral is read to its end. -/
theorem strtol_numeral (dm : DataModel) {s : List Char} {v : ℤ} (h : IsNumeral s v) :
    strtol dm s = (dm.clamp v, []) := by
  cases h with
  | @unsigned space text n hspace h =>
    obtain ⟨c, rest, rfl, hc⟩ := h.head
    -- a digit is neither white space nor a sign
    have hstart : isSpace c = false := by
      by_contra hs
      simp only [Bool.not_eq_false, isSpace, Bool.or_eq_true, decide_eq_true_eq] at hs
      rcases hs with ((((rfl | rfl) | rfl) | rfl) | rfl) | rfl <;> exact absurd hc (by decide)
    have hsign : splitSign (c :: rest) = (false, c :: rest) := by
      unfold splitSign
      split
      · next heq => obtain ⟨rfl, -⟩ := List.cons.inj heq; exact absurd hc (by decide)
      · next heq => obtain ⟨rfl, -⟩ := List.cons.inj heq; exact absurd hc (by decide)
      · rfl
    have hread := strtol_magnitude dm hspace (by simp [hstart]) hsign h
    rwa [if_neg Bool.false_ne_true] at hread
  | @plus space text n hspace h =>
    have hstart : ('+' :: text).dropWhile isSpace = '+' :: text := rfl
    have hsign : splitSign ('+' :: text) = (false, text) := rfl
    have hread := strtol_magnitude dm hspace hstart hsign h
    rwa [if_neg Bool.false_ne_true] at hread
  | @minus space text n hspace h =>
    have hstart : ('-' :: text).dropWhile isSpace = '-' :: text := rfl
    have hsign : splitSign ('-' :: text) = (true, text) := rfl
    have hread := strtol_magnitude dm hspace hstart hsign h
    rwa [if_pos rfl] at hread

/-- A text that is read to its end is empty or a numeral. -/
theorem isNumeral_of_strtol {dm : DataModel} {s : List Char} (h : (strtol dm s).2 = []) :
    s = [] ∨ ∃ v, IsNumeral s v := by
  rcases hbased : announcedBase (splitSign (s.dropWhile isSpace)).2 with ⟨b, based⟩
  simp only [strtol, hbased] at h
  split at h
  · exact .inl h
  · next hne =>
    -- nothing is left behind the digits, so the text is digits only
    have hlen : based.length ≤ (based.takeWhile (isBaseDigit b)).length :=
      List.drop_eq_nil_iff.mp h
    have hall : based.takeWhile (isBaseDigit b) = based :=
      (List.takeWhile_prefix _).eq_of_length_le hlen
    rw [hall] at hne
    have hmag := isMagnitude_of_announcedBase hbased hne (List.takeWhile_eq_self_iff.mp hall)
    have hspace : ∀ c ∈ s.takeWhile isSpace, isSpace c = true := fun c hc =>
      List.mem_takeWhile_imp hc
    have hsplit : s = s.takeWhile isSpace ++ s.dropWhile isSpace :=
      List.takeWhile_append_dropWhile.symm
    rw [hsplit]
    refine .inr ?_
    generalize s.dropWhile isSpace = signed at hmag
    unfold splitSign at hmag
    split at hmag
    · exact ⟨_, .minus hspace hmag⟩
    · exact ⟨_, .plus hspace hmag⟩
    · exact ⟨_, .unsigned hspace hmag⟩

/-- A printed number other than zero does not start with a zero. -/
theorem exists_toDigits_eq_cons {n : ℕ} (hn : 0 < n) :
    ∃ c rest, Nat.toDigits 10 n = c :: rest ∧ c ≠ '0' := by
  induction n using Nat.strongRecOn with
  | ind n ih =>
    by_cases hlt : n < 10
    · have hall : ∀ m : Fin 10, 0 < m.val → Nat.digitChar m ≠ '0' := by decide
      exact ⟨_, [], Nat.toDigits_of_lt_base hlt, hall ⟨n, hlt⟩ hn⟩
    · -- the first digit is that of the quotient
      obtain ⟨c, rest, hdigits, hc⟩ := ih (n / 10) (by omega) (by omega)
      refine ⟨c, rest ++ [Nat.digitChar (n % 10)], ?_, hc⟩
      rw [Nat.toDigits_of_base_le (by decide) (by omega), hdigits, List.cons_append]

theorem isMagnitude_toDigits (n : ℕ) : IsMagnitude (Nat.toDigits 10 n) n := by
  rcases Nat.eq_zero_or_pos n with rfl | hn
  · exact .octal fun d hd => absurd hd List.not_mem_nil
  · obtain ⟨c, rest, hdigits, hc⟩ := exists_toDigits_eq_cons hn
    have hall : ∀ d ∈ c :: rest, isBaseDigit 10 d = true := fun d hd =>
      isBaseDigit_of_mem_toDigits (by decide) (by decide) (hdigits ▸ hd)
    have hvalue := numeralValue_toDigits (by decide : 1 < 10) (by decide) n
    rw [hdigits] at hvalue ⊢
    have hmag := IsMagnitude.decimal hc hall
    rwa [hvalue] at hmag

/-- A number printed with `%d` is read to its end. -/
theorem strtol_fmtInt (dm : DataModel) (n : ℕ) : strtol dm (fmtInt n) = (dm.clamp n, []) := by
  have hprinted : fmtInt n = [] ++ Nat.toDigits 10 n := by
    rw [fmtInt, if_neg (by omega), Int.natAbs_natCast, List.nil_append]
  rw [hprinted]
  exact strtol_numeral dm (.unsigned (by simp) (isMagnitude_toDigits n))

end GumstixExtras.Lib
