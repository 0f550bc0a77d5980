import GumstixExtras.Lib.BitPoly

/-!
# CRC-8 of SMBus (`Crc8.c`)

The checksum as `Crc8.c` computes it, and what it means: each pass of the bit loop is one
step of a Galois shift register with feedback `0x07`, so `crc8Block` is the residue of the
message modulo `x^8 + x^2 + x + 1`, and a received checksum is accepted exactly when the
generator divides the message with its checksum appended.
-/

namespace GumstixExtras.I2c

open Polynomial
open GumstixExtras.Lib

/-! ## §1 The code -/

/-- One pass of the loop of `Crc8` (the version for 8 bit CPUs, which is the one compiled). -/
def crc8Bit (data : UInt8) : UInt8 :=
  if data &&& 0x80 ≠ 0 then (data <<< 1) ^^^ 0x07 else data <<< 1

/-- The loop of `Crc8`, `n` passes. -/
def crc8Loop : ℕ → UInt8 → UInt8
  | 0, data => data
  | n + 1, data => crc8Loop n (crc8Bit data)

/-- `Crc8`: one byte into the checksum. -/
def crc8 (inCrc inData : UInt8) : UInt8 := crc8Loop 8 (inCrc ^^^ inData)

/-- `Crc8Block`: a block of bytes into the checksum. -/
def crc8Block (crc : UInt8) : List UInt8 → UInt8
  | [] => crc
  | b :: data => crc8Block (crc8 crc b) data

theorem crc8Block_nil (crc : UInt8) : crc8Block crc [] = crc := rfl

theorem crc8Block_cons (crc b : UInt8) (data : List UInt8) :
    crc8Block crc (b :: data) = crc8Block (crc8 crc b) data := rfl

theorem crc8Block_append (crc : UInt8) (as bs : List UInt8) :
    crc8Block crc (as ++ bs) = crc8Block (crc8Block crc as) bs := by
  induction as generalizing crc with
  | nil => rfl
  | cons a as ih => exact ih (crc8 crc a)

/-! ## §2 The shift register -/

/-- The feedback of the shift register: the bits of `0x07`. -/
def taps : List Bool := byteBits 0x07

@[simp] theorem length_taps : taps.length = 8 := length_byteBits _

/-- `x^8 + x^2 + x + 1`. -/
noncomputable abbrev crcGenerator : (ZMod 2)[X] := generator taps

theorem crcGenerator_eq : crcGenerator = X ^ 8 + X ^ 2 + X + 1 := by
  have htaps : taps = [false, false, false, false, false, true, true, true] := by decide
  rw [crcGenerator, generator_eq, length_taps, htaps]
  simp only [bitPoly_cons, bitPoly_nil, bitCoeff_false, bitCoeff_true, C_0, C_1,
    List.length_cons, List.length_nil]
  ring

theorem byteBits_crc8Bit (data : UInt8) :
    byteBits (crc8Bit data) = registerStep taps (byteBits data) := by
  have htop := and_topBit_ne_zero_iff data
  rw [crc8Bit, byteBits_eq_cons data]
  cases hbit : data.toBitVec.getMsbD 0 with
  | true =>
    -- a one falls out, and the feedback is added
    rw [if_pos (htop.mpr hbit), byteBits_xor, byteBits_shiftLeft]
    rfl
  | false =>
    have hzero : ¬ data &&& 0x80 ≠ 0 := by
      rw [htop, hbit]
      exact Bool.false_ne_true
    rw [if_neg hzero, byteBits_shiftLeft]
    rfl

/-- The polynomial of one byte. -/
noncomputable def bytePoly (b : UInt8) : (ZMod 2)[X] := bitPoly (byteBits b)

theorem bytePoly_one : bytePoly 1 = 1 := by
  rw [bytePoly, show byteBits 1 = List.replicate 7 false ++ [true] by decide, bitPoly_append,
    bitPoly_replicate_false]
  simp [bitPoly_cons]

theorem bytePoly_xor (a b : UInt8) : bytePoly (a ^^^ b) = bytePoly a + bytePoly b := by
  rw [bytePoly, byteBits_xor, bitPoly_zipWith_xor (by simp)]
  rfl

theorem degree_bytePoly_lt (b : UInt8) : (bytePoly b).degree < (8 : ℕ) := by
  have h := degree_bitPoly_lt (byteBits b)
  rwa [length_byteBits] at h

theorem bytePoly_injective : Function.Injective bytePoly := fun _ _ h =>
  byteBits_injective (bitPoly_injective (by simp) h)

/-- Residue classes modulo the generator. -/
noncomputable abbrev residue : (ZMod 2)[X] →+* AdjoinRoot crcGenerator :=
  AdjoinRoot.mk crcGenerator

theorem residue_bytePoly_injective {a b : UInt8}
    (h : residue (bytePoly a) = residue (bytePoly b)) : a = b :=
  bytePoly_injective (eq_of_mk_eq (by simpa using degree_bytePoly_lt a)
    (by simpa using degree_bytePoly_lt b) h)

theorem residue_crc8Bit (data : UInt8) :
    residue (bytePoly (crc8Bit data)) = residue (X * bytePoly data) := by
  rw [bytePoly, byteBits_crc8Bit]
  exact mk_registerStep (by simp)

theorem residue_crc8Loop (n : ℕ) (data : UInt8) :
    residue (bytePoly (crc8Loop n data)) = residue (X ^ n * bytePoly data) := by
  induction n generalizing data with
  | zero => simp [crc8Loop]
  | succ n ih =>
    rw [crc8Loop, ih, map_mul, residue_crc8Bit, ← map_mul, pow_succ, mul_assoc]

theorem residue_crc8 (inCrc inData : UInt8) :
    residue (bytePoly (crc8 inCrc inData)) =
      residue (X ^ 8 * (bytePoly inCrc + bytePoly inData)) := by
  rw [crc8, residue_crc8Loop, bytePoly_xor]

/-- What `crc8Block` computes: the seed and the message, shifted past the checksum. -/
theorem residue_crc8Block (crc : UInt8) (data : List UInt8) :
    residue (bytePoly (crc8Block crc data)) =
      residue (X ^ (8 * data.length) * bytePoly crc + X ^ 8 * bitPoly (bytesBits data)) := by
  induction data generalizing crc with
  | nil => simp [crc8Block]
  | cons b data ih =>
    -- the first byte goes through its eight steps together with the seed, and the rest of the
    -- message shifts the result on
    have hbits : bitPoly (bytesBits (b :: data)) =
        bytePoly b * X ^ (8 * data.length) + bitPoly (bytesBits data) := by
      rw [bytesBits_cons, bitPoly_append, length_bytesBits, bytePoly]
    have hpoly : X ^ (8 * data.length) * (X ^ 8 * (bytePoly crc + bytePoly b)) +
        X ^ 8 * bitPoly (bytesBits data) =
        X ^ (8 * (b :: data).length) * bytePoly crc +
          X ^ 8 * bitPoly (bytesBits (b :: data)) := by
      rw [hbits, List.length_cons, Nat.mul_add, pow_add]
      ring
    rw [crc8Block, ih, map_add, map_mul, residue_crc8, ← map_mul, ← map_add, hpoly]

/-- A checksum byte is the right one exactly when the generator divides the seeded
message with that byte appended. -/
theorem crc8Block_eq_iff (crc pec : UInt8) (data : List UInt8) :
    crc8Block crc data = pec ↔
      crcGenerator ∣ X ^ (8 * data.length) * bytePoly crc +
        bitPoly (bytesBits (data ++ [pec])) := by
  -- the appended byte sits below the message, and addition is subtraction
  have hsplit : X ^ (8 * data.length) * bytePoly crc + bitPoly (bytesBits (data ++ [pec])) =
      (X ^ (8 * data.length) * bytePoly crc + X ^ 8 * bitPoly (bytesBits data)) -
        bytePoly pec := by
    rw [bytesBits_append, bitPoly_append, CharTwo.sub_eq_add, bytePoly, bytePoly]
    simp only [bytesBits_cons, bytesBits_nil, List.append_nil, length_byteBits]
    ring
  rw [hsplit, ← AdjoinRoot.mk_eq_mk, ← residue_crc8Block]
  constructor
  · rintro rfl
    rfl
  · exact residue_bytePoly_injective

/-! ## §3 Error detection -/

theorem coeff_zero_crcGenerator : crcGenerator.coeff 0 = 1 := by
  rw [crcGenerator_eq]
  simp

theorem eval_one_crcGenerator : crcGenerator.eval 1 = 0 := by
  rw [crcGenerator_eq]
  simp only [eval_add, eval_pow, eval_X, eval_one, one_pow]
  decide

/-- `x` has order 127 modulo the generator: no smaller power comes back to one. -/
theorem not_dvd_X_pow_add_one (d : ℕ) (hpos : 0 < d) (hlt : d < 127) :
    ¬ crcGenerator ∣ X ^ d + 1 := by
  intro hdvd
  -- a register that starts with one holds the powers of `x`
  have hloop : crc8Loop d 1 = 1 := by
    apply residue_bytePoly_injective
    rw [residue_crc8Loop, bytePoly_one, mul_one]
    exact AdjoinRoot.mk_eq_mk.mpr (by rwa [CharTwo.sub_eq_add])
  -- and the register comes back to one after 127 steps, not before
  have hall : ∀ n : Fin 127, 0 < n.val → crc8Loop n 1 ≠ 1 := by decide +kernel
  exact hall ⟨d, hlt⟩ hpos hloop

/-- The error classes CRC-8 is chosen for. -/
def Detectable (e : List Bool) : Prop := Burst 8 e ∨ OddWeight e ∨ TwoBits 127 e

theorem not_dvd_of_detectable {e : List Bool} (hne : true ∈ e) (he : Detectable e) :
    ¬ crcGenerator ∣ bitPoly e := by
  rcases he with hburst | hodd | htwo
  · refine not_dvd_of_burst coeff_zero_crcGenerator ?_ hne hburst
    rw [degree_generator, length_taps]
  · exact not_dvd_of_oddWeight eval_one_crcGenerator hodd
  · exact not_dvd_of_twoBits coeff_zero_crcGenerator not_dvd_X_pow_add_one htwo

/-- The error pattern between two byte strings, most significant bit first. -/
def errorPattern (r r' : List UInt8) : List Bool :=
  List.zipWith xor (bytesBits r) (bytesBits r')

/-- **Detection**: next to an accepted string another one of its length is accepted exactly when
the generator divides the difference. -/
theorem crc8Block_eq_iff_dvd {crc pec pec' : UInt8} {data data' : List UInt8}
    (hlen : data.length = data'.length) (hok : crc8Block crc data = pec) :
    crc8Block crc data' = pec' ↔
      crcGenerator ∣ bitPoly (errorPattern (data ++ [pec]) (data' ++ [pec'])) := by
  have hbits : (bytesBits (data ++ [pec])).length = (bytesBits (data' ++ [pec'])).length := by
    simp [hlen]
  rw [crc8Block_eq_iff] at hok ⊢
  -- the seed contributes the same polynomial to both strings and cancels in their sum, which is
  -- the error pattern
  rw [errorPattern, bitPoly_zipWith_xor hbits, ← hlen, ← dvd_add_right hok, add_add_add_comm,
    CharTwo.add_self_eq_zero, zero_add]

end GumstixExtras.I2c
