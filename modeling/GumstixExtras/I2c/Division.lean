import GumstixExtras.I2c.Crc8

/-!
# The Checksum as Polynomial Division

`Crc8.c` says what the checksum is twice: its comment names the polynomial, and a
traditional version of `Crc8` stands next to the one that is compiled. Both agree with
`crc8Block`.

- `crc8_eq_crc8Traditional`: the version for 8 bit CPUs is the traditional one without the
  lower byte, which is always zero.
- `crc8Block_isRemainder`: the checksum of a block is a remainder of polynomial division.
-/

namespace GumstixExtras.I2c

open Polynomial
open GumstixExtras.Lib

/-! ## §1 The traditional version -/

/-- `POLYNOMIAL`. -/
def polynomial : UInt16 := (0x1070 : UInt16) <<< 3

/-- One pass of the loop of the traditional `Crc8`. -/
def crc8TraditionalBit (data : UInt16) : UInt16 :=
  let data := if data &&& 0x8000 ≠ 0 then data ^^^ polynomial else data
  data <<< 1

/-- The loop of the traditional `Crc8`, `n` passes. -/
def crc8TraditionalLoop : ℕ → UInt16 → UInt16
  | 0, data => data
  | n + 1, data => crc8TraditionalLoop n (crc8TraditionalBit data)

/-- The traditional `Crc8`, which keeps the checksum in the upper byte of a 16 bit word. -/
def crc8Traditional (inCrc inData : UInt8) : UInt8 :=
  let data := (inCrc ^^^ inData).toUInt16 <<< 8
  (crc8TraditionalLoop 8 data >>> 8).toUInt8

/-! ## §2 The upper byte -/

/-- A byte in the upper half of a word. -/
def highByte (b : UInt8) : UInt16 := b.toUInt16 <<< 8

theorem toNat_highByte (b : UInt8) : (highByte b).toNat = b.toNat * 256 := by
  have := b.toNat_lt
  rw [highByte, UInt16.toNat_shiftLeft, UInt8.toNat_toUInt16, Nat.shiftLeft_eq]
  show b.toNat * 256 % 65536 = b.toNat * 256
  omega

theorem highByte_injective : Function.Injective highByte := by
  intro a b h
  have hnat := congrArg UInt16.toNat h
  rw [toNat_highByte, toNat_highByte] at hnat
  exact UInt8.toNat_inj.mp (Nat.eq_of_mul_eq_mul_right (by decide) hnat)

theorem highByte_xor (a b : UInt8) : highByte (a ^^^ b) = highByte a ^^^ highByte b := by
  rw [highByte, UInt8.toUInt16_xor, UInt16.shiftLeft_xor]
  rfl

theorem highByte_and (a b : UInt8) : highByte (a &&& b) = highByte a &&& highByte b := by
  rw [highByte, UInt8.toUInt16_and, UInt16.shiftLeft_and]
  rfl

/-- What falls out of the byte falls out of the word. -/
theorem highByte_shiftLeft (b : UInt8) : highByte (b <<< 1) = highByte b <<< 1 := by
  apply UInt16.toNat_inj.mp
  rw [toNat_highByte, UInt8.toNat_shiftLeft, UInt16.toNat_shiftLeft, toNat_highByte]
  simp only [Nat.shiftLeft_eq]
  show b.toNat * 2 % 256 * 256 = b.toNat * 256 * 2 % 65536
  omega

theorem highByte_shiftRight (b : UInt8) : (highByte b >>> 8).toUInt8 = b := by
  have := b.toNat_lt
  apply UInt8.toNat_inj.mp
  rw [UInt16.toNat_toUInt8, UInt16.toNat_shiftRight, toNat_highByte, Nat.shiftRight_eq_div_pow]
  show b.toNat * 256 / 256 % 256 = b.toNat
  omega

/-- The polynomial without the bit that is shifted out. -/
theorem polynomial_shiftLeft : polynomial <<< 1 = highByte 0x07 := by decide

/-- Both loops look at the same bit. -/
theorem topBit_highByte (b : UInt8) : highByte b &&& 0x8000 ≠ 0 ↔ b &&& 0x80 ≠ 0 := by
  have hmask : (0x8000 : UInt16) = highByte 0x80 := by decide
  have hzero : (0 : UInt16) = highByte 0 := by decide
  rw [hmask, ← highByte_and, hzero]
  exact not_congr highByte_injective.eq_iff

/-! ## §3 Both versions -/

/-- One pass on a word whose lower byte is zero is one pass on its upper byte. The word adds
the polynomial before the shift, the byte adds the shifted polynomial behind it. -/
theorem crc8TraditionalBit_highByte (b : UInt8) :
    crc8TraditionalBit (highByte b) = highByte (crc8Bit b) := by
  rw [crc8TraditionalBit, crc8Bit]
  by_cases htop : b &&& 0x80 ≠ 0
  · rw [if_pos htop, if_pos ((topBit_highByte b).mpr htop), highByte_xor, highByte_shiftLeft,
      UInt16.shiftLeft_xor, polynomial_shiftLeft]
  · rw [if_neg htop, if_neg (mt (topBit_highByte b).mp htop), highByte_shiftLeft]

theorem crc8TraditionalLoop_highByte (n : ℕ) (b : UInt8) :
    crc8TraditionalLoop n (highByte b) = highByte (crc8Loop n b) := by
  induction n generalizing b with
  | zero => rfl
  | succ n ih => rw [crc8TraditionalLoop, crc8TraditionalBit_highByte, ih, crc8Loop]

/-- The two versions of `Crc8` compute the same. -/
theorem crc8_eq_crc8Traditional : crc8 = crc8Traditional := by
  funext inCrc inData
  show crc8Loop 8 (inCrc ^^^ inData) =
    (crc8TraditionalLoop 8 (highByte (inCrc ^^^ inData)) >>> 8).toUInt8
  rw [crc8TraditionalLoop_highByte, highByte_shiftRight]

theorem crc8Block_eq_foldl (crc : UInt8) (data : List UInt8) :
    crc8Block crc data = data.foldl crc8 crc := by
  induction data generalizing crc with
  | nil => rfl
  | cons b data ih => exact ih (crc8 crc b)

/-! ## §4 Remainders -/

/-- The checksum is the remainder of the seeded message behind a shift by the checksum. -/
theorem bytePoly_crc8Block (crc : UInt8) (data : List UInt8) :
    bytePoly (crc8Block crc data) =
      (X ^ (8 * data.length) * bytePoly crc + X ^ 8 * bitPoly (bytesBits data)) %
        crcGenerator := by
  apply eq_mod_of_mk_eq
  · rw [length_taps]
    exact degree_bytePoly_lt _
  · exact residue_crc8Block crc data

/-- The seed meets the first byte of the message. -/
theorem seeded_eq (crc : UInt8) {data : List UInt8} (hne : data ≠ []) :
    X ^ (8 * data.length) * bytePoly crc + X ^ 8 * bitPoly (bytesBits data) =
      (bytePoly crc * X ^ (8 * (data.length - 1)) + bitPoly (bytesBits data)) * X ^ 8 := by
  have hpos : 0 < data.length := List.length_pos_iff.mpr hne
  have hlen : 8 * data.length = 8 * (data.length - 1) + 8 := by omega
  rw [hlen, pow_add]
  ring

/-- A checksum into itself leaves nothing. -/
theorem crc8_self (crc : UInt8) : crc8 crc crc = 0 := by
  have hzero : crc8Loop 8 0 = 0 := by decide
  rw [crc8, UInt8.xor_self, hzero]

end GumstixExtras.I2c
