import GumstixExtras.I2c.Reply

/-!
# What the PEC Lets Through

A reply whose checked part was altered on the wire passes the PEC check exactly when the
generator divides the error polynomial. For two wrong bits that depends on their distance alone:
`X` has order 127 modulo the generator, so the bits have to be a multiple of 127 positions apart
(`i2cTransfer_twoBits`). Replies are long enough for that from fifteen bytes of payload on.
-/

namespace GumstixExtras.I2c

open GumstixExtras.Lib Polynomial

/-! ## §1 The checksum -/

/-- A register that is back at one has gone through a multiple of the order. -/
theorem crcGenerator_dvd_of_crc8Loop {n : ℕ} (h : crc8Loop n 1 = 1) : crcGenerator ∣ X ^ n + 1 := by
  have hresidue := residue_crc8Loop n 1
  rw [h, bytePoly_one, mul_one] at hresidue
  rw [← CharTwo.sub_eq_add, ← AdjoinRoot.mk_eq_mk]
  exact hresidue.symm

theorem crc8Loop_order : crc8Loop 127 1 = 1 := by decide +kernel

theorem crcGenerator_dvd_bitPair_iff (p k q : ℕ) :
    crcGenerator ∣ bitPoly (bitPair p k q) ↔ 127 ∣ k + 1 :=
  dvd_bitPair_iff coeff_zero_crcGenerator (by decide) (crcGenerator_dvd_of_crc8Loop crc8Loop_order)
    not_dvd_X_pow_add_one p k q

/-! ## §2 Two wrong bits -/

section Transfers

variable {k cap : ℕ} (g : I2cGlobals) (cmd : UInt8) (wrBlock rdBlock : Bool) (d : List UInt8)
  (L : ℕ) (wrData : Buffer UInt8 k) (rdData : Buffer UInt8 cap) (bytesReadp : Option UInt8)

/-- **Two wrong bits**: with the PEC on, two wrong bits in the checked part of an accepted reply
go unnoticed exactly when their distance is a multiple of 127 bits. -/
theorem i2cTransfer_twoBits (hg : g.gUseCrc = true) (hd : wrData.Filled d)
    (hlen : d.length ≤ i2cMaxDataLen) (hpos : 0 < L) (hL : L ≤ i2cMaxDataLen) (hcap : L ≤ cap)
    (R R' : List UInt8) (hR : R.length = L + rdBlock.toNat + g.gUseCrc.toNat)
    (hR' : R'.length = R.length) (hcount : rdBlock = true → R'.headD 0 = R.headD 0)
    (t : Transfer cap)
    (ht : i2cTransfer g (.done R) cmd wrData (lenByte wrBlock d.length) rdData
      (lenByte rdBlock L) bytesReadp = .ok t) (hrc : t.rc = 0) {p gap q : ℕ}
    (hbits : errorPattern (checkedPart rdBlock L R) (checkedPart rdBlock L R') =
      bitPair p gap q) :
    ∃ t', i2cTransfer g (.done R') cmd wrData (lenByte wrBlock d.length) rdData
        (lenByte rdBlock L) bytesReadp = .ok t' ∧
      t'.rc = if 127 ∣ gap + 1 then 0 else ebadmsg := by
  obtain ⟨t', ht', haccepts, houtcome⟩ := i2cTransfer_altered g cmd wrBlock rdBlock d L wrData
    rdData bytesReadp hg hd hlen hpos hL hcap R R' hR hR' hcount t ht hrc
  rw [hbits, crcGenerator_dvd_bitPair_iff] at haccepts
  refine ⟨t', ht', ?_⟩
  split
  · next hdvd => exact haccepts.mpr hdvd
  · next hdvd => exact houtcome.resolve_left fun hzero => hdvd (haccepts.mp hzero)

end Transfers

/-- Two wrong bits in the sixteen bytes of a read: the first bit, and the one 127 behind it. -/
theorem i2cTransfer_twoBits_unnoticed :
    ∃ t', i2cTransfer ⟨0x1b, true⟩ (.done (0x80 :: List.replicate 14 0 ++ [0x01, 0x1e])) 0x15
        nullBuffer (lenByte false 0) (Buffer.uninit 16 : Buffer UInt8 16) (lenByte false 16) none =
        .ok t' ∧ t'.rc = 0 := by
  obtain ⟨t, w, -, hcrc, ht, hrc⟩ := i2cTransfer_rc ⟨0x1b, true⟩ 0x15 false false [] 16 nullBuffer
    (Buffer.uninit 16) none (List.replicate 16 0 ++ [0x1e]) (Buffer.filled_nil _) (by decide)
    (by decide) (by decide) (by decide) (by decide)
  rw [(replyRc_eq_zero_iff_conforms hcrc (by decide)).mpr (by decide +kernel)] at hrc
  obtain ⟨t', ht', hrc'⟩ := i2cTransfer_twoBits ⟨0x1b, true⟩ 0x15 false false [] 16 nullBuffer
    (Buffer.uninit 16) none rfl (Buffer.filled_nil _) (by decide) (by decide) (by decide)
    (by decide) (List.replicate 16 0 ++ [0x1e]) (0x80 :: List.replicate 14 0 ++ [0x01, 0x1e])
    (by decide) (by decide) (by decide) t ht hrc
    (by decide +kernel : _ = bitPair 0 126 8)
  exact ⟨t', ht', hrc'.trans (if_pos (by decide))⟩

end GumstixExtras.I2c
