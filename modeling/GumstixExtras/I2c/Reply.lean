import GumstixExtras.I2c.Transfer

/-!
# Replies

Which replies `I2cTransfer` accepts, what it makes of them, and which transmission errors
its PEC check catches.

- `i2cTransfer_accepts_iff`: exactly the conforming replies are accepted, and an accepted
  reply is decoded without loss.
- `i2cTransfer_detects`: a reply that differs from an accepted one by a pattern of the
  classes CRC-8 is chosen for is refused with `EBADMSG`.
-/

namespace GumstixExtras.I2c

open GumstixExtras.Lib

/-! ## §1 Conforming replies -/

/-- The number of payload bytes a reply announces: the count byte of a block, and the
requested length otherwise. -/
def announcedLen (block : Bool) (L : ℕ) (R : List UInt8) : ℕ :=
  if block then (R.headD 0).toNat else L

/-- The payload a reply announces. -/
def announcedPayload (block : Bool) (L : ℕ) (R : List UInt8) : List UInt8 :=
  (R.drop block.toNat).take (announcedLen block L R)

/-- A reply to a request for `L` bytes conforms: a block is no longer than that, and with
the PEC on the byte behind the payload is the CRC-8 of both address bytes, the bytes `sent`
of the write message, and the reply up to there. -/
def Conforms (g : I2cGlobals) (sent : List UInt8) (block : Bool) (L : ℕ)
    (R : List UInt8) : Prop :=
  (block = true → (R.headD 0).toNat ≤ L) ∧
    (g.gUseCrc = true → R[announcedLen block L R + block.toNat]? =
      some (crc8Block 0 (addrWr g.gI2cAddr :: sent ++
        addrRd g.gI2cAddr :: R.take (announcedLen block L R + block.toNat))))

instance (g : I2cGlobals) (sent : List UInt8) (block : Bool) (L : ℕ) (R : List UInt8) :
    Decidable (Conforms g sent block L R) :=
  inferInstanceAs (Decidable (_ ∧ _))

theorem tooLong_eq_false_iff {block : Bool} {L : ℕ} {R : List UInt8} :
    tooLong block L R = false ↔ (block = true → (R.headD 0).toNat ≤ L) := by
  cases block <;> simp [tooLong]

theorem payloadLen_of_not_tooLong {block : Bool} {L : ℕ} {R : List UInt8}
    (h : tooLong block L R = false) : payloadLen block L R = announcedLen block L R := by
  simp [payloadLen, announcedLen, h]

/-- The checksum carried over the write message and the read address. -/
theorem crc8Block_readCrc {g : I2cGlobals} (hg : g.gUseCrc = true) {w : WritePart}
    {cmd : UInt8} {wrBlock : Bool} {d : List UInt8} (hcrc : w.crc = writeCrc g cmd wrBlock d)
    (body : List UInt8) :
    crc8Block (readCrc g w) body =
      crc8Block 0 (addrWr g.gI2cAddr :: writeBytes cmd wrBlock d ++
        addrRd g.gI2cAddr :: body) := by
  rw [crc8Block_append, crc8Block_cons _ (addrRd g.gI2cAddr)]
  simp only [readCrc, hg, if_true, hcrc, writeCrc]

theorem replyRc_eq_zero_iff_conforms {g : I2cGlobals} {w : WritePart} {cmd : UInt8}
    {wrBlock : Bool} {d : List UInt8} (hcrc : w.crc = writeCrc g cmd wrBlock d)
    {block : Bool} {L : ℕ} {R : List UInt8}
    (hR : R.length = L + block.toNat + g.gUseCrc.toNat) :
    replyRc g (readCrc g w) block L R = 0 ↔
      Conforms g (writeBytes cmd wrBlock d) block L R := by
  rw [replyRc_eq_zero_iff, Conforms, tooLong_eq_false_iff]
  refine and_congr_right fun hshort => imp_congr_right fun hg => ?_
  have hlen := payloadLen_of_not_tooLong (tooLong_eq_false_iff.mpr hshort)
  -- a reply that is not too long has its PEC at the announced place
  have hidx : announcedLen block L R + block.toNat < R.length := by
    have hle := payloadLen_le block L R
    rw [hg, Bool.toNat_true] at hR
    omega
  rw [crc8Block_readCrc hg hcrc, replyBody, replyPec, hlen, List.getElem?_eq_getElem hidx,
    List.getD_eq_getElem _ _ hidx, Option.some.injEq]
  exact eq_comm

/-- With a read to follow, message 0 is what the checksum covers. -/
theorem sentBytes_eq_writeBytes {cmd : UInt8} (g : I2cGlobals) {wrBlock : Bool} {L : ℕ}
    (hpos : 0 < L) {d : List UInt8} (hblock : wrBlock = true → d ≠ []) :
    sentBytes g cmd wrBlock L d = (writeBytes cmd wrBlock d).map some := by
  by_cases hne : d = []
  · cases wrBlock with
    | false => simp [sentBytes, writeBytes, hne]
    | true => exact absurd hne (hblock rfl)
  · simp [sentBytes, writeBytes, hne, smbusWrite, hpos]

/-! ## §2 Acceptance and decoding -/

/-- What a transfer makes of the reply `R`: it has sent `sent` and asked for exactly the
reply's bytes, it returns 0 if and only if the reply conforms, and then the payload stands at
the front of `rdData`, the rest of `rdData` is unchanged, and the payload is counted. -/
def DecodesReply {cap : ℕ} (g : I2cGlobals) (block : Bool) (L : ℕ) (R : List UInt8)
    (rdData : Buffer UInt8 cap) (bytesReadp : Option UInt8) (t : Transfer cap) : Prop :=
  ∃ m₀ m₁ sent, t.msgs = some [m₀, m₁] ∧ m₀.bytes = sent.map some ∧ m₁.len = R.length ∧
    (t.rc = 0 ↔ Conforms g sent block L R) ∧
    (t.rc = 0 →
      (announcedPayload block L R).length = announcedLen block L R ∧
      t.rdData.cells = (announcedPayload block L R).map some ++
        rdData.cells.drop (announcedLen block L R) ∧
      t.bytesRead = bytesReadp.map fun _ => UInt8.ofNat (announcedLen block L R))

section Replies

variable {k cap : ℕ} (g : I2cGlobals) (cmd : UInt8) (wrBlock rdBlock : Bool)
  (d : List UInt8) (L : ℕ) (wrData : Buffer UInt8 k) (rdData : Buffer UInt8 cap)
  (bytesReadp : Option UInt8)

/-- **Accepted replies**: exactly the conforming replies are accepted, and an accepted
reply is decoded without loss. -/
theorem i2cTransfer_accepts_iff (R : List UInt8) (hd : wrData.Filled d)
    (hlen : d.length ≤ i2cMaxDataLen) (hblock : wrBlock = true → d ≠ []) (hpos : 0 < L)
    (hL : L ≤ i2cMaxDataLen) (hcap : L ≤ cap)
    (hR : R.length = L + rdBlock.toNat + g.gUseCrc.toNat) :
    ∃ t, i2cTransfer g (.done R) cmd wrData (lenByte wrBlock d.length) rdData
        (lenByte rdBlock L) bytesReadp = .ok t ∧
      DecodesReply g rdBlock L R rdData bytesReadp t := by
  obtain ⟨w, hw, hcrc, -, hbytes⟩ := transferWrite_eq g cmd wrBlock L hd hlen
  have hRlen : L + rdBlock.toNat ≤ R.length := by omega
  have hpayload := length_replyPayload _ _ _ hRlen
  -- the payload fits because no more than `L` bytes are taken
  have hfit : 0 + (replyPayload rdBlock L R).length ≤ cap := by
    have := payloadLen_le rdBlock L R
    omega
  have ht := i2cTransfer_read g cmd rdBlock hlen hpos hL hw R
    (received_eq hR).symm rdData bytesReadp hfit
  have hmsgs : requestMsgs g w rdBlock L = [⟨g.gI2cAddr.toUInt16, 0, w.len, w.wrBuf.cells⟩,
      ⟨g.gI2cAddr.toUInt16, i2cMRd, L + rdBlock.toNat + g.gUseCrc.toNat,
        List.replicate (i2cMaxDataLen + 2) none⟩] := by
    rw [requestMsgs, if_pos hpos]
  have hsent := hbytes.trans (sentBytes_eq_writeBytes g hpos hblock)
  refine ⟨_, ht, _, _, writeBytes cmd wrBlock d, congrArg some hmsgs, hsent, hR.symm,
    replyRc_eq_zero_iff_conforms hcrc hR, ?_⟩
  -- an accepted reply is not too long, so the announced count is the one used
  intro hrc
  have hshort : tooLong rdBlock L R = false := ((replyRc_eq_zero_iff g _ _ _ _).mp hrc).1
  have hn := payloadLen_of_not_tooLong hshort
  have hpay : replyPayload rdBlock L R = announcedPayload rdBlock L R := by
    rw [replyPayload, announcedPayload, hn]
  rw [hpay, hn] at hpayload
  simp only [Buffer.cells_splice, hpay, hn, hpayload, List.take_zero, List.nil_append,
    Nat.zero_add, and_self]

/-- A block reply of two bytes where four were allowed, with its PEC and two bytes behind. -/
theorem i2cTransfer_accepts_shortBlock :
    ∃ t, i2cTransfer ⟨0x1b, true⟩ (.done [2, 0xaa, 0xbb, 0x23, 0xff, 0xff]) 0x15 nullBuffer
        (lenByte false 0) (Buffer.uninit 4 : Buffer UInt8 4) (lenByte true 4) (some 0) = .ok t ∧
      DecodesReply ⟨0x1b, true⟩ true 4 [2, 0xaa, 0xbb, 0x23, 0xff, 0xff] (Buffer.uninit 4)
        (some 0) t :=
  i2cTransfer_accepts_iff ⟨0x1b, true⟩ 0x15 false true [] 4 nullBuffer (Buffer.uninit 4) (some 0)
    [2, 0xaa, 0xbb, 0x23, 0xff, 0xff] (Buffer.filled_nil _) (by decide) (by decide) (by decide)
    (by decide) (by decide) (by decide)

/-! ## §3 Detection -/

/-- The checked part of a reply: count byte, payload and PEC. -/
def checkedPart (block : Bool) (L : ℕ) (R : List UInt8) : List UInt8 :=
  R.take (announcedLen block L R + block.toNat + 1)

theorem checkedPart_eq {g : I2cGlobals} (hg : g.gUseCrc = true) {block : Bool} {L : ℕ}
    {R : List UInt8} (hR : R.length = L + block.toNat + g.gUseCrc.toNat)
    (hshort : tooLong block L R = false) :
    checkedPart block L R = replyBody block L R ++ [replyPec block L R] := by
  have hlen := payloadLen_of_not_tooLong hshort
  have hidx : announcedLen block L R + block.toNat < R.length := by
    have hle := payloadLen_le block L R
    rw [hg, Bool.toNat_true] at hR
    omega
  rw [checkedPart, replyBody, replyPec, hlen, List.getD_eq_getElem _ _ hidx,
    List.take_append_getElem hidx]

/-- The return value for an altered reply: the PEC check decides, and it sees the difference
only. -/
theorem replyRc_altered {g : I2cGlobals} {w : WritePart} {block : Bool} {L : ℕ}
    {R R' : List UInt8} (hg : g.gUseCrc = true)
    (hR : R.length = L + block.toNat + g.gUseCrc.toNat) (hR' : R'.length = R.length)
    (hcount : block = true → R'.headD 0 = R.headD 0) (hrc : replyRc g (readCrc g w) block L R = 0) :
    (replyRc g (readCrc g w) block L R' = 0 ↔
      crcGenerator ∣ bitPoly (errorPattern (checkedPart block L R) (checkedPart block L R'))) ∧
      (replyRc g (readCrc g w) block L R' = 0 ∨ replyRc g (readCrc g w) block L R' = ebadmsg) := by
  rw [replyRc_eq_zero_iff] at hrc
  obtain ⟨hshort, hpec⟩ := hrc
  -- the count byte is the same, and with it the length of the payload and the length check
  have hann : announcedLen block L R' = announcedLen block L R := by
    cases block with
    | false => rfl
    | true => simp only [announcedLen, hcount rfl]
  have hshort' : tooLong block L R' = false := by
    cases block with
    | false => rfl
    | true => simpa only [tooLong, hcount rfl] using hshort
  have hbody : (replyBody block L R).length = (replyBody block L R').length := by
    simp only [replyBody, payloadLen_of_not_tooLong hshort, payloadLen_of_not_tooLong hshort',
      hann, List.length_take, hR']
  rw [checkedPart_eq hg hR hshort, checkedPart_eq hg (hR'.trans hR) hshort',
    ← crc8Block_eq_iff_dvd hbody (hpec hg)]
  refine ⟨(replyRc_eq_zero_iff g _ _ _ _).trans ⟨fun h => h.2 hg, fun h => ⟨hshort', fun _ => h⟩⟩,
    ?_⟩
  -- the check of the length has passed, so only the PEC can refuse
  unfold replyRc
  rw [hshort']
  split
  · exact .inr rfl
  · exact .inl rfl

/-- The return value for a reply, on its own. -/
theorem i2cTransfer_rc (R : List UInt8) (hd : wrData.Filled d)
    (hlen : d.length ≤ i2cMaxDataLen) (hpos : 0 < L) (hL : L ≤ i2cMaxDataLen) (hcap : L ≤ cap)
    (hR : R.length = L + rdBlock.toNat + g.gUseCrc.toNat) :
    ∃ t w, transferWrite g cmd wrData d.length wrBlock L = .ok w ∧
      w.crc = writeCrc g cmd wrBlock d ∧
      i2cTransfer g (.done R) cmd wrData (lenByte wrBlock d.length) rdData
        (lenByte rdBlock L) bytesReadp = .ok t ∧
      t.rc = replyRc g (readCrc g w) rdBlock L R := by
  obtain ⟨w, hw, hcrc, -⟩ := transferWrite_eq g cmd wrBlock L hd hlen
  have hpayload := length_replyPayload rdBlock L R (by omega)
  have hle := payloadLen_le rdBlock L R
  have ht := i2cTransfer_read g cmd rdBlock hlen hpos hL hw R
    (received_eq hR).symm rdData bytesReadp (by omega)
  exact ⟨_, w, hw, hcrc, ht, rfl⟩

/-- **Altered replies**: with the PEC on, a reply of the same length and count as an accepted
one is accepted as well exactly when the generator divides the difference of the checked parts,
and is refused with `EBADMSG` otherwise. -/
theorem i2cTransfer_altered (hg : g.gUseCrc = true) (hd : wrData.Filled d)
    (hlen : d.length ≤ i2cMaxDataLen) (hpos : 0 < L) (hL : L ≤ i2cMaxDataLen) (hcap : L ≤ cap)
    (R R' : List UInt8) (hR : R.length = L + rdBlock.toNat + g.gUseCrc.toNat)
    (hR' : R'.length = R.length) (hcount : rdBlock = true → R'.headD 0 = R.headD 0)
    (t : Transfer cap)
    (ht : i2cTransfer g (.done R) cmd wrData (lenByte wrBlock d.length) rdData
      (lenByte rdBlock L) bytesReadp = .ok t) (hrc : t.rc = 0) :
    ∃ t', i2cTransfer g (.done R') cmd wrData (lenByte wrBlock d.length) rdData
        (lenByte rdBlock L) bytesReadp = .ok t' ∧
      (t'.rc = 0 ↔ crcGenerator ∣
        bitPoly (errorPattern (checkedPart rdBlock L R) (checkedPart rdBlock L R'))) ∧
      (t'.rc = 0 ∨ t'.rc = ebadmsg) := by
  obtain ⟨s, w, hw, -, hs, hsrc⟩ := i2cTransfer_rc g cmd wrBlock rdBlock d L wrData rdData
    bytesReadp R hd hlen hpos hL hcap hR
  obtain ⟨s', w', hw', -, hs', hsrc'⟩ := i2cTransfer_rc g cmd wrBlock rdBlock d L wrData rdData
    bytesReadp R' hd hlen hpos hL hcap (hR'.trans hR)
  obtain rfl : s = t := Except.ok.inj (hs.symm.trans ht)
  obtain rfl : w = w' := Except.ok.inj (hw.symm.trans hw')
  rw [hsrc] at hrc
  refine ⟨s', hs', ?_⟩
  rw [hsrc']
  exact replyRc_altered hg hR hR' hcount hrc

/-- **Detected errors**: with the PEC on, a reply of the same length and count that differs
from an accepted one in the checked part by a burst of at most eight bits, an odd number of
bits, or two bits fewer than 127 positions apart, makes the transfer return `EBADMSG`. -/
theorem i2cTransfer_detects (hg : g.gUseCrc = true) (hd : wrData.Filled d)
    (hlen : d.length ≤ i2cMaxDataLen) (hpos : 0 < L) (hL : L ≤ i2cMaxDataLen) (hcap : L ≤ cap)
    (R R' : List UInt8) (hR : R.length = L + rdBlock.toNat + g.gUseCrc.toNat)
    (hR' : R'.length = R.length) (hcount : rdBlock = true → R'.headD 0 = R.headD 0)
    (t : Transfer cap)
    (ht : i2cTransfer g (.done R) cmd wrData (lenByte wrBlock d.length) rdData
      (lenByte rdBlock L) bytesReadp = .ok t)
    (hrc : t.rc = 0)
    (hne : true ∈ errorPattern (checkedPart rdBlock L R) (checkedPart rdBlock L R'))
    (hdet : Detectable (errorPattern (checkedPart rdBlock L R) (checkedPart rdBlock L R'))) :
    ∃ t', i2cTransfer g (.done R') cmd wrData (lenByte wrBlock d.length) rdData
      (lenByte rdBlock L) bytesReadp = .ok t' ∧ t'.rc = ebadmsg := by
  obtain ⟨t', ht', haccepts, houtcome⟩ := i2cTransfer_altered g cmd wrBlock rdBlock d L wrData
    rdData bytesReadp hg hd hlen hpos hL hcap R R' hR hR' hcount t ht hrc
  refine ⟨t', ht', houtcome.resolve_left fun hzero => ?_⟩
  -- an unnoticed error would be a multiple of the generator
  exact not_dvd_of_detectable hne hdet (haccepts.mp hzero)

end Replies

/-- One wrong bit in a byte read with the PEC on. -/
theorem i2cTransfer_detects_bitError :
    ∃ t', i2cTransfer ⟨0x1b, true⟩ (.done [0xab, 0x72]) 0x15 nullBuffer (lenByte false 0)
        (Buffer.uninit 1 : Buffer UInt8 1) (lenByte false 1) none = .ok t' ∧
      t'.rc = ebadmsg := by
  obtain ⟨t, w, -, hcrc, ht, hrc⟩ := i2cTransfer_rc ⟨0x1b, true⟩ 0x15 false false [] 1 nullBuffer
    (Buffer.uninit 1) none [0xaa, 0x72] (Buffer.filled_nil _) (by decide) (by decide) (by decide)
    (by decide) (by decide)
  rw [(replyRc_eq_zero_iff_conforms hcrc (by decide)).mpr (by decide +kernel)] at hrc
  exact i2cTransfer_detects ⟨0x1b, true⟩ 0x15 false false [] 1 nullBuffer (Buffer.uninit 1) none
    rfl (Buffer.filled_nil _) (by decide) (by decide) (by decide) (by decide) [0xaa, 0x72]
    [0xab, 0x72] (by decide) (by decide) (by decide) t ht hrc (by decide)
    (Or.inr (Or.inl (by decide)))

end GumstixExtras.I2c
