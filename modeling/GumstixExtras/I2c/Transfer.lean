import GumstixExtras.I2c.Api
import Mathlib.Data.List.GetD

/-!
# What a Transfer Does

The SMBus framing as a specification (`smbusWrite`, `decodeReply`), and one rule for each
half of `I2cTransfer` that says what it does in those terms. Everything about transfers
below rests on these rules and never unfolds the code again.
-/

namespace GumstixExtras.I2c

open GumstixExtras.Lib

/-! ## §1 Length bytes -/

/-- A length argument of `I2cTransfer`: the length, with 0x80 or'ed in for a block. -/
def lenByte (block : Bool) (n : ℕ) : UInt8 :=
  if block then 0x80 ||| UInt8.ofNat n else UInt8.ofNat n

theorem lenByte_flag (block : Bool) {n : ℕ} (h : n ≤ i2cMaxDataLen) :
    decide (lenByte block n &&& 0x80 ≠ 0) = block := by
  have hall : ∀ b : Bool, ∀ m : Fin 33, decide (lenByte b m &&& 0x80 ≠ 0) = b := by decide
  exact hall block ⟨n, Nat.lt_succ_of_le h⟩

theorem lenByte_len (block : Bool) {n : ℕ} (h : n ≤ i2cMaxDataLen) :
    (lenByte block n &&& 0x7f).toNat = n := by
  have hall : ∀ b : Bool, ∀ m : Fin 33, (lenByte b m &&& 0x7f).toNat = m := by decide
  exact hall block ⟨n, Nat.lt_succ_of_le h⟩

/-! ## §2 The write half -/

/-- The address byte of a write. -/
def addrWr (a : UInt8) : UInt8 := a <<< 1

/-- The address byte of a read. -/
def addrRd (a : UInt8) : UInt8 := a <<< 1 ||| 1

/-- The data phase: a block carries its length first. -/
def dataPhase (block : Bool) (d : List UInt8) : List UInt8 :=
  if block then UInt8.ofNat d.length :: d else d

theorem length_dataPhase (block : Bool) (d : List UInt8) :
    (dataPhase block d).length = d.length + block.toNat := by
  cases block <;> simp [dataPhase]

/-- The write message of an SMBus transaction: the command, the data phase, and the PEC
over everything from the address on when no read follows. -/
def smbusWrite (g : I2cGlobals) (cmd : UInt8) (block : Bool) (d : List UInt8)
    (readRequested : Bool) : List UInt8 :=
  let body := cmd :: dataPhase block d
  if g.gUseCrc && !readRequested then body ++ [crc8Block 0 (addrWr g.gI2cAddr :: body)]
  else body

/-- The bytes of message 0 that the running checksum covers. -/
def writeBytes (cmd : UInt8) (block : Bool) (d : List UInt8) : List UInt8 :=
  cmd :: if d = [] then [] else dataPhase block d

/-- The checksum after the write half. -/
def writeCrc (g : I2cGlobals) (cmd : UInt8) (block : Bool) (d : List UInt8) : UInt8 :=
  if g.gUseCrc then crc8Block 0 (addrWr g.gI2cAddr :: writeBytes cmd block d) else 0

section Write

variable {k : ℕ} (g : I2cGlobals) (cmd : UInt8) {wrData : Buffer UInt8 k} (block : Bool)
  (rdLen : ℕ)

/-- Without data the write half assigns the command byte only. -/
theorem transferWrite_nil (wrData : Buffer UInt8 k) :
    ∃ wrBuf, transferWrite g cmd wrData 0 block rdLen =
        .ok ⟨wrBuf, 1 + block.toNat, writeCrc g cmd block []⟩ ∧
      wrBuf.cells = some cmd :: List.replicate (i2cMaxDataLen + 2) none := by
  have hstore := Buffer.store_eq (α := UInt8) (Buffer.uninit (i2cMaxDataLen + 3))
    (i := 0) (Nat.succ_pos _) cmd
  refine ⟨(Buffer.uninit (i2cMaxDataLen + 3)).splice 0 [cmd] (Nat.succ_pos _), ?_, ?_⟩
  · simp only [transferWrite, hstore, ok_bind, pure_eq_ok, Nat.lt_irrefl, if_false, Nat.zero_add,
      writeCrc, writeBytes, if_true, crc8Block_cons, crc8Block_nil, addrWr]
  · simp [Buffer.cells_splice]

/-- The copy leaves the command and the data phase, for either form of the data. -/
theorem copyWrData_filled {buf : Buffer UInt8 (i2cMaxDataLen + 3)} (hbuf : buf.Filled [cmd])
    {d : List UInt8} (hlen : d.length ≤ i2cMaxDataLen) :
    ∃ buf', copyWrData buf block d = .ok buf' ∧ buf'.Filled (cmd :: dataPhase block d) := by
  cases block with
  | true =>
    -- a block: the count first, then the data
    obtain ⟨buf₁, hstore, hbuf₁⟩ := hbuf.exists_store (by simp) (UInt8.ofNat d.length)
    obtain ⟨buf₂, hwrite, hbuf₂⟩ := hbuf₁.exists_write d (by simp; omega)
    refine ⟨buf₂, ?_, by simpa [dataPhase] using hbuf₂⟩
    simp only [List.length_singleton] at hstore
    simpa [copyWrData, hstore] using hwrite
  | false =>
    obtain ⟨buf₁, hwrite, hbuf₁⟩ := hbuf.exists_write d (by simp; omega)
    exact ⟨buf₁, by simpa [copyWrData] using hwrite, by simpa [dataPhase] using hbuf₁⟩

/-- With data the write half assigns the whole SMBus message and nothing is missing. -/
theorem transferWrite_data {d : List UInt8} (hd : wrData.Filled d) (hne : d ≠ [])
    (hlen : d.length ≤ i2cMaxDataLen) :
    ∃ wrBuf, transferWrite g cmd wrData d.length block rdLen =
        .ok ⟨wrBuf, (smbusWrite g cmd block d (decide (0 < rdLen))).length,
          writeCrc g cmd block d⟩ ∧
      wrBuf.Filled (smbusWrite g cmd block d (decide (0 < rdLen))) := by
  have hpos : 0 < d.length := List.length_pos_iff.mpr hne
  -- the pieces of the call, in the order of the code: the data, the command byte, the copy
  have hread : wrData.read 0 d.length = .ok d := by
    simpa using hd.read 0 d.length (by simp)
  obtain ⟨buf₀, hstore, hbuf₀⟩ :=
    (Buffer.filled_nil (Buffer.uninit (i2cMaxDataLen + 3))).exists_store (Nat.succ_pos _) cmd
  obtain ⟨buf, hcopy, hbuf⟩ := copyWrData_filled cmd block hbuf₀ hlen
  have hphase : (if block = true then d.length + 1 else d.length) =
      (dataPhase block d).length := by
    cases block <;> simp [dataPhase]
  -- the checksum runs over what the copy has put behind the command
  have hblock : buf.read 1 (dataPhase block d).length = .ok (dataPhase block d) := by
    simpa using hbuf.read 1 (dataPhase block d).length
      (by rw [List.length_cons]; omega)
  have hcrc : crc8Block (crc8 (crc8 0 (g.gI2cAddr <<< 1)) cmd) (dataPhase block d) =
      crc8Block 0 (addrWr g.gI2cAddr :: cmd :: dataPhase block d) := by
    rw [crc8Block_cons, crc8Block_cons, addrWr]
  have hlen' : d.length + 1 + block.toNat = (cmd :: dataPhase block d).length := by
    rw [List.length_cons, length_dataPhase]; omega
  simp only [List.length_nil] at hstore
  simp only [transferWrite, hstore, ok_bind, hpos, if_true, hread, hcopy, hphase, pure_eq_ok]
  cases hg : g.gUseCrc with
  | false =>
    refine ⟨buf, ?_, ?_⟩ <;> simp [smbusWrite, writeCrc, hg, hlen', hbuf]
  | true =>
    simp only [if_true, hblock, ok_bind, hcrc]
    by_cases hrd : rdLen = 0
    · -- write only: the checksum goes behind the data and is counted in
      obtain ⟨buf₁, hpec, hbuf₁⟩ := hbuf.exists_store
        (by rw [← hlen']; have := Bool.toNat_le block; omega)
        (crc8Block 0 (addrWr g.gI2cAddr :: cmd :: dataPhase block d))
      simp only [List.length_cons] at hpec
      refine ⟨buf₁, ?_, ?_⟩
      · simp [hrd, hpec, smbusWrite, writeCrc, writeBytes, hne, hg, hlen']
      · simpa [hrd, smbusWrite, hg] using hbuf₁
    · -- a read follows: the message ends with the data
      have hpos' : 0 < rdLen := Nat.pos_of_ne_zero hrd
      refine ⟨buf, ?_, ?_⟩
      · simp [hrd, hpos', smbusWrite, writeCrc, writeBytes, hne, hg, hlen']
      · simpa [hpos', smbusWrite, hg] using hbuf

/-- The contents of message 0. Without data the count byte of a block stays unassigned and
the PEC is left out. -/
def sentBytes (d : List UInt8) : List (Option UInt8) :=
  if d = [] then some cmd :: List.replicate block.toNat none
  else (smbusWrite g cmd block d (decide (0 < rdLen))).map some

/-- **The write rule**: what message 0 contains, and where the checksum stands. -/
theorem transferWrite_eq {d : List UInt8} (hd : wrData.Filled d)
    (hlen : d.length ≤ i2cMaxDataLen) :
    ∃ w, transferWrite g cmd wrData d.length block rdLen = .ok w ∧
      w.crc = writeCrc g cmd block d ∧ w.len = (sentBytes g cmd block rdLen d).length ∧
      w.wrBuf.cells.take w.len = sentBytes g cmd block rdLen d := by
  by_cases hne : d = []
  · -- no data: a block leaves room for a count it never assigns
    subst hne
    obtain ⟨wrBuf, hw, hcells⟩ := transferWrite_nil g cmd block rdLen wrData
    have hle := Bool.toNat_le block
    refine ⟨_, hw, rfl, by simp [sentBytes, Nat.add_comm], ?_⟩
    have htake : min block.toNat (i2cMaxDataLen + 2) = block.toNat :=
      Nat.min_eq_left (by omega)
    simp [hcells, sentBytes, Nat.add_comm 1, List.take_replicate, htake]
  · obtain ⟨wrBuf, hw, hfilled⟩ := transferWrite_data g cmd block rdLen hd hne hlen
    refine ⟨_, hw, rfl, by simp [sentBytes, hne], ?_⟩
    simpa [sentBytes, hne, Buffer.Filled] using hfilled

end Write

/-! ## §3 The read half -/

/-- A block reply that announces more than was asked for. -/
def tooLong (block : Bool) (L : ℕ) (R : List UInt8) : Bool :=
  block && decide (L < (R.headD 0).toNat)

/-- The number of payload bytes taken from a reply: the announced count of a block that
is not too long, and the requested length otherwise. -/
def payloadLen (block : Bool) (L : ℕ) (R : List UInt8) : ℕ :=
  if block && !tooLong block L R then (R.headD 0).toNat else L

/-- The bytes of a reply the checksum covers: the count byte of a block and the payload. -/
def replyBody (block : Bool) (L : ℕ) (R : List UInt8) : List UInt8 :=
  R.take (payloadLen block L R + block.toNat)

/-- The payload of a reply. -/
def replyPayload (block : Bool) (L : ℕ) (R : List UInt8) : List UInt8 :=
  (R.drop block.toNat).take (payloadLen block L R)

/-- The byte of a reply that is compared with the checksum. -/
def replyPec (block : Bool) (L : ℕ) (R : List UInt8) : UInt8 :=
  R.getD (payloadLen block L R + block.toNat) 0

/-- The return value for a reply: the PEC check runs last and overrides the length check. -/
def replyRc (g : I2cGlobals) (crc : UInt8) (block : Bool) (L : ℕ) (R : List UInt8) : ℤ :=
  if g.gUseCrc ∧ crc8Block crc (replyBody block L R) ≠ replyPec block L R then ebadmsg
  else if tooLong block L R then emsgsize else 0

/-- What the length check reports. -/
def countLog (block : Bool) (L : ℕ) (R : List UInt8) : List Diagnostic :=
  if tooLong block L R then [.lengthTooBig (R.headD 0).toNat L] else []

/-- What the PEC check reports. -/
def pecLog (g : I2cGlobals) (crc : UInt8) (block : Bool) (L : ℕ) (R : List UInt8) :
    List Diagnostic :=
  if g.gUseCrc ∧ crc8Block crc (replyBody block L R) ≠ replyPec block L R then
    [.crcFailed (replyPec block L R) (crc8Block crc (replyBody block L R))]
  else []

theorem payloadLen_le (block : Bool) (L : ℕ) (R : List UInt8) : payloadLen block L R ≤ L := by
  unfold payloadLen
  split
  · next h =>
    rw [Bool.and_eq_true, Bool.not_eq_true', tooLong] at h
    rw [h.1, Bool.true_and, decide_eq_false_iff_not] at h
    exact Nat.le_of_not_lt h.2
  · exact Nat.le_refl L

theorem length_replyPayload (block : Bool) (L : ℕ) (R : List UInt8)
    (h : L + block.toNat ≤ R.length) :
    (replyPayload block L R).length = payloadLen block L R := by
  have hle := payloadLen_le block L R
  rw [replyPayload, List.length_take, List.length_drop]
  omega

/-- A reply is accepted exactly when neither check fails. -/
theorem replyRc_eq_zero_iff (g : I2cGlobals) (crc : UInt8) (block : Bool) (L : ℕ)
    (R : List UInt8) :
    replyRc g crc block L R = 0 ↔ tooLong block L R = false ∧
      (g.gUseCrc = true → crc8Block crc (replyBody block L R) = replyPec block L R) := by
  have h₁ : ebadmsg ≠ 0 := by decide
  have h₂ : emsgsize ≠ 0 := by decide
  unfold replyRc
  split
  · next hpec =>
    simp only [h₁, false_iff]
    exact fun h => hpec.2 (h.2 hpec.1)
  · next hpec =>
    have himp : g.gUseCrc = true →
        crc8Block crc (replyBody block L R) = replyPec block L R := by tauto
    cases tooLong block L R
    · simpa using himp
    · simp [h₂]

section Read

variable {cap : ℕ} (g : I2cGlobals) (crc : UInt8) {rdBuf : Buffer UInt8 (i2cMaxDataLen + 2)}
  {R : List UInt8} {block : Bool} {L : ℕ}

theorem checkCount_eq (hR : rdBuf.Filled R) (hlen : L + block.toNat ≤ R.length) :
    checkCount rdBuf block L =
      .ok (if tooLong block L R then emsgsize else 0, payloadLen block L R,
        countLog block L R) := by
  cases block with
  | false => simp [checkCount, tooLong, payloadLen, countLog]
  | true =>
    obtain ⟨count, rest, rfl⟩ := List.exists_cons_of_length_pos
      (Nat.lt_of_lt_of_le (Nat.succ_pos L) hlen)
    have hload : rdBuf.load 0 = .ok count := hR.load (Nat.succ_pos _)
    -- a block: its first byte is the count
    by_cases hcount : L < count.toNat
    · simp [checkCount, hload, hcount, tooLong, payloadLen, countLog]
    · simp [checkCount, hload, hcount, tooLong, payloadLen, countLog]

theorem checkPec_eq (hR : rdBuf.Filled R)
    (hlen : L + block.toNat + g.gUseCrc.toNat ≤ R.length) (rc : ℤ) :
    checkPec g crc rdBuf (payloadLen block L R + block.toNat) rc =
      .ok (if g.gUseCrc ∧ crc8Block crc (replyBody block L R) ≠ replyPec block L R
        then ebadmsg else rc, pecLog g crc block L R) := by
  cases hg : g.gUseCrc with
  | false => simp [checkPec, hg, pecLog]
  | true =>
    have hle := payloadLen_le block L R
    -- the PEC stands behind the bytes it covers, inside the reply
    have hidx : payloadLen block L R + block.toNat < R.length := by
      rw [hg, Bool.toNat_true] at hlen
      omega
    have hread : rdBuf.read 0 (payloadLen block L R + block.toNat) =
        .ok (replyBody block L R) := by
      simpa [replyBody] using hR.read 0 (payloadLen block L R + block.toNat)
        (by omega)
    have hload : rdBuf.load (payloadLen block L R + block.toNat) =
        .ok (replyPec block L R) := by
      rw [hR.load hidx, replyPec, List.getD_eq_getElem _ _ hidx]
    by_cases hpec : crc8Block crc (replyBody block L R) = replyPec block L R
    · simp [checkPec, hg, hread, hload, hpec, pecLog]
    · simp [checkPec, hg, hread, hload, hpec, pecLog]

/-- **The read half**: the return value is `replyRc`, and the payload is copied out and
counted whatever the return value is. -/
theorem transferRead_eq (hR : rdBuf.Filled R)
    (hlen : L + block.toNat + g.gUseCrc.toNat ≤ R.length) (msgs : List I2cMsg)
    (rdData : Buffer UInt8 cap) (bytesRead : Option UInt8)
    (hcap : 0 + (replyPayload block L R).length ≤ cap) :
    transferRead g crc msgs rdBuf L block rdData bytesRead =
      .ok ⟨replyRc g crc block L R, none, some msgs, rdData.splice 0 (replyPayload block L R) hcap,
        bytesRead.map fun _ => UInt8.ofNat (payloadLen block L R),
        countLog block L R ++ pecLog g crc block L R⟩ := by
  have hle := payloadLen_le block L R
  have hcount : checkCount rdBuf block L = _ := checkCount_eq hR (by omega)
  have hpec := checkPec_eq g crc hR hlen (if tooLong block L R then emsgsize else 0)
  have hread : rdBuf.read block.toNat (payloadLen block L R) =
      .ok (replyPayload block L R) := hR.read _ _ (by omega)
  simp only [transferRead, hcount, ok_bind, hpec, hread, rdData.write_eq hcap, pure_eq_ok]
  rfl

end Read

/-! ## §4 The whole transfer -/

/-- The messages handed to the ioctl. -/
def requestMsgs (g : I2cGlobals) (w : WritePart) (block : Bool) (L : ℕ) : List I2cMsg :=
  let msg0 : I2cMsg := ⟨g.gI2cAddr.toUInt16, 0, w.len, w.wrBuf.cells⟩
  let msg1 : I2cMsg := ⟨g.gI2cAddr.toUInt16, i2cMRd, L + block.toNat + g.gUseCrc.toNat,
    List.replicate (i2cMaxDataLen + 2) none⟩
  if 0 < L then [msg0, msg1] else [msg0]

/-- The checksum when the reply starts: past the write half and the read address. -/
def readCrc (g : I2cGlobals) (w : WritePart) : UInt8 :=
  if g.gUseCrc then crc8 w.crc (addrRd g.gI2cAddr) else w.crc

section Transfer

variable {k cap : ℕ} (g : I2cGlobals) (cmd : UInt8) {wrData : Buffer UInt8 k}
  {wrBlock : Bool} (rdBlock : Bool) {n L : ℕ} {w : WritePart}

/-- A failed ioctl leaves the caller's data alone. -/
theorem i2cTransfer_failed (hn : n ≤ i2cMaxDataLen) (hL : L ≤ i2cMaxDataLen)
    (hw : transferWrite g cmd wrData n wrBlock L = .ok w) (errno : ℤ)
    (rdData : Buffer UInt8 cap) (bytesReadp : Option UInt8) :
    i2cTransfer g (.failed errno) cmd wrData (lenByte wrBlock n) rdData (lenByte rdBlock L)
        bytesReadp =
      .ok ⟨-1, some errno, some (requestMsgs g w rdBlock L), rdData,
        bytesReadp.map fun _ => 0, [.ioctlFailed "I2cTransfer" errno]⟩ := by
  simp only [i2cTransfer, lenByte_flag _ hn, lenByte_flag _ hL, lenByte_len _ hn,
    lenByte_len _ hL, Nat.not_lt.mpr hn, Nat.not_lt.mpr hL, if_false, hw, ok_bind, pure_eq_ok]
  rfl

/-- A write-only transfer succeeds with the ioctl. -/
theorem i2cTransfer_writeOnly (hn : n ≤ i2cMaxDataLen)
    (hw : transferWrite g cmd wrData n wrBlock 0 = .ok w) (rx : List UInt8)
    (rdData : Buffer UInt8 cap) (bytesReadp : Option UInt8) :
    i2cTransfer g (.done rx) cmd wrData (lenByte wrBlock n) rdData (lenByte rdBlock 0)
        bytesReadp =
      .ok ⟨0, none, some (requestMsgs g w rdBlock 0), rdData, bytesReadp.map fun _ => 0, []⟩ := by
  have hL : 0 ≤ i2cMaxDataLen := Nat.zero_le _
  simp only [i2cTransfer, lenByte_flag _ hn, lenByte_len _ hn, lenByte_len _ hL,
    Nat.not_lt.mpr hn, Nat.not_lt.mpr hL, if_false, hw, ok_bind, pure_eq_ok, Nat.lt_irrefl]
  rfl

/-- The reply as the host stores it has the length of the read message. -/
theorem received_eq {rx : List UInt8} {len : ℕ} (h : rx.length = len) :
    received rx len = rx := by
  subst h
  simp [received, List.takeD_eq_take]

/-- **The transfer rule**: with a read part, the reply is decoded by the read half. -/
theorem i2cTransfer_read (hn : n ≤ i2cMaxDataLen) (hpos : 0 < L) (hL : L ≤ i2cMaxDataLen)
    (hw : transferWrite g cmd wrData n wrBlock L = .ok w) (rx : List UInt8)
    {R : List UInt8} (hR : R = received rx (L + rdBlock.toNat + g.gUseCrc.toNat))
    (rdData : Buffer UInt8 cap) (bytesReadp : Option UInt8)
    (hcap : 0 + (replyPayload rdBlock L R).length ≤ cap) :
    i2cTransfer g (.done rx) cmd wrData (lenByte wrBlock n) rdData (lenByte rdBlock L)
        bytesReadp =
      .ok ⟨replyRc g (readCrc g w) rdBlock L R, none, some (requestMsgs g w rdBlock L),
        rdData.splice 0 (replyPayload rdBlock L R) hcap,
        bytesReadp.map fun _ => UInt8.ofNat (payloadLen rdBlock L R),
        countLog rdBlock L R ++ pecLog g (readCrc g w) rdBlock L R⟩ := by
  have hRlen : R.length = L + rdBlock.toNat + g.gUseCrc.toNat := by
    rw [hR, received, List.takeD_length]
  -- a full block with its count byte and PEC just fits
  have hfit : 0 + R.length ≤ i2cMaxDataLen + 2 := by
    have h₁ := Bool.toNat_le rdBlock
    have h₂ := Bool.toNat_le g.gUseCrc
    omega
  obtain ⟨rdBuf, hwrite, hfilled⟩ :=
    (Buffer.filled_nil (Buffer.uninit (i2cMaxDataLen + 2))).exists_write R hfit
  rw [List.nil_append] at hfilled
  rw [List.length_nil] at hwrite
  have hread := transferRead_eq g (readCrc g w) hfilled (Nat.le_of_eq hRlen.symm)
    (requestMsgs g w rdBlock L) rdData (bytesReadp.map fun _ => 0) hcap
  simp only [i2cTransfer, lenByte_flag _ hn, lenByte_flag _ hL, lenByte_len _ hn,
    lenByte_len _ hL, Nat.not_lt.mpr hn, Nat.not_lt.mpr hL, if_false, hw, ok_bind, hpos,
    if_true, ← hR, hwrite]
  simp only [requestMsgs, readCrc, addrRd, hpos, if_true, Option.map_map] at hread ⊢
  exact hread

/-- Whatever the bus answers, the transfer hands over the same messages. -/
theorem i2cTransfer_msgs (hn : n ≤ i2cMaxDataLen) (hL : L ≤ i2cMaxDataLen)
    (hw : transferWrite g cmd wrData n wrBlock L = .ok w) (bus : Rdwr)
    (rdData : Buffer UInt8 cap) (hcap : L ≤ cap) (bytesReadp : Option UInt8) :
    ∃ t, i2cTransfer g bus cmd wrData (lenByte wrBlock n) rdData (lenByte rdBlock L)
        bytesReadp = .ok t ∧ t.msgs = some (requestMsgs g w rdBlock L) := by
  cases bus with
  | failed errno =>
    exact ⟨_, i2cTransfer_failed g cmd rdBlock hn hL hw errno rdData bytesReadp, rfl⟩
  | done rx =>
    -- the bus decides nothing about the messages: they are fixed before the ioctl
    rcases Nat.eq_zero_or_pos L with rfl | hpos
    · exact ⟨_, i2cTransfer_writeOnly g cmd rdBlock hn hw rx rdData bytesReadp, rfl⟩
    · have hle := payloadLen_le rdBlock L
        (received rx (L + rdBlock.toNat + g.gUseCrc.toNat))
      have hlen := length_replyPayload rdBlock L
        (received rx (L + rdBlock.toNat + g.gUseCrc.toNat))
        (by rw [received, List.takeD_length]; omega)
      exact ⟨_, i2cTransfer_read g cmd rdBlock hn hpos hL hw rx rfl rdData
        bytesReadp (by omega), rfl⟩

end Transfer

end GumstixExtras.I2c
