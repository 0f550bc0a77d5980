import GumstixExtras.I2c.Reply

/-!
# Every Call of `I2cTransfer`

What a call makes of any two length bytes, with or without the block flag, and of any answer
of the bus. `i2cTransfer_outcome` lists the four ways a call can end; everything else is read
off that list.

- `i2cTransfer_inBounds`: no call leaves an array or reads a byte nobody assigned.
- `i2cTransfer_failsSilently_iff`: which failing calls leave the caller's memory alone.
-/

namespace GumstixExtras.I2c

open GumstixExtras.Lib

/-! ## §1 Any length byte -/

/-- The block flag of a length byte. -/
def isBlock (b : UInt8) : Bool := decide (b &&& 0x80 ≠ 0)

/-- The length in a length byte. -/
def dataLen (b : UInt8) : ℕ := (b &&& 0x7f).toNat

/-- Every byte is a length with or without the flag. -/
theorem lenByte_dataLen (b : UInt8) : lenByte (isBlock b) (dataLen b) = b := by
  have hall : ∀ n : Fin 256, lenByte (isBlock (UInt8.ofNat n)) (dataLen (UInt8.ofNat n)) =
      UInt8.ofNat n := by decide +kernel
  simpa using hall ⟨b.toNat, b.toNat_lt⟩

theorem dataLen_lenByte (block : Bool) {n : ℕ} (h : n ≤ i2cMaxDataLen) :
    dataLen (lenByte block n) = n := lenByte_len block h

/-- One of the lengths of a call is too big. -/
def Refuses (wrLen rdLen : UInt8) : Prop :=
  i2cMaxDataLen < dataLen wrLen ∨ i2cMaxDataLen < dataLen rdLen

instance (wrLen rdLen : UInt8) : Decidable (Refuses wrLen rdLen) :=
  inferInstanceAs (Decidable (_ ∨ _))

/-! ## §2 The ways a call can end -/

/-- The write half has left the message for `d`. -/
structure Written (g : I2cGlobals) (cmd : UInt8) (wrBlock : Bool) (L : ℕ) (d : List UInt8)
    (w : WritePart) : Prop where
  crc : w.crc = writeCrc g cmd wrBlock d
  len : w.len = (sentBytes g cmd wrBlock L d).length
  sent : w.wrBuf.cells.take w.len = sentBytes g cmd wrBlock L d

section Outcome

variable {k cap : ℕ} (g : I2cGlobals) (bus : Rdwr) (cmd : UInt8) (d : List UInt8)
  (wrLen : UInt8) (rdData : Buffer UInt8 cap) (rdLen : UInt8) (bytesReadp : Option UInt8)

/-- The reply as the host stores it. -/
def storedReply (rx : List UInt8) : List UInt8 :=
  received rx (dataLen rdLen + (isBlock rdLen).toNat + g.gUseCrc.toNat)

/-- How a call with the data `d` can end. -/
inductive Outcome : Transfer cap → Prop
  /-- a length is too big, and nothing is issued -/
  | refused (log : List Diagnostic) (hrefuses : Refuses wrLen rdLen) :
      Outcome ⟨-1, some enobufs, none, rdData, bytesReadp.map fun _ => 0, log⟩
  /-- the ioctl fails -/
  | failed (w : WritePart) (errno : ℤ) (hlens : ¬ Refuses wrLen rdLen)
      (hw : Written g cmd (isBlock wrLen) (dataLen rdLen) d w) (hbus : bus = .failed errno) :
      Outcome ⟨-1, some errno, some (requestMsgs g w (isBlock rdLen) (dataLen rdLen)), rdData,
        bytesReadp.map fun _ => 0, [.ioctlFailed "I2cTransfer" errno]⟩
  /-- nothing is to be read -/
  | wrote (w : WritePart) (rx : List UInt8) (hlens : ¬ Refuses wrLen rdLen)
      (hw : Written g cmd (isBlock wrLen) (dataLen rdLen) d w) (hbus : bus = .done rx)
      (hnone : dataLen rdLen = 0) :
      Outcome ⟨0, none, some (requestMsgs g w (isBlock rdLen) (dataLen rdLen)), rdData,
        bytesReadp.map fun _ => 0, []⟩
  /-- a reply is checked and copied out -/
  | replied (w : WritePart) (rx : List UInt8) (hlens : ¬ Refuses wrLen rdLen)
      (hw : Written g cmd (isBlock wrLen) (dataLen rdLen) d w) (hbus : bus = .done rx)
      (hpos : 0 < dataLen rdLen)
      (hcap : 0 + (replyPayload (isBlock rdLen) (dataLen rdLen)
        (storedReply g rdLen rx)).length ≤ cap) :
      Outcome ⟨replyRc g (readCrc g w) (isBlock rdLen) (dataLen rdLen) (storedReply g rdLen rx),
        none, some (requestMsgs g w (isBlock rdLen) (dataLen rdLen)),
        rdData.splice 0 (replyPayload (isBlock rdLen) (dataLen rdLen) (storedReply g rdLen rx))
          hcap,
        bytesReadp.map fun _ => UInt8.ofNat (payloadLen (isBlock rdLen) (dataLen rdLen)
          (storedReply g rdLen rx)),
        countLog (isBlock rdLen) (dataLen rdLen) (storedReply g rdLen rx) ++
          pecLog g (readCrc g w) (isBlock rdLen) (dataLen rdLen) (storedReply g rdLen rx)⟩

theorem length_storedReply (rx : List UInt8) :
    (storedReply g rdLen rx).length =
      dataLen rdLen + (isBlock rdLen).toNat + g.gUseCrc.toNat := by
  rw [storedReply, received, List.takeD_length]

theorem i2cTransfer_refused (wrData : Buffer UInt8 k) (h : Refuses wrLen rdLen) :
    ∃ log, i2cTransfer g bus cmd wrData wrLen rdData rdLen bytesReadp =
      .ok ⟨-1, some enobufs, none, rdData, bytesReadp.map fun _ => 0, log⟩ := by
  unfold i2cTransfer
  dsimp only
  by_cases hwr : i2cMaxDataLen < dataLen wrLen
  · exact ⟨_, if_pos hwr⟩
  · -- the write length passes, so the read length is the one that is too big
    have hrd : i2cMaxDataLen < dataLen rdLen := h.resolve_left hwr
    exact ⟨_, (if_neg hwr).trans (if_pos hrd)⟩

variable {d wrLen rdLen}

/-- **The calls**: a call on data of its write length, with room for its read length, does
not fault and ends in one of the four ways. -/
theorem i2cTransfer_outcome {wrData : Buffer UInt8 k} (hd : wrData.Filled d)
    (hn : d.length = dataLen wrLen) (hcap : dataLen rdLen ≤ cap) :
    ∃ t, i2cTransfer g bus cmd wrData wrLen rdData rdLen bytesReadp = .ok t ∧
      Outcome g bus cmd d wrLen rdData rdLen bytesReadp t := by
  by_cases hrefuses : Refuses wrLen rdLen
  · obtain ⟨log, ht⟩ := i2cTransfer_refused g bus cmd wrLen rdData rdLen bytesReadp wrData
      hrefuses
    exact ⟨_, ht, .refused log hrefuses⟩
  · -- both lengths fit, so the rules for lengths up to 32 apply
    have hlens := hrefuses
    rw [Refuses, not_or, Nat.not_lt, Nat.not_lt] at hlens
    obtain ⟨hwr, hrd⟩ := hlens
    rw [← hn] at hwr
    obtain ⟨w, hw, hcrc, hlen, hsent⟩ :=
      transferWrite_eq g cmd (isBlock wrLen) (dataLen rdLen) hd hwr
    have hwritten : Written g cmd (isBlock wrLen) (dataLen rdLen) d w := ⟨hcrc, hlen, hsent⟩
    -- the length bytes, taken apart and put together again
    have hcall : i2cTransfer g bus cmd wrData wrLen rdData rdLen bytesReadp =
        i2cTransfer g bus cmd wrData (lenByte (isBlock wrLen) d.length) rdData
          (lenByte (isBlock rdLen) (dataLen rdLen)) bytesReadp := by
      rw [hn, lenByte_dataLen, lenByte_dataLen]
    rw [hcall]
    cases bus with
    | failed errno =>
      exact ⟨_, i2cTransfer_failed g cmd (isBlock rdLen) hwr hrd hw errno rdData bytesReadp,
        .failed w errno hrefuses hwritten rfl⟩
    | done rx =>
      rcases Nat.eq_zero_or_pos (dataLen rdLen) with hnone | hpos
      · have ht := i2cTransfer_writeOnly g cmd (isBlock rdLen) hwr (hnone ▸ hw) rx rdData
          bytesReadp
        rw [← hnone] at ht
        exact ⟨_, ht, .wrote w rx hrefuses hwritten rfl hnone⟩
      · -- the payload is no longer than what was asked for
        have hle := payloadLen_le (isBlock rdLen) (dataLen rdLen) (storedReply g rdLen rx)
        have hpayload := length_replyPayload (isBlock rdLen) (dataLen rdLen)
          (storedReply g rdLen rx) (by rw [length_storedReply]; omega)
        have hfit : 0 + (replyPayload (isBlock rdLen) (dataLen rdLen)
            (storedReply g rdLen rx)).length ≤ cap := by omega
        exact ⟨_, i2cTransfer_read g cmd (isBlock rdLen) hwr hpos hrd hw rx rfl rdData
          bytesReadp hfit, .replied w rx hrefuses hwritten rfl hpos hfit⟩

/-! ## §3 Bounds -/

/-- The indices of `rdBuf` the read half looks at, in the order of the code: the count, the
checksum and the PEC behind it, and the copy. `n` is `rdLen` after the check of the count. -/
def rdBufReads (rdBlock : Bool) (n : ℕ) : List ℕ :=
  (if rdBlock then [0] else []) ++
    (if g.gUseCrc then List.range (n + rdBlock.toNat) ++ [n + rdBlock.toNat] else []) ++
    List.range' rdBlock.toNat n

/-- A call has stayed inside its arrays: `msg[0]` ends inside `wrBuf` and `msg[1]` inside
`rdBuf`, the reply is looked at below `msg[1].len` only, and nothing is stored behind the
`rdLen & 0x7f` bytes of the caller. -/
structure InBounds (rdLen : UInt8) (t : Transfer cap) : Prop where
  write : ∀ msgs, t.msgs = some msgs →
    ∃ msg₀ rest, msgs = msg₀ :: rest ∧ msg₀.len ≤ i2cMaxDataLen + 3
  read : ∀ msg₀ msg₁, t.msgs = some [msg₀, msg₁] → msg₁.len ≤ i2cMaxDataLen + 2 ∧
    ∀ rx, bus = .done rx → ∃ rdBuf rc n log,
      (Buffer.uninit (i2cMaxDataLen + 2)).write 0 (received rx msg₁.len) = .ok rdBuf ∧
      checkCount rdBuf (isBlock rdLen) (dataLen rdLen) = .ok (rc, n, log) ∧
      ∀ i ∈ rdBufReads g (isBlock rdLen) n, i < msg₁.len
  stored : t.rdData.cells.drop (dataLen rdLen) = rdData.cells.drop (dataLen rdLen)

theorem mem_rdBufReads_lt {rdBlock : Bool} {n i : ℕ} (h : i ∈ rdBufReads g rdBlock n) :
    i < n + rdBlock.toNat + g.gUseCrc.toNat := by
  rw [rdBufReads, List.mem_append, List.mem_append] at h
  rcases h with (h | h) | h
  -- the count byte is there in a block only, and the PEC only when it is checked
  · cases rdBlock with
    | false => cases h
    | true =>
      rw [if_pos rfl, List.mem_singleton] at h
      rw [h, Bool.toNat_true]
      omega
  · cases hg : g.gUseCrc with
    | false =>
      rw [hg] at h
      cases h
    | true =>
      rw [hg, if_pos rfl, List.mem_append, List.mem_range, List.mem_singleton] at h
      rw [Bool.toNat_true]
      omega
  · rw [List.mem_range'_1] at h
    omega

/-- The bytes of message 0 fit `wrBuf`. -/
theorem length_sentBytes_le (block : Bool) (L : ℕ) (hlen : d.length ≤ i2cMaxDataLen) :
    (sentBytes g cmd block L d).length ≤ i2cMaxDataLen + 3 := by
  have hblock := Bool.toNat_le block
  by_cases hne : d = []
  · simp only [sentBytes, hne, if_true, List.length_cons, List.length_replicate]
    omega
  · have hphase := length_dataPhase block d
    simp only [sentBytes, hne, if_false, List.length_map, smbusWrite]
    split <;> simp <;> omega

/-- The messages of a call that is not refused fit their arrays. -/
theorem inBounds_requestMsgs {w : WritePart} (hlens : ¬ Refuses wrLen rdLen)
    (hn : d.length = dataLen wrLen)
    (hw : Written g cmd (isBlock wrLen) (dataLen rdLen) d w) {t : Transfer cap}
    (hmsgs : t.msgs = some (requestMsgs g w (isBlock rdLen) (dataLen rdLen)))
    (hstored : t.rdData.cells.drop (dataLen rdLen) = rdData.cells.drop (dataLen rdLen)) :
    InBounds g bus rdData rdLen t := by
  rw [Refuses, not_or, Nat.not_lt, Nat.not_lt, ← hn] at hlens
  refine ⟨?_, ?_, hstored⟩
  · intro msgs h
    obtain rfl := Option.some.inj (hmsgs.symm.trans h)
    have hlen := length_sentBytes_le g cmd (d := d) (isBlock wrLen) (dataLen rdLen) hlens.1
    rw [← hw.len] at hlen
    unfold requestMsgs
    split <;> exact ⟨_, _, rfl, hlen⟩
  · intro msg₀ msg₁ h
    have hpair := Option.some.inj (hmsgs.symm.trans h)
    unfold requestMsgs at hpair
    -- two messages are handed over for a read only
    split at hpair
    · obtain ⟨-, hmsg₁⟩ := List.cons.inj hpair
      obtain ⟨rfl, -⟩ := List.cons.inj hmsg₁
      have hblock := Bool.toNat_le (isBlock rdLen)
      have hcrc := Bool.toNat_le g.gUseCrc
      have hmax : dataLen rdLen + (isBlock rdLen).toNat + g.gUseCrc.toNat ≤
          i2cMaxDataLen + 2 := by omega
      refine ⟨hmax, fun rx _ => ?_⟩
      have hR := length_storedReply g rdLen rx
      obtain ⟨rdBuf, hwrite, hfilled⟩ :=
        (Buffer.filled_nil (Buffer.uninit (i2cMaxDataLen + 2))).exists_write
          (storedReply g rdLen rx) (by rw [hR, List.length_nil]; omega)
      rw [List.nil_append] at hfilled
      refine ⟨rdBuf, _, _, _, hwrite, checkCount_eq hfilled (by omega), fun i hi => ?_⟩
      -- the length only shrinks in the check of the count
      have hlt := mem_rdBufReads_lt g hi
      have hle := payloadLen_le (isBlock rdLen) (dataLen rdLen) (storedReply g rdLen rx)
      calc i < payloadLen (isBlock rdLen) (dataLen rdLen) (storedReply g rdLen rx) +
            (isBlock rdLen).toNat + g.gUseCrc.toNat := hlt
        _ ≤ dataLen rdLen + (isBlock rdLen).toNat + g.gUseCrc.toNat := by omega
    · cases hpair

/-- **Bounds**: for any two length bytes, any setting of the PEC and any answer of the bus, a
call on a buffer that holds its data does not fault and stays inside its arrays. -/
theorem i2cTransfer_inBounds {wrData : Buffer UInt8 k} (hd : wrData.Filled d)
    (hn : dataLen wrLen ≤ d.length) (hcap : dataLen rdLen ≤ cap) :
    ∃ t, i2cTransfer g bus cmd wrData wrLen rdData rdLen bytesReadp = .ok t ∧
      InBounds g bus rdData rdLen t := by
  have htake : (d.take (dataLen wrLen)).length = dataLen wrLen := List.length_take_of_le hn
  have hfilled : wrData.Filled (d.take (dataLen wrLen)) := by
    rw [← List.take_append_drop (dataLen wrLen) d] at hd
    exact hd.of_append
  obtain ⟨t, ht, houtcome⟩ := i2cTransfer_outcome g bus cmd rdData bytesReadp hfilled htake hcap
  refine ⟨t, ht, ?_⟩
  cases houtcome with
  | refused log hrefuses =>
    refine ⟨?_, ?_, rfl⟩
    · intro msgs h
      cases h
    · intro msg₀ msg₁ h
      cases h
  | failed w errno hlens hw hbus =>
    exact inBounds_requestMsgs g bus cmd rdData hlens htake hw rfl rfl
  | wrote w rx hlens hw hbus hnone =>
    exact inBounds_requestMsgs g bus cmd rdData hlens htake hw rfl rfl
  | replied w rx hlens hw hbus hpos hfit =>
    refine inBounds_requestMsgs g bus cmd rdData hlens htake hw rfl ?_
    -- the copy ends where the payload does
    have hle := payloadLen_le (isBlock rdLen) (dataLen rdLen) (storedReply g rdLen rx)
    have hpayload := length_replyPayload (isBlock rdLen) (dataLen rdLen)
      (storedReply g rdLen rx) (by rw [length_storedReply]; omega)
    exact rdData.drop_splice_zero hfit (by omega)

end Outcome

/-- A block process call whose device announces 255 bytes where four were allowed. -/
theorem i2cTransfer_inBounds_hugeCount :
    ∃ t, i2cTransfer ⟨0x1b, true⟩ (.done [0xff, 1, 2, 3, 4, 5]) 0x15 (Buffer.ofList [0xaa, 0xbb])
        0x82 (Buffer.uninit 4 : Buffer UInt8 4) 0x84 (some 0) = .ok t ∧
      InBounds ⟨0x1b, true⟩ (.done [0xff, 1, 2, 3, 4, 5]) (Buffer.uninit 4 : Buffer UInt8 4) 0x84
        t :=
  i2cTransfer_inBounds ⟨0x1b, true⟩ (.done [0xff, 1, 2, 3, 4, 5]) 0x15 (Buffer.uninit 4) (some 0)
    (Buffer.filled_ofList [0xaa, 0xbb]) (by decide) (by decide)

/-! ## §4 Failed calls -/

section Failure

variable {k cap : ℕ} (g : I2cGlobals) (bus : Rdwr) (cmd : UInt8) {d : List UInt8}
  (wrLen : UInt8) (rdData : Buffer UInt8 cap) (rdLen : UInt8) (bytesReadp : Option UInt8)

/-- A call that fails has left the caller's data alone and counted nothing. -/
def FailsSilently (t : Transfer cap) : Prop :=
  t.rc ≠ 0 → t.rdData = rdData ∧ ∀ n, t.bytesRead = some n → n = 0

/-- The call has nothing to hand over that it should not: it is refused, the ioctl fails,
nothing is to be read, the reply conforms, the reply is a block of no bytes, or nobody asks
for the count and the caller's data already starts with the bytes of the reply. -/
def NothingToHandOver (d : List UInt8) : Prop :=
  Refuses wrLen rdLen ∨ dataLen rdLen = 0 ∨ ∀ rx, bus = .done rx →
    Conforms g (writeBytes cmd (isBlock wrLen) d) (isBlock rdLen) (dataLen rdLen)
      (storedReply g rdLen rx) ∨
    (isBlock rdLen = true ∧ (storedReply g rdLen rx).headD 0 = 0) ∨
    (bytesReadp = none ∧
      rdData.Filled (replyPayload (isBlock rdLen) (dataLen rdLen) (storedReply g rdLen rx)))

theorem payloadLen_eq_zero_iff {block : Bool} {L : ℕ} {R : List UInt8} (hpos : 0 < L) :
    payloadLen block L R = 0 ↔ block = true ∧ R.headD 0 = 0 := by
  have hzero : R.headD 0 = 0 ↔ (R.headD 0).toNat = 0 := UInt8.toNat_inj.symm
  rw [hzero]
  unfold payloadLen tooLong
  generalize (R.headD 0).toNat = count
  cases block with
  | false => simp; omega
  | true =>
    -- a count above the length asked for is not used, and is not zero
    by_cases hlong : L < count
    · simp [hlong]
      omega
    · simp [hlong]

/-- Handing over a payload changes nothing the caller sees exactly when it is empty, or when
its bytes are there already and its length is not asked for. -/
theorem handOver_silent_iff {payload : List UInt8} {n : ℕ} (hn : n ≤ i2cMaxDataLen)
    (hlen : payload.length = n) (hfit : 0 + payload.length ≤ cap) :
    (rdData.splice 0 payload hfit = rdData ∧
      ∀ c, (bytesReadp.map fun _ => UInt8.ofNat n) = some c → c = 0) ↔
    n = 0 ∨ (bytesReadp = none ∧ rdData.Filled payload) := by
  have hbyte : UInt8.ofNat n = 0 ↔ n = 0 := by
    have hmax : i2cMaxDataLen = 32 := rfl
    rw [← UInt8.toNat_inj, UInt8.toNat_ofNat_of_lt' (by rw [UInt8.size]; omega)]
    rfl
  rw [rdData.splice_zero_eq_iff hfit]
  cases bytesReadp with
  | none =>
    -- no count is asked for: the payload must be what the buffer holds
    constructor
    · exact fun h => .inr ⟨rfl, h.1⟩
    · rintro (hzero | ⟨-, hfilled⟩)
      · obtain rfl : payload = [] := List.eq_nil_of_length_eq_zero (hlen.trans hzero)
        exact ⟨Buffer.filled_nil _, fun c hc => by cases hc⟩
      · exact ⟨hfilled, fun c hc => by cases hc⟩
  | some count =>
    constructor
    · -- the count that is stored must be zero
      exact fun h => .inl (hbyte.mp (h.2 _ rfl))
    · rintro (hzero | ⟨hnone, -⟩)
      · obtain rfl : payload = [] := List.eq_nil_of_length_eq_zero (hlen.trans hzero)
        refine ⟨Buffer.filled_nil _, fun c hc => ?_⟩
        rw [Option.map_some, Option.some.injEq] at hc
        rw [← hc]
        exact hbyte.mpr hzero
      · cases hnone

/-- **Failed calls**: a call that fails leaves the caller's data alone and counts nothing if
and only if it has nothing to hand over that it should not. -/
theorem i2cTransfer_failsSilently_iff {wrData : Buffer UInt8 k} (hd : wrData.Filled d)
    (hn : d.length = dataLen wrLen) (hcap : dataLen rdLen ≤ cap) :
    ∃ t, i2cTransfer g bus cmd wrData wrLen rdData rdLen bytesReadp = .ok t ∧
      (FailsSilently rdData t ↔
        NothingToHandOver g bus cmd wrLen rdData rdLen bytesReadp d) := by
  obtain ⟨t, ht, houtcome⟩ := i2cTransfer_outcome g bus cmd rdData bytesReadp hd hn hcap
  refine ⟨t, ht, ?_⟩
  -- what a call stores before it knows anything is a count of zero
  have hcount : ∀ c, (bytesReadp.map fun _ => (0 : UInt8)) = some c → c = 0 := by
    intro c hc
    obtain ⟨_, -, rfl⟩ := Option.map_eq_some_iff.mp hc
    rfl
  cases houtcome with
  | refused log hrefuses => exact iff_of_true (fun _ => ⟨rfl, hcount⟩) (.inl hrefuses)
  | failed w errno hlens hw hbus =>
    refine iff_of_true (fun _ => ⟨rfl, hcount⟩) (.inr (.inr fun rx hrx => ?_))
    cases hbus.symm.trans hrx
  | wrote w rx hlens hw hbus hnone =>
    exact iff_of_true (fun hrc => absurd rfl hrc) (.inr (.inl hnone))
  | replied w rx hlens hw hbus hpos hfit =>
    -- the payload is handed over before anybody looks at the PEC
    have hR := length_storedReply g rdLen rx
    have hpayload := length_replyPayload (isBlock rdLen) (dataLen rdLen)
      (storedReply g rdLen rx) (by omega)
    have hle := payloadLen_le (isBlock rdLen) (dataLen rdLen) (storedReply g rdLen rx)
    have hL : dataLen rdLen ≤ i2cMaxDataLen := Nat.le_of_not_lt fun h => hlens (.inr h)
    have hconforms := replyRc_eq_zero_iff_conforms hw.crc hR
    have hsilent := handOver_silent_iff rdData bytesReadp (Nat.le_trans hle hL) hpayload hfit
    rw [payloadLen_eq_zero_iff hpos] at hsilent
    rw [FailsSilently, NothingToHandOver]
    dsimp only
    rw [hsilent]
    constructor
    · intro h
      refine .inr (.inr fun rx' hrx => ?_)
      obtain rfl := Rdwr.done.inj (hbus.symm.trans hrx)
      rw [← hconforms]
      exact or_iff_not_imp_left.mpr h
    · rintro (hrefuses | hnone | h) hrc
      · exact absurd hrefuses hlens
      · omega
      · have hreply := h rx hbus
        rw [← hconforms] at hreply
        exact hreply.resolve_left hrc

end Failure

/-- A byte read whose reply is right is handed over and reported as right. -/
theorem i2cTransfer_failsSilently_goodPec :
    ∃ t, i2cTransfer ⟨0x1b, true⟩ (.done [0xaa, 0x72]) 0x15 nullBuffer 0
        (Buffer.uninit 1 : Buffer UInt8 1) 1 (some 0) = .ok t ∧
      FailsSilently (Buffer.uninit 1 : Buffer UInt8 1) t := by
  obtain ⟨t, ht, hiff⟩ := i2cTransfer_failsSilently_iff ⟨0x1b, true⟩ (.done [0xaa, 0x72]) 0x15
    0 (Buffer.uninit 1) 1 (some 0) (Buffer.filled_nil nullBuffer) rfl (by decide)
  refine ⟨t, ht, hiff.mpr (.inr (.inr fun rx hrx => .inl ?_))⟩
  cases hrx
  decide +kernel

/-- A byte read whose PEC is wrong fails with `EBADMSG`, and hands over the byte all the same. -/
theorem i2cTransfer_failed_handsOver :
    ∃ t, i2cTransfer ⟨0x1b, true⟩ (.done [0xaa, 0x73]) 0x15 nullBuffer 0
        (Buffer.uninit 1 : Buffer UInt8 1) 1 (some 0) = .ok t ∧ t.rc = ebadmsg ∧
      t.rdData = Buffer.ofList [0xaa] ∧ t.bytesRead = some 1 ∧
      ¬ FailsSilently (Buffer.uninit 1 : Buffer UInt8 1) t := by
  have hview : (i2cTransfer ⟨0x1b, true⟩ (.done [0xaa, 0x73]) 0x15 nullBuffer 0
      (Buffer.uninit 1 : Buffer UInt8 1) 1 (some 0)).map
        (fun t => (t.rc, t.rdData, t.bytesRead)) =
      .ok (ebadmsg, Buffer.ofList [0xaa], some 1) := by
    decide +kernel
  obtain ⟨t, ht, hview⟩ := map_eq_ok_iff.mp hview
  simp only [Prod.mk.injEq] at hview
  obtain ⟨hrc, hdata, hcount⟩ := hview
  refine ⟨t, ht, hrc, hdata, hcount, fun hsilent => ?_⟩
  have hfailed : t.rc ≠ 0 := by rw [hrc]; decide
  exact absurd ((hsilent hfailed).2 1 hcount) (by decide)

end GumstixExtras.I2c
