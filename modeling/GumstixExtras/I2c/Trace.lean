import GumstixExtras.I2c.DumpMem
import GumstixExtras.I2c.Main
import GumstixExtras.I2c.Outcome

/-!
# Debug Traces of a Transfer

`--debug` sets `gDebug`, and with it `i2c-api.c` logs what it is about to do: the arguments of a
call, the messages handed to the ioctl, and a dump of both buffers. `I2cTransfer` stands here
once more, with these traces, on top of the same write half and the same checks.

`i2cTransferTraced_shows` says what the traces of a transfer say.
-/

namespace GumstixExtras.I2c

open GumstixExtras.Lib

/-! ## §1 The log -/

/-- A line of the log: a trace, an error of the transfer functions, or what the program says
on its own. -/
inductive LogLine
  | trace (text : List Char)
  | error (d : Diagnostic)
  | plain (text : List Char)
  deriving DecidableEq, Repr

/-- The text of a line. -/
def LogLine.text (strerror : ℤ → List Char) : LogLine → List Char
  | .trace text => text
  | .error d => logError (d.text strerror)
  | .plain text => text

/-- The log without its traces. -/
def untraced : List LogLine → List LogLine
  | [] => []
  | .trace _ :: lines => untraced lines
  | line :: lines => line :: untraced lines

/-- The text of the log. -/
def logText (strerror : ℤ → List Char) (lines : List LogLine) : List Char :=
  lines.flatMap (LogLine.text strerror)

/-! ## §2 The traces of `i2c-api.c` -/

section Traces

variable (gDebug : Bool)

/-- `LogDebug`. -/
def logDebug (text : List Char) : List LogLine := if gDebug then [.trace text] else []

/-- The trace of `I2cSetSlaveAddress`. -/
def traceSlave (i2cAddr : UInt8) (useCrc : Bool) : List LogLine :=
  logDebug gDebug ("----- I2cSetSlaveAddress i2cAddr:0x".toList ++ fmtByte i2cAddr ++
    " useCrc:".toList ++ fmtInt useCrc.toNat ++ " -----\n".toList)

/-- The traces at the start of `I2cTransfer`. The second one loads the first byte of the
data. -/
def traceCall {k : ℕ} (cmd : UInt8) (wrPtr : UInt32) (wrData : Buffer UInt8 k)
    (wrLen rdLen : UInt8) : Except Fault (List LogLine) :=
  if gDebug then
    let call : LogLine := .trace ("----- I2cTransfer: cmd:0x".toList ++ fmtByte cmd ++
      " wrLen:0x".toList ++ fmtByte wrLen ++ " rdLen:0x".toList ++ fmtByte rdLen ++
      " wrBlock:".toList ++ fmtInt (isBlock wrLen).toNat ++
      " rdBlock:".toList ++ fmtInt (isBlock rdLen).toNat ++ " -----\n".toList)
    if k = 0 then
      pure [call]
    else do
      let b ← wrData.load 0
      pure [call, .trace ("----- wrData:0x".toList ++ fmtHexPad 8 wrPtr.toNat ++
        " *wrData:0x".toList ++ fmtByte b ++ " -----\n".toList)]
  else
    pure []

/-- The three lines about a message. -/
def traceMsg (index : List Char) (addr flags : UInt16) (len : ℕ) : List LogLine :=
  [.trace ("msg[ ".toList ++ index ++ " ].addr  = 0x".toList ++ fmtHexPad 2 addr.toNat ++
      "\n".toList),
    .trace ("msg[ ".toList ++ index ++ " ].flags = 0x".toList ++ fmtHexPad 4 flags.toNat ++
      "\n".toList),
    .trace ("msg[ ".toList ++ index ++ " ].len   = ".toList ++ fmtInt len ++ "\n".toList)]

/-- The traces of message 0, with a dump of what it sends. -/
def traceWrite (addr : UInt16) (w : WritePart) : Except Stop (List LogLine) :=
  if gDebug then do
    let dump ← dumpMem "I2cTransfer W".toList 0 w.wrBuf (UInt32.ofNat w.len)
    pure (traceMsg ['0'] addr 0 w.len ++ [.trace dump])
  else
    pure []

/-- The traces of message 1. -/
def traceRead (addr : UInt16) (len : ℕ) : List LogLine :=
  if gDebug then traceMsg ['1'] addr i2cMRd len else []

/-- The dump of the reply. -/
def traceReply {n : ℕ} (rdBuf : Buffer UInt8 n) (len : ℕ) : Except Stop (List LogLine) :=
  if gDebug then do
    let dump ← dumpMem "I2cTransfer R".toList 0 rdBuf (UInt32.ofNat len)
    pure [.trace dump]
  else
    pure []

end Traces

/-- The read half of `I2cTransfer` with its traces; `len` is `msg[1].len`. -/
def transferReadTraced {cap : ℕ} (gDebug : Bool) (g : I2cGlobals) (crc : UInt8)
    (msgs : List I2cMsg) (rdBuf : Buffer UInt8 (i2cMaxDataLen + 2)) (len rdLen : ℕ)
    (rdBlock : Bool) (rdData : Buffer UInt8 cap) (bytesRead : Option UInt8) :
    Except Stop (Transfer cap × List LogLine) := do
  let (rc, rdLen, countLog) ← (checkCount rdBuf rdBlock rdLen).mapError .fault
  let (rc, pecLog) ← (checkPec g crc rdBuf (rdLen + rdBlock.toNat) rc).mapError .fault
  let dump ← traceReply gDebug rdBuf len
  let payload ← (rdBuf.read rdBlock.toNat rdLen).mapError .fault
  let rdData ← (rdData.write 0 payload).mapError .fault
  pure (⟨rc, none, some msgs, rdData, bytesRead.map fun _ => UInt8.ofNat rdLen,
    countLog ++ pecLog⟩, (countLog ++ pecLog).map .error ++ dump)

/-- `I2cTransfer` with its traces; `wrPtr` is the address of the data. -/
def i2cTransferTraced {k cap : ℕ} (gDebug : Bool) (g : I2cGlobals) (bus : Rdwr) (cmd : UInt8)
    (wrPtr : UInt32) (wrData : Buffer UInt8 k) (wrLen : UInt8) (rdData : Buffer UInt8 cap)
    (rdLen : UInt8) (bytesReadp : Option UInt8) :
    Except Stop (Transfer cap × List LogLine) := do
  let wrBlock := decide (wrLen &&& 0x80 ≠ 0)
  let rdBlock := decide (rdLen &&& 0x80 ≠ 0)
  let call ← (traceCall gDebug cmd wrPtr wrData wrLen rdLen).mapError .fault
  let rdLen := (rdLen &&& 0x7f).toNat
  let wrLen := (wrLen &&& 0x7f).toNat
  let bytesRead := bytesReadp.map fun _ => 0
  if i2cMaxDataLen < wrLen then
    pure (⟨-1, some enobufs, none, rdData, bytesRead, [.wrLenTooBig wrLen]⟩,
      call ++ [.error (.wrLenTooBig wrLen)])
  else if i2cMaxDataLen < rdLen then
    pure (⟨-1, some enobufs, none, rdData, bytesRead, [.rdLenTooBig rdLen]⟩,
      call ++ [.error (.rdLenTooBig rdLen)])
  else
    let w ← (transferWrite g cmd wrData wrLen wrBlock rdLen).mapError .fault
    let addr := g.gI2cAddr.toUInt16
    let sent ← traceWrite gDebug addr w
    let rdBuf : Buffer UInt8 (i2cMaxDataLen + 2) := Buffer.uninit _
    let msg0 : I2cMsg := ⟨addr, 0, w.len, w.wrBuf.cells⟩
    let msg1 : I2cMsg := ⟨addr, i2cMRd, rdLen + rdBlock.toNat + g.gUseCrc.toNat, rdBuf.cells⟩
    let msgs := if 0 < rdLen then [msg0, msg1] else [msg0]
    let asked := if 0 < rdLen then traceRead gDebug addr msg1.len else []
    match bus with
    | .failed errno =>
      pure (⟨-1, some errno, some msgs, rdData, bytesRead, [.ioctlFailed "I2cTransfer" errno]⟩,
        call ++ sent ++ asked ++ [.error (.ioctlFailed "I2cTransfer" errno)])
    | .done rx =>
      if 0 < rdLen then
        let rdBuf ← (rdBuf.write 0 (received rx msg1.len)).mapError .fault
        let crc := if g.gUseCrc then crc8 w.crc (g.gI2cAddr <<< 1 ||| 1) else w.crc
        let (t, lines) ←
          transferReadTraced gDebug g crc msgs rdBuf msg1.len rdLen rdBlock rdData bytesRead
        pure (t, call ++ sent ++ asked ++ lines)
      else
        pure (⟨0, none, some msgs, rdData, bytesRead, []⟩, call ++ sent ++ asked)

/-! ## §3 The traces of a transfer -/

/-- The traces of a call read assigned bytes only: the data start with such a byte, whatever
their length, and a block that is sent has a count. -/
structure Traceable {k : ℕ} (wrData : Buffer UInt8 k) (wrLen rdLen : UInt8) : Prop where
  first : k = 0 ∨ ∃ b, wrData.load 0 = .ok b
  count : Refuses wrLen rdLen ∨ ¬(isBlock wrLen = true ∧ dataLen wrLen = 0)

/-- The traces of a call are lines of the log: a dump of the bytes sent, and one of the reply. -/
structure Transfer.Dumped {cap : ℕ} (t : Transfer cap) (bus : Rdwr) (lines : List LogLine) :
    Prop where
  sent : ∀ m rest, t.msgs = some (m :: rest) → ∃ text, .trace text ∈ lines ∧
    (readDump (dumpMemFormat "I2cTransfer W".toList 0) 0 m.len text).map some = m.bytes
  reply : ∀ m₀ m₁ rx, t.msgs = some [m₀, m₁] → bus = .done rx → ∃ text, .trace text ∈ lines ∧
    readDump (dumpMemFormat "I2cTransfer R".toList 0) 0 m₁.len text = received rx m₁.len

@[simp] theorem untraced_append (lines lines' : List LogLine) :
    untraced (lines ++ lines') = untraced lines ++ untraced lines' := by
  induction lines with
  | nil => rfl
  | cons line lines ih => cases line <;> simp [untraced, ih]

@[simp] theorem untraced_map_error (log : List Diagnostic) :
    untraced (log.map .error) = log.map .error := by
  induction log with
  | nil => rfl
  | cons d log ih => rw [List.map_cons, untraced, ih]; simp

theorem untraced_logDebug (gDebug : Bool) (text : List Char) :
    untraced (logDebug gDebug text) = [] := by
  cases gDebug <;> rfl

theorem untraced_logDebug_append (gDebug : Bool) (text : List Char) (lines : List LogLine) :
    untraced (logDebug gDebug text ++ lines) = untraced lines := by
  rw [untraced_append, untraced_logDebug, List.nil_append]

section Pieces

variable {k : ℕ} {gDebug : Bool} {cmd : UInt8} {wrPtr : UInt32} {wrData : Buffer UInt8 k}
  {wrLen rdLen : UInt8} {addr : UInt16} {lines : List LogLine}

theorem untraced_traceCall (h : traceCall gDebug cmd wrPtr wrData wrLen rdLen = .ok lines) :
    untraced lines = [] := by
  unfold traceCall at h
  split at h
  · split at h
    · obtain rfl := Except.ok.inj h
      rfl
    · obtain ⟨b, -, h⟩ := bind_eq_ok_iff.mp h
      obtain rfl := Except.ok.inj h
      rfl
  · obtain rfl := Except.ok.inj h
    rfl

theorem traceCall_ok_iff : (∃ lines, traceCall gDebug cmd wrPtr wrData wrLen rdLen = .ok lines) ↔
    (gDebug = true → k = 0 ∨ ∃ b, wrData.load 0 = .ok b) := by
  unfold traceCall
  cases gDebug with
  | false => exact ⟨fun _ h => (by cases h), fun _ => ⟨_, rfl⟩⟩
  | true =>
    by_cases hk : k = 0
    · exact ⟨fun _ _ => .inl hk, fun _ => ⟨_, by rw [if_pos rfl, if_pos hk]; rfl⟩⟩
    · -- the first byte is shown, whatever is sent
      rw [if_pos rfl, if_neg hk]
      constructor
      · rintro ⟨lines, h⟩ -
        obtain ⟨b, hb, -⟩ := bind_eq_ok_iff.mp h
        exact .inr ⟨b, hb⟩
      · intro h
        obtain ⟨b, hb⟩ := (h rfl).resolve_left hk
        exact ⟨_, by rw [hb]; rfl⟩

end Pieces

/-- The lengths of both messages as arguments of `DumpMem`. -/
theorem toNat_ofNat_len {len : ℕ} (h : len ≤ i2cMaxDataLen + 3) : (UInt32.ofNat len).toNat = len :=
  UInt32.toNat_ofNat_of_lt' (Nat.lt_of_le_of_lt h (by decide))

section Write

variable {k : ℕ} {gDebug : Bool} {g : I2cGlobals} {cmd : UInt8} {wrData : Buffer UInt8 k}
  {n L : ℕ} {block : Bool} {w : WritePart} {addr : UInt16} {lines : List LogLine}

/-- What the write half of a transfer leaves is assigned as far as it is sent, but for a block
without data. -/
theorem transferWrite_filled_iff (h : transferWrite g cmd wrData n block L = .ok w)
    (hn : n ≤ i2cMaxDataLen) :
    w.len ≤ i2cMaxDataLen + 3 ∧
      ((∃ bs, bs.length = w.len ∧ w.wrBuf.Filled bs) ↔ ¬(block = true ∧ n = 0)) := by
  have hroom : 2 ≤ i2cMaxDataLen + 3 := by decide
  rcases Nat.eq_zero_or_pos n with rfl | hpos
  · obtain ⟨wrBuf, hw, hcells⟩ := transferWrite_nil g cmd block L wrData
    obtain rfl := Except.ok.inj (h.symm.trans hw)
    cases block with
    | false =>
      refine ⟨Nat.le_of_succ_le hroom, fun _ hblock => (by cases hblock.1),
        fun _ => ⟨[cmd], rfl, ?_⟩⟩
      simp [Buffer.Filled, hcells]
    | true =>
      refine ⟨hroom, fun hassigned => ?_, fun hnot => absurd ⟨rfl, rfl⟩ hnot⟩
      obtain ⟨bs, hlen, hbs⟩ := hassigned
      -- the count of the block has not been assigned
      rw [Buffer.Filled, hlen, hcells] at hbs
      have hsecond := congrArg (fun cells => cells[1]?) hbs
      simp [hlen] at hsecond
  · -- the data was loaded, so it was assigned
    have hloads : ∃ d, d.length = n ∧ wrData.Filled d := by
      unfold transferWrite at h
      obtain ⟨buf, -, h⟩ := bind_eq_ok_iff.mp h
      rw [if_pos hpos] at h
      obtain ⟨d, hd, -⟩ := bind_eq_ok_iff.mp h
      apply Buffer.exists_filled
      intro i hi
      have hload := Buffer.load_of_read hd hi
      rwa [Nat.zero_add] at hload
    obtain ⟨d, rfl, hd⟩ := hloads
    obtain ⟨wrBuf, hw, hfilled⟩ :=
      transferWrite_data g cmd block L hd (List.length_pos_iff.mp hpos) hn
    obtain rfl := Except.ok.inj (h.symm.trans hw)
    exact ⟨hfilled.length_le, fun _ hblock => Nat.ne_of_gt hpos hblock.2,
      fun _ => ⟨_, rfl, hfilled⟩⟩

/-- The traces of message 0 read a byte that nobody assigned when a block without data is
sent, and show what is sent otherwise. -/
theorem traceWrite_ok_iff (h : transferWrite g cmd wrData n block L = .ok w)
    (hn : n ≤ i2cMaxDataLen) :
    (∃ lines, traceWrite gDebug addr w = .ok lines) ↔
      (gDebug = true → ¬(block = true ∧ n = 0)) := by
  obtain ⟨hlen, hfilled⟩ := transferWrite_filled_iff h hn
  have hsize := toNat_ofNat_len hlen
  have hmax : w.len ≤ dumpMemMax := Nat.le_trans hlen (by decide)
  unfold traceWrite
  cases gDebug with
  | false => exact ⟨fun _ hdebug => (by cases hdebug), fun _ => ⟨_, rfl⟩⟩
  | true =>
    -- the dump ends when its block is assigned
    have hdump : (∃ dump, dumpMem "I2cTransfer W".toList 0 w.wrBuf (UInt32.ofNat w.len) =
        .ok dump) ↔ (∃ bs, bs.length = (UInt32.ofNat w.len).toNat ∧ w.wrBuf.Filled bs) ∧
          (UInt32.ofNat w.len).toNat ≤ dumpMemMax := dumpMem_ok_iff
    rw [hsize, hfilled] at hdump
    constructor
    · rintro ⟨lines, hlines⟩ -
      obtain ⟨dump, hok, -⟩ := bind_eq_ok_iff.mp hlines
      exact (hdump.mp ⟨dump, hok⟩).1
    · intro hnot
      obtain ⟨dump, hok⟩ := hdump.mpr ⟨hnot rfl, hmax⟩
      exact ⟨_, by rw [if_pos rfl, hok]; rfl⟩

/-- What the traces of message 0 show. -/
theorem traceWrite_shows (h : traceWrite gDebug addr w = .ok lines)
    (hlen : w.len ≤ i2cMaxDataLen + 3) :
    untraced lines = [] ∧ (gDebug = true → ∃ text, .trace text ∈ lines ∧
      (readDump (dumpMemFormat "I2cTransfer W".toList 0) 0 w.len text).map some =
        w.wrBuf.cells.take w.len) := by
  have hsize := toNat_ofNat_len hlen
  cases gDebug with
  | false =>
    obtain rfl := Except.ok.inj h
    exact ⟨rfl, fun hdebug => (by cases hdebug)⟩
  | true =>
    unfold traceWrite at h
    rw [if_pos rfl] at h
    obtain ⟨dump, hdump, h⟩ := bind_eq_ok_iff.mp h
    obtain rfl := Except.ok.inj h
    refine ⟨rfl, fun _ => ⟨dump, by simp, ?_⟩⟩
    -- what was dumped was assigned, and can be read from the dump
    obtain ⟨bs, hbs, hfilled⟩ := filled_of_dumpMem hdump
    have hread := readDump_of_dumpMem hdump hfilled hbs.symm
    rw [hsize] at hbs
    rw [hbs] at hread
    have hcells : w.wrBuf.cells.take bs.length = bs.map some := hfilled
    rw [hread, ← hcells, hbs]

end Write

section Read

variable {cap : ℕ} {gDebug : Bool} {rdBuf : Buffer UInt8 (i2cMaxDataLen + 2)} {R : List UInt8}

/-- The dump of a reply that fits the buffer. -/
theorem exists_traceReply (gDebug : Bool) (hR : rdBuf.Filled R) :
    ∃ dump, traceReply gDebug rdBuf R.length = .ok dump ∧ untraced dump = [] ∧
      (gDebug = true → ∃ text, .trace text ∈ dump ∧
        readDump (dumpMemFormat "I2cTransfer R".toList 0) 0 R.length text = R) := by
  have hsize := toNat_ofNat_len (Nat.le_succ_of_le hR.length_le)
  have hmax : R.length ≤ dumpMemMax := Nat.le_trans hR.length_le (by decide)
  cases gDebug with
  | false => exact ⟨[], rfl, rfl, fun hdebug => (by cases hdebug)⟩
  | true =>
    obtain ⟨text, htext, hread⟩ : ∃ text,
        dumpMem "I2cTransfer R".toList 0 rdBuf (UInt32.ofNat R.length) = .ok text ∧
          readDump (dumpMemFormat "I2cTransfer R".toList 0) 0 R.length text = R :=
      exists_dumpMem hR hsize hmax
    exact ⟨[.trace text], by rw [traceReply, if_pos rfl, htext]; rfl, rfl,
      fun _ => ⟨text, List.mem_singleton.mpr rfl, hread⟩⟩

@[simp] theorem mapError_ok {α : Type} (a : α) :
    (Except.ok a : Except Fault α).mapError Stop.fault = .ok a := rfl

/-- The traces change nothing in the read half. -/
theorem transferReadTraced_eq {len : ℕ} {dump : List LogLine}
    (hdump : traceReply gDebug rdBuf len = .ok dump) (g : I2cGlobals) (crc : UInt8)
    (msgs : List I2cMsg) (rdLen : ℕ) (rdBlock : Bool) (rdData : Buffer UInt8 cap)
    (bytesRead : Option UInt8) :
    transferReadTraced gDebug g crc msgs rdBuf len rdLen rdBlock rdData bytesRead =
      ((transferRead g crc msgs rdBuf rdLen rdBlock rdData bytesRead).map fun t =>
        (t, t.log.map .error ++ dump)).mapError .fault := by
  unfold transferReadTraced transferRead
  -- the steps of the read half fail alike, one after the other
  cases hcount : checkCount rdBuf rdBlock rdLen with
  | error e => rfl
  | ok count =>
    obtain ⟨rc, n, countLog⟩ := count
    cases hpec : checkPec g crc rdBuf (n + rdBlock.toNat) rc with
    | error e => simp [Except.mapError, hpec, bind, Except.bind, Except.map]
    | ok pec =>
      obtain ⟨rc, pecLog⟩ := pec
      cases hpayload : rdBuf.read rdBlock.toNat n with
      | error e => simp [Except.mapError, hpec, hdump, hpayload, bind, Except.bind, Except.map]
      | ok payload =>
        cases hwrite : rdData.write 0 payload with
        | error e =>
          simp [Except.mapError, hpec, hdump, hpayload, hwrite, bind, Except.bind, Except.map]
        | ok rdData' =>
          simp [Except.mapError, hpec, hdump, hpayload, hwrite, Except.map]

/-- The log of the read half: its errors, and the reply. -/
theorem transferReadTraced_of_ok (gDebug : Bool) {g : I2cGlobals} {crc : UInt8}
    {msgs : List I2cMsg} {rx : List UInt8} {len L : ℕ} {rdBlock : Bool} {rdData : Buffer UInt8 cap}
    {bytesRead : Option UInt8} {t : Transfer cap}
    (hwrite : (Buffer.uninit (i2cMaxDataLen + 2)).write 0 (received rx len) = .ok rdBuf)
    (hroom : len ≤ i2cMaxDataLen + 2)
    (h : transferRead g crc msgs rdBuf L rdBlock rdData bytesRead = .ok t) :
    ∃ lines, transferReadTraced gDebug g crc msgs rdBuf len L rdBlock rdData bytesRead =
        .ok (t, lines) ∧ untraced lines = t.log.map .error ∧ t.msgs = some msgs ∧
      (gDebug = true → ∃ text, .trace text ∈ lines ∧
        readDump (dumpMemFormat "I2cTransfer R".toList 0) 0 len text = received rx len) := by
  have hlen : (received rx len).length = len := List.takeD_length _ _ _
  -- the host has assigned what the dump shows
  obtain ⟨buf, hbuf, hfilled⟩ := Buffer.exists_write_zero
    (Buffer.uninit (i2cMaxDataLen + 2) : Buffer UInt8 (i2cMaxDataLen + 2)) (hlen.trans_le hroom)
  obtain rfl := Except.ok.inj (hbuf.symm.trans hwrite)
  obtain ⟨dump, hdump, huntraced, hreply⟩ := exists_traceReply gDebug hfilled
  rw [hlen] at hdump hreply
  refine ⟨t.log.map .error ++ dump, ?_, ?_, ?_, fun hdebug => ?_⟩
  · rw [transferReadTraced_eq hdump, h]
    rfl
  · rw [untraced_append, untraced_map_error, huntraced, List.append_nil]
  · simp only [transferRead, pure_eq_ok, bind_eq_ok_iff, Except.ok.injEq] at h
    obtain ⟨_, -, _, -, _, -, _, -, rfl⟩ := h
    rfl
  · obtain ⟨text, htext, hread⟩ := hreply hdebug
    exact ⟨text, List.mem_append_right _ htext, hread⟩

end Read

theorem untraced_traceRead (gDebug : Bool) (addr : UInt16) (len : ℕ) :
    untraced (traceRead gDebug addr len) = [] := by
  cases gDebug <;> rfl

/-- What a log has to show about the messages of a transfer. -/
theorem dumped_requestMsgs {cap : ℕ} {t : Transfer cap} {bus : Rdwr} {lines : List LogLine}
    {g : I2cGlobals} {w : WritePart} {block : Bool} {L : ℕ}
    (hmsgs : t.msgs = some (requestMsgs g w block L))
    (hsent : ∃ text, .trace text ∈ lines ∧
      (readDump (dumpMemFormat "I2cTransfer W".toList 0) 0 w.len text).map some =
        w.wrBuf.cells.take w.len)
    (hreply : 0 < L → ∀ rx, bus = .done rx → ∃ text, .trace text ∈ lines ∧
      readDump (dumpMemFormat "I2cTransfer R".toList 0) 0 (L + block.toNat + g.gUseCrc.toNat)
        text = received rx (L + block.toNat + g.gUseCrc.toNat)) :
    t.Dumped bus lines := by
  rw [requestMsgs] at hmsgs
  by_cases hpos : 0 < L
  · rw [if_pos hpos] at hmsgs
    refine ⟨fun m rest hm => ?_, fun m₀ m₁ rx hm hbus => ?_⟩
    · obtain ⟨rfl, -⟩ := List.cons.inj (Option.some.inj (hmsgs.symm.trans hm))
      exact hsent
    · obtain ⟨-, hrest⟩ := List.cons.inj (Option.some.inj (hmsgs.symm.trans hm))
      obtain ⟨rfl, -⟩ := List.cons.inj hrest
      exact hreply hpos rx hbus
  · -- nothing is read: there is no message 1
    rw [if_neg hpos] at hmsgs
    refine ⟨fun m rest hm => ?_, fun m₀ m₁ rx hm hbus => ?_⟩
    · obtain ⟨rfl, -⟩ := List.cons.inj (Option.some.inj (hmsgs.symm.trans hm))
      exact hsent
    · obtain ⟨-, hrest⟩ := List.cons.inj (Option.some.inj (hmsgs.symm.trans hm))
      cases hrest

section Transfers

variable {k cap : ℕ} {gDebug : Bool} {g : I2cGlobals} {bus : Rdwr} {cmd : UInt8}
  {wrPtr : UInt32} {wrData : Buffer UInt8 k} {wrLen rdLen : UInt8} {rdData : Buffer UInt8 cap}
  {bytesReadp : Option UInt8} {t : Transfer cap} {lines : List LogLine}

/-- A transfer whose traces can be read is the transfer without them. -/
theorem i2cTransferTraced_of_ok (wrPtr : UInt32)
    (h : i2cTransfer g bus cmd wrData wrLen rdData rdLen bytesReadp = .ok t)
    (htraceable : gDebug = true → Traceable wrData wrLen rdLen) :
    ∃ lines, i2cTransferTraced gDebug g bus cmd wrPtr wrData wrLen rdData rdLen bytesReadp =
        .ok (t, lines) ∧ untraced lines = t.log.map .error ∧
      (gDebug = true → t.Dumped bus lines) := by
  obtain ⟨call, hcall⟩ : ∃ call, traceCall gDebug cmd wrPtr wrData wrLen rdLen = .ok call :=
    traceCall_ok_iff.mpr fun hdebug => (htraceable hdebug).first
  have huntraced := untraced_traceCall hcall
  unfold i2cTransfer at h
  unfold i2cTransferTraced
  rw [hcall, mapError_ok, ok_bind]
  dsimp only at h ⊢
  by_cases hwr : i2cMaxDataLen < (wrLen &&& 0x7f).toNat
  · rw [if_pos hwr] at h ⊢
    obtain rfl := Except.ok.inj h
    exact ⟨_, rfl, by simp [huntraced, untraced], fun _ => ⟨fun _ _ hm => (by cases hm),
      fun _ _ _ hm => (by cases hm)⟩⟩
  rw [if_neg hwr] at h ⊢
  by_cases hrd : i2cMaxDataLen < (rdLen &&& 0x7f).toNat
  · rw [if_pos hrd] at h ⊢
    obtain rfl := Except.ok.inj h
    exact ⟨_, rfl, by simp [huntraced, untraced], fun _ => ⟨fun _ _ hm => (by cases hm),
      fun _ _ _ hm => (by cases hm)⟩⟩
  rw [if_neg hrd] at h ⊢
  obtain ⟨w, hw, h⟩ := bind_eq_ok_iff.mp h
  have hwlen := (transferWrite_filled_iff hw (Nat.le_of_not_lt hwr)).1
  have hnot : gDebug = true → ¬(isBlock wrLen = true ∧ dataLen wrLen = 0) := fun hdebug =>
    (htraceable hdebug).count.resolve_left fun hrefuses => hrefuses.elim hwr hrd
  obtain ⟨sent, hsent⟩ : ∃ sent, traceWrite gDebug g.gI2cAddr.toUInt16 w = .ok sent :=
    (traceWrite_ok_iff hw (Nat.le_of_not_lt hwr)).mpr hnot
  obtain ⟨huntracedSent, hshown⟩ := traceWrite_shows hsent hwlen
  rw [hw, mapError_ok, ok_bind, hsent, ok_bind]
  -- from here on the read length and its flag are any
  generalize (rdLen &&& 0x7f).toNat = L at h hrd ⊢
  generalize decide (rdLen &&& 0x80 ≠ 0) = rdBlock at h ⊢
  obtain ⟨asked, hasked⟩ : ∃ asked, asked = if 0 < L then
      traceRead gDebug g.gI2cAddr.toUInt16 (L + rdBlock.toNat + g.gUseCrc.toNat) else [] :=
    ⟨_, rfl⟩
  have huntracedAsked : untraced asked = [] := by
    rw [hasked]
    split
    · exact untraced_traceRead _ _ _
    · rfl
  rw [← hasked]
  have hfront : untraced (call ++ sent ++ asked) = [] := by
    rw [untraced_append, untraced_append, huntraced, huntracedSent, huntracedAsked]
    rfl
  have hshows : ∀ rest, gDebug = true → ∃ text,
      LogLine.trace text ∈ call ++ sent ++ asked ++ rest ∧
        (readDump (dumpMemFormat "I2cTransfer W".toList 0) 0 w.len text).map some =
          w.wrBuf.cells.take w.len := by
    intro rest hdebug
    obtain ⟨text, htext, hread⟩ := hshown hdebug
    exact ⟨text, List.mem_append_left _ (List.mem_append_left _ (List.mem_append_right _ htext)),
      hread⟩
  cases bus with
  | failed errno =>
    obtain rfl := Except.ok.inj h
    exact ⟨_, rfl, by rw [untraced_append, hfront]; rfl, fun hdebug =>
      dumped_requestMsgs rfl (hshows _ hdebug) fun _ _ hbus => (by cases hbus)⟩
  | done rx =>
    dsimp only at h ⊢
    by_cases hpos : 0 < L
    · rw [if_pos hpos] at h ⊢
      obtain ⟨rdBuf, hrdBuf, h⟩ := bind_eq_ok_iff.mp h
      have hroom : L + rdBlock.toNat + g.gUseCrc.toNat ≤ i2cMaxDataLen + 2 := by
        have h₁ := Bool.toNat_le rdBlock
        have h₂ := Bool.toNat_le g.gUseCrc
        omega
      obtain ⟨lines, hlines, huntracedLines, hmsgs, hreply⟩ :=
        transferReadTraced_of_ok gDebug hrdBuf hroom h
      rw [hrdBuf, mapError_ok, ok_bind, hlines, ok_bind]
      rw [if_pos hpos] at hmsgs
      refine ⟨_, rfl, by rw [untraced_append, hfront, huntracedLines]; rfl, fun hdebug =>
        dumped_requestMsgs (hmsgs.trans (congrArg some (if_pos hpos).symm)) (hshows _ hdebug)
          fun _ rx' hbus => ?_⟩
      obtain rfl := Rdwr.done.inj hbus
      obtain ⟨text, htext, hread⟩ := hreply hdebug
      exact ⟨text, List.mem_append_right _ htext, hread⟩
    · rw [if_neg hpos] at h ⊢
      obtain rfl := Except.ok.inj h
      refine ⟨_, rfl, hfront, fun hdebug => dumped_requestMsgs rfl ?_ fun hlt => absurd hlt hpos⟩
      have hthis := hshows [] hdebug
      rwa [List.append_nil] at hthis

/-- A transfer with traces has read its traces, and the rest of it is the transfer. -/
theorem i2cTransfer_of_traced
    (h : i2cTransferTraced gDebug g bus cmd wrPtr wrData wrLen rdData rdLen bytesReadp =
      .ok (t, lines)) :
    i2cTransfer g bus cmd wrData wrLen rdData rdLen bytesReadp = .ok t ∧
      (gDebug = true → Traceable wrData wrLen rdLen) := by
  unfold i2cTransferTraced at h
  obtain ⟨call, hcall, h⟩ := bind_eq_ok_iff.mp h
  have hfirst := traceCall_ok_iff.mp ⟨call, mapError_eq_ok_iff.mp hcall⟩
  unfold i2cTransfer
  dsimp only at h ⊢
  -- the tests of the lengths come behind the first trace
  by_cases hwr : i2cMaxDataLen < (wrLen &&& 0x7f).toNat
  · rw [if_pos hwr] at h ⊢
    obtain ⟨rfl, -⟩ := Prod.mk.inj (Except.ok.inj h)
    exact ⟨rfl, fun hdebug => ⟨hfirst hdebug, .inl (.inl hwr)⟩⟩
  rw [if_neg hwr] at h ⊢
  by_cases hrd : i2cMaxDataLen < (rdLen &&& 0x7f).toNat
  · rw [if_pos hrd] at h ⊢
    obtain ⟨rfl, -⟩ := Prod.mk.inj (Except.ok.inj h)
    exact ⟨rfl, fun hdebug => ⟨hfirst hdebug, .inl (.inr hrd)⟩⟩
  rw [if_neg hrd] at h ⊢
  -- both lengths fit: message 0 is put together and dumped
  obtain ⟨w, hw, h⟩ := bind_eq_ok_iff.mp h
  rw [mapError_eq_ok_iff] at hw
  obtain ⟨sent, hsent, h⟩ := bind_eq_ok_iff.mp h
  have hcount : gDebug = true → ¬(isBlock wrLen = true ∧ dataLen wrLen = 0) :=
    (traceWrite_ok_iff hw (Nat.le_of_not_lt hwr)).mp ⟨sent, hsent⟩
  refine ⟨?_, fun hdebug => ⟨hfirst hdebug, .inr (hcount hdebug)⟩⟩
  rw [hw, ok_bind]
  generalize (rdLen &&& 0x7f).toNat = L at h hrd ⊢
  generalize decide (rdLen &&& 0x80 ≠ 0) = rdBlock at h ⊢
  cases bus with
  | failed errno =>
    obtain ⟨rfl, -⟩ := Prod.mk.inj (Except.ok.inj h)
    rfl
  | done rx =>
    dsimp only at h ⊢
    by_cases hpos : 0 < L
    · rw [if_pos hpos] at h ⊢
      -- the read half, its dump between the PEC and the payload
      obtain ⟨rdBuf, hrdBuf, h⟩ := bind_eq_ok_iff.mp h
      obtain ⟨⟨t', lines'⟩, hread, h⟩ := bind_eq_ok_iff.mp h
      obtain ⟨rfl, -⟩ := Prod.mk.inj (Except.ok.inj h)
      rw [mapError_eq_ok_iff] at hrdBuf
      rw [hrdBuf, ok_bind]
      unfold transferReadTraced at hread
      simp only [bind_eq_ok_iff, mapError_eq_ok_iff, pure_eq_ok, Except.ok.injEq,
        Prod.mk.injEq] at hread
      obtain ⟨count, hcount, pec, hpec, dump, hdump, payload, hpayload, rdData', hwrite, rfl, -⟩ :=
        hread
      simp only [transferRead, hcount, hpec, hpayload, hwrite, ok_bind, pure_eq_ok]
    · rw [if_neg hpos] at h ⊢
      obtain ⟨rfl, -⟩ := Prod.mk.inj (Except.ok.inj h)
      rfl

/-- **Traces of a transfer**: with its traces a transfer comes to the same end exactly when it
comes to an end without them and the traces read assigned bytes only; the log is then that of
the transfer and, with `gDebug`, the bytes sent and received. -/
theorem i2cTransferTraced_shows (gDebug : Bool) (g : I2cGlobals) (bus : Rdwr) (cmd : UInt8)
    (wrPtr : UInt32) (wrData : Buffer UInt8 k) (wrLen : UInt8) (rdData : Buffer UInt8 cap)
    (rdLen : UInt8) (bytesReadp : Option UInt8) (t : Transfer cap) :
    ((∃ lines, i2cTransferTraced gDebug g bus cmd wrPtr wrData wrLen rdData rdLen bytesReadp =
        .ok (t, lines)) ↔
      i2cTransfer g bus cmd wrData wrLen rdData rdLen bytesReadp = .ok t ∧
        (gDebug = true → Traceable wrData wrLen rdLen)) ∧
      ∀ lines, i2cTransferTraced gDebug g bus cmd wrPtr wrData wrLen rdData rdLen bytesReadp =
          .ok (t, lines) →
        untraced lines = t.log.map .error ∧ (gDebug = true → t.Dumped bus lines) := by
  refine ⟨⟨fun ⟨lines, h⟩ => i2cTransfer_of_traced h, fun ⟨h, htraceable⟩ => ?_⟩,
    fun lines h => ?_⟩
  · obtain ⟨lines, hlines, -⟩ := i2cTransferTraced_of_ok wrPtr h htraceable
    exact ⟨lines, hlines⟩
  · obtain ⟨ht, htraceable⟩ := i2cTransfer_of_traced h
    obtain ⟨lines', hlines', hspec⟩ := i2cTransferTraced_of_ok wrPtr ht htraceable
    obtain ⟨-, rfl⟩ := Prod.mk.inj (Except.ok.inj (h.symm.trans hlines'))
    exact hspec

end Transfers

end GumstixExtras.I2c
