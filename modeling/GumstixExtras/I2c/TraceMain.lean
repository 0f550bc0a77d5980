import GumstixExtras.I2c.Commands
import GumstixExtras.I2c.Trace

/-!
# Debug Traces of `bus3-i2c`

The calls of `i2c-api.c` that the program makes, the `Process*Command` functions and `main`
with the traces of `gDebug`. A run with traces does what the run without them does, unless the
traces themselves read a byte that nobody assigned (`mainTraced_spec`).
-/

namespace GumstixExtras.I2c

open GumstixExtras.Lib

/-! ## §1 The program with its traces -/

section Program

variable {k cap : ℕ} (gDebug : Bool)

/-- A log that goes on. -/
def behind {α : Type} (front : List LogLine) (x : Except Stop (α × List LogLine)) :
    Except Stop (α × List LogLine) :=
  x.map fun r => (r.1, front ++ r.2)

/-- `I2cReadBytes`. -/
def i2cReadBytesTraced (g : I2cGlobals) (bus : Rdwr) (cmd : UInt8) (rdByte : Buffer UInt8 cap)
    (rdLen : UInt8) : Except Stop (Transfer cap × List LogLine) :=
  behind (logDebug gDebug ("----- I2cReadBytes cmd: 0x".toList ++ fmtByte cmd ++
      " rdLen: 0x".toList ++ fmtByte rdLen ++ " -----\n".toList))
    (i2cTransferTraced gDebug g bus cmd 0 nullBuffer 0 rdByte rdLen none)

/-- `I2cWriteBytes`. -/
def i2cWriteBytesTraced (g : I2cGlobals) (bus : Rdwr) (cmd : UInt8) (wrPtr : UInt32)
    (wrByte : Buffer UInt8 k) (wrLen : UInt8) : Except Stop (Transfer 0 × List LogLine) :=
  behind (logDebug gDebug ("----- I2cWriteBytes cmd: 0x".toList ++ fmtByte cmd ++
      " wrLen: 0x".toList ++ fmtByte wrLen ++ " -----\n".toList))
    (i2cTransferTraced gDebug g bus cmd wrPtr wrByte wrLen nullBuffer 0 none)

/-- `I2cReceiveBytes`. -/
def i2cReceiveBytesTraced (g : I2cGlobals) (bus : Rdwr) (rdData : Buffer UInt8 cap)
    (rdLen : UInt8) : Except Stop (Transfer cap × List LogLine) := do
  let t ← (i2cReceiveBytes g bus rdData rdLen).mapError .fault
  pure (t, logDebug gDebug "----- I2cReceiveBytes -----\n".toList ++ t.log.map .error)

/-- `I2cSendBytes`. -/
def i2cSendBytesTraced (g : I2cGlobals) (bus : Rdwr) (wrData : Buffer UInt8 k) (wrLen : UInt8) :
    Except Stop (Transfer 0 × List LogLine) := do
  let t ← (i2cSendBytes g bus wrData wrLen).mapError .fault
  pure (t, logDebug gDebug ("----- I2cSendBytes wrLen = 0x".toList ++ fmtByte wrLen ++
    " -----\n".toList) ++ t.log.map .error)

/-- What a command leaves: the log and the transactions issued. -/
structure TracedEffect where
  log : List LogLine
  ioctls : List (List I2cMsg)
  deriving DecidableEq, Repr

variable (env : Env) (g : I2cGlobals) (wrPtr : UInt32)

/-- The end of a read command. The errors of the call are in the log already. -/
def finishReadTraced (gByteCount : ℤ) (failed : String) (r : Transfer cap × List LogLine) :
    Except Stop TracedEffect := do
  let e ← (finishRead env gByteCount failed { r.1 with log := [] }).mapError .fault
  pure ⟨r.2 ++ [.plain e.out], e.ioctls⟩

/-- The end of a write command. -/
def finishWriteTraced (failed : String) (r : Transfer cap × List LogLine) : TracedEffect :=
  let e := finishWrite env failed { r.1 with log := [] }
  ⟨r.2 ++ [.plain e.out], e.ioctls⟩

/-- `ProcessReadByteCommand`. -/
def processReadByteCommandTraced (gByteCount : ℤ) (addrStr : List Char) :
    Except Stop TracedEffect :=
  match parseByte env.dm addrStr with
  | .error e => .ok ⟨[.plain (logError e.text)], []⟩
  | .ok addr => do
    let dataByte : Buffer UInt8 i2cMaxDataLen := Buffer.uninit _
    let r ← i2cReadBytesTraced gDebug g env.bus addr dataByte (UInt8.ofInt gByteCount)
    finishReadTraced env gByteCount "I2cReadByte failed: " r

/-- `ProcessRecvByteCommand`. -/
def processRecvByteCommandTraced (gByteCount : ℤ) : Except Stop TracedEffect := do
  let dataByte : Buffer UInt8 i2cMaxDataLen := Buffer.uninit _
  let r ← i2cReceiveBytesTraced gDebug g env.bus dataByte (UInt8.ofInt gByteCount)
  finishReadTraced env gByteCount "I2cRecvBytes failed: " r

/-- `ProcessWriteByteCommand`; `wrPtr` is the address of `dataByte`. -/
def processWriteByteCommandTraced (addrStr dataStr : List Char) : Except Stop TracedEffect :=
  match parseByte env.dm addrStr with
  | .error e => .ok ⟨[.plain (logError e.text)], []⟩
  | .ok addr => do
    let dataByte : Buffer UInt8 i2cMaxDataLen := Buffer.uninit _
    let parsed ← (parseBytes env.dm dataStr dataByte (UInt8.ofNat i2cMaxDataLen)).mapError .fault
    match parsed.bytesParsed with
    | .error e => .ok ⟨[.plain (logError e.text)], []⟩
    | .ok bytesParsed => do
      let r ← i2cWriteBytesTraced gDebug g env.bus addr wrPtr parsed.buf bytesParsed
      .ok (finishWriteTraced env "I2cWriteBytes failed: " r)

/-- `ProcessSendByteCommand`. -/
def processSendByteCommandTraced (dataStr : List Char) : Except Stop TracedEffect := do
  let dataByte : Buffer UInt8 i2cMaxDataLen := Buffer.uninit _
  let parsed ← (parseBytes env.dm dataStr dataByte (UInt8.ofNat i2cMaxDataLen)).mapError .fault
  match parsed.bytesParsed with
  | .error e => .ok ⟨[.plain (logError e.text)], []⟩
  | .ok bytesParsed => do
    let r ← i2cSendBytesTraced gDebug g env.bus parsed.buf bytesParsed
    .ok (finishWriteTraced env "I2cSendBytes failed: " r)

/-- The switch of `main` on the command. -/
def processCommandTraced (gByteCount : ℤ) : Request → Except Stop TracedEffect
  | .read addrStr => processReadByteCommandTraced gDebug env g gByteCount addrStr
  | .write addrStr dataStr => processWriteByteCommandTraced gDebug env g wrPtr addrStr dataStr
  | .recv => processRecvByteCommandTraced gDebug env g gByteCount
  | .send dataStr => processSendByteCommandTraced gDebug env g dataStr

end Program

/-- The value of a command in its enumeration, where `CMD_DEFAULT` is 0. -/
def Cmd.value : Cmd → ℕ
  | .readByte => 1
  | .readByte2 => 2
  | .readByte4 => 3
  | .writeByte => 4
  | .writeByte2 => 5
  | .writeByte4 => 6
  | .recvByte => 7
  | .recvByte2 => 8
  | .recvByte4 => 9
  | .sendByte => 10
  | .sendByte2 => 11
  | .sendByte4 => 12

/-- `gAddrStr` and `gDataStr` as `main` logs them. -/
def Request.shown : Request → List Char
  | .read addrStr => " Addr: ".toList ++ addrStr
  | .write addrStr dataStr => " Addr: ".toList ++ addrStr ++ " Data: ".toList ++ dataStr
  | .recv => []
  | .send dataStr => " Data: ".toList ++ dataStr

/-- The trace of `main`. -/
def traceMain (gDebug : Bool) (gCmdStr : List Char) (cl : CommandLine) : List LogLine :=
  logDebug gDebug ("i2cAddr:0x".toList ++ fmtHexPad 2 cl.gI2cAddr.toNat ++ " Cmd: ".toList ++
    gCmdStr ++ " (".toList ++ fmtInt cl.gCmd.value ++ ")".toList ++ cl.request.shown ++
    "\n".toList)

/-- A finished run with its log. -/
structure TracedRun where
  status : ℕ
  usage : Bool
  log : List LogLine
  ioctls : List (List I2cMsg)
  deriving DecidableEq, Repr

/-- `main`, with `gDebug` as the options have left it; `wrPtr` is the address of `dataByte`. -/
def mainTraced (env : Env) (gDebug : Bool) (wrPtr : UInt32) (argv : List (List Char)) :
    Except Stop TracedRun :=
  match commandLine env.dm env.posixlyCorrect argv with
  | .error e => .ok ⟨1, e.usage, [.plain (logError e.message)], []⟩
  | .ok cl =>
    let gCmdStr := (getoptLong env.posixlyCorrect shortOpts gOption argv).2.getD 1 []
    let command := traceMain gDebug gCmdStr cl
    match env.openErrno with
    | some errno =>
      .ok ⟨1, false, command ++ [.plain (logError ("Error  opening '/dev/i2c-3': ".toList ++
        env.strerror errno ++ "\n".toList))], []⟩
    | none => do
      let slave := i2cSetSlaveAddress (UInt8.ofInt cl.gI2cAddr) false env.slaveErrno
      let e ← processCommandTraced gDebug env slave.1 wrPtr cl.gByteCount cl.request
      .ok ⟨0, false, command ++ traceSlave gDebug (UInt8.ofInt cl.gI2cAddr) false ++
        slave.2.map .error ++ e.log, e.ioctls⟩

/-! ## §2 Runs with traces -/

/-- The text of the log without its traces. -/
def plainText (strerror : ℤ → List Char) (lines : List LogLine) : List Char :=
  logText strerror (untraced lines)

section PlainText

variable {strerror : ℤ → List Char}

theorem plainText_append (lines lines' : List LogLine) :
    plainText strerror (lines ++ lines') =
      plainText strerror lines ++ plainText strerror lines' := by
  rw [plainText, untraced_append, logText, List.flatMap_append]
  rfl

theorem plainText_errors {lines : List LogLine} {log : List Diagnostic}
    (h : untraced lines = log.map .error) :
    plainText strerror lines = logDiagnostics strerror log := by
  rw [plainText, h, logText, List.flatMap_map]
  rfl

theorem plainText_map_error (log : List Diagnostic) :
    plainText strerror (log.map .error) = logDiagnostics strerror log :=
  plainText_errors (untraced_map_error log)

theorem plainText_logDebug_append (gDebug : Bool) (text : List Char) (lines : List LogLine) :
    plainText strerror (logDebug gDebug text ++ lines) = plainText strerror lines := by
  rw [plainText, untraced_logDebug_append]
  rfl

theorem plainText_plain (text : List Char) : plainText strerror [.plain text] = text := by
  show List.flatMap (LogLine.text strerror) [.plain text] = text
  rw [List.flatMap_singleton]
  rfl

end PlainText

/-- The effect of a command without its traces. -/
def TracedEffect.untraced (strerror : ℤ → List Char) (e : TracedEffect) : Effect :=
  ⟨plainText strerror e.log, e.ioctls⟩

section Commands

variable {k cap : ℕ} {gDebug : Bool} {g : I2cGlobals} {env : Env} {bus : Rdwr} {wrPtr : UInt32}
  {gByteCount : ℤ} {t : Transfer cap} {lines : List LogLine} {p : Effect}

theorem behind_of_ok {α : Type} {front : List LogLine} {x : Except Stop (α × List LogLine)} {a : α}
    (h : x = .ok (a, lines)) : behind front x = .ok (a, front ++ lines) := by
  rw [h]
  rfl

theorem i2cReadBytesTraced_of_ok (gDebug : Bool) {cmd rdLen : UInt8} {rdByte : Buffer UInt8 cap}
    (h : i2cReadBytes g bus cmd rdByte rdLen = .ok t) :
    ∃ lines, i2cReadBytesTraced gDebug g bus cmd rdByte rdLen = .ok (t, lines) ∧
      untraced lines = t.log.map .error := by
  have htraceable : gDebug = true → Traceable nullBuffer 0 rdLen := fun _ =>
    ⟨.inl rfl, .inr (by decide)⟩
  obtain ⟨lines, hlines, huntraced, -⟩ := i2cTransferTraced_of_ok 0 h htraceable
  exact ⟨_, behind_of_ok hlines, by rw [untraced_logDebug_append, huntraced]⟩

theorem finishRead_log_eq (failed : String) (t : Transfer cap) :
    finishRead env gByteCount failed t =
      (finishRead env gByteCount failed { t with log := [] }).map fun e =>
        ⟨logDiagnostics env.strerror t.log ++ e.out, e.ioctls⟩ := by
  unfold finishRead
  -- the log is printed first on either way out
  by_cases hrc : t.rc ≠ 0
  · simp [hrc, logDiagnostics, Except.map]
  · cases t.rdData.read 0 gByteCount.toNat <;>
      simp [hrc, logDiagnostics, Except.map, bind, Except.bind]

theorem finishReadTraced_of_ok {failed : String}
    (h : finishRead env gByteCount failed t = .ok p) (hlines : untraced lines = t.log.map .error) :
    ∃ e, finishReadTraced env gByteCount failed (t, lines) = .ok e ∧
      e.untraced env.strerror = p := by
  rw [finishRead_log_eq] at h
  obtain ⟨e, he, rfl⟩ := map_eq_ok_iff.mp h
  refine ⟨_, by rw [finishReadTraced, he]; rfl, ?_⟩
  rw [TracedEffect.untraced, plainText_append, plainText_errors hlines, plainText_plain]

theorem finishWriteTraced_eq (failed : String) (hlines : untraced lines = t.log.map .error) :
    (finishWriteTraced env failed (t, lines)).untraced env.strerror = finishWrite env failed t := by
  rw [TracedEffect.untraced, finishWriteTraced, plainText_append, plainText_errors hlines,
    plainText_plain]
  unfold finishWrite
  by_cases hrc : t.rc ≠ 0 <;> simp [hrc, logDiagnostics]

theorem processReadByteCommandTraced_of_ok {addrStr : List Char}
    (h : processReadByteCommand env g gByteCount addrStr = .ok p) :
    ∃ e, processReadByteCommandTraced gDebug env g gByteCount addrStr = .ok e ∧
      e.untraced env.strerror = p := by
  unfold processReadByteCommand at h
  unfold processReadByteCommandTraced
  cases haddr : parseByte env.dm addrStr with
  | error err =>
    rw [haddr] at h
    obtain rfl := Except.ok.inj h
    exact ⟨_, rfl, by rw [TracedEffect.untraced, plainText_plain]⟩
  | ok addr =>
    rw [haddr] at h
    obtain ⟨t, ht, h⟩ := bind_eq_ok_iff.mp h
    obtain ⟨lines, hlines, huntraced⟩ := i2cReadBytesTraced_of_ok gDebug ht
    obtain ⟨e, he, hplain⟩ := finishReadTraced_of_ok h huntraced
    exact ⟨e, bind_eq_ok_iff.mpr ⟨_, hlines, he⟩, hplain⟩

theorem processRecvByteCommandTraced_of_ok (h : processRecvByteCommand env g gByteCount = .ok p) :
    ∃ e, processRecvByteCommandTraced gDebug env g gByteCount = .ok e ∧
      e.untraced env.strerror = p := by
  obtain ⟨t, ht, h⟩ := bind_eq_ok_iff.mp h
  obtain ⟨lines, hlines, huntraced⟩ : ∃ lines, i2cReceiveBytesTraced gDebug g env.bus
      (Buffer.uninit i2cMaxDataLen : Buffer UInt8 i2cMaxDataLen) (UInt8.ofInt gByteCount) =
      .ok (t, lines) ∧ untraced lines = t.log.map .error :=
    ⟨_, by rw [i2cReceiveBytesTraced, ht]; rfl,
      by rw [untraced_logDebug_append, untraced_map_error]⟩
  obtain ⟨e, he, hplain⟩ := finishReadTraced_of_ok h huntraced
  exact ⟨e, bind_eq_ok_iff.mpr ⟨_, hlines, he⟩, hplain⟩

/-- A data argument that denotes no byte. -/
theorem takenBytes_eq_nil_iff {dm : DataModel} {maxBytes : ℕ} {dataStr : List Char} :
    takenBytes dm maxBytes dataStr = some [] ↔ dataStr = ['0', 'x'] := by
  refine ⟨fun h => ?_, fun h => by rw [h]; rfl⟩
  unfold takenBytes at h
  -- without `0x` there is one byte or none is read
  split at h
  · next digits hmarker =>
    obtain ⟨hpairs, -⟩ := Option.filter_eq_some_iff.mp h
    -- a digit would be part of a byte
    have hdigits : digits = [] := by
      cases digits with
      | nil => rfl
      | cons s rest => exact absurd (length_hexPairs_pos hpairs) (Nat.lt_irrefl 0)
    unfold behindHexPrefix at hmarker
    split at hmarker
    · rw [Option.some.inj hmarker, hdigits]
    · cases hmarker
  · split at h
    · cases h
    · cases h

/-- The data of a write command that sends some: the traces find a first byte. -/
theorem traceable_dataByte {dataStr : List Char} {p : Parsed i2cMaxDataLen} {bytesParsed : UInt8}
    (hp : parseBytes env.dm dataStr (Buffer.uninit i2cMaxDataLen) (UInt8.ofNat i2cMaxDataLen) =
      .ok p) (hparsed : p.bytesParsed = .ok bytesParsed) (hbare : dataStr ≠ ['0', 'x']) :
    Traceable p.buf bytesParsed 0 := by
  obtain ⟨p', hp', hspec⟩ := parseBytes_dataByte env dataStr
  obtain rfl := Except.ok.inj (hp.symm.trans hp')
  cases hargs : takenBytes env.dm i2cMaxDataLen dataStr with
  | none =>
    rw [hargs] at hspec
    obtain ⟨err, herr⟩ := hspec
    cases hparsed.symm.trans herr
  | some bs =>
    rw [hargs] at hspec
    obtain ⟨⟨hcount, hfilled⟩, hlen⟩ := hspec
    obtain rfl := Except.ok.inj (hparsed.symm.trans hcount)
    -- no byte at all would take a bare `0x`
    have hpos : 0 < bs.length := by
      rw [List.length_pos_iff]
      rintro rfl
      exact hbare (takenBytes_eq_nil_iff.mp hargs)
    refine ⟨.inr ⟨_, hfilled.load hpos⟩, .inr fun hblock => ?_⟩
    have hflag : isBlock (UInt8.ofNat bs.length) = false := lenByte_flag false hlen
    rw [hflag] at hblock
    cases hblock.1

theorem processWriteByteCommandTraced_of_ok {addrStr dataStr : List Char}
    (h : processWriteByteCommand env g addrStr dataStr = .ok p)
    (hbare : gDebug = true → (∃ reg, parseByte env.dm addrStr = .ok reg) →
      dataStr ≠ ['0', 'x']) :
    ∃ e, processWriteByteCommandTraced gDebug env g wrPtr addrStr dataStr = .ok e ∧
      e.untraced env.strerror = p := by
  unfold processWriteByteCommand at h
  unfold processWriteByteCommandTraced
  cases haddr : parseByte env.dm addrStr with
  | error err =>
    rw [haddr] at h
    obtain rfl := Except.ok.inj h
    exact ⟨_, rfl, by rw [TracedEffect.untraced, plainText_plain]⟩
  | ok addr =>
    rw [haddr] at h
    -- the address was read, and the data is next
    obtain ⟨parsed, hparsed, h⟩ := bind_eq_ok_iff.mp h
    dsimp only
    rw [hparsed, mapError_ok, ok_bind]
    cases hcount : parsed.bytesParsed with
    | error err =>
      rw [hcount] at h
      obtain rfl := Except.ok.inj h
      exact ⟨_, rfl, by rw [TracedEffect.untraced, plainText_plain]⟩
    | ok bytesParsed =>
      rw [hcount] at h
      -- the transfer: its traces are in front of what the command logs
      obtain ⟨t, ht, h⟩ := bind_eq_ok_iff.mp h
      obtain rfl := Except.ok.inj h
      have htraceable : gDebug = true → Traceable parsed.buf bytesParsed 0 := fun hdebug =>
        traceable_dataByte hparsed hcount (hbare hdebug ⟨addr, haddr⟩)
      obtain ⟨lines, hlines, huntraced, -⟩ :=
        i2cTransferTraced_of_ok wrPtr ht htraceable
      refine ⟨_, bind_eq_ok_iff.mpr ⟨_, behind_of_ok hlines, rfl⟩, ?_⟩
      apply finishWriteTraced_eq
      rw [untraced_logDebug_append, huntraced]

theorem processSendByteCommandTraced_of_ok {dataStr : List Char}
    (h : processSendByteCommand env g dataStr = .ok p) :
    ∃ e, processSendByteCommandTraced gDebug env g dataStr = .ok e ∧
      e.untraced env.strerror = p := by
  unfold processSendByteCommandTraced
  obtain ⟨parsed, hparsed, h⟩ := bind_eq_ok_iff.mp h
  dsimp only
  rw [hparsed, mapError_ok, ok_bind]
  cases hcount : parsed.bytesParsed with
  | error err =>
    rw [hcount] at h
    obtain rfl := Except.ok.inj h
    exact ⟨_, rfl, by rw [TracedEffect.untraced, plainText_plain]⟩
  | ok bytesParsed =>
    rw [hcount] at h
    -- `I2cSendBytes` has no trace that reads the data
    obtain ⟨t, ht, h⟩ := bind_eq_ok_iff.mp h
    obtain rfl := Except.ok.inj h
    refine ⟨_, bind_eq_ok_iff.mpr ⟨_, by rw [i2cSendBytesTraced, ht]; rfl, rfl⟩, ?_⟩
    apply finishWriteTraced_eq
    rw [untraced_logDebug_append, untraced_map_error]

/-- A command without its traces is the command. -/
theorem processCommandTraced_of_ok (gDebug : Bool) (wrPtr : UInt32) {request : Request}
    (h : processCommand env g gByteCount request = .ok p)
    (hbare : gDebug = true → ∀ addrStr, request = .write addrStr ['0', 'x'] →
      ¬∃ reg, parseByte env.dm addrStr = .ok reg) :
    ∃ e, processCommandTraced gDebug env g wrPtr gByteCount request = .ok e ∧
      e.untraced env.strerror = p := by
  cases request with
  | read addrStr => exact processReadByteCommandTraced_of_ok h
  | write addrStr dataStr =>
    apply processWriteByteCommandTraced_of_ok h
    rintro hdebug hreg rfl
    exact hbare hdebug addrStr rfl hreg
  | recv => exact processRecvByteCommandTraced_of_ok h
  | send dataStr => exact processSendByteCommandTraced_of_ok h

/-- The trace of a write command without data loads a byte that nobody assigned. -/
theorem processCommandTraced_bare {addrStr : List Char} {reg : UInt8}
    (haddr : parseByte env.dm addrStr = .ok reg) :
    processCommandTraced true env g wrPtr gByteCount (.write addrStr ['0', 'x']) =
      .error (.fault (.indeterminate 0)) := by
  rw [processCommandTraced, processWriteByteCommandTraced, haddr]
  rfl

end Commands

/-- A run writes to a register without data: its data argument is a bare `0x`. -/
def WritesNothing (env : Env) (argv : List (List Char)) : Prop :=
  ∃ cl addrStr reg, commandLine env.dm env.posixlyCorrect argv = .ok cl ∧ env.openErrno = none ∧
    cl.request = .write addrStr ['0', 'x'] ∧ parseByte env.dm addrStr = .ok reg

/-- **Runs with traces**: with `gDebug` a run that writes to a register without data reads a
byte that nobody assigned; every other run ends as it does without traces, and logs the same
text around them. -/
theorem mainTraced_spec (env : Env) (gDebug : Bool) (wrPtr : UInt32) (argv : List (List Char)) :
    (gDebug = true ∧ WritesNothing env argv →
      mainTraced env gDebug wrPtr argv = .error (.fault (.indeterminate 0))) ∧
      (¬(gDebug = true ∧ WritesNothing env argv) → ∃ r, mainTraced env gDebug wrPtr argv = .ok r ∧
        main env argv = .ok ⟨r.status, r.usage, plainText env.strerror r.log, r.ioctls⟩) := by
  constructor
  · rintro ⟨rfl, cl, addrStr, reg, hcl, hopen, hrequest, haddr⟩
    simp only [mainTraced, hcl, hopen, hrequest, processCommandTraced_bare haddr]
    rfl
  · intro hnot
    unfold mainTraced main
    cases hcl : commandLine env.dm env.posixlyCorrect argv with
    | error e => exact ⟨_, rfl, by rw [plainText_plain]⟩
    | ok cl =>
      cases hopen : env.openErrno with
      | some errno =>
        exact ⟨_, rfl, by rw [traceMain, plainText_logDebug_append, plainText_plain]⟩
      | none =>
        -- the untraced command ends, and is not the one whose trace faults
        obtain ⟨n, hn, hpos, hmax⟩ := commandLine_count hcl
        obtain ⟨p, hp, -⟩ := processCommand_spec env
          (g := ⟨UInt8.ofInt cl.gI2cAddr, false⟩) rfl hpos hmax cl.request
        rw [← hn] at hp
        obtain ⟨e, he, rfl⟩ := processCommandTraced_of_ok gDebug wrPtr hp
          fun hdebug addrStr hrequest ⟨reg, haddr⟩ =>
            hnot ⟨hdebug, cl, addrStr, reg, hcl, hopen, hrequest, haddr⟩
        refine ⟨_, bind_eq_ok_iff.mpr ⟨e, he, rfl⟩, ?_⟩
        rw [traceMain, traceSlave, List.append_assoc, List.append_assoc, plainText_logDebug_append,
          plainText_logDebug_append, plainText_append, plainText_map_error]
        simp only [i2cSetSlaveAddress, TracedEffect.untraced] at hp ⊢
        rw [hp]
        rfl

end GumstixExtras.I2c
