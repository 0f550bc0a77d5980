import GumstixExtras.I2c.Parse
import GumstixExtras.Lib.Getopt

/-!
# The `bus3-i2c` Program (`i2c.c`)

`main` from the argument vector to its exit: the options, the checks on the operands, the
command table and the four `Process*Command` functions. A run ends with an exit status, the
text it logged to the standard output, whether it printed the usage, and the `I2C_RDWR`
transactions it issued.

`--debug` only enables traces, which are in `I2c.TraceMain`, and `--verbose` enables none.
-/

namespace GumstixExtras.I2c

open GumstixExtras.Lib

/-! ## §1 Commands and options -/

/-- The commands of `gCmdMap`. -/
inductive Cmd
  | readByte
  | readByte2
  | readByte4
  | writeByte
  | writeByte2
  | writeByte4
  | recvByte
  | recvByte2
  | recvByte4
  | sendByte
  | sendByte2
  | sendByte4
  deriving DecidableEq, Repr

/-- `gCmdMap`. -/
def gCmdMap : List (Cmd × String) :=
  [(.readByte, "ReadByte"), (.readByte, "rb"), (.readByte2, "ReadByte2"), (.readByte2, "rb2"),
    (.readByte4, "ReadByte4"), (.readByte4, "rb4"), (.writeByte, "WriteByte"),
    (.writeByte, "wb"), (.writeByte2, "WriteByte2"), (.writeByte2, "wb2"),
    (.writeByte4, "WriteByte4"), (.writeByte4, "wb4"), (.recvByte, "RecvByte"),
    (.recvByte, "vb"), (.recvByte2, "RecvByte2"), (.recvByte2, "vb2"),
    (.recvByte4, "RecvByte4"), (.recvByte4, "vb4"), (.sendByte, "SendByte"),
    (.sendByte, "sb"), (.sendByte2, "SendByte2"), (.sendByte2, "sb2"),
    (.sendByte4, "SendByte4"), (.sendByte4, "sb4")]

/-- `strcasecmp` finding two strings equal. -/
def strcaseeq (s t : List Char) : Bool := s.map Char.toLower = t.map Char.toLower

/-- The search for the command in `gCmdMap`. -/
def findCmd (gCmdStr : List Char) : Option Cmd :=
  (gCmdMap.find? fun entry => strcaseeq gCmdStr entry.2.toList).map Prod.fst

/-- The byte count a command fixes, whatever `--count` said. -/
def Cmd.size : Cmd → Option ℕ
  | .readByte2 | .writeByte2 | .recvByte2 | .sendByte2 => some 2
  | .readByte4 | .writeByte4 | .recvByte4 | .sendByte4 => some 4
  | .readByte | .writeByte | .recvByte | .sendByte => none

/-- `OPT_COUNT`, the character `'c'`. -/
def optCount : ℕ := 99

/-- `OPT_FIRST_LONG_OPT`. -/
def optFirstLongOpt : ℕ := 0x80

/-- `gOption`. -/
def gOption : List LongOption :=
  [⟨"count", true, false, optCount⟩, ⟨"version", false, false, optFirstLongOpt + 2⟩,
    ⟨"verbose", false, true, 1⟩, ⟨"debug", false, true, 1⟩,
    ⟨"help", false, false, optFirstLongOpt + 1⟩]

/-- `shortOptsStr`, computed from `gOption`. -/
def shortOpts : List (Char × Bool) :=
  (gOption.filter fun o => !o.flag && o.val < optFirstLongOpt).map fun o =>
    (Char.ofNat o.val, o.hasArg)

/-! ## §2 The command line -/

/-- The end of a run before the device is opened: a message, and the usage or not. -/
structure Exit where
  usage : Bool
  message : List Char
  deriving DecidableEq, Repr

/-- One pass of the option loop: `gByteCount` after it. -/
def optionStep (dm : DataModel) (gByteCount : ℤ) (opt : OptEvent) : Except Exit ℤ :=
  if opt.ret = 0 then
    .ok gByteCount
  else if opt.ret = optCount then
    let optarg := opt.optarg.getD []
    -- the range is tested after the cut to `int`
    let gByteCount := toCInt (strtol dm optarg).1
    if gByteCount ≤ 0 then
      .error ⟨true, "Expecting byte count >= 0, found: '".toList ++ optarg ++ "'\n".toList⟩
    else if i2cMaxDataLen < gByteCount then
      .error ⟨true, "Max byte count supported: ".toList ++ fmtInt i2cMaxDataLen ++
        ", found ".toList ++ fmtInt gByteCount ++ "\n".toList⟩
    else
      .ok gByteCount
  else
    .error ⟨true, "opt:".toList ++ fmtInt opt.ret ++ "\n".toList⟩

/-- What a command works on: `gAddrStr` and `gDataStr` where it takes them. -/
inductive Request
  | read (addrStr : List Char)
  | write (addrStr dataStr : List Char)
  | recv
  | send (dataStr : List Char)
  deriving DecidableEq, Repr

/-- The command specific arguments. -/
def commandArguments (gCmd : Cmd) (args : List (List Char)) : Except Exit Request :=
  match gCmd with
  | .readByte | .readByte2 | .readByte4 =>
    match args with
    | [] => .error ⟨true, "Expecting address\n".toList⟩
    | [addrStr] => .ok (.read addrStr)
    | _ => .error ⟨true, "Unexpected extra parameters\n".toList⟩
  | .writeByte | .writeByte2 | .writeByte4 =>
    match args with
    | [] | [_] => .error ⟨true, "Expecting address and data\n".toList⟩
    | [addrStr, dataStr] => .ok (.write addrStr dataStr)
    | _ => .error ⟨true, "Unexpected extra parameters\n".toList⟩
  | .recvByte | .recvByte2 | .recvByte4 =>
    match args with
    | [] => .ok .recv
    | _ => .error ⟨true, "Unexpected extra parameters\n".toList⟩
  | .sendByte | .sendByte2 | .sendByte4 =>
    match args with
    | [] => .error ⟨true, "Expecting data\n".toList⟩
    | [dataStr] => .ok (.send dataStr)
    | _ => .error ⟨true, "Unexpected extra parameters\n".toList⟩

/-- The globals `main` has set when it opens the device. -/
structure CommandLine where
  gByteCount : ℤ
  gI2cAddr : ℤ
  gCmd : Cmd
  request : Request
  deriving DecidableEq, Repr

/-- The operands, given the byte count the options left. -/
def operands (dm : DataModel) (gByteCount : ℤ) : List (List Char) → Except Exit CommandLine
  | [] => .error ⟨true, "Must specify an i2c address\n\n".toList⟩
  | addr :: args =>
    let gI2cAddr := toCInt (strtol dm addr).1
    if gI2cAddr ≤ 0 ∨ 127 < gI2cAddr then
      .error ⟨true, "Expecting i2c address in the range of 1-127, Found: ".toList ++
        fmtInt gI2cAddr ++ "\n".toList⟩
    else
      match args with
      | [] => .error ⟨true, "Must specify a command\n".toList⟩
      | gCmdStr :: args =>
        match findCmd gCmdStr with
        | none =>
          .error ⟨false, "Unrecognized command '".toList ++ gCmdStr ++ "'\n".toList⟩
        | some gCmd => do
          let request ← commandArguments gCmd args
          -- a command with a size overrides `--count`
          .ok ⟨match gCmd.size with
            | some size => size
            | none => gByteCount, gI2cAddr, gCmd, request⟩

/-- `main` up to the opening of the device; `argv` is without the program name. -/
def commandLine (dm : DataModel) (posixlyCorrect : Bool) (argv : List (List Char)) :
    Except Exit CommandLine := do
  let opts := getoptLong posixlyCorrect shortOpts gOption argv
  let gByteCount ← opts.1.foldlM (optionStep dm) 1
  operands dm gByteCount opts.2

/-! ## §3 The commands -/

/-- What a run meets: the width of `long`, the outcomes of `open`, of `I2C_SLAVE` and of
`I2C_RDWR`, and the error texts. -/
structure Env where
  dm : DataModel
  posixlyCorrect : Bool
  openErrno : Option ℤ
  slaveErrno : Option ℤ
  bus : Rdwr
  strerror : ℤ → List Char

/-- A 32 bit host on which nothing but the bus can fail. -/
def Env.calm (bus : Rdwr) : Env := ⟨.ilp32, false, none, none, bus, fun _ => []⟩

/-- What a command leaves: the text logged and the transactions issued. -/
structure Effect where
  out : List Char
  ioctls : List (List I2cMsg)
  deriving DecidableEq, Repr

/-- `LogError`, the log stream being the standard output. -/
def logError (text : List Char) : List Char := "ERROR: ".toList ++ text

/-- The diagnostics of the transfer functions, logged. -/
def logDiagnostics (strerror : ℤ → List Char) (log : List Diagnostic) : List Char :=
  log.flatMap fun d => logError (d.text strerror)

/-- The lines a read command prints. -/
def printBytes (dataByte : List UInt8) : List Char :=
  "0x".toList ++ dataByte.flatMap fmtByte ++ "\n".toList

section Process

variable (env : Env) (g : I2cGlobals)

/-- The end of a read command: an error line, or the bytes read. -/
def finishRead {cap : ℕ} (gByteCount : ℤ) (failed : String) (t : Transfer cap) :
    Except Fault Effect :=
  let log := logDiagnostics env.strerror t.log
  if t.rc ≠ 0 then
    .ok ⟨log ++ logError (failed.toList ++ fmtInt t.rc ++ "\n".toList), t.msgs.toList⟩
  else do
    let dataByte ← t.rdData.read 0 gByteCount.toNat
    .ok ⟨log ++ printBytes dataByte, t.msgs.toList⟩

/-- The end of a write command: an error line, or nothing. -/
def finishWrite {cap : ℕ} (failed : String) (t : Transfer cap) : Effect :=
  let log := logDiagnostics env.strerror t.log
  if t.rc ≠ 0 then
    ⟨log ++ logError (failed.toList ++ fmtInt t.rc ++ "\n".toList), t.msgs.toList⟩
  else
    ⟨log, t.msgs.toList⟩

/-- `ProcessReadByteCommand`. -/
def processReadByteCommand (gByteCount : ℤ) (addrStr : List Char) : Except Fault Effect :=
  match parseByte env.dm addrStr with
  | .error e => .ok ⟨logError e.text, []⟩
  | .ok addr => do
    let dataByte : Buffer UInt8 i2cMaxDataLen := Buffer.uninit _
    let t ← i2cReadBytes g env.bus addr dataByte (UInt8.ofInt gByteCount)
    finishRead env gByteCount "I2cReadByte failed: " t

/-- `ProcessRecvByteCommand`. -/
def processRecvByteCommand (gByteCount : ℤ) : Except Fault Effect := do
  let dataByte : Buffer UInt8 i2cMaxDataLen := Buffer.uninit _
  let t ← i2cReceiveBytes g env.bus dataByte (UInt8.ofInt gByteCount)
  finishRead env gByteCount "I2cRecvBytes failed: " t

/-- `ProcessWriteByteCommand`. -/
def processWriteByteCommand (addrStr dataStr : List Char) : Except Fault Effect :=
  match parseByte env.dm addrStr with
  | .error e => .ok ⟨logError e.text, []⟩
  | .ok addr => do
    let dataByte : Buffer UInt8 i2cMaxDataLen := Buffer.uninit _
    let parsed ← parseBytes env.dm dataStr dataByte (UInt8.ofNat i2cMaxDataLen)
    match parsed.bytesParsed with
    | .error e => .ok ⟨logError e.text, []⟩
    | .ok bytesParsed => do
      let t ← i2cWriteBytes g env.bus addr parsed.buf bytesParsed
      .ok (finishWrite env "I2cWriteBytes failed: " t)

/-- `ProcessSendByteCommand`. -/
def processSendByteCommand (dataStr : List Char) : Except Fault Effect := do
  let dataByte : Buffer UInt8 i2cMaxDataLen := Buffer.uninit _
  let parsed ← parseBytes env.dm dataStr dataByte (UInt8.ofNat i2cMaxDataLen)
  match parsed.bytesParsed with
  | .error e => .ok ⟨logError e.text, []⟩
  | .ok bytesParsed => do
    let t ← i2cSendBytes g env.bus parsed.buf bytesParsed
    .ok (finishWrite env "I2cSendBytes failed: " t)

/-- The switch of `main` on the command. -/
def processCommand (gByteCount : ℤ) : Request → Except Fault Effect
  | .read addrStr => processReadByteCommand env g gByteCount addrStr
  | .write addrStr dataStr => processWriteByteCommand env g addrStr dataStr
  | .recv => processRecvByteCommand env g gByteCount
  | .send dataStr => processSendByteCommand env g dataStr

end Process

/-! ## §4 `main` -/

/-- A finished run. -/
structure Run where
  status : ℕ
  usage : Bool
  out : List Char
  ioctls : List (List I2cMsg)
  deriving DecidableEq, Repr

/-- `main`. -/
def main (env : Env) (argv : List (List Char)) : Except Fault Run :=
  match commandLine env.dm env.posixlyCorrect argv with
  | .error e => .ok ⟨1, e.usage, logError e.message, []⟩
  | .ok cl =>
    match env.openErrno with
    | some errno =>
      .ok ⟨1, false, logError ("Error  opening '/dev/i2c-3': ".toList ++ env.strerror errno ++
        "\n".toList), []⟩
    | none => do
      -- a failed `I2C_SLAVE` is reported, and the run goes on
      let slave := i2cSetSlaveAddress (UInt8.ofInt cl.gI2cAddr) false env.slaveErrno
      let e ← processCommand env slave.1 cl.gByteCount cl.request
      .ok ⟨0, false, logDiagnostics env.strerror slave.2 ++ e.out, e.ioctls⟩

end GumstixExtras.I2c
