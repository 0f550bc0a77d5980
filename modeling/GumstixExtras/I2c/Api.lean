import GumstixExtras.I2c.Crc8
import GumstixExtras.Lib.Buffer
import GumstixExtras.Lib.Numeral
import Mathlib.Data.List.TakeDrop

/-!
# The I2C Transfer Functions (`i2c-api.c`)

`I2cTransfer` and the wrappers around it, and the direct paths of `I2cReceiveBytes` and
`I2cSendBytes`. Buffers are bounded and start out indeterminate, so a run that would leave
an array or read an unassigned byte is a fault of the model. The bus is the outcome of the
one `I2C_RDWR` ioctl a call makes.

The error messages are modelled here; the traces that `gDebug` enables are in `I2c.Trace`.
-/

namespace GumstixExtras.I2c

open GumstixExtras.Lib

/-! ## §1 Constants and messages (`i2c.h`, `i2c-dev.h`, `i2c-api.h`) -/

/-- `I2C_MAX_DATA_LEN`. -/
def i2cMaxDataLen : ℕ := 32

/-- `I2C_M_RD`. -/
def i2cMRd : UInt16 := 0x01

/-- `ENOBUFS`. -/
def enobufs : ℤ := 105

/-- `EBADMSG`. -/
def ebadmsg : ℤ := 74

/-- `EMSGSIZE`. -/
def emsgsize : ℤ := 90

/-- The private globals of `i2c-api.c`. `gUseCrc` is `I2C_NO_CRC` or `I2C_USE_CRC`. -/
structure I2cGlobals where
  gI2cAddr : UInt8
  gUseCrc : Bool
  deriving DecidableEq, Repr

/-- `struct i2c_msg` at the moment of the ioctl, with the contents `buf` points to. -/
structure I2cMsg where
  addr : UInt16
  flags : UInt16
  len : ℕ
  buf : List (Option UInt8)
  deriving DecidableEq, Repr

/-- The bytes of a message: the first `len` of its buffer. -/
def I2cMsg.bytes (m : I2cMsg) : List (Option UInt8) := m.buf.take m.len

/-- The outcome of the `I2C_RDWR` ioctl: it fails, or the device clocks out `rx`. -/
inductive Rdwr
  | failed (errno : ℤ)
  | done (rx : List UInt8)
  deriving DecidableEq, Repr

/-- The bytes the host stores for a read message of length `len`. A device that stops
early leaves the line released, which reads as ones. -/
def received (rx : List UInt8) (len : ℕ) : List UInt8 := rx.takeD len 0xff

/-- What the functions report through `LogError`. -/
inductive Diagnostic
  | setSlave (addr : UInt8) (errno : ℤ)
  | wrLenTooBig (wrLen : ℕ)
  | rdLenTooBig (rdLen : ℕ)
  | ioctlFailed (who : String) (errno : ℤ)
  | lengthTooBig (got max : ℕ)
  | crcFailed (rcvd expecting : UInt8)
  deriving DecidableEq, Repr

/-- The text of a diagnostic, given `strerror`. -/
def Diagnostic.text (strerror : ℤ → List Char) : Diagnostic → List Char
  | .setSlave addr errno =>
    "I2cSetSlaveAddress: Error trying to set slave address to 0x".toList ++ fmtByte addr ++
      " (".toList ++ fmtInt errno ++ " ".toList ++ strerror errno ++ ")\n".toList
  | .wrLenTooBig wrLen =>
    "I2cTransfer: wrLen too big: ".toList ++ fmtInt wrLen ++ ", max is ".toList ++
      fmtInt i2cMaxDataLen ++ "\n".toList
  | .rdLenTooBig rdLen =>
    "I2cTransfer: rdLen too big: ".toList ++ fmtInt rdLen ++ ", max is ".toList ++
      fmtInt i2cMaxDataLen ++ "\n".toList
  | .ioctlFailed who errno =>
    who.toList ++ ": ioctl failed: ".toList ++ strerror errno ++ " (".toList ++
      fmtInt errno ++ ")\n".toList
  | .lengthTooBig got max =>
    "I2cTransfer: length is too big: ".toList ++ fmtInt got ++ " max: ".toList ++
      fmtInt max ++ "\n".toList
  | .crcFailed rcvd expecting =>
    "I2cTransfer: CRC failed: Rcvd: 0x".toList ++ fmtByte rcvd ++
      ", expecting: 0x".toList ++ fmtByte expecting ++ "\n".toList

/-- `I2cSetSlaveAddress`: the globals it leaves, whatever the ioctl returns. -/
def i2cSetSlaveAddress (i2cAddr : UInt8) (useCrc : Bool) (slave : Option ℤ) :
    I2cGlobals × List Diagnostic :=
  (⟨i2cAddr, useCrc⟩, match slave with
    | none => []
    | some errno => [.setSlave i2cAddr errno])

/-! ## §2 `I2cTransfer` -/

/-- What the write half of `I2cTransfer` leaves: the buffer, `msg[0].len` and `crc`. -/
structure WritePart where
  wrBuf : Buffer UInt8 (i2cMaxDataLen + 3)
  len : ℕ
  crc : UInt8
  deriving DecidableEq, Repr

/-- The copy of the caller's data behind the command byte, a block with its length first. -/
def copyWrData (wrBuf : Buffer UInt8 (i2cMaxDataLen + 3)) (wrBlock : Bool)
    (data : List UInt8) : Except Fault (Buffer UInt8 (i2cMaxDataLen + 3)) :=
  if wrBlock then do
    let wrBuf ← wrBuf.store 1 (UInt8.ofNat data.length)
    wrBuf.write 2 data
  else
    wrBuf.write 1 data

/-- The write half of `I2cTransfer`, with `wrLen` and `rdLen` already masked. -/
def transferWrite {k : ℕ} (g : I2cGlobals) (cmd : UInt8) (wrData : Buffer UInt8 k)
    (wrLen : ℕ) (wrBlock : Bool) (rdLen : ℕ) : Except Fault WritePart := do
  let len := wrLen + 1 + wrBlock.toNat
  let crc := if g.gUseCrc then crc8 (crc8 0 (g.gI2cAddr <<< 1)) cmd else 0
  let wrBuf ← (Buffer.uninit (i2cMaxDataLen + 3)).store 0 cmd
  if 0 < wrLen then
    let data ← wrData.read 0 wrLen
    let wrBuf ← copyWrData wrBuf wrBlock data
    -- the block branch counts its length byte in
    let wrLen := if wrBlock then wrLen + 1 else wrLen
    if g.gUseCrc then
      let block ← wrBuf.read 1 wrLen
      let crc := crc8Block crc block
      -- the checksum goes out only when no read follows
      if rdLen = 0 then
        let wrBuf ← wrBuf.store (wrLen + 1) crc
        pure ⟨wrBuf, len + 1, crc⟩
      else
        pure ⟨wrBuf, len, crc⟩
    else
      pure ⟨wrBuf, len, crc⟩
  else
    pure ⟨wrBuf, len, crc⟩

/-- What a call hands back: the return value, the `errno` it sets, the messages of the
ioctl if one was issued, and the caller's memory. -/
structure Transfer (cap : ℕ) where
  rc : ℤ
  errno : Option ℤ
  msgs : Option (List I2cMsg)
  rdData : Buffer UInt8 cap
  bytesRead : Option UInt8
  log : List Diagnostic
  deriving DecidableEq, Repr

/-- The length check of a block reply: the return value so far, and the new `rdLen`. -/
def checkCount (rdBuf : Buffer UInt8 (i2cMaxDataLen + 2)) (rdBlock : Bool) (rdLen : ℕ) :
    Except Fault (ℤ × ℕ × List Diagnostic) :=
  if rdBlock then do
    let count ← rdBuf.load 0
    if rdLen < count.toNat then
      pure (emsgsize, rdLen, [.lengthTooBig count.toNat rdLen])
    else
      pure (0, count.toNat, [])
  else
    pure (0, rdLen, [])

/-- The PEC check: the checksum over `covered` bytes against the byte behind them. -/
def checkPec (g : I2cGlobals) (crc : UInt8) (rdBuf : Buffer UInt8 (i2cMaxDataLen + 2))
    (covered : ℕ) (rc : ℤ) : Except Fault (ℤ × List Diagnostic) :=
  if g.gUseCrc then do
    let checked ← rdBuf.read 0 covered
    let pec ← rdBuf.load covered
    -- a wrong PEC overrides the result of the length check
    if crc8Block crc checked ≠ pec then
      pure (ebadmsg, [.crcFailed pec (crc8Block crc checked)])
    else
      pure (rc, [])
  else
    pure (rc, [])

/-- The read half of `I2cTransfer` after a successful ioctl, with `crc` already past the
read address. -/
def transferRead {cap : ℕ} (g : I2cGlobals) (crc : UInt8) (msgs : List I2cMsg)
    (rdBuf : Buffer UInt8 (i2cMaxDataLen + 2)) (rdLen : ℕ) (rdBlock : Bool)
    (rdData : Buffer UInt8 cap) (bytesRead : Option UInt8) : Except Fault (Transfer cap) := do
  let (rc, rdLen, countLog) ← checkCount rdBuf rdBlock rdLen
  let (rc, pecLog) ← checkPec g crc rdBuf (rdLen + rdBlock.toNat) rc
  -- the payload is copied out whatever the checks have found
  let payload ← rdBuf.read rdBlock.toNat rdLen
  let rdData ← rdData.write 0 payload
  pure ⟨rc, none, some msgs, rdData, bytesRead.map fun _ => UInt8.ofNat rdLen,
    countLog ++ pecLog⟩

/-- `I2cTransfer`. A null `wrData` or `rdData` is a buffer without cells, a null
`bytesReadp` is `none`. -/
def i2cTransfer {k cap : ℕ} (g : I2cGlobals) (bus : Rdwr) (cmd : UInt8)
    (wrData : Buffer UInt8 k) (wrLen : UInt8) (rdData : Buffer UInt8 cap) (rdLen : UInt8)
    (bytesReadp : Option UInt8) : Except Fault (Transfer cap) := do
  -- the top bit of a length asks for a block transfer
  let wrBlock := decide (wrLen &&& 0x80 ≠ 0)
  let rdBlock := decide (rdLen &&& 0x80 ≠ 0)
  let rdLen := (rdLen &&& 0x7f).toNat
  let wrLen := (wrLen &&& 0x7f).toNat
  let bytesRead := bytesReadp.map fun _ => 0
  if i2cMaxDataLen < wrLen then
    pure ⟨-1, some enobufs, none, rdData, bytesRead, [.wrLenTooBig wrLen]⟩
  else if i2cMaxDataLen < rdLen then
    pure ⟨-1, some enobufs, none, rdData, bytesRead, [.rdLenTooBig rdLen]⟩
  else
    let w ← transferWrite g cmd wrData wrLen wrBlock rdLen
    let addr := g.gI2cAddr.toUInt16
    -- message 1 is prepared in any case, and handed over only for a read
    let rdBuf : Buffer UInt8 (i2cMaxDataLen + 2) := Buffer.uninit _
    let msg0 : I2cMsg := ⟨addr, 0, w.len, w.wrBuf.cells⟩
    let msg1 : I2cMsg := ⟨addr, i2cMRd, rdLen + rdBlock.toNat + g.gUseCrc.toNat, rdBuf.cells⟩
    let msgs := if 0 < rdLen then [msg0, msg1] else [msg0]
    match bus with
    | .failed errno =>
      pure ⟨-1, some errno, some msgs, rdData, bytesRead, [.ioctlFailed "I2cTransfer" errno]⟩
    | .done rx =>
      if 0 < rdLen then
        let rdBuf ← rdBuf.write 0 (received rx msg1.len)
        let crc := if g.gUseCrc then crc8 w.crc (g.gI2cAddr <<< 1 ||| 1) else w.crc
        transferRead g crc msgs rdBuf rdLen rdBlock rdData bytesRead
      else
        pure ⟨0, none, some msgs, rdData, bytesRead, []⟩

/-! ## §3 The wrappers -/

/-- A null data pointer. -/
def nullBuffer : Buffer UInt8 0 := Buffer.uninit 0

section Wrappers

variable {k cap : ℕ} (g : I2cGlobals) (bus : Rdwr) (cmd : UInt8)

/-- `I2cProcessBlock`. -/
def i2cProcessBlock (wrData : Buffer UInt8 k) (wrLen : UInt8) (rdData : Buffer UInt8 cap)
    (rdLen : UInt8) (bytesReadp : Option UInt8) : Except Fault (Transfer cap) :=
  i2cTransfer g bus cmd wrData (0x80 ||| wrLen) rdData (0x80 ||| rdLen) bytesReadp

/-- `I2cReadBlock`. -/
def i2cReadBlock (rdData : Buffer UInt8 cap) (rdLen : UInt8) (bytesReadp : Option UInt8) :
    Except Fault (Transfer cap) :=
  i2cTransfer g bus cmd nullBuffer 0 rdData (0x80 ||| rdLen) bytesReadp

/-- `I2cReadByte`. -/
def i2cReadByte (rdByte : Buffer UInt8 cap) : Except Fault (Transfer cap) :=
  i2cTransfer g bus cmd nullBuffer 0 rdByte 1 none

/-- `I2cReadBytes`. -/
def i2cReadBytes (rdByte : Buffer UInt8 cap) (rdLen : UInt8) : Except Fault (Transfer cap) :=
  i2cTransfer g bus cmd nullBuffer 0 rdByte rdLen none

/-- `I2cWriteBlock`. -/
def i2cWriteBlock (wrData : Buffer UInt8 k) (wrLen : UInt8) : Except Fault (Transfer 0) :=
  i2cTransfer g bus cmd wrData (0x80 ||| wrLen) nullBuffer 0 none

/-- `I2cWriteByte`. -/
def i2cWriteByte (wrByte : UInt8) : Except Fault (Transfer 0) :=
  i2cTransfer g bus cmd (Buffer.ofList [wrByte]) 1 nullBuffer 0 none

/-- `I2cWriteBytes`. -/
def i2cWriteBytes (wrByte : Buffer UInt8 k) (wrLen : UInt8) : Except Fault (Transfer 0) :=
  i2cTransfer g bus cmd wrByte wrLen nullBuffer 0 none

/-- `I2cReceiveBytes`: one read message straight into the caller's memory. -/
def i2cReceiveBytes (rdData : Buffer UInt8 cap) (rdLen : UInt8) :
    Except Fault (Transfer cap) :=
  let msgs : List I2cMsg := [⟨g.gI2cAddr.toUInt16, i2cMRd, rdLen.toNat, rdData.cells⟩]
  match bus with
  | .failed errno =>
    pure ⟨-1, some errno, some msgs, rdData, none, [.ioctlFailed "I2cReceiveBytes" errno]⟩
  | .done rx => do
    let rdData ← rdData.write 0 (received rx rdLen.toNat)
    pure ⟨0, none, some msgs, rdData, none, []⟩

/-- `I2cReceiveByte`. -/
def i2cReceiveByte (rdByte : Buffer UInt8 cap) : Except Fault (Transfer cap) :=
  i2cReceiveBytes g bus rdByte 1

/-- `I2cSendBytes`: one write message straight from the caller's memory. -/
def i2cSendBytes (wrData : Buffer UInt8 k) (wrLen : UInt8) : Except Fault (Transfer 0) :=
  let msgs : List I2cMsg := [⟨g.gI2cAddr.toUInt16, 0, wrLen.toNat, wrData.cells⟩]
  match bus with
  | .failed errno =>
    pure ⟨-1, some errno, some msgs, nullBuffer, none, [.ioctlFailed "I2cSendBytes" errno]⟩
  | .done _ => pure ⟨0, none, some msgs, nullBuffer, none, []⟩

/-- `I2cSendByte`. -/
def i2cSendByte (wrByte : UInt8) : Except Fault (Transfer 0) :=
  i2cSendBytes g bus (Buffer.ofList [wrByte]) 1

end Wrappers

end GumstixExtras.I2c
