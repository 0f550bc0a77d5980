import GumstixExtras.I2c.Grammar
import GumstixExtras.I2c.Main
import GumstixExtras.I2c.Transfer

/-!
# What the Commands Put on the Bus

The transactions of `bus3-i2c` seen as phases, one rule for each `Process*Command`, and the
two properties of whole runs:

- `main_transfersDocumented_iff`: a run transfers its documented number of bytes exactly
  when it issues no transaction, or its data argument or its `--count` has the documented
  size.
- `printed_bytes_write_back`: what a read command prints, a write command sends back.
-/

namespace GumstixExtras.I2c

open GumstixExtras.Lib

/-! ## §1 Phases -/

/-- A message seen from the bus: the bytes written, or the number of bytes read. -/
inductive Phase
  | write (bytes : List (Option UInt8))
  | read (len : ℕ)
  deriving DecidableEq, Repr

/-- The phase of a message. -/
def I2cMsg.phase (m : I2cMsg) : Phase :=
  if m.flags = i2cMRd then .read m.len else .write m.bytes

/-- The phases of the transactions issued. -/
def phases (ioctls : List (List I2cMsg)) : List (List Phase) :=
  ioctls.map fun msgs => msgs.map I2cMsg.phase

@[simp] theorem phases_nil : phases [] = [] := rfl

@[simp] theorem phases_singleton (msgs : List I2cMsg) :
    phases [msgs] = [msgs.map I2cMsg.phase] := rfl

theorem phase_write (addr : UInt16) (len : ℕ) (buf : List (Option UInt8)) :
    (⟨addr, 0, len, buf⟩ : I2cMsg).phase = .write (buf.take len) := rfl

theorem phase_read (addr : UInt16) (len : ℕ) (buf : List (Option UInt8)) :
    (⟨addr, i2cMRd, len, buf⟩ : I2cMsg).phase = .read len := rfl

/-! ## §2 The transfer functions without PEC -/

theorem toNat_ofNat_of_le {n : ℕ} (h : n ≤ i2cMaxDataLen) : (UInt8.ofNat n).toNat = n := by
  have hmax : i2cMaxDataLen = 32 := rfl
  exact UInt8.toNat_ofNat_of_lt' (by rw [UInt8.size]; omega)

/-- A read call fails with the ioctl, or succeeds quietly and leaves its `n` bytes at the
front of the caller's memory. -/
def Delivered {cap : ℕ} (n : ℕ) (t : Transfer cap) : Rdwr → Prop
  | .failed _ => t.rc ≠ 0
  | .done rx => t.rc = 0 ∧ t.log = [] ∧ t.rdData.Filled (received rx n)

section Calls

variable {g : I2cGlobals} (hg : g.gUseCrc = false) (bus : Rdwr) {n : ℕ} (hpos : 0 < n)
  (hn : n ≤ i2cMaxDataLen)

include hg hpos hn in
theorem i2cReadBytes_spec (reg : UInt8) :
    ∃ t, i2cReadBytes g bus reg (Buffer.uninit i2cMaxDataLen) (UInt8.ofNat n) = .ok t ∧
      phases t.msgs.toList = [[.write [some reg], .read n]] ∧ Delivered n t bus := by
  have hnil : (nullBuffer : Buffer UInt8 0).Filled [] := Buffer.filled_nil _
  obtain ⟨w, hw, -, -, hbytes⟩ := transferWrite_eq g reg false n hnil (Nat.zero_le _)
  have hphases : phases (some (requestMsgs g w false n)).toList =
      [[.write [some reg], .read n]] := by
    simp [requestMsgs, hpos, hg, phase_write, phase_read, hbytes, sentBytes]
  cases bus with
  | failed errno =>
    refine ⟨_, i2cTransfer_failed g reg false (Nat.zero_le _) hn
      hw errno _ none, hphases, ?_⟩
    exact (by decide : (-1 : ℤ) ≠ 0)
  | done rx =>
    have hlen : (received rx n).length = n := List.takeD_length _ _ _
    have hpayload : replyPayload false n (received rx n) = received rx n := by
      rw [replyPayload, Bool.toNat_false, List.drop_zero, List.take_of_length_le]
      rw [hlen, payloadLen]
      exact Nat.le_refl n
    have hfit : 0 + (replyPayload false n (received rx n)).length ≤ i2cMaxDataLen := by
      rw [hpayload, hlen]
      omega
    -- without the PEC the reply is the payload
    have hR : received rx n = received rx (n + false.toNat + g.gUseCrc.toNat) := by
      rw [hg]
      rfl
    refine ⟨_, i2cTransfer_read g reg false (Nat.zero_le _) hpos
      hn hw rx hR _ none hfit, hphases, ?_⟩
    refine ⟨by simp [replyRc, hg, tooLong], by simp [countLog, pecLog, hg, tooLong], ?_⟩
    have hfilled := (Buffer.filled_nil (Buffer.uninit i2cMaxDataLen)).splice _ hfit
    simpa [hpayload] using hfilled

include hn in
theorem i2cReceiveBytes_spec :
    ∃ t, i2cReceiveBytes g bus (Buffer.uninit i2cMaxDataLen) (UInt8.ofNat n) = .ok t ∧
      phases t.msgs.toList = [[.read n]] ∧ Delivered n t bus := by
  have hlen := toNat_ofNat_of_le hn
  cases bus with
  | failed errno =>
    refine ⟨_, rfl, by simp [phase_read, hlen], ?_⟩
    exact (by decide : (-1 : ℤ) ≠ 0)
  | done rx =>
    obtain ⟨buf, hwrite, hfilled⟩ :=
      (Buffer.filled_nil (Buffer.uninit i2cMaxDataLen)).exists_write (received rx n)
        (by rw [received, List.takeD_length]; simpa using hn)
    rw [List.length_nil] at hwrite
    simp only [i2cReceiveBytes, hlen, hwrite, ok_bind, pure_eq_ok]
    exact ⟨_, rfl, by simp [phase_read], rfl, rfl, hfilled⟩

section Writes

variable {k : ℕ} {buf : Buffer UInt8 k} {bs : List UInt8} (hbuf : buf.Filled bs)
  (hlen : bs.length ≤ i2cMaxDataLen)

include hg hbuf hlen in
theorem i2cWriteBytes_spec (reg : UInt8) :
    ∃ t, i2cWriteBytes g bus reg buf (UInt8.ofNat bs.length) = .ok t ∧
      phases t.msgs.toList = [[.write ((reg :: bs).map some)]] := by
  obtain ⟨w, hw, -, -, hbytes⟩ := transferWrite_eq g reg false 0 hbuf hlen
  obtain ⟨t, ht, hmsgs⟩ := i2cTransfer_msgs g reg false hlen (Nat.zero_le _) hw bus
    nullBuffer (Nat.le_refl 0) none
  refine ⟨t, ht, ?_⟩
  have hsent : sentBytes g reg false 0 bs = (reg :: bs).map some := by
    by_cases hne : bs = []
    · simp [sentBytes, hne]
    · simp [sentBytes, hne, smbusWrite, hg, dataPhase]
  rw [hmsgs]
  simp [requestMsgs, phase_write, hbytes, hsent]

include hbuf hlen in
theorem i2cSendBytes_spec :
    ∃ t, i2cSendBytes g bus buf (UInt8.ofNat bs.length) = .ok t ∧
      phases t.msgs.toList = [[.write (bs.map some)]] := by
  have hcells : buf.cells.take bs.length = bs.map some := hbuf
  cases bus <;>
    exact ⟨_, rfl, by simp [phase_write, toNat_ofNat_of_le hlen, hcells]⟩

end Writes

end Calls

/-! ## §3 The commands -/

/-- A read command prints the bytes it read, as the last line. -/
def Prints (bus : Rdwr) (n : ℕ) (out : List Char) : Prop :=
  ∀ rx, bus = .done rx → printBytes (received rx n) <:+ out

/-- The register and data arguments of a request are texts the parsers read to their end. -/
def Request.Readable : Request → Prop
  | .read addrStr => ReadableNumber addrStr
  | .write addrStr dataStr => ReadableNumber addrStr ∧ ReadableData dataStr
  | .recv => True
  | .send dataStr => ReadableData dataStr

/-- What a command with byte count `n` does when it issues a transaction: the bytes on the bus
are the ones its arguments are taken for. -/
def Carries (env : Env) (n : ℕ) (out : List Char) (ioctls : List (List I2cMsg)) :
    Request → Prop
  | .read addrStr => ∃ reg, parseByte env.dm addrStr = .ok reg ∧
      phases ioctls = [[.write [some reg], .read n]] ∧ Prints env.bus n out
  | .write addrStr dataStr => ∃ reg bs, parseByte env.dm addrStr = .ok reg ∧
      takenBytes env.dm i2cMaxDataLen dataStr = some bs ∧
      phases ioctls = [[.write ((reg :: bs).map some)]]
  | .recv => phases ioctls = [[.read n]] ∧ Prints env.bus n out
  | .send dataStr => ∃ bs, takenBytes env.dm i2cMaxDataLen dataStr = some bs ∧
      phases ioctls = [[.write (bs.map some)]]

section Process

variable (env : Env) {g : I2cGlobals} (hg : g.gUseCrc = false) {n : ℕ} (hpos : 0 < n)
  (hn : n ≤ i2cMaxDataLen)

theorem finishRead_spec (failed : String) {t : Transfer i2cMaxDataLen}
    (ht : Delivered n t env.bus) :
    ∃ e, finishRead env n failed t = .ok e ∧ e.ioctls = t.msgs.toList ∧
      ∀ rx, env.bus = .done rx → e.out = printBytes (received rx n) := by
  cases hbus : env.bus with
  | failed errno =>
    rw [hbus, Delivered] at ht
    -- a failed transfer prints no data
    refine ⟨_, by rw [finishRead, if_pos ht], rfl, ?_⟩
    intro rx hrx
    cases hrx
  | done rx =>
    rw [hbus, Delivered] at ht
    obtain ⟨hrc, hlog, hfilled⟩ := ht
    -- the buffer was filled, so the loop that prints it finds every byte
    have hlen : (received rx n).length = n := List.takeD_length _ _ _
    have hread : t.rdData.read 0 n = .ok (received rx n) := by
      have := hfilled.read 0 n (by omega)
      rwa [List.drop_zero, List.take_of_length_le (Nat.le_of_eq hlen)] at this
    refine ⟨⟨printBytes (received rx n), t.msgs.toList⟩, ?_, rfl, ?_⟩
    · simp [finishRead, hrc, hread, hlog, logDiagnostics]
    · intro rx' hrx
      cases hrx
      rfl

theorem finishWrite_ioctls {cap : ℕ} (failed : String) (t : Transfer cap) :
    (finishWrite env failed t).ioctls = t.msgs.toList := by
  unfold finishWrite
  split <;> rfl

include hg hpos hn in
theorem processReadByteCommand_spec {addrStr : List Char} {reg : UInt8}
    (haddr : parseByte env.dm addrStr = .ok reg) :
    ∃ e, processReadByteCommand env g n addrStr = .ok e ∧
      phases e.ioctls = [[.write [some reg], .read n]] ∧
      ∀ rx, env.bus = .done rx → e.out = printBytes (received rx n) := by
  obtain ⟨t, ht, hphases, hdelivered⟩ := i2cReadBytes_spec hg env.bus hpos hn reg
  obtain ⟨e, he, hioctls, hprints⟩ := finishRead_spec env "I2cReadByte failed: " hdelivered
  refine ⟨e, ?_, by rw [hioctls, hphases], hprints⟩
  simp only [processReadByteCommand, haddr, ofInt_natCast, ht, ok_bind, he]

include hn in
theorem processRecvByteCommand_spec :
    ∃ e, processRecvByteCommand env g n = .ok e ∧ phases e.ioctls = [[.read n]] ∧
      ∀ rx, env.bus = .done rx → e.out = printBytes (received rx n) := by
  obtain ⟨t, ht, hphases, hdelivered⟩ := i2cReceiveBytes_spec (g := g) env.bus hn
  obtain ⟨e, he, hioctls, hprints⟩ := finishRead_spec env "I2cRecvBytes failed: " hdelivered
  refine ⟨e, ?_, by rw [hioctls, hphases], hprints⟩
  simp only [processRecvByteCommand, ofInt_natCast, ht, ok_bind, he]

/-- The data argument of a write command, parsed into its array. -/
theorem parseBytes_dataByte (dataStr : List Char) :
    ∃ p, parseBytes env.dm dataStr (Buffer.uninit i2cMaxDataLen)
        (UInt8.ofNat i2cMaxDataLen) = .ok p ∧
      match takenBytes env.dm i2cMaxDataLen dataStr with
      | some bs => p.Holds bs ∧ bs.length ≤ i2cMaxDataLen
      | none => p.Refused := by
  have hmax : (UInt8.ofNat i2cMaxDataLen).toNat = i2cMaxDataLen := rfl
  obtain ⟨p, hp, hspec⟩ := parseBytes_spec env.dm dataStr (Buffer.uninit i2cMaxDataLen)
    (Nat.le_of_eq hmax) (by decide)
  refine ⟨p, hp, ?_⟩
  rw [hmax] at hspec
  cases hargs : takenBytes env.dm i2cMaxDataLen dataStr with
  | none =>
    rw [hargs] at hspec
    exact hspec
  | some bs =>
    rw [hargs] at hspec
    exact ⟨hspec, length_takenBytes_le (by decide) hargs⟩

include hg in
theorem processWriteByteCommand_spec {addrStr dataStr : List Char} {reg : UInt8}
    {bs : List UInt8} (haddr : parseByte env.dm addrStr = .ok reg)
    (hdata : takenBytes env.dm i2cMaxDataLen dataStr = some bs) :
    ∃ e, processWriteByteCommand env g addrStr dataStr = .ok e ∧
      phases e.ioctls = [[.write ((reg :: bs).map some)]] := by
  obtain ⟨p, hp, hspec⟩ := parseBytes_dataByte env dataStr
  rw [hdata] at hspec
  obtain ⟨⟨hcount, hfilled⟩, hlen⟩ := hspec
  obtain ⟨t, ht, hphases⟩ := i2cWriteBytes_spec hg env.bus hfilled hlen reg
  refine ⟨finishWrite env "I2cWriteBytes failed: " t, ?_, by rw [finishWrite_ioctls, hphases]⟩
  simp only [processWriteByteCommand, haddr, hp, ok_bind, hcount, ht]

theorem processSendByteCommand_spec {dataStr : List Char} {bs : List UInt8}
    (hdata : takenBytes env.dm i2cMaxDataLen dataStr = some bs) :
    ∃ e, processSendByteCommand env g dataStr = .ok e ∧
      phases e.ioctls = [[.write (bs.map some)]] := by
  obtain ⟨p, hp, hspec⟩ := parseBytes_dataByte env dataStr
  rw [hdata] at hspec
  obtain ⟨⟨hcount, hfilled⟩, hlen⟩ := hspec
  obtain ⟨t, ht, hphases⟩ := i2cSendBytes_spec (g := g) env.bus hfilled hlen
  refine ⟨finishWrite env "I2cSendBytes failed: " t, ?_, by rw [finishWrite_ioctls, hphases]⟩
  simp only [processSendByteCommand, hp, ok_bind, hcount, ht]

/-- A request refused before the bus. -/
theorem not_readable_of_error {addrStr : List Char} {err : ParseError}
    (haddr : parseByte env.dm addrStr = .error err) : ¬ ReadableNumber addrStr := by
  rw [← @parseByte_ok_iff env.dm]
  rintro ⟨reg, hreg⟩
  cases haddr.symm.trans hreg

theorem not_readable_of_none {dataStr : List Char}
    (hdata : takenBytes env.dm i2cMaxDataLen dataStr = none) : ¬ ReadableData dataStr := by
  rw [← @takenBytes_some_iff env.dm]
  rintro ⟨bs, hbs⟩
  cases hdata.symm.trans hbs

include hg hpos hn in
/-- **The commands**: a command carries exactly what its arguments are taken for, or, where one
of them cannot be read, issues no transaction. -/
theorem processCommand_spec (request : Request) :
    ∃ e, processCommand env g n request = .ok e ∧
      (request.Readable ∧ Carries env n e.out e.ioctls request ∨
        ¬ request.Readable ∧ e.ioctls = []) := by
  cases request with
  | read addrStr =>
    cases haddr : parseByte env.dm addrStr with
    -- no register, no transaction
    | error err =>
      refine ⟨⟨logError err.text, []⟩, ?_, .inr ⟨not_readable_of_error env haddr, rfl⟩⟩
      simp only [processCommand, processReadByteCommand, haddr]
    | ok reg =>
      obtain ⟨e, he, hphases, hprints⟩ := processReadByteCommand_spec env hg hpos hn haddr
      refine ⟨e, he, .inl ⟨parseByte_ok_iff.mp ⟨reg, haddr⟩, reg, haddr, hphases, ?_⟩⟩
      intro rx hrx
      rw [hprints rx hrx]
  | write addrStr dataStr =>
    cases haddr : parseByte env.dm addrStr with
    | error err =>
      refine ⟨⟨logError err.text, []⟩, ?_, .inr ⟨?_, rfl⟩⟩
      · simp only [processCommand, processWriteByteCommand, haddr]
      · exact fun h => not_readable_of_error env haddr h.1
    | ok reg =>
      cases hdata : takenBytes env.dm i2cMaxDataLen dataStr with
      -- a data argument that is no bytes, or too many
      | none =>
        obtain ⟨p, hp, hspec⟩ := parseBytes_dataByte env dataStr
        rw [hdata] at hspec
        obtain ⟨err, herr⟩ := hspec
        refine ⟨⟨logError err.text, []⟩, ?_, .inr ⟨?_, rfl⟩⟩
        · simp only [processCommand, processWriteByteCommand, haddr, hp, ok_bind, herr]
        · exact fun h => not_readable_of_none env hdata h.2
      | some bs =>
        obtain ⟨e, he, hphases⟩ := processWriteByteCommand_spec env hg haddr hdata
        have hreadable : (Request.write addrStr dataStr).Readable :=
          ⟨parseByte_ok_iff.mp ⟨reg, haddr⟩, takenBytes_some_iff.mp ⟨bs, hdata⟩⟩
        exact ⟨e, he, .inl ⟨hreadable, reg, bs, haddr, hdata, hphases⟩⟩
  | recv =>
    obtain ⟨e, he, hphases, hprints⟩ := processRecvByteCommand_spec (g := g) env hn
    refine ⟨e, he, .inl ⟨trivial, hphases, fun rx hrx => ?_⟩⟩
    rw [hprints rx hrx]
  | send dataStr =>
    cases hdata : takenBytes env.dm i2cMaxDataLen dataStr with
    | none =>
      obtain ⟨p, hp, hspec⟩ := parseBytes_dataByte env dataStr
      rw [hdata] at hspec
      obtain ⟨err, herr⟩ := hspec
      refine ⟨⟨logError err.text, []⟩, ?_, .inr ⟨not_readable_of_none env hdata, rfl⟩⟩
      simp only [processCommand, processSendByteCommand, hp, ok_bind, herr]
    | some bs =>
      obtain ⟨e, he, hphases⟩ := processSendByteCommand_spec (g := g) env hdata
      exact ⟨e, he, .inl ⟨takenBytes_some_iff.mp ⟨bs, hdata⟩, bs, hdata, hphases⟩⟩

end Process

/-! ## §4 Byte counts -/

/-- The value of the last `--count` so far, as `strtol` reads it. -/
def countValue (dm : DataModel) (value : ℤ) (opt : OptEvent) : ℤ :=
  if opt.ret = optCount then (strtol dm (opt.optarg.getD [])).1 else value

/-- The value of `--count` on a command line, and 1 if it is absent. -/
def requestedCount (dm : DataModel) (posixlyCorrect : Bool) (argv : List (List Char)) : ℤ :=
  (getoptLong posixlyCorrect shortOpts gOption argv).1.foldl (countValue dm) 1

/-- A byte count a request can have. -/
def CountInRange (n : ℤ) : Prop := 1 ≤ n ∧ n ≤ i2cMaxDataLen

/-- A pass of the option loop keeps `gByteCount` in range, and equal to the last count
given, cut down to an `int`. -/
theorem optionStep_ok {dm : DataModel} {n m value : ℤ} {opt : OptEvent}
    (h : optionStep dm n opt = .ok m) (hvalue : n = toCInt value) (hn : CountInRange n) :
    m = toCInt (countValue dm value opt) ∧ CountInRange m := by
  unfold optionStep at h
  split at h
  · next hzero =>
    -- an option that sets a flag leaves the count alone
    cases h
    have hne : opt.ret ≠ optCount := by rw [hzero]; decide
    rw [countValue, if_neg hne]
    exact ⟨hvalue, hn⟩
  · split at h
    · next hcount =>
      -- `--count`: of the tests that follow only the last branch goes on
      rw [countValue, if_pos hcount]
      dsimp only at h
      split at h
      · cases h
      · split at h
        · cases h
        · next hlow hhigh =>
          cases h
          exact ⟨rfl, by unfold CountInRange; omega⟩
    · cases h

/-- The option loop. -/
theorem foldlM_optionStep_ok {dm : DataModel} {opts : List OptEvent} {n m value : ℤ}
    (h : opts.foldlM (optionStep dm) n = .ok m) (hvalue : n = toCInt value)
    (hn : CountInRange n) :
    m = toCInt (opts.foldl (countValue dm) value) ∧ CountInRange m := by
  induction opts generalizing n value with
  | nil =>
    cases h
    exact ⟨hvalue, hn⟩
  | cons opt opts ih =>
    rw [List.foldlM_cons, bind_eq_ok_iff] at h
    obtain ⟨n', hstep, hrest⟩ := h
    obtain ⟨hvalue', hn'⟩ := optionStep_ok hstep hvalue hn
    exact ih hrest hvalue' hn'

/-- The operands of an accepted command line: an address in range, a command, and what belongs
to it. -/
theorem operands_cases {dm : DataModel} {n : ℤ} {args : List (List Char)} {cl : CommandLine}
    (h : operands dm n args = .ok cl) :
    ∃ addr gCmdStr rest, args = addr :: gCmdStr :: rest ∧
      cl.gI2cAddr = toCInt (strtol dm addr).1 ∧ 0 < cl.gI2cAddr ∧ cl.gI2cAddr ≤ 127 ∧
      findCmd gCmdStr = some cl.gCmd ∧ commandArguments cl.gCmd rest = .ok cl.request ∧
      cl.gByteCount = match cl.gCmd.size with
        | some size => size
        | none => n := by
  unfold operands at h
  cases args with
  | nil => cases h
  | cons addr args =>
    dsimp only at h
    -- the address is looked at before there needs to be a command
    by_cases hrange : toCInt (strtol dm addr).1 ≤ 0 ∨ 127 < toCInt (strtol dm addr).1
    · rw [if_pos hrange] at h
      cases h
    · rw [if_neg hrange] at h
      cases args with
      | nil => cases h
      | cons gCmdStr rest =>
        cases hcmd : findCmd gCmdStr with
        | none => simp [hcmd] at h
        | some gCmd =>
          simp only [hcmd, bind_eq_ok_iff] at h
          obtain ⟨request, hrequest, hcl⟩ := h
          cases hcl
          rw [not_or] at hrange
          exact ⟨addr, gCmdStr, rest, rfl, rfl, lt_of_not_ge hrange.1, le_of_not_gt hrange.2,
            hcmd, hrequest, rfl⟩

/-- The chip address of an accepted command line is the one `strtol` reads from its first
operand, and in range. -/
theorem commandLine_gI2cAddr {dm : DataModel} {posixlyCorrect : Bool}
    {argv : List (List Char)} {cl : CommandLine}
    (h : commandLine dm posixlyCorrect argv = .ok cl) {text : List Char}
    {args : List (List Char)}
    (htext : (getoptLong posixlyCorrect shortOpts gOption argv).2 = text :: args) :
    cl.gI2cAddr = toCInt (strtol dm text).1 ∧ 0 < cl.gI2cAddr ∧ cl.gI2cAddr ≤ 127 := by
  rw [commandLine, bind_eq_ok_iff] at h
  obtain ⟨n, -, h⟩ := h
  obtain ⟨addr, gCmdStr, rest, hargs, haddr, hlow, hhigh, -⟩ := operands_cases h
  obtain ⟨rfl, -⟩ := List.cons.inj (htext.symm.trans hargs)
  exact ⟨haddr, hlow, hhigh⟩

/-- The byte count of an accepted command line is in range. It is the size the command
fixes, or else the value of `--count` cut down to an `int`. -/
theorem commandLine_gByteCount {dm : DataModel} {posixlyCorrect : Bool}
    {argv : List (List Char)} {cl : CommandLine}
    (h : commandLine dm posixlyCorrect argv = .ok cl) :
    CountInRange cl.gByteCount ∧
      cl.gByteCount = match cl.gCmd.size with
        | some size => size
        | none => toCInt (requestedCount dm posixlyCorrect argv) := by
  rw [commandLine, bind_eq_ok_iff] at h
  obtain ⟨n, hopts, hargs⟩ := h
  have hone : (1 : ℤ) = toCInt 1 := (toCInt_eq (by decide) (by decide)).symm
  obtain ⟨hvalue, hn⟩ := foldlM_optionStep_ok hopts hone ⟨by decide, by decide⟩
  obtain ⟨-, -, -, -, -, -, -, -, -, hcount⟩ := operands_cases hargs
  rw [requestedCount, ← hvalue]
  refine ⟨?_, hcount⟩
  rw [hcount]
  cases hcmd : cl.gCmd <;> simp only [Cmd.size] <;>
    first | exact hn | exact ⟨by decide, by decide⟩

/-- The byte count of an accepted command line as a natural number. -/
theorem commandLine_count {dm : DataModel} {posixlyCorrect : Bool} {argv : List (List Char)}
    {cl : CommandLine} (h : commandLine dm posixlyCorrect argv = .ok cl) :
    ∃ n : ℕ, cl.gByteCount = n ∧ 0 < n ∧ n ≤ i2cMaxDataLen := by
  obtain ⟨⟨hlow, hhigh⟩, -⟩ := commandLine_gByteCount h
  obtain ⟨n, hn⟩ := Int.eq_ofNat_of_zero_le (le_trans (by decide) hlow)
  rw [hn] at hlow hhigh
  exact ⟨n, hn, Int.ofNat_lt.mp (lt_of_lt_of_le (by decide) hlow), Int.ofNat_le.mp hhigh⟩

/-! ## §5 Runs -/

theorem Carries.prepend {env : Env} {n : ℕ} {out : List Char} {ioctls : List (List I2cMsg)}
    {request : Request} (h : Carries env n out ioctls request) (log : List Char) :
    Carries env n (log ++ out) ioctls request := by
  cases request with
  | read addrStr =>
    obtain ⟨reg, haddr, hphases, hprints⟩ := h
    exact ⟨reg, haddr, hphases, fun rx hrx => (hprints rx hrx).trans (List.suffix_append _ _)⟩
  | write addrStr dataStr => exact h
  | recv => exact ⟨h.1, fun rx hrx => (h.2 rx hrx).trans (List.suffix_append _ _)⟩
  | send dataStr => exact h

/-- A run whose device opens does what its command does. -/
theorem main_eq (env : Env) {argv : List (List Char)} {cl : CommandLine} {e : Effect}
    (hcl : commandLine env.dm env.posixlyCorrect argv = .ok cl) (hopen : env.openErrno = none)
    (he : processCommand env ⟨UInt8.ofInt cl.gI2cAddr, false⟩ cl.gByteCount cl.request = .ok e) :
    ∃ log, main env argv = .ok ⟨0, false, log ++ e.out, e.ioctls⟩ := by
  simp only [main, hcl, hopen, i2cSetSlaveAddress, he, ok_bind]
  exact ⟨_, rfl⟩

/-- **Runs**: a run on an accepted command line finishes. It carries exactly what the command
line is taken for, or issues no transaction because the device file does not open or an
argument cannot be read. -/
theorem main_spec (env : Env) {argv : List (List Char)} {cl : CommandLine}
    (hcl : commandLine env.dm env.posixlyCorrect argv = .ok cl) :
    ∃ r n, main env argv = .ok r ∧ cl.gByteCount = (n : ℕ) ∧
      (env.openErrno = none ∧ cl.request.Readable ∧ Carries env n r.out r.ioctls cl.request ∨
        ¬ (env.openErrno = none ∧ cl.request.Readable) ∧ r.ioctls = []) := by
  obtain ⟨n, hn, hpos, hmax⟩ := commandLine_count hcl
  cases hopen : env.openErrno with
  | some errno =>
    refine ⟨_, n, by simp only [main, hcl, hopen]; rfl, hn, .inr ⟨?_, rfl⟩⟩
    exact fun h => Option.some_ne_none errno h.1
  | none =>
    obtain ⟨e, he, hspec⟩ := processCommand_spec env (g := ⟨UInt8.ofInt cl.gI2cAddr, false⟩) rfl
      hpos hmax cl.request
    rw [← hn] at he
    obtain ⟨log, hrun⟩ := main_eq env hcl hopen he
    refine ⟨_, n, hrun, hn, ?_⟩
    -- the log of `I2cSetSlaveAddress` stands in front of what the command prints
    rcases hspec with ⟨hreadable, hcarries⟩ | ⟨hrefused, hidle⟩
    · exact .inl ⟨rfl, hreadable, hcarries.prepend log⟩
    · exact .inr ⟨fun h => hrefused h.2, hidle⟩

/-- `main` never leaves a buffer or reads an unassigned byte. -/
theorem main_no_fault (env : Env) (argv : List (List Char)) : ∃ r, main env argv = .ok r := by
  cases hcl : commandLine env.dm env.posixlyCorrect argv with
  | error e => exact ⟨_, by simp only [main, hcl]; rfl⟩
  | ok cl =>
    obtain ⟨r, -, hr, -⟩ := main_spec env hcl
    exact ⟨r, hr⟩

/-- What is carried is a transaction. -/
theorem Carries.ne_nil {env : Env} {n : ℕ} {out : List Char} {ioctls : List (List I2cMsg)}
    {request : Request} (h : Carries env n out ioctls request) : ioctls ≠ [] := by
  rintro rfl
  cases request with
  | read addrStr =>
    obtain ⟨reg, -, hphases, -⟩ := h
    cases hphases
  | write addrStr dataStr =>
    obtain ⟨reg, bs, -, -, hphases⟩ := h
    cases hphases
  | recv => cases h.1
  | send dataStr =>
    obtain ⟨bs, -, hphases⟩ := h
    cases hphases

/-- The number of bytes a read command is documented to read. -/
def documentedCount (requested : ℤ) (gCmd : Cmd) : ℤ :=
  match gCmd.size with
  | some size => size
  | none => requested

/-- A register number goes out as the byte its text denotes, where it denotes one. -/
def NamesByte (addrStr : List Char) (reg : UInt8) : Prop :=
  ∀ b : UInt8, IsNumeral addrStr b.toNat → reg = b

/-- A data argument denotes these bytes, and as many as the command fixes. -/
def DenotesData (gCmd : Cmd) (dataStr : List Char) (bs : List UInt8) : Prop :=
  DenotesBytes dataStr bs ∧ ∀ size, gCmd.size = some size → bs.length = size

/-- A run that issues a transaction transfers its documented number of bytes: a read command
reads and prints them, a write command sends the bytes its data argument denotes, and as many
as it fixes. -/
def TransfersDocumented (env : Env) (requested : ℤ) (cl : CommandLine) (r : Run) : Prop :=
  r.ioctls ≠ [] →
    match cl.request with
    | .read addrStr => ∃ (reg : UInt8) (n : ℕ), NamesByte addrStr reg ∧
        documentedCount requested cl.gCmd = n ∧ CountInRange n ∧
        phases r.ioctls = [[.write [some reg], .read n]] ∧ Prints env.bus n r.out
    | .write addrStr dataStr => ∃ (reg : UInt8) (bs : List UInt8), NamesByte addrStr reg ∧
        DenotesData cl.gCmd dataStr bs ∧ phases r.ioctls = [[.write ((reg :: bs).map some)]]
    | .recv => ∃ n : ℕ, documentedCount requested cl.gCmd = n ∧ CountInRange n ∧
        phases r.ioctls = [[.read n]] ∧ Prints env.bus n r.out
    | .send dataStr => ∃ bs : List UInt8, DenotesData cl.gCmd dataStr bs ∧
        phases r.ioctls = [[.write (bs.map some)]]

/-- The sizes on a command line are the documented ones: `--count` is in range as it stands,
and the data argument denotes bytes, as many as the command fixes. -/
def SizeMatches (requested : ℤ) (cl : CommandLine) : Prop :=
  match cl.request with
  | .read _ | .recv => cl.gCmd.size = none → CountInRange requested
  | .write _ dataStr | .send dataStr => ∃ bs, DenotesData cl.gCmd dataStr bs

/-- A documented count in range is the one used. -/
theorem eq_of_documentedCount {requested n m : ℤ} {gCmd : Cmd}
    (hcount : n = match gCmd.size with
      | some size => (size : ℤ)
      | none => toCInt requested)
    (hdoc : documentedCount requested gCmd = m) (hm : CountInRange m) : n = m := by
  unfold documentedCount at hdoc
  rw [hcount]
  cases hsize : gCmd.size with
  | some size =>
    rw [hsize] at hdoc
    exact hdoc
  | none =>
    rw [hsize] at hdoc
    dsimp only at hdoc ⊢
    -- a count in range survives the cut to `int`
    obtain ⟨hlow, hhigh⟩ := hm
    have hmax : i2cMaxDataLen = 32 := rfl
    rw [hdoc, toCInt_eq (by omega) (by omega)]

/-- The documented count of a read is the one used, unless `--count` was cut down. -/
theorem documentedCount_eq_iff {requested : ℤ} {gCmd : Cmd} {n : ℤ} (hn : CountInRange n)
    (hcount : n = match gCmd.size with
      | some size => (size : ℤ)
      | none => toCInt requested) :
    documentedCount requested gCmd = n ↔ (gCmd.size = none → CountInRange requested) := by
  constructor
  · rintro hdoc hsize
    rw [documentedCount, hsize] at hdoc
    rwa [show requested = n from hdoc]
  · intro hrequested
    cases hsize : gCmd.size with
    | some size =>
      rw [hsize] at hcount
      rw [documentedCount, hsize, hcount]
    | none =>
      have hdoc : documentedCount requested gCmd = requested := by rw [documentedCount, hsize]
      rw [hdoc]
      exact (eq_of_documentedCount hcount hdoc (hrequested hsize)).symm

theorem namesByte_of_parseByte {dm : DataModel} {addrStr : List Char} {reg : UInt8}
    (haddr : parseByte dm addrStr = .ok reg) : NamesByte addrStr reg := by
  intro b hb
  exact Except.ok.inj (haddr.symm.trans (parseByte_of_isNumeral hb))

/-- What a command carries is documented exactly when the sizes are. -/
theorem carries_transfersDocumented_iff {env : Env} {requested : ℤ} {cl : CommandLine} {r : Run}
    {n : ℕ} (hrange : CountInRange n) (hcount : (n : ℤ) = match cl.gCmd.size with
      | some size => (size : ℤ)
      | none => toCInt requested)
    (hcarries : Carries env n r.out r.ioctls cl.request) :
    TransfersDocumented env requested cl r ↔ SizeMatches requested cl := by
  have hissued := hcarries.ne_nil
  have hiff := documentedCount_eq_iff hrange hcount
  unfold TransfersDocumented SizeMatches
  rw [forall_prop_of_true hissued]
  cases hreq : cl.request with
  | read addrStr =>
    rw [hreq] at hcarries
    obtain ⟨reg, haddr, hphases, hprints⟩ := hcarries
    dsimp only
    -- a read is right when the count used is the documented one
    rw [← hiff]
    constructor
    · rintro ⟨reg', n', -, hdoc, -, hphases', -⟩
      cases hphases.symm.trans hphases'
      exact hdoc
    · intro hdoc
      exact ⟨reg, n, namesByte_of_parseByte haddr, hdoc, hrange, hphases, hprints⟩
  | write addrStr dataStr =>
    rw [hreq] at hcarries
    obtain ⟨reg, bs, haddr, hdata, hphases⟩ := hcarries
    dsimp only
    constructor
    · rintro ⟨reg', bs', -, hbs', -⟩
      exact ⟨bs', hbs'⟩
    · -- what the argument denotes is what it was taken for
      rintro ⟨bs', hdenotes, hsize⟩
      obtain rfl := hdenotes.eq_of_takenBytes hdata
      exact ⟨reg, bs', namesByte_of_parseByte haddr, ⟨hdenotes, hsize⟩, hphases⟩
  | recv =>
    rw [hreq] at hcarries
    obtain ⟨hphases, hprints⟩ := hcarries
    dsimp only
    rw [← hiff]
    constructor
    · rintro ⟨n', hdoc, -, hphases', -⟩
      cases hphases.symm.trans hphases'
      exact hdoc
    · intro hdoc
      exact ⟨n, hdoc, hrange, hphases, hprints⟩
  | send dataStr =>
    rw [hreq] at hcarries
    obtain ⟨bs, hdata, hphases⟩ := hcarries
    dsimp only
    constructor
    · rintro ⟨bs', hbs', -⟩
      exact ⟨bs', hbs'⟩
    · rintro ⟨bs', hdenotes, hsize⟩
      obtain rfl := hdenotes.eq_of_takenBytes hdata
      exact ⟨bs', ⟨hdenotes, hsize⟩, hphases⟩

/-- **Documented sizes**: a run on an accepted command line transfers its documented number of
bytes, or issues no transaction, if and only if the device file does not open, or an argument
cannot be read, or the sizes on its command line are the documented ones. -/
theorem main_transfersDocumented_iff (env : Env) (argv : List (List Char)) (cl : CommandLine)
    (hcl : commandLine env.dm env.posixlyCorrect argv = .ok cl) :
    ∃ r, main env argv = .ok r ∧
      (TransfersDocumented env (requestedCount env.dm env.posixlyCorrect argv) cl r ↔
        (env.openErrno = none → cl.request.Readable →
          SizeMatches (requestedCount env.dm env.posixlyCorrect argv) cl)) := by
  obtain ⟨hrange, hcount⟩ := commandLine_gByteCount hcl
  obtain ⟨r, n, hr, hn, hspec⟩ := main_spec env hcl
  rw [hn] at hrange hcount
  refine ⟨r, hr, ?_⟩
  rcases hspec with ⟨hopen, hreadable, hcarries⟩ | ⟨hrefused, hidle⟩
  · rw [carries_transfersDocumented_iff hrange hcount hcarries]
    exact ⟨fun h _ _ => h, fun h => h hopen hreadable⟩
  · -- nothing was issued, and both sides say nothing
    refine iff_of_true ?_ ?_
    · exact fun hissued => absurd hidle hissued
    · exact fun hopen hreadable => absurd ⟨hopen, hreadable⟩ hrefused

/-- A full register write of `bus3-i2c` transfers its four bytes. -/
theorem main_transfersDocumented_fullRegister :
    ∃ r, main (Env.calm (.done []))
        ["0x1b".toList, "wb4".toList, "0x0B".toList, "0x12345678".toList] = .ok r ∧
      TransfersDocumented (Env.calm (.done []))
        (requestedCount .ilp32 false
          ["0x1b".toList, "wb4".toList, "0x0B".toList, "0x12345678".toList])
        ⟨4, 0x1b, .writeByte4, .write "0x0B".toList "0x12345678".toList⟩ r := by
  have hcl : commandLine .ilp32 false
      ["0x1b".toList, "wb4".toList, "0x0B".toList, "0x12345678".toList] =
      .ok ⟨4, 0x1b, .writeByte4, .write "0x0B".toList "0x12345678".toList⟩ := by decide
  obtain ⟨r, hrun, hiff⟩ := main_transfersDocumented_iff (Env.calm (.done [])) _ _ hcl
  refine ⟨r, hrun, hiff.mpr fun _ _ => ⟨_, .pairs (by decide), fun size hsize => ?_⟩⟩
  cases hsize
  decide

/-! ## §6 Reading back -/

/-- A text sends bytes: as the data argument of a write command they follow the register,
and of a send command they are the message. -/
def SendsBytes (text : List Char) (bs : List UInt8) : Prop :=
  ∀ (env : Env) (a : UInt8) (slave : Option ℤ),
    (∀ addrStr reg, parseByte env.dm addrStr = .ok reg →
      ∃ e, processWriteByteCommand env (i2cSetSlaveAddress a false slave).1 addrStr text = .ok e ∧
        phases e.ioctls = [[.write ((reg :: bs).map some)]]) ∧
    ∃ e, processSendByteCommand env (i2cSetSlaveAddress a false slave).1 text = .ok e ∧
      phases e.ioctls = [[.write (bs.map some)]]

theorem sendsBytes_printed {bs : List UInt8} (h : bs.length ≤ i2cMaxDataLen) :
    SendsBytes ('0' :: 'x' :: bs.flatMap fmtByte) bs := fun env _ _ =>
  have hdata := takenBytes_printed env.dm h
  ⟨fun _ _ haddr => processWriteByteCommand_spec env rfl haddr hdata,
    processSendByteCommand_spec env hdata⟩

/-- **Reading back**: the text a read command prints for `n` bytes, without its newline,
sends these bytes. -/
theorem printed_bytes_write_back (env : Env) (a : UInt8) (slave : Option ℤ) (n : ℕ)
    (bs : List UInt8) (hpos : 0 < n) (hn : n ≤ i2cMaxDataLen) (hlen : bs.length = n)
    (hbus : env.bus = .done bs) :
    (∀ addrStr reg, parseByte env.dm addrStr = .ok reg →
      ∃ e text, processReadByteCommand env (i2cSetSlaveAddress a false slave).1 n addrStr = .ok e ∧
        e.out = text ++ ['\n'] ∧ SendsBytes text bs) ∧
    ∃ e text, processRecvByteCommand env (i2cSetSlaveAddress a false slave).1 n = .ok e ∧
      e.out = text ++ ['\n'] ∧ SendsBytes text bs := by
  have hsends := sendsBytes_printed (Nat.le_trans (Nat.le_of_eq hlen) hn)
  have hprinted : printBytes (received bs n) = ('0' :: 'x' :: bs.flatMap fmtByte) ++ ['\n'] := by
    rw [received_eq hlen]
    rfl
  constructor
  · intro addrStr reg haddr
    obtain ⟨e, he, -, hout⟩ := processReadByteCommand_spec env
      (g := (i2cSetSlaveAddress a false slave).1) rfl hpos hn haddr
    exact ⟨e, _, he, (hout bs hbus).trans hprinted, hsends⟩
  · obtain ⟨e, he, -, hout⟩ := processRecvByteCommand_spec env
      (g := (i2cSetSlaveAddress a false slave).1) hn
    exact ⟨e, _, he, (hout bs hbus).trans hprinted, hsends⟩

/-- Three bytes with leading zeros and high bits. -/
theorem printed_bytes_write_back_three :
    (∀ addrStr reg, parseByte .ilp32 addrStr = .ok reg →
      ∃ e text, processReadByteCommand (Env.calm (.done [0x00, 0x0f, 0xf0]))
          (i2cSetSlaveAddress 0x1b false none).1 3 addrStr = .ok e ∧
        e.out = text ++ ['\n'] ∧ SendsBytes text [0x00, 0x0f, 0xf0]) ∧
    ∃ e text, processRecvByteCommand (Env.calm (.done [0x00, 0x0f, 0xf0]))
        (i2cSetSlaveAddress 0x1b false none).1 3 = .ok e ∧
      e.out = text ++ ['\n'] ∧ SendsBytes text [0x00, 0x0f, 0xf0] :=
  printed_bytes_write_back (Env.calm (.done [0x00, 0x0f, 0xf0])) 0x1b none 3 [0x00, 0x0f, 0xf0]
    (by decide) (by decide) rfl rfl

end GumstixExtras.I2c
