import GumstixExtras.I2c.Commands
import GumstixExtras.I2c.Outcome

/-!
# The Exit Status of `bus3-i2c`

What a script can learn from the status of a run. Up to the opening of the device every
failure exits with 1. Behind it the command functions return nothing, the setting of the
slave address returns nothing, and `main` returns 0 whatever has happened.

`main_status_iff` says for which runs the status tells whether the transaction happened.
-/

namespace GumstixExtras.I2c

open GumstixExtras.Lib

/-! ## §1 The transaction a run was asked for -/

/-- A call of the transfer functions has issued its transaction, the only one of `ioctls`,
and has returned 0. -/
def Transfer.Succeeded {cap : ℕ} (t : Transfer cap) (ioctls : List (List I2cMsg)) : Prop :=
  t.rc = 0 ∧ ∃ msgs, t.msgs = some msgs ∧ ioctls = [msgs]

section Requests

variable (env : Env) (g : I2cGlobals) (gByteCount : ℤ) (ioctls : List (List I2cMsg))

/-- The arguments of a request parse, and the call they make has succeeded with `ioctls`. -/
def Accomplished : Request → Prop
  | .read addrStr => ∃ reg t, parseByte env.dm addrStr = .ok reg ∧
      i2cReadBytes g env.bus reg (Buffer.uninit i2cMaxDataLen : Buffer UInt8 i2cMaxDataLen)
        (UInt8.ofInt gByteCount) = .ok t ∧ t.Succeeded ioctls
  | .write addrStr dataStr => ∃ reg p bytesParsed t, parseByte env.dm addrStr = .ok reg ∧
      parseBytes env.dm dataStr (Buffer.uninit i2cMaxDataLen) (UInt8.ofNat i2cMaxDataLen) =
        .ok p ∧ p.bytesParsed = .ok bytesParsed ∧
      i2cWriteBytes g env.bus reg p.buf bytesParsed = .ok t ∧ t.Succeeded ioctls
  | .recv => ∃ t, i2cReceiveBytes g env.bus
        (Buffer.uninit i2cMaxDataLen : Buffer UInt8 i2cMaxDataLen) (UInt8.ofInt gByteCount) =
        .ok t ∧ t.Succeeded ioctls
  | .send dataStr => ∃ p bytesParsed t,
      parseBytes env.dm dataStr (Buffer.uninit i2cMaxDataLen) (UInt8.ofNat i2cMaxDataLen) =
        .ok p ∧ p.bytesParsed = .ok bytesParsed ∧
      i2cSendBytes g env.bus p.buf bytesParsed = .ok t ∧ t.Succeeded ioctls

end Requests

/-- The transaction happened: the command line was accepted, the device was opened, the slave
address was selected, and the request was accomplished by the transaction the run issued. -/
def Happened (env : Env) (argv : List (List Char)) (r : Run) : Prop :=
  ∃ cl, commandLine env.dm env.posixlyCorrect argv = .ok cl ∧ env.openErrno = none ∧
    env.slaveErrno = none ∧
    Accomplished env ⟨UInt8.ofInt cl.gI2cAddr, false⟩ cl.gByteCount r.ioctls cl.request

/-- The register argument of a request is taken for a byte, and its data for at most 32. -/
def ArgumentsParse (dm : DataModel) : Request → Prop
  | .read addrStr => ∃ reg, parseByte dm addrStr = .ok reg
  | .write addrStr dataStr => (∃ reg, parseByte dm addrStr = .ok reg) ∧
      ∃ bs, takenBytes dm i2cMaxDataLen dataStr = some bs
  | .recv => True
  | .send dataStr => ∃ bs, takenBytes dm i2cMaxDataLen dataStr = some bs

/-- Nothing goes wrong behind the opening of the device. -/
def SmoothAfterOpen (env : Env) (argv : List (List Char)) : Prop :=
  ∀ cl, commandLine env.dm env.posixlyCorrect argv = .ok cl → env.openErrno = none →
    env.slaveErrno = none ∧ ArgumentsParse env.dm cl.request ∧ ∃ rx, env.bus = .done rx

/-! ## §2 The calls -/

theorem Transfer.succeeded_iff {cap : ℕ} {t : Transfer cap} {bus : Rdwr}
    {ioctls : List (List I2cMsg)} (hissued : t.msgs ≠ none)
    (hrc : t.rc = 0 ↔ ∃ rx, bus = .done rx) (hioctls : ioctls = t.msgs.toList) :
    t.Succeeded ioctls ↔ ∃ rx, bus = .done rx := by
  obtain ⟨msgs, hmsgs⟩ := Option.ne_none_iff_exists'.mp hissued
  rw [hmsgs, Option.toList_some] at hioctls
  rw [← hrc]
  exact ⟨fun h => h.1, fun h => ⟨h, msgs, hmsgs, hioctls⟩⟩

theorem issued_of_phases {cap : ℕ} {t : Transfer cap} {ps : List Phase}
    (h : phases t.msgs.toList = [ps]) : t.msgs ≠ none := by
  intro hnone
  rw [hnone] at h
  cases h

theorem Delivered.rc_eq_zero_iff {cap n : ℕ} {t : Transfer cap} {bus : Rdwr}
    (h : Delivered n t bus) : t.rc = 0 ↔ ∃ rx, bus = .done rx := by
  cases bus with
  | failed errno =>
    refine iff_of_false h ?_
    rintro ⟨rx, hrx⟩
    cases hrx
  | done rx => exact iff_of_true h.1 ⟨rx, rfl⟩

section Writes

variable (g : I2cGlobals) (bus : Rdwr) {k : ℕ} {buf : Buffer UInt8 k} {bs : List UInt8}
  (hbuf : buf.Filled bs) (hlen : bs.length ≤ i2cMaxDataLen)

include hbuf hlen in
/-- A write fails with its ioctl only. -/
theorem i2cWriteBytes_rc (reg : UInt8) :
    ∃ t, i2cWriteBytes g bus reg buf (UInt8.ofNat bs.length) = .ok t ∧ t.msgs ≠ none ∧
      (t.rc = 0 ↔ ∃ rx, bus = .done rx) := by
  have hdata : bs.length = dataLen (UInt8.ofNat bs.length) := (dataLen_lenByte false hlen).symm
  have hnothing : dataLen 0 = 0 := by decide
  obtain ⟨t, ht, houtcome⟩ := i2cTransfer_outcome g bus reg nullBuffer none hbuf hdata
    (Nat.le_of_eq hnothing)
  refine ⟨t, ht, ?_⟩
  cases houtcome with
  | refused log hrefuses =>
    -- 32 bytes at most are never too many, and nothing is to be read
    rw [Refuses, ← hdata] at hrefuses
    rcases hrefuses with hwr | hrd
    · exact absurd hlen (Nat.not_le.mpr hwr)
    · exact absurd hrd (by decide)
  | failed w errno hlens hw hbus =>
    refine ⟨Option.some_ne_none _, iff_of_false (by decide : (-1 : ℤ) ≠ 0) ?_⟩
    rintro ⟨rx, hrx⟩
    cases hbus.symm.trans hrx
  | wrote w rx hlens hw hbus hnone =>
    exact ⟨Option.some_ne_none _, iff_of_true rfl ⟨rx, hbus⟩⟩
  | replied w rx hlens hw hbus hpos hfit => exact absurd hpos (by decide)

theorem i2cSendBytes_rc {k : ℕ} (buf : Buffer UInt8 k) (wrLen : UInt8) :
    ∃ t, i2cSendBytes g bus buf wrLen = .ok t ∧ t.msgs ≠ none ∧
      (t.rc = 0 ↔ ∃ rx, bus = .done rx) := by
  cases bus with
  | failed errno =>
    refine ⟨_, rfl, Option.some_ne_none _, iff_of_false (by decide : (-1 : ℤ) ≠ 0) ?_⟩
    rintro ⟨rx, hrx⟩
    cases hrx
  | done rx => exact ⟨_, rfl, Option.some_ne_none _, iff_of_true rfl ⟨rx, rfl⟩⟩

end Writes

/-! ## §3 The commands -/

section Process

variable (env : Env) {g : I2cGlobals} (hg : g.gUseCrc = false) {n : ℕ} (hpos : 0 < n)
  (hn : n ≤ i2cMaxDataLen)

include hg hpos hn in
theorem processReadByteCommand_accomplished_iff (addrStr : List Char) :
    ∃ e, processReadByteCommand env g n addrStr = .ok e ∧
      (Accomplished env g n e.ioctls (.read addrStr) ↔
        ArgumentsParse env.dm (.read addrStr) ∧ ∃ rx, env.bus = .done rx) := by
  cases haddr : parseByte env.dm addrStr with
  | error err =>
    -- the address was refused, so there is no transaction to ask for
    refine ⟨⟨logError err.text, []⟩, by simp only [processReadByteCommand, haddr],
      iff_of_false ?_ ?_⟩
    · rintro ⟨reg, t, hreg, -⟩
      cases haddr.symm.trans hreg
    · rintro ⟨⟨reg, hreg⟩, -⟩
      cases haddr.symm.trans hreg
  | ok reg =>
    -- the transfer the command makes is the one the request asks for
    obtain ⟨t, ht, hphases, hdelivered⟩ := i2cReadBytes_spec hg env.bus hpos hn reg
    obtain ⟨e, he, hioctls, -⟩ := finishRead_spec env "I2cReadByte failed: " hdelivered
    have hsucceeded := Transfer.succeeded_iff (issued_of_phases hphases)
      hdelivered.rc_eq_zero_iff hioctls
    rw [← ofInt_natCast] at ht
    refine ⟨e, by simp only [processReadByteCommand, haddr, ht, ok_bind, he], ?_⟩
    rw [← hsucceeded]
    constructor
    · rintro ⟨reg', t', hreg, ht', hs⟩
      obtain rfl := Except.ok.inj (haddr.symm.trans hreg)
      obtain rfl := Except.ok.inj (ht.symm.trans ht')
      exact ⟨⟨reg, haddr⟩, hs⟩
    · rintro ⟨-, hs⟩
      exact ⟨reg, t, haddr, ht, hs⟩

include hn in
theorem processRecvByteCommand_accomplished_iff :
    ∃ e, processRecvByteCommand env g n = .ok e ∧
      (Accomplished env g n e.ioctls .recv ↔
        ArgumentsParse env.dm .recv ∧ ∃ rx, env.bus = .done rx) := by
  obtain ⟨t, ht, hphases, hdelivered⟩ := i2cReceiveBytes_spec (g := g) env.bus hn
  obtain ⟨e, he, hioctls, -⟩ := finishRead_spec env "I2cRecvBytes failed: " hdelivered
  have hsucceeded := Transfer.succeeded_iff (issued_of_phases hphases)
    hdelivered.rc_eq_zero_iff hioctls
  rw [← ofInt_natCast] at ht
  refine ⟨e, by simp only [processRecvByteCommand, ht, ok_bind, he], ?_⟩
  rw [← hsucceeded]
  constructor
  · rintro ⟨t', ht', hs⟩
    obtain rfl := Except.ok.inj (ht.symm.trans ht')
    exact ⟨trivial, hs⟩
  · rintro ⟨-, hs⟩
    exact ⟨t, ht, hs⟩

theorem processWriteByteCommand_accomplished_iff (addrStr dataStr : List Char) :
    ∃ e, processWriteByteCommand env g addrStr dataStr = .ok e ∧
      (Accomplished env g n e.ioctls (.write addrStr dataStr) ↔
        ArgumentsParse env.dm (.write addrStr dataStr) ∧ ∃ rx, env.bus = .done rx) := by
  cases haddr : parseByte env.dm addrStr with
  | error err =>
    refine ⟨⟨logError err.text, []⟩, by simp only [processWriteByteCommand, haddr],
      iff_of_false ?_ ?_⟩
    · rintro ⟨reg, p, bytesParsed, t, hreg, -⟩
      cases haddr.symm.trans hreg
    · rintro ⟨⟨⟨reg, hreg⟩, -⟩, -⟩
      cases haddr.symm.trans hreg
  | ok reg =>
    obtain ⟨p, hp, hspec⟩ := parseBytes_dataByte env dataStr
    cases hdata : takenBytes env.dm i2cMaxDataLen dataStr with
    -- a data argument that denotes nothing, or too much
    | none =>
      rw [hdata] at hspec
      obtain ⟨err, herr⟩ := hspec
      refine ⟨⟨logError err.text, []⟩,
        by simp only [processWriteByteCommand, haddr, hp, ok_bind, herr], iff_of_false ?_ ?_⟩
      · rintro ⟨reg', p', bytesParsed, t, -, hp', hparsed, -⟩
        obtain rfl := Except.ok.inj (hp.symm.trans hp')
        cases herr.symm.trans hparsed
      · rintro ⟨⟨-, bs, hbs⟩, -⟩
        cases hdata.symm.trans hbs
    | some bs =>
      rw [hdata] at hspec
      -- both arguments were taken, and the buffer holds the bytes
      obtain ⟨⟨hcount, hfilled⟩, hlen⟩ := hspec
      obtain ⟨t, ht, hissued, hrc⟩ := i2cWriteBytes_rc g env.bus hfilled hlen reg
      have hsucceeded := Transfer.succeeded_iff hissued hrc
        (finishWrite_ioctls env "I2cWriteBytes failed: " t)
      refine ⟨finishWrite env "I2cWriteBytes failed: " t,
        by simp only [processWriteByteCommand, haddr, hp, ok_bind, hcount, ht], ?_⟩
      rw [← hsucceeded]
      constructor
      · rintro ⟨reg', p', bytesParsed, t', hreg, hp', hparsed, ht', hs⟩
        obtain rfl := Except.ok.inj (haddr.symm.trans hreg)
        obtain rfl := Except.ok.inj (hp.symm.trans hp')
        obtain rfl := Except.ok.inj (hcount.symm.trans hparsed)
        obtain rfl := Except.ok.inj (ht.symm.trans ht')
        exact ⟨⟨⟨reg, haddr⟩, bs, hdata⟩, hs⟩
      · rintro ⟨-, hs⟩
        exact ⟨reg, p, _, t, haddr, hp, hcount, ht, hs⟩

theorem processSendByteCommand_accomplished_iff (dataStr : List Char) :
    ∃ e, processSendByteCommand env g dataStr = .ok e ∧
      (Accomplished env g n e.ioctls (.send dataStr) ↔
        ArgumentsParse env.dm (.send dataStr) ∧ ∃ rx, env.bus = .done rx) := by
  obtain ⟨p, hp, hspec⟩ := parseBytes_dataByte env dataStr
  cases hdata : takenBytes env.dm i2cMaxDataLen dataStr with
  | none =>
    rw [hdata] at hspec
    -- the data was refused
    obtain ⟨err, herr⟩ := hspec
    refine ⟨⟨logError err.text, []⟩,
      by simp only [processSendByteCommand, hp, ok_bind, herr], iff_of_false ?_ ?_⟩
    · rintro ⟨p', bytesParsed, t, hp', hparsed, -⟩
      obtain rfl := Except.ok.inj (hp.symm.trans hp')
      cases herr.symm.trans hparsed
    · rintro ⟨⟨bs, hbs⟩, -⟩
      cases hdata.symm.trans hbs
  | some bs =>
    rw [hdata] at hspec
    -- the data was taken, and what `I2cSendBytes` returns decides
    obtain ⟨⟨hcount, hfilled⟩, hlen⟩ := hspec
    obtain ⟨t, ht, hissued, hrc⟩ := i2cSendBytes_rc g env.bus p.buf (UInt8.ofNat bs.length)
    have hsucceeded := Transfer.succeeded_iff hissued hrc
      (finishWrite_ioctls env "I2cSendBytes failed: " t)
    refine ⟨finishWrite env "I2cSendBytes failed: " t,
      by simp only [processSendByteCommand, hp, ok_bind, hcount, ht], ?_⟩
    rw [← hsucceeded]
    constructor
    · rintro ⟨p', bytesParsed, t', hp', hparsed, ht', hs⟩
      obtain rfl := Except.ok.inj (hp.symm.trans hp')
      obtain rfl := Except.ok.inj (hcount.symm.trans hparsed)
      obtain rfl := Except.ok.inj (ht.symm.trans ht')
      exact ⟨⟨bs, hdata⟩, hs⟩
    · rintro ⟨-, hs⟩
      exact ⟨p, _, t, hp, hcount, ht, hs⟩

include hg hpos hn in
/-- A command accomplishes its request exactly when its arguments parse and the ioctl does
not fail. -/
theorem processCommand_accomplished_iff (request : Request) :
    ∃ e, processCommand env g n request = .ok e ∧
      (Accomplished env g n e.ioctls request ↔
        ArgumentsParse env.dm request ∧ ∃ rx, env.bus = .done rx) := by
  cases request with
  | read addrStr => exact processReadByteCommand_accomplished_iff env hg hpos hn addrStr
  | write addrStr dataStr => exact processWriteByteCommand_accomplished_iff env addrStr dataStr
  | recv => exact processRecvByteCommand_accomplished_iff env hn
  | send dataStr => exact processSendByteCommand_accomplished_iff env dataStr

end Process

/-! ## §4 The status -/

/-- **The exit status** tells whether the transaction happened if and only if the run ends
before the device is open, or nothing goes wrong behind that. -/
theorem main_status_iff (env : Env) (argv : List (List Char)) :
    ∃ r, main env argv = .ok r ∧
      ((r.status = 0 ↔ Happened env argv r) ↔ SmoothAfterOpen env argv) := by
  cases hcl : commandLine env.dm env.posixlyCorrect argv with
  -- a refused command line
  | error err =>
    refine ⟨_, by simp only [main, hcl]; rfl, ?_⟩
    refine iff_of_true (iff_of_false (by decide : (1 : ℕ) ≠ 0) ?_) ?_
    · rintro ⟨cl, hcl', -⟩
      cases hcl.symm.trans hcl'
    · intro cl hcl'
      cases hcl.symm.trans hcl'
  | ok cl =>
    cases hopen : env.openErrno with
    -- no device
    | some errno =>
      refine ⟨_, by simp only [main, hcl, hopen]; rfl, ?_⟩
      refine iff_of_true (iff_of_false (by decide : (1 : ℕ) ≠ 0) ?_) ?_
      · rintro ⟨cl', -, hopen', -⟩
        cases hopen.symm.trans hopen'
      · intro cl' _ hopen'
        cases hopen.symm.trans hopen'
    | none =>
      obtain ⟨⟨hlow, hhigh⟩, -⟩ := commandLine_gByteCount hcl
      obtain ⟨n, hn⟩ := Int.eq_ofNat_of_zero_le (le_trans (by decide) hlow)
      rw [hn] at hlow hhigh
      obtain ⟨e, he, haccomplished⟩ := processCommand_accomplished_iff env
        (g := ⟨UInt8.ofInt cl.gI2cAddr, false⟩) rfl
        (Int.ofNat_lt.mp (lt_of_lt_of_le (by decide) hlow)) (Int.ofNat_le.mp hhigh) cl.request
      rw [← hn] at he haccomplished
      obtain ⟨log, hrun⟩ := main_eq env hcl hopen he
      refine ⟨_, hrun, ?_⟩
      -- the status is 0, so it is right exactly when the transaction happened
      dsimp only
      rw [iff_iff_eq.mp (iff_true_left (rfl : (0 : ℕ) = 0))]
      constructor
      · rintro ⟨cl', hcl', -, hslave, hdone⟩ cl'' hcl'' _
        obtain rfl := Except.ok.inj (hcl.symm.trans hcl')
        obtain rfl := Except.ok.inj (hcl.symm.trans hcl'')
        exact ⟨hslave, haccomplished.mp hdone⟩
      · intro hsmooth
        obtain ⟨hslave, hdone⟩ := hsmooth cl hcl hopen
        exact ⟨cl, hcl, hopen, hslave, haccomplished.mpr hdone⟩

/-- A read from a device that does not answer exits with 0. -/
theorem main_status_silentFailure :
    ∃ r, main (Env.calm (.failed 121)) ["0x1b".toList, "rb".toList, "0x15".toList] = .ok r ∧
      r.status = 0 ∧
      ¬ Happened (Env.calm (.failed 121)) ["0x1b".toList, "rb".toList, "0x15".toList] r := by
  have hcl : commandLine .ilp32 false ["0x1b".toList, "rb".toList, "0x15".toList] =
      .ok ⟨1, 0x1b, .readByte, .read "0x15".toList⟩ := by decide
  obtain ⟨e, he, haccomplished⟩ := processCommand_accomplished_iff (Env.calm (.failed 121))
    (g := ⟨0x1b, false⟩) rfl Nat.one_pos (by decide) (.read "0x15".toList)
  obtain ⟨log, hrun⟩ := main_eq (Env.calm (.failed 121)) hcl rfl he
  refine ⟨_, hrun, rfl, ?_⟩
  rintro ⟨cl, hcl', -, -, hdone⟩
  obtain rfl := Except.ok.inj (hcl.symm.trans hcl')
  obtain ⟨-, rx, hrx⟩ := haccomplished.mp hdone
  cases hrx

end GumstixExtras.I2c
