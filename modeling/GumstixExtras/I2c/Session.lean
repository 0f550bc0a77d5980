import GumstixExtras.I2c.Commands
import GumstixExtras.Lib.Device

/-!
# Sessions of `bus3-i2c`

The program is called again and again, and between the calls nothing but the chips on the bus
remembers anything. A session runs the calls one after the other, each against the answer that
the chips give to the messages of this very call.

- `session_performs`: a session does to the chips what its calls are taken for, and every read
  prints what its chip gave.
- `session_refines`: where each call asks for a documented access or is refused, these are the
  documented accesses.
- `session_read_after_write`: a register file gives back in a later call what an earlier call
  wrote.
-/

namespace GumstixExtras.I2c

open GumstixExtras.Lib

variable {δ : Type}

/-! ## §1 The chips under the program -/

/-- One message at a chip. A byte that nobody assigned goes out as ones. -/
def deliver (D : Device δ UInt8) (d : δ) : Phase → List UInt8 × δ
  | .write bytes => ([], D.write d (bytes.map fun b => b.getD 0xff))
  | .read len => D.read d len

/-- The messages of a transaction, one after the other. -/
def transact (D : Device δ UInt8) (d : δ) : List Phase → List UInt8 × δ
  | [] => ([], d)
  | p :: ps =>
    let first := deliver D d p
    let rest := transact D first.2 ps
    (first.1 ++ rest.1, rest.2)

/-- `I2C_RDWR` on a bus of chips. Where no chip answers to the address, the ioctl fails. -/
def ioctlRdwr (D : Device δ UInt8) (errno : ℤ) (bus : Bus UInt16 δ) :
    List I2cMsg → Rdwr × Bus UInt16 δ
  | [] => (.done [], bus)
  | m :: msgs =>
    match bus m.addr with
    | none => (.failed errno, bus)
    | some d =>
      let reply := transact D d (((m :: msgs).map I2cMsg.phase))
      (.done reply.1, Function.update bus m.addr (some reply.2))

/-- A call of the program: its surroundings, whose bus does not matter, and its arguments. -/
structure Call where
  env : Env
  argv : List (List Char)

/-- The run of a call on an outcome of its ioctl. -/
def Call.run (call : Call) (outcome : Rdwr) : Except Fault Run :=
  main { call.env with bus := outcome } call.argv

/-- The outcome is what the chips answer to the transactions. -/
inductive Answers (D : Device δ UInt8) (errno : ℤ) (bus : Bus UInt16 δ) :
    List (List I2cMsg) → Rdwr → Bus UInt16 δ → Prop
  | idle (outcome : Rdwr) : Answers D errno bus [] outcome bus
  | ioctl (msgs : List I2cMsg) :
      Answers D errno bus [msgs] (ioctlRdwr D errno bus msgs).1 (ioctlRdwr D errno bus msgs).2

/-- A run of a call on the chips. -/
def Invocation (D : Device δ UInt8) (errno : ℤ) (bus : Bus UInt16 δ) (call : Call) (r : Run)
    (bus' : Bus UInt16 δ) : Prop :=
  ∃ outcome, call.run outcome = .ok r ∧ Answers D errno bus r.ioctls outcome bus'

/-- Calls one after the other, with their runs. -/
inductive Session (D : Device δ UInt8) (errno : ℤ) :
    Bus UInt16 δ → List Call → List Run → Bus UInt16 δ → Prop
  | nil (bus : Bus UInt16 δ) : Session D errno bus [] [] bus
  | cons {bus bus' bus'' : Bus UInt16 δ} {call : Call} {calls : List Call} {r : Run}
      {rs : List Run} : Invocation D errno bus call r bus' →
      Session D errno bus' calls rs bus'' → Session D errno bus (call :: calls) (r :: rs) bus''

/-! ## §2 What a call is taken for -/

/-- The access the program makes of a command line, if it can read the arguments. -/
def access (dm : DataModel) (cl : CommandLine) : Option (Access UInt8) :=
  match cl.request with
  | .read addrStr =>
    match parseByte dm addrStr with
    | .ok reg => some (.read reg cl.gByteCount.toNat)
    | .error _ => none
  | .write addrStr dataStr =>
    match parseByte dm addrStr with
    | .ok reg => (takenBytes dm i2cMaxDataLen dataStr).map (.write reg)
    | .error _ => none
  | .recv => some (.recv cl.gByteCount.toNat)
  | .send dataStr => (takenBytes dm i2cMaxDataLen dataStr).map .send

/-- The command the program makes of a call, where the device file opens. -/
def Call.command (call : Call) : Option (Command UInt16 UInt8) :=
  match commandLine call.env.dm call.env.posixlyCorrect call.argv with
  | .error _ => none
  | .ok cl =>
    if call.env.openErrno.isSome then none
    else (access call.env.dm cl).map fun a => ⟨(UInt8.ofInt cl.gI2cAddr).toUInt16, a⟩

/-- The last line of a log is an error. -/
def EndsInError (out : List Char) : Prop :=
  ∃ line, '\n' ∉ line ∧ logError (line ++ ['\n']) <:+ out

/-- What the log of a run shows of the reply: the bytes in its last line, or an error. -/
def Shows (r : Run) : Reply UInt8 → Prop
  | .idle => r.ioctls = []
  | .nack => EndsInError r.out
  | .done bytes => r.status = 0 ∧ (bytes ≠ [] → printBytes bytes <:+ r.out)

/-- The phases of an access. -/
def accessPhases : Access UInt8 → List Phase
  | .read reg n => [.write [some reg], .read n]
  | .write reg bytes => [.write ((reg :: bytes).map some)]
  | .recv n => [.read n]
  | .send bytes => [.write (bytes.map some)]

section Access

variable {dm : DataModel} {cl : CommandLine}

/-- A command line that is taken for an access, by its request. -/
theorem access_cases {a : Access UInt8} (h : access dm cl = some a) :
    (∃ addrStr reg, cl.request = .read addrStr ∧ parseByte dm addrStr = .ok reg ∧
      a = .read reg cl.gByteCount.toNat) ∨
    (∃ addrStr dataStr reg bs, cl.request = .write addrStr dataStr ∧
      parseByte dm addrStr = .ok reg ∧ takenBytes dm i2cMaxDataLen dataStr = some bs ∧
      a = .write reg bs) ∨
    (cl.request = .recv ∧ a = .recv cl.gByteCount.toNat) ∨
    (∃ dataStr bs, cl.request = .send dataStr ∧
      takenBytes dm i2cMaxDataLen dataStr = some bs ∧ a = .send bs) := by
  unfold access at h
  cases hreq : cl.request with
  | read addrStr =>
    rw [hreq] at h
    dsimp only at h
    cases haddr : parseByte dm addrStr with
    | error err => simp [haddr] at h
    | ok reg =>
      rw [haddr] at h
      exact .inl ⟨addrStr, reg, rfl, haddr, (Option.some.inj h).symm⟩
  | write addrStr dataStr =>
    rw [hreq] at h
    dsimp only at h
    cases haddr : parseByte dm addrStr with
    | error err => simp [haddr] at h
    | ok reg =>
      rw [haddr] at h
      obtain ⟨bs, hbs, rfl⟩ := Option.map_eq_some_iff.mp h
      exact .inr (.inl ⟨addrStr, dataStr, reg, bs, rfl, haddr, hbs, rfl⟩)
  | recv =>
    rw [hreq] at h
    exact .inr (.inr (.inl ⟨rfl, (Option.some.inj h).symm⟩))
  | send dataStr =>
    rw [hreq] at h
    obtain ⟨bs, hbs, rfl⟩ := Option.map_eq_some_iff.mp h
    exact .inr (.inr (.inr ⟨dataStr, bs, rfl, hbs, rfl⟩))

/-- The program makes an access of exactly the requests whose arguments it can read. -/
theorem exists_access_iff : (∃ a, access dm cl = some a) ↔ cl.request.Readable := by
  unfold access
  cases cl.request with
  | read addrStr =>
    show _ ↔ ReadableNumber addrStr
    rw [← @parseByte_ok_iff dm]
    dsimp only
    cases parseByte dm addrStr with
    | error err => simp
    | ok reg => simp
  | write addrStr dataStr =>
    -- both arguments are looked at, the address first
    show _ ↔ ReadableNumber addrStr ∧ ReadableData dataStr
    rw [← @parseByte_ok_iff dm, ← @takenBytes_some_iff dm]
    dsimp only
    cases parseByte dm addrStr with
    | error err => simp
    | ok reg => simp
  | recv => exact iff_of_true ⟨_, rfl⟩ trivial
  | send dataStr =>
    show _ ↔ ReadableData dataStr
    rw [← @takenBytes_some_iff dm]
    simp

end Access

/-- The messages of an access do at a chip what the access does. -/
theorem transact_accessPhases (D : Device δ UInt8) (d : δ) (a : Access UInt8) :
    transact D d (accessPhases a) = a.perform D d := by
  cases a <;> simp [accessPhases, transact, deliver, Access.perform, Function.comp_def]

/-! ## §3 One transfer -/

section Transfers

variable {k cap : ℕ} {g : I2cGlobals} {bus : Rdwr} {t : Transfer cap}

/-- All messages go to the slave address, and a failed ioctl fails the call. -/
structure Transfer.Addressed (g : I2cGlobals) (bus : Rdwr) (t : Transfer cap) : Prop where
  addr : ∀ msgs ∈ t.msgs, ∀ m ∈ msgs, m.addr = g.gI2cAddr.toUInt16
  failed : ∀ errno, bus = .failed errno → t.rc ≠ 0

/-- The second message is handed over or not. -/
theorem addr_of_mem_ite {c : Prop} [Decidable c] {addr : UInt16} {m m' : I2cMsg}
    (hm : m.addr = addr) (hm' : m'.addr = addr) : ∀ x ∈ if c then [m, m'] else [m],
      x.addr = addr := by
  by_cases hc : c
  · rw [if_pos hc]
    simp [hm, hm']
  · rw [if_neg hc]
    simp [hm]

theorem i2cTransfer_addressed {cmd wrLen rdLen : UInt8} {wrData : Buffer UInt8 k}
    {rdData : Buffer UInt8 cap} {bytesReadp : Option UInt8}
    (h : i2cTransfer g bus cmd wrData wrLen rdData rdLen bytesReadp = .ok t) :
    t.Addressed g bus := by
  have hfail : (-1 : ℤ) ≠ 0 := by decide
  have hdone : ∀ {rx : List UInt8} errno, Rdwr.done rx = .failed errno → t.rc ≠ 0 := by
    intro rx errno herrno
    cases herrno
  unfold i2cTransfer at h
  dsimp only at h
  by_cases hwr : i2cMaxDataLen < (wrLen &&& 0x7f).toNat
  · rw [if_pos hwr] at h
    obtain rfl := Except.ok.inj h
    exact ⟨fun msgs hm => (by cases hm), fun _ _ => hfail⟩
  rw [if_neg hwr] at h
  by_cases hrd : i2cMaxDataLen < (rdLen &&& 0x7f).toNat
  · rw [if_pos hrd] at h
    obtain rfl := Except.ok.inj h
    exact ⟨fun msgs hm => (by cases hm), fun _ _ => hfail⟩
  rw [if_neg hrd, bind_eq_ok_iff] at h
  obtain ⟨w, -, h⟩ := h
  -- the one or two messages are the same whatever the ioctl does
  cases bus with
  | failed errno =>
    obtain rfl := Except.ok.inj h
    exact ⟨fun msgs hm => Option.some.inj hm ▸ addr_of_mem_ite rfl rfl, fun _ _ => hfail⟩
  | done rx =>
    dsimp only at h
    refine ⟨?_, hdone⟩
    by_cases hpos : 0 < (rdLen &&& 0x7f).toNat
    · rw [if_pos hpos, bind_eq_ok_iff] at h
      obtain ⟨rdBuf, -, h⟩ := h
      simp only [transferRead, pure_eq_ok, bind_eq_ok_iff, Except.ok.injEq] at h
      obtain ⟨_, -, _, -, _, -, _, -, rfl⟩ := h
      exact fun msgs hm => Option.some.inj hm ▸ addr_of_mem_ite rfl rfl
    · rw [if_neg hpos] at h
      obtain rfl := Except.ok.inj h
      exact fun msgs hm => Option.some.inj hm ▸ addr_of_mem_ite rfl rfl

theorem i2cReceiveBytes_addressed {rdData : Buffer UInt8 cap} {rdLen : UInt8}
    (h : i2cReceiveBytes g bus rdData rdLen = .ok t) : t.Addressed g bus := by
  have haddr : ∀ m ∈ [(⟨g.gI2cAddr.toUInt16, i2cMRd, rdLen.toNat, rdData.cells⟩ : I2cMsg)],
      m.addr = g.gI2cAddr.toUInt16 := by simp
  unfold i2cReceiveBytes at h
  cases bus with
  | failed errno =>
    obtain rfl := Except.ok.inj h
    exact ⟨fun msgs hm => Option.some.inj hm ▸ haddr, fun _ _ => (by decide : (-1 : ℤ) ≠ 0)⟩
  | done rx =>
    simp only [pure_eq_ok, bind_eq_ok_iff, Except.ok.injEq] at h
    obtain ⟨_, -, rfl⟩ := h
    exact ⟨fun msgs hm => Option.some.inj hm ▸ haddr, fun errno herrno => by cases herrno⟩

theorem i2cSendBytes_addressed {wrData : Buffer UInt8 k} {wrLen : UInt8} {t : Transfer 0}
    (h : i2cSendBytes g bus wrData wrLen = .ok t) : t.Addressed g bus := by
  have haddr : ∀ m ∈ [(⟨g.gI2cAddr.toUInt16, 0, wrLen.toNat, wrData.cells⟩ : I2cMsg)],
      m.addr = g.gI2cAddr.toUInt16 := by simp
  unfold i2cSendBytes at h
  cases bus with
  | failed errno =>
    obtain rfl := Except.ok.inj h
    exact ⟨fun msgs hm => Option.some.inj hm ▸ haddr, fun _ _ => (by decide : (-1 : ℤ) ≠ 0)⟩
  | done rx =>
    obtain rfl := Except.ok.inj h
    exact ⟨fun msgs hm => Option.some.inj hm ▸ haddr, fun errno herrno => by cases herrno⟩

end Transfers

/-! ## §4 One call -/

/-- The number of bytes an access reads. -/
def readCount : Access UInt8 → Option ℕ
  | .read _ n => some n
  | .write _ _ => none
  | .recv n => some n
  | .send _ => none

/-- What a command leaves when its arguments are taken for an access. -/
structure Performs (env : Env) (g : I2cGlobals) (a : Access UInt8) (e : Effect) : Prop where
  ioctls : ∃ msgs, e.ioctls = [msgs] ∧ msgs.map I2cMsg.phase = accessPhases a ∧
    ∀ m ∈ msgs, m.addr = g.gI2cAddr.toUInt16
  failed : ∀ errno, env.bus = .failed errno → EndsInError e.out
  done : ∀ rx n, env.bus = .done rx → readCount a = some n → e.out = printBytes (received rx n)

section Commands

variable {env : Env} {g : I2cGlobals} {a : Access UInt8} {e : Effect}

/-- A command is known by the transfer it makes and by the end it comes to. -/
theorem performs_of_transfer {cap : ℕ} {t : Transfer cap} (ht : t.Addressed g env.bus)
    (hioctls : e.ioctls = t.msgs.toList) (hphases : phases e.ioctls = [accessPhases a])
    (hfailed : t.rc ≠ 0 → EndsInError e.out)
    (hdone : ∀ rx n, env.bus = .done rx → readCount a = some n →
      e.out = printBytes (received rx n)) : Performs env g a e := by
  refine ⟨?_, fun errno herrno => hfailed (ht.failed errno herrno), hdone⟩
  obtain ⟨msgs, hmsgs, hmap⟩ := List.map_eq_singleton_iff.mp hphases
  refine ⟨msgs, hmsgs, hmap, ht.addr msgs ?_⟩
  -- the one transaction is the one of the transfer
  rw [hmsgs] at hioctls
  cases hsome : t.msgs with
  | none =>
    rw [hsome] at hioctls
    cases hioctls
  | some msgs' =>
    rw [hsome] at hioctls
    cases hioctls
    rfl

/-- A number is printed on one line. -/
theorem newline_notMem_fmtInt (n : ℤ) : '\n' ∉ fmtInt n := by
  have hdigits : '\n' ∉ Nat.toDigits 10 n.natAbs := by
    intro hmem
    exact absurd (isBaseDigit_of_mem_toDigits (by decide) (by decide) hmem) (by decide)
  unfold fmtInt
  by_cases hneg : n < 0
  · rw [if_pos hneg, List.mem_cons, not_or]
    exact ⟨by decide, hdigits⟩
  · rwa [if_neg hneg]

/-- The line a failed transfer is reported with. -/
theorem endsInError_failed (log : List Char) {failed : String} (hline : '\n' ∉ failed.toList)
    (rc : ℤ) : EndsInError (log ++ logError (failed.toList ++ fmtInt rc ++ "\n".toList)) := by
  refine ⟨failed.toList ++ fmtInt rc, ?_, List.suffix_append _ _⟩
  rw [List.mem_append, not_or]
  exact ⟨hline, newline_notMem_fmtInt rc⟩

theorem finishRead_log {n : ℤ} {failed : String} (hline : '\n' ∉ failed.toList) {cap : ℕ}
    {t : Transfer cap} (h : finishRead env n failed t = .ok e) :
    e.ioctls = t.msgs.toList ∧ (t.rc ≠ 0 → EndsInError e.out) := by
  unfold finishRead at h
  by_cases hrc : t.rc ≠ 0
  · rw [if_pos hrc] at h
    obtain rfl := Except.ok.inj h
    exact ⟨rfl, fun _ => endsInError_failed _ hline t.rc⟩
  · rw [if_neg hrc, bind_eq_ok_iff] at h
    obtain ⟨_, -, h⟩ := h
    obtain rfl := Except.ok.inj h
    exact ⟨rfl, fun h => absurd h hrc⟩

theorem finishWrite_log {failed : String} (hline : '\n' ∉ failed.toList) {cap : ℕ}
    (t : Transfer cap) (hrc : t.rc ≠ 0) : EndsInError (finishWrite env failed t).out := by
  rw [finishWrite, if_pos hrc]
  exact endsInError_failed _ hline t.rc

variable (hg : g.gUseCrc = false) {n : ℕ} (hpos : 0 < n) (hn : n ≤ i2cMaxDataLen)

include hg hpos hn in
theorem processReadByteCommand_performs {addrStr : List Char} {reg : UInt8}
    (haddr : parseByte env.dm addrStr = .ok reg) :
    ∃ e, processReadByteCommand env g n addrStr = .ok e ∧ Performs env g (.read reg n) e := by
  obtain ⟨e, he, hphases, hprints⟩ := processReadByteCommand_spec env hg hpos hn haddr
  have hrun := he
  simp only [processReadByteCommand, haddr, bind_eq_ok_iff] at hrun
  obtain ⟨t, ht, hfinish⟩ := hrun
  obtain ⟨hioctls, hfailed⟩ := finishRead_log (by decide) hfinish
  refine ⟨e, he, performs_of_transfer (i2cTransfer_addressed ht) hioctls hphases hfailed ?_⟩
  intro rx m hrx hm
  cases hm
  exact hprints rx hrx

include hn in
theorem processRecvByteCommand_performs :
    ∃ e, processRecvByteCommand env g n = .ok e ∧ Performs env g (.recv n) e := by
  obtain ⟨e, he, hphases, hprints⟩ := processRecvByteCommand_spec (g := g) env hn
  have hrun := he
  simp only [processRecvByteCommand, bind_eq_ok_iff] at hrun
  obtain ⟨t, ht, hfinish⟩ := hrun
  obtain ⟨hioctls, hfailed⟩ := finishRead_log (by decide) hfinish
  refine ⟨e, he, performs_of_transfer (i2cReceiveBytes_addressed ht) hioctls hphases hfailed ?_⟩
  intro rx m hrx hm
  cases hm
  exact hprints rx hrx

include hg in
theorem processWriteByteCommand_performs {addrStr dataStr : List Char} {reg : UInt8}
    {bs : List UInt8} (haddr : parseByte env.dm addrStr = .ok reg)
    (hdata : takenBytes env.dm i2cMaxDataLen dataStr = some bs) :
    ∃ e, processWriteByteCommand env g addrStr dataStr = .ok e ∧
      Performs env g (.write reg bs) e := by
  obtain ⟨e, he, hphases⟩ := processWriteByteCommand_spec env hg haddr hdata
  obtain ⟨p, hp, hspec⟩ := parseBytes_dataByte env dataStr
  rw [hdata] at hspec
  have hrun := he
  simp only [processWriteByteCommand, haddr, hp, ok_bind, hspec.1.1, bind_eq_ok_iff,
    Except.ok.injEq] at hrun
  obtain ⟨t, ht, rfl⟩ := hrun
  refine ⟨_, he, performs_of_transfer (i2cTransfer_addressed ht) (finishWrite_ioctls _ _ _)
    hphases (finishWrite_log (by decide) t) ?_⟩
  intro rx m hrx hm
  cases hm

theorem processSendByteCommand_performs {dataStr : List Char} {bs : List UInt8}
    (hdata : takenBytes env.dm i2cMaxDataLen dataStr = some bs) :
    ∃ e, processSendByteCommand env g dataStr = .ok e ∧ Performs env g (.send bs) e := by
  obtain ⟨e, he, hphases⟩ := processSendByteCommand_spec (g := g) env hdata
  obtain ⟨p, hp, hspec⟩ := parseBytes_dataByte env dataStr
  rw [hdata] at hspec
  have hrun := he
  simp only [processSendByteCommand, hp, ok_bind, hspec.1.1, bind_eq_ok_iff,
    Except.ok.injEq] at hrun
  obtain ⟨t, ht, rfl⟩ := hrun
  refine ⟨_, he, performs_of_transfer (i2cSendBytes_addressed ht) (finishWrite_ioctls _ _ _)
    hphases (finishWrite_log (by decide) t) ?_⟩
  intro rx m hrx hm
  cases hm

include hg hpos hn in
/-- A command that is taken for an access performs it. -/
theorem processCommand_performs {cl : CommandLine} (hcount : cl.gByteCount = n)
    (ha : access env.dm cl = some a) :
    ∃ e, processCommand env g n cl.request = .ok e ∧ Performs env g a e := by
  have htoNat : cl.gByteCount.toNat = n := by rw [hcount, Int.toNat_natCast]
  rcases access_cases ha with ⟨addrStr, reg, hreq, haddr, rfl⟩ |
    ⟨addrStr, dataStr, reg, bs, hreq, haddr, hdata, rfl⟩ | ⟨hreq, rfl⟩ |
    ⟨dataStr, bs, hreq, hdata, rfl⟩
  · rw [hreq, htoNat]
    exact processReadByteCommand_performs hg hpos hn haddr
  · rw [hreq]
    exact processWriteByteCommand_performs hg haddr hdata
  · rw [hreq, htoNat]
    exact processRecvByteCommand_performs hn
  · rw [hreq]
    exact processSendByteCommand_performs hdata

include hg hpos hn in
/-- A command that is taken for none leaves the bus alone. -/
theorem processCommand_idle {cl : CommandLine} (ha : access env.dm cl = none) :
    ∃ e, processCommand env g n cl.request = .ok e ∧ e.ioctls = [] := by
  obtain ⟨e, he, ⟨hreadable, -⟩ | ⟨-, hidle⟩⟩ :=
    processCommand_spec env hg hpos hn cl.request
  · -- it could read its arguments, which would make an access
    obtain ⟨a, hsome⟩ := exists_access_iff.mpr hreadable
    cases ha.symm.trans hsome
  · exact ⟨e, he, hidle⟩

end Commands

section Calls

variable {call : Call} {c : Command UInt16 UInt8}

/-- A call has a command when its command line is taken for an access and the device opens. -/
theorem Call.command_eq_some_iff : call.command = some c ↔
    ∃ cl, commandLine call.env.dm call.env.posixlyCorrect call.argv = .ok cl ∧
      call.env.openErrno = none ∧ access call.env.dm cl = some c.access ∧
      c.chip = (UInt8.ofInt cl.gI2cAddr).toUInt16 := by
  unfold Call.command
  cases hcl : commandLine call.env.dm call.env.posixlyCorrect call.argv with
  | error e => simp
  | ok cl =>
    cases hopen : call.env.openErrno with
    | some errno => simp
    | none =>
      simp only [Option.isSome_none, Bool.false_eq_true, if_false, Option.map_eq_some_iff,
        Except.ok.injEq, exists_eq_left']
      -- the access is the one of the command, the chip the operand cut down to a byte
      constructor
      · rintro ⟨a, ha, rfl⟩
        exact ⟨trivial, ha, rfl⟩
      · rintro ⟨-, ha, hchip⟩
        exact ⟨c.access, ha, by rw [← hchip]⟩

/-- A run of a call with a command: one transaction, addressed to the chip, and a log that
says what came of it. -/
structure Call.Does (c : Command UInt16 UInt8) (outcome : Rdwr) (r : Run) : Prop where
  status : r.status = 0
  ioctls : ∃ msgs, r.ioctls = [msgs] ∧ msgs.map I2cMsg.phase = accessPhases c.access ∧
    ∀ m ∈ msgs, m.addr = c.chip
  failed : ∀ errno, outcome = .failed errno → EndsInError r.out
  done : ∀ rx n, outcome = .done rx → readCount c.access = some n →
    printBytes (received rx n) <:+ r.out

theorem Call.run_command (h : call.command = some c) (outcome : Rdwr) :
    ∃ r, call.run outcome = .ok r ∧ Call.Does c outcome r := by
  obtain ⟨cl, hcl, hopen, ha, hchip⟩ := Call.command_eq_some_iff.mp h
  obtain ⟨n, hn, hpos, hmax⟩ := commandLine_count hcl
  have hg : (⟨UInt8.ofInt cl.gI2cAddr, false⟩ : I2cGlobals).gUseCrc = false := rfl
  -- the outcome of the bus changes nothing the arguments are read with
  have hthis : access ({ call.env with bus := outcome } : Env).dm cl = some c.access := ha
  obtain ⟨e, he, hperforms⟩ := processCommand_performs hg hpos hmax hn hthis
  rw [← hn] at he
  obtain ⟨log, hrun⟩ := main_eq { call.env with bus := outcome } hcl hopen he
  refine ⟨_, hrun, rfl, ?_, fun errno herrno => ?_, fun rx m hrx hm => ?_⟩
  · obtain ⟨msgs, hmsgs, hmap, haddr⟩ := hperforms.ioctls
    exact ⟨msgs, hmsgs, hmap, fun m hm => (haddr m hm).trans hchip.symm⟩
  · obtain ⟨line, hline, htext⟩ := hperforms.failed errno herrno
    exact ⟨line, hline, htext.trans (List.suffix_append _ _)⟩
  · rw [← hperforms.done rx m hrx hm]
    exact List.suffix_append _ _

theorem Call.run_idle (h : call.command = none) (outcome : Rdwr) :
    ∃ r, call.run outcome = .ok r ∧ r.ioctls = [] := by
  unfold Call.command at h
  unfold Call.run
  cases hcl : commandLine call.env.dm call.env.posixlyCorrect call.argv with
  | error e => exact ⟨_, by simp only [main, hcl]; rfl, rfl⟩
  | ok cl =>
    cases hopen : call.env.openErrno with
    | some errno => exact ⟨_, by simp only [main, hcl, hopen]; rfl, rfl⟩
    | none =>
      simp only [hcl, hopen, Option.isSome_none, Bool.false_eq_true, if_false,
        Option.map_eq_none_iff] at h
      -- the device opens, so it is the arguments that cannot be read
      obtain ⟨n, hn, hpos, hmax⟩ := commandLine_count hcl
      have hg : (⟨UInt8.ofInt cl.gI2cAddr, false⟩ : I2cGlobals).gUseCrc = false := rfl
      have hthis : access ({ call.env with bus := outcome } : Env).dm cl = none := h
      obtain ⟨e, he, hidle⟩ := processCommand_idle hg hpos hmax hthis
      rw [← hn] at he
      obtain ⟨log, hrun⟩ := main_eq { call.env with bus := outcome } hcl hopen he
      exact ⟨_, hrun, hidle⟩

end Calls

/-! ## §5 Sessions -/

section Sessions

variable {D : Device δ UInt8} {errno : ℤ} {bus bus' : Bus UInt16 δ} {call : Call} {r : Run}

/-- The chips take the messages of an access as the access. -/
theorem ioctlRdwr_access (D : Device δ UInt8) (errno : ℤ) (bus : Bus UInt16 δ)
    {c : Command UInt16 UInt8} {msgs : List I2cMsg}
    (hmap : msgs.map I2cMsg.phase = accessPhases c.access) (haddr : ∀ m ∈ msgs, m.addr = c.chip) :
    ioctlRdwr D errno bus msgs =
      match bus c.chip with
      | none => (.failed errno, bus)
      | some d => (.done (c.access.perform D d).1,
        Function.update bus c.chip (some (c.access.perform D d).2)) := by
  cases msgs with
  | nil =>
    -- an access has a message
    cases hc : c.access <;> rw [hc] at hmap <;> cases hmap
  | cons m msgs =>
    have hm : m.addr = c.chip := haddr m List.mem_cons_self
    rw [ioctlRdwr, hm]
    cases hchip : bus c.chip with
    | none => rfl
    | some d =>
      dsimp only
      rw [hmap, transact_accessPhases]

/-- What an access reads is as long as it asks for. -/
theorem received_perform (d : δ) {a : Access UInt8} {n : ℕ} (ha : readCount a = some n) :
    received (a.perform D d).1 n = (a.perform D d).1 := by
  apply received_eq
  cases a with
  | read reg m =>
    cases ha
    exact D.length_read _ _
  | write reg bytes => cases ha
  | recv m =>
    cases ha
    exact D.length_read _ _
  | send bytes => cases ha

theorem perform_eq_nil (d : δ) {a : Access UInt8} (ha : readCount a = none) :
    (a.perform D d).1 = [] := by
  cases a with
  | read reg n => cases ha
  | write reg bytes => rfl
  | recv n => cases ha
  | send bytes => rfl

/-- Every call runs on the chips. -/
theorem invocation_exists (D : Device δ UInt8) (errno : ℤ) (bus : Bus UInt16 δ) (call : Call) :
    ∃ r bus', Invocation D errno bus call r bus' := by
  cases hcommand : call.command with
  | none =>
    obtain ⟨r, hrun, hidle⟩ := call.run_idle hcommand (.failed errno)
    exact ⟨r, bus, _, hrun, by rw [hidle]; exact .idle _⟩
  | some c =>
    -- the answer is known before the run: the messages do not depend on it
    cases hchip : bus c.chip with
    | none =>
      obtain ⟨r, hrun, hdoes⟩ := call.run_command hcommand (.failed errno)
      obtain ⟨msgs, hmsgs, hmap, haddr⟩ := hdoes.ioctls
      have hanswer := ioctlRdwr_access D errno bus hmap haddr
      rw [hchip] at hanswer
      have hioctl : Answers D errno bus [msgs] _ _ := Answers.ioctl msgs
      rw [hanswer, ← hmsgs] at hioctl
      exact ⟨r, _, _, hrun, hioctl⟩
    | some d =>
      obtain ⟨r, hrun, hdoes⟩ := call.run_command hcommand (.done (c.access.perform D d).1)
      obtain ⟨msgs, hmsgs, hmap, haddr⟩ := hdoes.ioctls
      have hanswer := ioctlRdwr_access D errno bus hmap haddr
      rw [hchip] at hanswer
      have hioctl : Answers D errno bus [msgs] _ _ := Answers.ioctl msgs
      rw [hanswer, ← hmsgs] at hioctl
      exact ⟨r, _, _, hrun, hioctl⟩

/-- **One call**: it does to the chips what its command does, and its log shows the reply. -/
theorem invocation_performs (h : Invocation D errno bus call r bus') :
    bus' = (bus.perform D call.command).2 ∧ Shows r (bus.perform D call.command).1 := by
  obtain ⟨outcome, hrun, hanswers⟩ := h
  cases hcommand : call.command with
  | none =>
    -- no command: the run makes no ioctl, so no chip hears of it
    obtain ⟨r', hrun', hidle⟩ := call.run_idle hcommand outcome
    obtain rfl := Except.ok.inj (hrun'.symm.trans hrun)
    rw [hidle] at hanswers
    cases hanswers
    exact ⟨rfl, hidle⟩
  | some c =>
    obtain ⟨r', hrun', hdoes⟩ := call.run_command hcommand outcome
    obtain rfl := Except.ok.inj (hrun'.symm.trans hrun)
    -- the one ioctl of the run meets the chips, and its outcome is the one the run was told of
    obtain ⟨msgs, hmsgs, hmap, haddr⟩ := hdoes.ioctls
    have hanswer := ioctlRdwr_access D errno bus hmap haddr
    rw [hmsgs] at hanswers
    generalize hans : ioctlRdwr D errno bus msgs = answer at hanswer
    cases hanswers
    rw [hans] at hdoes ⊢
    rw [Bus.perform]
    cases hchip : bus c.chip with
    | none =>
      rw [hchip] at hanswer
      subst hanswer
      -- nobody answers
      exact ⟨rfl, hdoes.failed errno rfl⟩
    | some d =>
      rw [hchip] at hanswer
      subst hanswer
      -- the chip answers, and a command that reads shows what it said
      refine ⟨rfl, hdoes.status, fun hne => ?_⟩
      cases hcount : readCount c.access with
      | none => exact absurd (perform_eq_nil d hcount) hne
      | some n =>
        have hprints := hdoes.done _ n rfl hcount
        rwa [received_perform d hcount] at hprints

theorem session_exists (D : Device δ UInt8) (errno : ℤ) (bus : Bus UInt16 δ)
    (calls : List Call) : ∃ rs bus', Session D errno bus calls rs bus' := by
  induction calls generalizing bus with
  | nil => exact ⟨[], bus, .nil bus⟩
  | cons call calls ih =>
    obtain ⟨r, bus₁, hcall⟩ := invocation_exists D errno bus call
    obtain ⟨rs, bus₂, hcalls⟩ := ih bus₁
    exact ⟨r :: rs, bus₂, .cons hcall hcalls⟩

theorem session_performs {calls : List Call} {rs : List Run}
    (h : Session D errno bus calls rs bus') :
    bus' = (bus.run D (calls.map Call.command)).2 ∧
      List.Forall₂ Shows rs (bus.run D (calls.map Call.command)).1 := by
  induction h with
  | nil bus => exact ⟨rfl, .nil⟩
  | cons hcall _ ih =>
    obtain ⟨rfl, hshows⟩ := invocation_performs hcall
    obtain ⟨hbus, hall⟩ := ih
    exact ⟨hbus, .cons hshows hall⟩

theorem session_append {calls calls' : List Call} {rs : List Run}
    (h : Session D errno bus (calls ++ calls') rs bus') :
    ∃ rs₁ rs₂ mid, rs = rs₁ ++ rs₂ ∧ Session D errno bus calls rs₁ mid ∧
      Session D errno mid calls' rs₂ bus' := by
  induction calls generalizing bus rs with
  | nil => exact ⟨[], rs, bus, rfl, .nil bus, h⟩
  | cons call calls ih =>
    cases h with
    | @cons _ _ _ _ _ r _ hcall hcalls =>
      obtain ⟨rs₁, rs₂, mid, rfl, h₁, h₂⟩ := ih hcalls
      exact ⟨r :: rs₁, rs₂, mid, rfl, .cons hcall h₁, h₂⟩

end Sessions

/-! ## §6 Documented calls -/

/-- The accesses a request is documented to make: the register and the data are what their
texts denote, and the count is the one of the command or of `--count`. -/
inductive Documented (requested : ℤ) (gCmd : Cmd) : Request → Access UInt8 → Prop
  | read {addrStr : List Char} {reg : UInt8} {n : ℕ} (haddr : IsNumeral addrStr reg.toNat)
      (hcount : documentedCount requested gCmd = n) (hrange : CountInRange n) :
      Documented requested gCmd (.read addrStr) (.read reg n)
  | write {addrStr dataStr : List Char} {reg : UInt8} {bytes : List UInt8}
      (haddr : IsNumeral addrStr reg.toNat) (hdata : DenotesData gCmd dataStr bytes)
      (hfit : bytes.length ≤ i2cMaxDataLen) :
      Documented requested gCmd (.write addrStr dataStr) (.write reg bytes)
  | recv {n : ℕ} (hcount : documentedCount requested gCmd = n) (hrange : CountInRange n) :
      Documented requested gCmd .recv (.recv n)
  | send {dataStr : List Char} {bytes : List UInt8} (hdata : DenotesData gCmd dataStr bytes)
      (hfit : bytes.length ≤ i2cMaxDataLen) :
      Documented requested gCmd (.send dataStr) (.send bytes)

/-- What a call is documented to do. One whose arguments can be read but denote nothing is
documented to be refused, and is not: it has no meaning here. -/
inductive Call.Means (call : Call) : Option (Command UInt16 UInt8) → Prop
  | asks {cl : CommandLine} {chip : UInt16} {a : Access UInt8} {text : List Char}
      {args : List (List Char)}
      (hcl : commandLine call.env.dm call.env.posixlyCorrect call.argv = .ok cl)
      (hopen : call.env.openErrno = none)
      (htext : (getoptLong call.env.posixlyCorrect shortOpts gOption call.argv).2 = text :: args)
      (hchip : IsNumeral text chip.toNat)
      (ha : Documented (requestedCount call.env.dm call.env.posixlyCorrect call.argv) cl.gCmd
        cl.request a) : call.Means (some ⟨chip, a⟩)
  | refused (h : ∀ cl, commandLine call.env.dm call.env.posixlyCorrect call.argv = .ok cl →
      call.env.openErrno = none → ¬ cl.request.Readable) : call.Means none

section Means

variable {call : Call} {cl : CommandLine} {chip : UInt16} {text : List Char}

/-- A chip whose number is in range is the one a numeral of it addresses. -/
theorem toUInt16_gI2cAddr (dm : DataModel) (hchip : IsNumeral text chip.toNat)
    (haddr : cl.gI2cAddr = toCInt (strtol dm text).1) (hlow : 0 < cl.gI2cAddr)
    (hhigh : cl.gI2cAddr ≤ 127) : (UInt8.ofInt cl.gI2cAddr).toUInt16 = chip := by
  have hwidth := chip.toNat_lt
  have hclamp : dm.clamp chip.toNat = chip.toNat := by
    have hmin : dm.longMin < 0 := by cases dm <;> decide
    have hmax : 65535 < dm.longMax := by cases dm <;> decide
    unfold DataModel.clamp
    omega
  rw [strtol_numeral dm hchip, hclamp, toCInt_eq (by omega) (by omega)] at haddr
  rw [haddr] at hhigh
  rw [haddr, ofInt_natCast, ← UInt16.toNat_inj, UInt8.toNat_toUInt16, UInt8.toNat_ofNat_of_lt']
  rw [UInt8.size]
  omega

/-- What the program makes of a request is the access it is documented to make. -/
theorem Documented.access {dm : DataModel} {requested : ℤ} {a : Access UInt8}
    (h : Documented requested cl.gCmd cl.request a)
    (hcount : cl.gByteCount = match cl.gCmd.size with
      | some size => (size : ℤ)
      | none => toCInt requested) : access dm cl = some a := by
  -- the count the program works with is the documented one
  have hused : ∀ n : ℕ, documentedCount requested cl.gCmd = n → CountInRange n →
      cl.gByteCount.toNat = n := by
    intro n hdoc hrange
    rw [eq_of_documentedCount hcount hdoc hrange, Int.toNat_natCast]
  unfold I2c.access
  generalize cl.request = request at h ⊢
  cases h with
  | read haddr hdoc hrange =>
    dsimp only
    rw [parseByte_of_isNumeral haddr, hused _ hdoc hrange]
  | write haddr hdata hfit =>
    dsimp only
    rw [parseByte_of_isNumeral haddr, hdata.1.taken hfit]
    rfl
  | recv hdoc hrange =>
    dsimp only
    rw [hused _ hdoc hrange]
  | send hdata hfit =>
    dsimp only
    rw [hdata.1.taken hfit]
    rfl

/-- What the program makes of a call is what it is documented to do. -/
theorem Call.Means.command {c : Option (Command UInt16 UInt8)} (h : call.Means c) :
    call.command = c := by
  cases h with
  | asks hcl hopen htext hchip ha =>
    rw [Call.command_eq_some_iff]
    obtain ⟨haddr, hlow, hhigh⟩ := commandLine_gI2cAddr hcl htext
    refine ⟨_, hcl, hopen, ha.access (commandLine_gByteCount hcl).2, ?_⟩
    exact (toUInt16_gI2cAddr _ hchip haddr hlow hhigh).symm
  | refused h =>
    rw [Option.eq_none_iff_forall_ne_some]
    intro c hc
    obtain ⟨cl, hcl, hopen, ha, -⟩ := Call.command_eq_some_iff.mp hc
    -- the program has read the arguments
    exact h cl hcl hopen (exists_access_iff.mp ⟨_, ha⟩)

end Means

/-- **Sessions**: any calls run one after the other on any chips and come to an end. When each
of them asks for a documented access or is refused, the chips end as these accesses leave them,
and the log of each call shows what its access read, that nobody answered it, or that it was
refused. -/
theorem session_refines (D : Device δ UInt8) (errno : ℤ) (bus : Bus UInt16 δ)
    (calls : List Call) :
    (∃ rs bus', Session D errno bus calls rs bus') ∧
      ∀ cs, List.Forall₂ Call.Means calls cs → ∀ rs bus', Session D errno bus calls rs bus' →
        bus' = (bus.run D cs).2 ∧ List.Forall₂ Shows rs (bus.run D cs).1 := by
  refine ⟨session_exists D errno bus calls, fun cs hcs rs bus' h => ?_⟩
  have hcommands : calls.map Call.command = cs := by
    clear h
    induction hcs with
    | nil => rfl
    | cons hmeans _ ih => rw [List.map_cons, hmeans.command, ih]
  rw [← hcommands]
  exact session_performs h

/-- A word of four bytes written, a call that is refused, and a chip that is not there. -/
theorem session_refines_threeCalls :
    ∃ rs bus', Session (registerFile (· + 1)) 6
        (fun a => if a = 0x50 then some ⟨0, fun _ => 0⟩ else none)
        [⟨Env.calm (.done []),
            ["0x50".toList, "wb4".toList, "0x10".toList, "0x12345678".toList]⟩,
          ⟨Env.calm (.done []), ["0x50".toList, "wb".toList, "0x10".toList, "0xgg".toList]⟩,
          ⟨Env.calm (.done []), ["0x51".toList, "rb".toList, "0x10".toList]⟩] rs bus' ∧
      List.Forall₂ Shows rs [.done [], .idle, .nack] := by
  have hwrite : Call.Means ⟨Env.calm (.done []),
      ["0x50".toList, "wb4".toList, "0x10".toList, "0x12345678".toList]⟩
        (some ⟨0x50, .write 0x10 (pairBytes "12345678".toList)⟩) := by
    refine .asks (by decide : _ = Except.ok ⟨4, 0x50, .writeByte4,
      .write "0x10".toList "0x12345678".toList⟩) rfl rfl ?_ ?_
    · exact isNumeral_of_isHexNumeral ⟨_, rfl, by decide, by decide, by decide⟩
    · refine .write ?_ ⟨.pairs (by decide), fun size hsize => ?_⟩ (by decide)
      · exact isNumeral_of_isHexNumeral ⟨_, rfl, by decide, by decide, by decide⟩
      · cases hsize
        decide
  have hrefused : Call.Means ⟨Env.calm (.done []),
      ["0x50".toList, "wb".toList, "0x10".toList, "0xgg".toList]⟩ none := by
    refine .refused fun cl hcl _ hreadable => ?_
    obtain rfl : cl = ⟨1, 0x50, .writeByte, .write "0x10".toList "0xgg".toList⟩ :=
      Except.ok.inj (hcl.symm.trans (by decide))
    -- `g` is no digit
    exact absurd (hreadable.2.1 'g' (by decide)) (by decide)
  have hread : Call.Means ⟨Env.calm (.done []), ["0x51".toList, "rb".toList, "0x10".toList]⟩
      (some ⟨0x51, .read 0x10 1⟩) := by
    refine .asks (by decide : _ = Except.ok ⟨1, 0x51, .readByte, .read "0x10".toList⟩) rfl rfl
      ?_ (.read ?_ (by decide) ⟨by decide, by decide⟩)
    · exact isNumeral_of_isHexNumeral ⟨_, rfl, by decide, by decide, by decide⟩
    · exact isNumeral_of_isHexNumeral ⟨_, rfl, by decide, by decide, by decide⟩
  obtain ⟨⟨rs, bus', h⟩, hrefines⟩ := session_refines (registerFile (· + 1)) 6
    (fun a => if a = 0x50 then some ⟨0, fun _ => 0⟩ else none)
    [⟨Env.calm (.done []), ["0x50".toList, "wb4".toList, "0x10".toList, "0x12345678".toList]⟩,
      ⟨Env.calm (.done []), ["0x50".toList, "wb".toList, "0x10".toList, "0xgg".toList]⟩,
      ⟨Env.calm (.done []), ["0x51".toList, "rb".toList, "0x10".toList]⟩]
  obtain ⟨-, hshows⟩ := hrefines _ (.cons hwrite (.cons hrefused (.cons hread .nil))) rs bus' h
  exact ⟨rs, bus', h, hshows⟩

/-! ## §7 Register files -/

/-- A chip of byte registers, the number of which wraps around. -/
abbrev byteRegisters : Device (RegisterFile UInt8) UInt8 := registerFile (· + 1)

/-- The registers of an access of `n` bytes. -/
abbrev registersFrom (reg : UInt8) (n : ℕ) : List UInt8 := addresses (· + 1) reg n

theorem addresses_eq_map (reg : UInt8) (n : ℕ) :
    registersFrom reg n = (List.range n).map fun i => reg + UInt8.ofNat i := by
  induction n generalizing reg with
  | zero => rfl
  | succ n ih =>
    have hshift : ∀ i, reg + 1 + UInt8.ofNat i = reg + UInt8.ofNat (i + 1) := by
      intro i
      rw [UInt8.ofNat_add, UInt8.add_assoc, UInt8.add_comm 1]
      rfl
    show reg :: registersFrom (reg + 1) n = _
    rw [ih, List.range_succ_eq_map, List.map_cons, List.map_map]
    refine congrArg₂ List.cons (UInt8.add_zero reg).symm (List.map_congr_left fun i _ => ?_)
    exact hshift i

/-- The registers of one access are different ones. -/
theorem nodup_registersFrom (reg : UInt8) {n : ℕ} (hn : n ≤ i2cMaxDataLen) :
    (registersFrom reg n).Nodup := by
  have hmax : i2cMaxDataLen = 32 := rfl
  rw [addresses_eq_map]
  refine List.Nodup.map_on (fun i hi j hj hij => ?_) List.nodup_range
  have hi' := List.mem_range.mp hi
  have hj' := List.mem_range.mp hj
  have hnat := congrArg UInt8.toNat ((UInt8.add_right_inj reg).mp hij)
  rwa [UInt8.toNat_ofNat_of_lt' (by rw [UInt8.size]; omega),
    UInt8.toNat_ofNat_of_lt' (by rw [UInt8.size]; omega)] at hnat

/-- A write command has at most as many bytes as a transfer takes. -/
theorem length_le_of_command {call : Call} {chip : UInt16} {reg : UInt8} {bytes : List UInt8}
    (h : call.command = some ⟨chip, .write reg bytes⟩) : bytes.length ≤ i2cMaxDataLen := by
  obtain ⟨cl, -, -, ha, -⟩ := Call.command_eq_some_iff.mp h
  -- of the four requests only a write makes a write access
  rcases access_cases ha with ⟨_, _, -, -, h⟩ | ⟨_, _, _, _, -, -, hbs, h⟩ | ⟨-, h⟩ |
    ⟨_, _, -, -, h⟩
  · cases h
  · cases h
    exact length_takenBytes_le (by decide) hbs
  · cases h
  · cases h

/-- A read command reads something. -/
theorem count_pos_of_command {call : Call} {chip : UInt16} {reg : UInt8} {n : ℕ}
    (h : call.command = some ⟨chip, .read reg n⟩) : 0 < n := by
  obtain ⟨cl, hcl, -, ha, -⟩ := Call.command_eq_some_iff.mp h
  obtain ⟨m, hm, hpos, -⟩ := commandLine_count hcl
  rcases access_cases ha with ⟨_, _, -, -, h⟩ | ⟨_, _, _, _, -, -, -, h⟩ | ⟨-, h⟩ |
    ⟨_, _, -, -, h⟩
  · cases h
    rwa [hm, Int.toNat_natCast]
  · cases h
  · cases h
  · cases h

/-- **Reading back**: in a session on chips with byte registers, a call that writes bytes and a
later one that reads as many from the same register of the same chip: the later call prints
these bytes, whatever calls are between them, when none of those stores to the registers. -/
theorem session_read_after_write {errno : ℤ} {bus bus' : Bus UInt16 (RegisterFile UInt8)}
    {chip : UInt16} (hchip : bus chip ≠ none) {reg : UInt8} {bytes : List UInt8}
    {write read : Call} (hwrite : write.command = some ⟨chip, .write reg bytes⟩)
    (hread : read.command = some ⟨chip, .read reg bytes.length⟩) {between : List Call}
    (hspares : ∀ call ∈ between, ∀ c, call.command = some c → c.chip = chip →
      ∀ r ∈ registersFrom reg bytes.length, r ∉ c.access.stored (· + 1))
    {rs : List Run} {r : Run}
    (h : Session byteRegisters errno bus (write :: between ++ [read]) (rs ++ [r]) bus') :
    printBytes bytes <:+ r.out := by
  obtain ⟨rs₁, rs₂, mid, hrs, hfirst, hlast⟩ := session_append h
  -- the last run is the run of the read
  cases hlast with
  | @cons _ _ _ _ _ r' _ hcall hnil =>
    cases hnil
    obtain rfl : r = r' := by simpa using congrArg List.getLast? hrs
    obtain ⟨rfl, -⟩ := session_performs hfirst
    obtain ⟨-, hshows⟩ := invocation_performs hcall
    have hnodup := nodup_registersFrom reg (length_le_of_command hwrite)
    -- what is between stores nowhere in the registers that are read
    have hbetween : ∀ c, some c ∈ between.map Call.command → c.chip = chip →
        ∀ x ∈ addresses (· + 1) reg bytes.length, x ∉ c.access.stored (· + 1) := by
      intro c hc hca x hx
      obtain ⟨call, hmem, hcommand⟩ := List.mem_map.mp hc
      exact hspares call hmem c hcommand hca x hx
    have hreply := read_after_write hchip hnodup hbetween
    rw [List.map_cons, hwrite, hread, hreply] at hshows
    -- the line is printed, as a read command reads something
    refine hshows.2 fun hnil => ?_
    have hpos := count_pos_of_command hread
    rw [hnil] at hpos
    exact absurd hpos (by decide)

/-- The last of several calls has a run of its own. -/
theorem session_last (D : Device δ UInt8) (errno : ℤ) (bus : Bus UInt16 δ) (calls : List Call)
    (call : Call) : ∃ rs r bus', Session D errno bus (calls ++ [call]) (rs ++ [r]) bus' := by
  obtain ⟨rs, bus', h⟩ := session_exists D errno bus (calls ++ [call])
  obtain ⟨rs₁, rs₂, mid, hrs, -, hlast⟩ := session_append h
  cases hlast with
  | cons hcall hnil =>
    cases hnil
    exact ⟨rs₁, _, bus', hrs ▸ h⟩

/-- Two bytes at `0x10` of a chip, another register read, and the two bytes read back. -/
theorem session_read_after_write_twoBytes :
    ∃ rs r bus', Session byteRegisters 6
        (fun a => if a = 0x50 then some ⟨0, fun _ => 0⟩ else none)
        ([⟨Env.calm (.done []), ["0x50".toList, "wb".toList, "0x10".toList, "0x1234".toList]⟩,
          ⟨Env.calm (.done []), ["0x50".toList, "rb".toList, "0x20".toList]⟩] ++
        [⟨Env.calm (.done []),
          ["--count=2".toList, "0x50".toList, "rb".toList, "0x10".toList]⟩]) (rs ++ [r]) bus' ∧
      printBytes [0x12, 0x34] <:+ r.out := by
  obtain ⟨rs, r, bus', h⟩ := session_last byteRegisters 6
    (fun a => if a = 0x50 then some ⟨0, fun _ => 0⟩ else none)
    [⟨Env.calm (.done []), ["0x50".toList, "wb".toList, "0x10".toList, "0x1234".toList]⟩,
      ⟨Env.calm (.done []), ["0x50".toList, "rb".toList, "0x20".toList]⟩]
    ⟨Env.calm (.done []), ["--count=2".toList, "0x50".toList, "rb".toList, "0x10".toList]⟩
  have hwrite : Call.command ⟨Env.calm (.done []),
      ["0x50".toList, "wb".toList, "0x10".toList, "0x1234".toList]⟩ =
        some ⟨0x50, .write 0x10 [0x12, 0x34]⟩ := by decide
  have hread : Call.command ⟨Env.calm (.done []),
      ["--count=2".toList, "0x50".toList, "rb".toList, "0x10".toList]⟩ =
        some ⟨0x50, .read 0x10 2⟩ := by decide
  refine ⟨rs, r, bus', h, session_read_after_write ?_ hwrite hread ?_ h⟩
  · exact Option.some_ne_none _
  · intro call hcall c hc _ x _
    -- the call between is a read, which stores nothing
    rw [List.mem_singleton] at hcall
    subst hcall
    have hread : some c = some ⟨0x50, .read 0x20 1⟩ := hc.symm.trans (by decide)
    cases hread
    exact List.not_mem_nil

end GumstixExtras.I2c
