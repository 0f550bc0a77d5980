import GumstixExtras.I2c.Transfer

/-!
# Write Framing and the Direct Path

Message 0 of a transfer against the SMBus write message, and the direct path of
`I2cSendBytes` and `I2cReceiveBytes` against `I2cTransfer`.

- `i2cTransfer_framed_iff`: the framing is the SMBus one except for a transfer without
  data that should carry a count byte or a PEC.
- `direct_path_follows_pec_iff`: the direct path agrees with `I2cTransfer` exactly when
  the PEC is off.
-/

namespace GumstixExtras.I2c

open GumstixExtras.Lib

/-! ## §1 Message 0 -/

/-- Message 0 is the SMBus write message: `len` counts exactly its bytes, and each of them
was assigned by the call. -/
def Framed {cap : ℕ} (g : I2cGlobals) (cmd : UInt8) (block : Bool) (d : List UInt8)
    (readRequested : Bool) (t : Transfer cap) : Prop :=
  ∃ m rest, t.msgs = some (m :: rest) ∧
    m.len = (smbusWrite g cmd block d readRequested).length ∧
    m.bytes = (smbusWrite g cmd block d readRequested).map some

theorem requestMsgs_eq_cons (g : I2cGlobals) (w : WritePart) (block : Bool) (L : ℕ) :
    ∃ rest, requestMsgs g w block L =
      ⟨g.gI2cAddr.toUInt16, 0, w.len, w.wrBuf.cells⟩ :: rest := by
  unfold requestMsgs
  split
  · exact ⟨_, rfl⟩
  · exact ⟨_, rfl⟩

/-- What the code sends is the SMBus message exactly when there is data, or neither a
count byte nor a PEC is due. -/
theorem sentBytes_eq_iff (g : I2cGlobals) (cmd : UInt8) (block : Bool) (L : ℕ)
    (d : List UInt8) :
    sentBytes g cmd block L d = (smbusWrite g cmd block d (decide (0 < L))).map some ↔
      ¬ (d = [] ∧ (block = true ∨ (g.gUseCrc = true ∧ L = 0))) := by
  by_cases hne : d = []
  · subst hne
    have hL : decide (0 < L) = !decide (L = 0) := by
      rcases Nat.eq_zero_or_pos L with rfl | hpos
      · rfl
      · simp [hpos, Nat.ne_of_gt hpos]
    cases block <;> cases hg : g.gUseCrc <;> by_cases hz : L = 0 <;>
      simp [sentBytes, smbusWrite, dataPhase, hg, hL, hz]
  · simp [sentBytes, hne]

section Framing

variable {k cap : ℕ} (g : I2cGlobals) (bus : Rdwr) (cmd : UInt8) (wrBlock rdBlock : Bool)
  (d : List UInt8) (L : ℕ) (wrData : Buffer UInt8 k) (rdData : Buffer UInt8 cap)
  (bytesReadp : Option UInt8)

theorem framed_iff_sentBytes (hd : wrData.Filled d) (hlen : d.length ≤ i2cMaxDataLen)
    (hL : L ≤ i2cMaxDataLen) (hcap : L ≤ cap) :
    (∃ t, i2cTransfer g bus cmd wrData (lenByte wrBlock d.length) rdData
        (lenByte rdBlock L) bytesReadp = .ok t ∧
      Framed g cmd wrBlock d (decide (0 < L)) t) ↔
    sentBytes g cmd wrBlock L d = (smbusWrite g cmd wrBlock d (decide (0 < L))).map some := by
  obtain ⟨w, hw, -, hwlen, hbytes⟩ := transferWrite_eq g cmd wrBlock L hd hlen
  obtain ⟨t, ht, hmsgs⟩ := i2cTransfer_msgs g cmd rdBlock hlen hL hw bus rdData
    hcap bytesReadp
  obtain ⟨rest, hcons⟩ := requestMsgs_eq_cons g w rdBlock L
  constructor
  · rintro ⟨t', ht', m, rest', hm, -, hmbytes⟩
    -- the call is a function, so there is one message 0 to compare
    obtain rfl : t = t' := Except.ok.inj (ht.symm.trans ht')
    rw [hmsgs, hcons] at hm
    obtain ⟨rfl, -⟩ := List.cons.inj (Option.some.inj hm)
    rw [← hbytes]
    exact hmbytes
  · intro hsent
    refine ⟨t, ht, _, rest, hmsgs.trans (congrArg some hcons), ?_, hbytes.trans hsent⟩
    rw [hwlen, hsent, List.length_map]

/-- **Write framing**: message 0 is the SMBus write message if and only if the transfer
has data or owes neither a count byte nor a PEC. -/
theorem i2cTransfer_framed_iff (hd : wrData.Filled d) (hlen : d.length ≤ i2cMaxDataLen)
    (hL : L ≤ i2cMaxDataLen) (hcap : L ≤ cap) :
    (∃ t, i2cTransfer g bus cmd wrData (lenByte wrBlock d.length) rdData
        (lenByte rdBlock L) bytesReadp = .ok t ∧
      Framed g cmd wrBlock d (decide (0 < L)) t) ↔
    ¬ (d = [] ∧ (wrBlock = true ∨ (g.gUseCrc = true ∧ L = 0))) :=
  (framed_iff_sentBytes g bus cmd wrBlock rdBlock d L wrData rdData bytesReadp hd hlen hL
    hcap).trans (sentBytes_eq_iff g cmd wrBlock L d)

end Framing

/-- A block process call with data is framed: the two data bytes, counted, and no PEC
because a read follows. -/
theorem i2cTransfer_framed_processBlock :
    ∃ t, i2cTransfer ⟨0x1b, true⟩ (.done [1, 0x2a, 0]) 0x15 (Buffer.ofList [0xaa, 0xbb])
        (lenByte true 2) (Buffer.uninit 4 : Buffer UInt8 4) (lenByte true 4) none = .ok t ∧
      Framed ⟨0x1b, true⟩ 0x15 true [0xaa, 0xbb] (decide (0 < 4)) t :=
  (i2cTransfer_framed_iff ⟨0x1b, true⟩ (.done [1, 0x2a, 0]) 0x15 true true [0xaa, 0xbb] 4
    (Buffer.ofList [0xaa, 0xbb]) (Buffer.uninit 4) none (Buffer.filled_ofList _) (by decide)
    (by decide) (by decide)).mpr (by decide)

/-- A command without data goes out without its PEC although the PEC is on. -/
theorem i2cTransfer_sendCommand_not_framed :
    ¬ ∃ t, i2cTransfer ⟨0x1b, true⟩ (.done []) 0x15 nullBuffer (lenByte false 0)
        nullBuffer (lenByte false 0) none = .ok t ∧
      Framed ⟨0x1b, true⟩ 0x15 false [] (decide (0 < 0)) t := by
  have hiff := framed_iff_sentBytes ⟨0x1b, true⟩ (.done []) 0x15 false false [] 0 nullBuffer
    nullBuffer none (Buffer.filled_nil _) (by decide) (by decide) (by decide)
  rw [List.length_nil] at hiff
  rw [hiff]
  decide

/-! ## §2 The direct path -/

/-- What a call puts on the bus: address, direction and bytes of each message. -/
def onBus {cap : ℕ} (t : Transfer cap) : Option (List (UInt16 × UInt16 × List (Option UInt8))) :=
  t.msgs.map fun ms => ms.map fun m => (m.addr, m.flags, m.bytes)

/-- `I2cSendBytes` on `c` and `d` sends what `I2cWriteBytes(c, d)` sends. -/
def SendAgrees (g : I2cGlobals) (c : UInt8) (d : List UInt8) : Prop :=
  ∀ bus, ∃ s w, i2cSendBytes g bus (Buffer.ofList (c :: d)) (UInt8.ofNat (d.length + 1)) = .ok s ∧
    i2cWriteBytes g bus c (Buffer.ofList d) (UInt8.ofNat d.length) = .ok w ∧ onBus s = onBus w

/-- With the PEC on, `I2cReceiveBytes` returns 0 only for a reply that ends in the PEC over
the read address and the data delivered. -/
def ReceiveChecksPec (g : I2cGlobals) : Prop :=
  g.gUseCrc = true → ∀ (cap : ℕ) (rdData : Buffer UInt8 cap) (rdLen : UInt8)
    (reply : List UInt8) (t : Transfer cap), reply.length = rdLen.toNat + 1 →
    i2cReceiveBytes g (.done reply) rdData rdLen = .ok t → t.rc = 0 →
    ∃ data, t.rdData.Filled data ∧ data.length = rdLen.toNat ∧
      reply = data ++ [crc8Block 0 (addrRd g.gI2cAddr :: data)]

theorem onBus_i2cSendBytes (g : I2cGlobals) (bus : Rdwr) {bs : List UInt8}
    (h : bs.length < 256) :
    ∃ s, i2cSendBytes g bus (Buffer.ofList bs) (UInt8.ofNat bs.length) = .ok s ∧
      onBus s = some [(g.gI2cAddr.toUInt16, 0, bs.map some)] := by
  have hlen : (UInt8.ofNat bs.length).toNat = bs.length :=
    UInt8.toNat_ofNat_of_lt' h
  cases bus with
  | failed errno => exact ⟨_, rfl, by simp [onBus, I2cMsg.bytes, hlen]⟩
  | done rx => exact ⟨_, rfl, by simp [onBus, I2cMsg.bytes, hlen]⟩

theorem onBus_i2cWriteBytes (g : I2cGlobals) (bus : Rdwr) (c : UInt8) {d : List UInt8}
    (hne : d ≠ []) (hlen : d.length ≤ i2cMaxDataLen) :
    ∃ w, i2cWriteBytes g bus c (Buffer.ofList d) (UInt8.ofNat d.length) = .ok w ∧
      onBus w = some [(g.gI2cAddr.toUInt16, 0, (smbusWrite g c false d false).map some)] := by
  obtain ⟨w, hw, -, -, hbytes⟩ := transferWrite_eq g c false 0 (Buffer.filled_ofList d) hlen
  obtain ⟨t, ht, hmsgs⟩ := i2cTransfer_msgs g c false hlen (Nat.zero_le _) hw bus
    nullBuffer (Nat.le_refl 0) none
  refine ⟨t, ht, ?_⟩
  rw [onBus, hmsgs]
  simp [requestMsgs, I2cMsg.bytes, hbytes, sentBytes, hne]

theorem sendAgrees_iff (g : I2cGlobals) (c : UInt8) {d : List UInt8} (hne : d ≠ [])
    (hlen : d.length ≤ i2cMaxDataLen) : SendAgrees g c d ↔ g.gUseCrc = false := by
  have hbound : (c :: d).length < 256 := by
    have : i2cMaxDataLen = 32 := rfl
    simp
    omega
  constructor
  · intro hagree
    obtain ⟨s, w, hs, hw, heq⟩ := hagree (.done [])
    obtain ⟨s', hs', hsbus⟩ := onBus_i2cSendBytes g (.done []) hbound
    obtain ⟨w', hw', hwbus⟩ := onBus_i2cWriteBytes g (.done []) c hne hlen
    obtain rfl : s' = s := Except.ok.inj (hs'.symm.trans hs)
    obtain rfl : w' = w := Except.ok.inj (hw'.symm.trans hw)
    -- the PEC makes the written message one byte longer
    cases hg : g.gUseCrc with
    | false => rfl
    | true =>
      rw [hsbus, hwbus] at heq
      have hlens := congrArg (fun o => (o.map fun ms => ms.map fun m => m.2.2.length)) heq
      simp [smbusWrite, hg, dataPhase] at hlens
  · intro hg bus
    obtain ⟨s, hs, hsbus⟩ := onBus_i2cSendBytes g bus hbound
    obtain ⟨w, hw, hwbus⟩ := onBus_i2cWriteBytes g bus c hne hlen
    refine ⟨s, w, hs, hw, ?_⟩
    rw [hsbus, hwbus]
    simp [smbusWrite, hg, dataPhase]

theorem receiveChecksPec_iff (g : I2cGlobals) : ReceiveChecksPec g ↔ g.gUseCrc = false := by
  constructor
  · intro hchecks
    cases hg : g.gUseCrc with
    | false => rfl
    | true =>
      -- a one byte read whose reply ends in a wrong PEC is delivered all the same
      let pec := crc8Block 0 (addrRd g.gI2cAddr :: [0])
      have hwrite : (Buffer.uninit 1 : Buffer UInt8 1).write 0 (received [0, pec + 1] 1) =
          .ok (Buffer.ofList [0]) := rfl
      obtain ⟨data, -, hlen, hreply⟩ := hchecks hg 1 (Buffer.uninit 1) 1 [0, pec + 1] _ rfl
        (by simp [i2cReceiveBytes, hwrite]; rfl) rfl
      obtain ⟨b, rfl⟩ := List.length_eq_one_iff.mp hlen
      rw [List.singleton_append, List.cons.injEq, List.cons.injEq] at hreply
      obtain ⟨rfl, hpec, -⟩ := hreply
      have hne : pec + 1 ≠ pec := by simp
      exact absurd hpec hne
  · intro hg h
    rw [hg] at h
    exact absurd h (by decide)

/-- **The direct path**: the byte operations without a command follow the PEC policy of
`I2cTransfer` exactly when the PEC is off. -/
theorem direct_path_follows_pec_iff (a : UInt8) (useCrc : Bool) (slave : Option ℤ) (c : UInt8)
    (d : List UInt8) (hne : d ≠ []) (hlen : d.length ≤ i2cMaxDataLen) :
    (SendAgrees (i2cSetSlaveAddress a useCrc slave).1 c d ∧
      ReceiveChecksPec (i2cSetSlaveAddress a useCrc slave).1) ↔ useCrc = false := by
  rw [sendAgrees_iff _ c hne hlen, receiveChecksPec_iff, and_self]
  rfl

/-- With the PEC off both paths send the same two bytes. -/
theorem direct_path_follows_pec_off :
    SendAgrees (i2cSetSlaveAddress 0x1b false none).1 0x15 [0xaa] ∧
      ReceiveChecksPec (i2cSetSlaveAddress 0x1b false none).1 :=
  (direct_path_follows_pec_iff 0x1b false none 0x15 [0xaa] (by decide) (by decide)).mpr rfl

/-- With the PEC on the two paths differ on the same two bytes, and a received byte is
delivered whatever follows it. -/
theorem direct_path_ignores_pec :
    ¬ SendAgrees (i2cSetSlaveAddress 0x1b true none).1 0x15 [0xaa] ∧
      ¬ ReceiveChecksPec (i2cSetSlaveAddress 0x1b true none).1 := by
  rw [sendAgrees_iff _ 0x15 (by decide) (by decide), receiveChecksPec_iff]
  decide

end GumstixExtras.I2c
