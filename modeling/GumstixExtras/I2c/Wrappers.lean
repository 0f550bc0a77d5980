import GumstixExtras.I2c.Outcome

/-!
# The Wrappers and Their Lengths

The public wrappers hand a length of the caller to `I2cTransfer` in the byte that also carries
the block flag. `Honours` says what the caller may expect: a length above 32 is refused, any
other reaches the bus as it is, in the format the wrapper is named after.

`wrappers_honour_iff` says for which lengths this is so. The size check looks at the low
seven bits only, so the lengths from 128 to 160 slip through it.
-/

namespace GumstixExtras.I2c

open GumstixExtras.Lib

/-! ## §1 Lengths and the flag -/

/-- The length argument of `I2cTransfer` as a wrapper makes it of its own. -/
def flagged (block : Bool) (n : UInt8) : UInt8 := if block then 0x80 ||| n else n

/-- The flag leaves the low seven bits alone. -/
theorem dataLen_flagged (block : Bool) (n : UInt8) : dataLen (flagged block n) = dataLen n := by
  have hall : ∀ b : Bool, ∀ m : Fin 256,
      dataLen (flagged b (UInt8.ofNat m)) = dataLen (UInt8.ofNat m) := by decide +kernel
  simpa using hall block ⟨n.toNat, n.toNat_lt⟩

theorem dataLen_eq_mod (n : UInt8) : dataLen n = n.toNat % 128 := by
  have hall : ∀ m : Fin 256, dataLen (UInt8.ofNat m) = (UInt8.ofNat m).toNat % 128 := by
    decide +kernel
  simpa using hall ⟨n.toNat, n.toNat_lt⟩

/-- A length up to 32 has no flag of its own. -/
theorem isBlock_flagged (block : Bool) {n : UInt8} (h : n.toNat ≤ i2cMaxDataLen) :
    isBlock (flagged block n) = block := by
  have hall : ∀ b : Bool, ∀ m : Fin 33, isBlock (flagged b (UInt8.ofNat m)) = b := by decide
  simpa using hall block ⟨n.toNat, Nat.lt_succ_of_le h⟩

/-! ## §2 What a caller may expect -/

section Expectations

variable {cap : ℕ} (g : I2cGlobals) (cmd : UInt8)

/-- Message 0 carries the command and the data in the given format, and a PEC behind them
only where one may stand. -/
def CarriesData (block : Bool) (d : List UInt8) (readFollows : Bool) (m : I2cMsg) : Prop :=
  m.flags = 0 ∧ m.bytes.length = m.len ∧
    ∃ pec, m.bytes = (cmd :: dataPhase block d).map some ++ pec ∧
      pec.length ≤ (g.gUseCrc && !readFollows).toNat

/-- The messages behind message 0 ask for `n` bytes in the given format; to read nothing
without a count takes no message. -/
def AsksFor (block : Bool) (n : ℕ) (rest : List I2cMsg) : Prop :=
  if n = 0 ∧ block = false then rest = []
  else ∃ m, rest = [m] ∧ m.flags = i2cMRd ∧ m.len = n + block.toNat + g.gUseCrc.toNat

/-- A request to write `d` and to read `n` bytes is refused if it is too long for a message,
and otherwise reaches the bus as it is. -/
def Honours (wrBlock : Bool) (d : List UInt8) (rdBlock : Bool) (n : ℕ) (t : Transfer cap) :
    Prop :=
  if i2cMaxDataLen < d.length ∨ i2cMaxDataLen < n then
    t.rc = -1 ∧ t.errno = some enobufs ∧ t.msgs = none
  else
    ∃ m rest, t.msgs = some (m :: rest) ∧
      CarriesData g cmd wrBlock d (decide (0 < n)) m ∧ AsksFor g rdBlock n rest

end Expectations

/-- A length the format can carry: a block of no bytes has no place for its count. -/
def ProperLength (block : Bool) (n : UInt8) : Prop :=
  n.toNat ≤ i2cMaxDataLen ∧ (block = true → n ≠ 0)

/-- The size check catches one of the two lengths by its low seven bits, or both are lengths
their formats can carry. -/
def LengthsKept (wrBlock : Bool) (wrLen : UInt8) (rdBlock : Bool) (rdLen : UInt8) : Prop :=
  Refuses wrLen rdLen ∨ (ProperLength wrBlock wrLen ∧ ProperLength rdBlock rdLen)

instance (block : Bool) (n : UInt8) : Decidable (ProperLength block n) :=
  inferInstanceAs (Decidable (_ ∧ _))

instance (wrBlock : Bool) (wrLen : UInt8) (rdBlock : Bool) (rdLen : UInt8) :
    Decidable (LengthsKept wrBlock wrLen rdBlock rdLen) :=
  inferInstanceAs (Decidable (_ ∨ _))

/-! ## §3 The two halves of a request -/

section Request

variable (g : I2cGlobals) (cmd : UInt8) {w : WritePart}

theorem requestMsgs_eq_head_tail (w : WritePart) (block : Bool) (L : ℕ) :
    requestMsgs g w block L =
      ⟨g.gI2cAddr.toUInt16, 0, w.len, w.wrBuf.cells⟩ :: (requestMsgs g w block L).tail := by
  unfold requestMsgs
  split <;> rfl

/-- The write half carries its data unless it is a block of none. -/
theorem carriesData_iff {block : Bool} {L : ℕ} {d : List UInt8}
    (hw : Written g cmd block L d w) :
    CarriesData g cmd block d (decide (0 < L))
        ⟨g.gI2cAddr.toUInt16, 0, w.len, w.wrBuf.cells⟩ ↔
      (block = true → d ≠ []) := by
  have hbytes : (⟨g.gI2cAddr.toUInt16, 0, w.len, w.wrBuf.cells⟩ : I2cMsg).bytes =
      sentBytes g cmd block L d := hw.sent
  rw [CarriesData, hbytes]
  by_cases hne : d = []
  · subst hne
    cases block with
    | false => simp [hw.len, sentBytes, dataPhase]
    | true => simp [hw.len, sentBytes, dataPhase]
  · simp only [hne, ne_eq, not_false_eq_true, implies_true, iff_true]
    refine ⟨trivial, hw.len.symm, ?_⟩
    simp only [sentBytes, hne, if_false, smbusWrite]
    -- the PEC, where it is due, is one byte
    split
    · next hpec => exact ⟨[some _], by rw [List.map_append]; rfl, by simp [hpec]⟩
    · exact ⟨[], by rw [List.append_nil], Nat.zero_le _⟩

/-- The read half asks for what it is told unless it is a block of none. -/
theorem asksFor_iff (w : WritePart) (block : Bool) (L : ℕ) :
    AsksFor g block L (requestMsgs g w block L).tail ↔ (block = true → L ≠ 0) := by
  unfold AsksFor requestMsgs
  rcases Nat.eq_zero_or_pos L with rfl | hpos
  · cases block <;> simp
  · have hne : L ≠ 0 := Nat.ne_of_gt hpos
    simp [hpos, hne]

end Request

/-! ## §4 The wrappers -/

section Wrappers

variable {k cap : ℕ} (g : I2cGlobals) (bus : Rdwr) (cmd : UInt8) {d : List UInt8}
  {wrData : Buffer UInt8 k} (rdData : Buffer UInt8 cap) (bytesReadp : Option UInt8)

/-- A request that is not refused is honoured exactly when its lengths are proper. -/
theorem honours_of_issued {wrBlock rdBlock : Bool} {wrLen rdLen : UInt8} {w : WritePart}
    {t : Transfer cap} (hn : d.length = wrLen.toNat)
    (hlens : ¬ Refuses (flagged wrBlock wrLen) (flagged rdBlock rdLen))
    (hw : Written g cmd (isBlock (flagged wrBlock wrLen)) (dataLen (flagged rdBlock rdLen))
      (d.take (dataLen (flagged wrBlock wrLen))) w)
    (hmsgs : t.msgs = some (requestMsgs g w (isBlock (flagged rdBlock rdLen))
      (dataLen (flagged rdBlock rdLen)))) :
    Honours g cmd wrBlock d rdBlock rdLen.toNat t ↔
      LengthsKept wrBlock wrLen rdBlock rdLen := by
  have hkept : LengthsKept wrBlock wrLen rdBlock rdLen ↔
      ProperLength wrBlock wrLen ∧ ProperLength rdBlock rdLen := by
    rw [Refuses, dataLen_flagged, dataLen_flagged] at hlens
    exact or_iff_right hlens
  rw [hkept]
  by_cases hbig : i2cMaxDataLen < d.length ∨ i2cMaxDataLen < rdLen.toNat
  · -- a length that is too big should have been refused
    rw [Honours, if_pos hbig, hmsgs, hn] at *
    refine iff_of_false (fun h => Option.some_ne_none _ h.2.2) ?_
    rintro ⟨⟨hwr, -⟩, ⟨hrd, -⟩⟩
    omega
  · rw [Honours, if_neg hbig, hmsgs]
    rw [not_or, Nat.not_lt, Nat.not_lt, hn] at hbig
    obtain ⟨hwr, hrd⟩ := hbig
    have hmax : i2cMaxDataLen = 32 := rfl
    have hwrLen : dataLen (flagged wrBlock wrLen) = d.length := by
      rw [dataLen_flagged, dataLen_eq_mod]
      omega
    have hrdLen : dataLen (flagged rdBlock rdLen) = rdLen.toNat := by
      rw [dataLen_flagged, dataLen_eq_mod]
      omega
    -- the lengths and the formats are those of the wrapper
    rw [isBlock_flagged wrBlock hwr, hwrLen, List.take_length, hrdLen] at hw
    rw [isBlock_flagged rdBlock hrd, hrdLen]
    have hproper : ∀ (block : Bool) (n : UInt8), n.toNat ≤ i2cMaxDataLen →
        (ProperLength block n ↔ (block = true → n.toNat ≠ 0)) := fun block n hn => by
      rw [ProperLength, and_iff_right hn, ne_eq, ne_eq, ← UInt8.toNat_inj]
      rfl
    have hdata : d ≠ [] ↔ wrLen.toNat ≠ 0 := by
      rw [← hn, ne_eq, ne_eq, List.length_eq_zero_iff]
    rw [hproper wrBlock wrLen hwr, hproper rdBlock rdLen hrd, ← asksFor_iff g w rdBlock,
      ← hdata, ← carriesData_iff g cmd hw]
    constructor
    · rintro ⟨m, rest, hm, hcarries, hasks⟩
      rw [requestMsgs_eq_head_tail] at hm
      obtain ⟨rfl, rfl⟩ := List.cons.inj (Option.some.inj hm)
      exact ⟨hcarries, hasks⟩
    · rintro ⟨hcarries, hasks⟩
      exact ⟨_, _, congrArg some (requestMsgs_eq_head_tail g w rdBlock rdLen.toNat), hcarries,
        hasks⟩

/-- A request with flags of its own, whatever its lengths. -/
theorem i2cTransfer_honours_iff (wrBlock rdBlock : Bool) {wrLen rdLen : UInt8}
    (hd : wrData.Filled d) (hn : d.length = wrLen.toNat) (hcap : rdLen.toNat ≤ cap) :
    ∃ t, i2cTransfer g bus cmd wrData (flagged wrBlock wrLen) rdData (flagged rdBlock rdLen)
        bytesReadp = .ok t ∧
      (Honours g cmd wrBlock d rdBlock rdLen.toNat t ↔
        LengthsKept wrBlock wrLen rdBlock rdLen) := by
  have hwr := (dataLen_flagged wrBlock wrLen).trans (dataLen_eq_mod wrLen)
  have hrd := (dataLen_flagged rdBlock rdLen).trans (dataLen_eq_mod rdLen)
  have htake : (d.take (dataLen (flagged wrBlock wrLen))).length =
      dataLen (flagged wrBlock wrLen) := List.length_take_of_le (by omega)
  have hfilled : wrData.Filled (d.take (dataLen (flagged wrBlock wrLen))) := by
    rw [← List.take_append_drop (dataLen (flagged wrBlock wrLen)) d] at hd
    exact hd.of_append
  have hfit : dataLen (flagged rdBlock rdLen) ≤ cap := by omega
  obtain ⟨t, ht, houtcome⟩ := i2cTransfer_outcome g bus cmd rdData bytesReadp hfilled htake hfit
  refine ⟨t, ht, ?_⟩
  cases houtcome with
  | refused log hrefuses =>
    -- a refused length is too big itself, since the low bits are no more than the length
    have hbig : i2cMaxDataLen < d.length ∨ i2cMaxDataLen < rdLen.toNat := by
      rw [Refuses] at hrefuses
      omega
    rw [Refuses, dataLen_flagged, dataLen_flagged] at hrefuses
    rw [Honours, if_pos hbig]
    exact iff_of_true ⟨rfl, rfl, rfl⟩ (.inl hrefuses)
  | failed w errno hlens hw hbus => exact honours_of_issued g cmd hn hlens hw rfl
  | wrote w rx hlens hw hbus hnone => exact honours_of_issued g cmd hn hlens hw rfl
  | replied w rx hlens hw hbus hpos hcap => exact honours_of_issued g cmd hn hlens hw rfl

/-- **The wrappers**: a wrapper refuses what is too long and sends what is not, in its own
format, if and only if the size check catches a length by its low seven bits or every length
is one that its format can carry. -/
theorem wrappers_honour_iff {wrLen rdLen : UInt8} (hd : wrData.Filled d)
    (hn : d.length = wrLen.toNat) (hcap : rdLen.toNat ≤ cap) :
    (∃ t, i2cWriteBytes g bus cmd wrData wrLen = .ok t ∧
      (Honours g cmd false d false 0 t ↔ LengthsKept false wrLen false 0)) ∧
    (∃ t, i2cWriteBlock g bus cmd wrData wrLen = .ok t ∧
      (Honours g cmd true d false 0 t ↔ LengthsKept true wrLen false 0)) ∧
    (∃ t, i2cReadBytes g bus cmd rdData rdLen = .ok t ∧
      (Honours g cmd false [] false rdLen.toNat t ↔ LengthsKept false 0 false rdLen)) ∧
    (∃ t, i2cReadBlock g bus cmd rdData rdLen bytesReadp = .ok t ∧
      (Honours g cmd false [] true rdLen.toNat t ↔ LengthsKept false 0 true rdLen)) ∧
    (∃ t, i2cProcessBlock g bus cmd wrData wrLen rdData rdLen bytesReadp = .ok t ∧
      (Honours g cmd true d true rdLen.toNat t ↔ LengthsKept true wrLen true rdLen)) := by
  have hnone : (nullBuffer : Buffer UInt8 0).Filled [] := Buffer.filled_nil _
  refine ⟨?_, ?_, ?_, ?_, ?_⟩
  · exact i2cTransfer_honours_iff g bus cmd nullBuffer none false false hd hn (Nat.zero_le 0)
  · exact i2cTransfer_honours_iff g bus cmd nullBuffer none true false hd hn (Nat.zero_le 0)
  · exact i2cTransfer_honours_iff g bus cmd rdData none false false hnone rfl hcap
  · exact i2cTransfer_honours_iff g bus cmd rdData bytesReadp false true hnone rfl hcap
  · exact i2cTransfer_honours_iff g bus cmd rdData bytesReadp true true hd hn hcap

end Wrappers

/-- Two bytes to write and four to read are what every wrapper makes of them. -/
theorem wrappers_honour_small :
    (∃ t, i2cWriteBytes ⟨0x1b, true⟩ (.done []) 0x15 (Buffer.ofList [0xaa, 0xbb]) 2 = .ok t ∧
      Honours ⟨0x1b, true⟩ 0x15 false [0xaa, 0xbb] false 0 t) ∧
    (∃ t, i2cWriteBlock ⟨0x1b, true⟩ (.done []) 0x15 (Buffer.ofList [0xaa, 0xbb]) 2 = .ok t ∧
      Honours ⟨0x1b, true⟩ 0x15 true [0xaa, 0xbb] false 0 t) ∧
    (∃ t, i2cReadBytes ⟨0x1b, true⟩ (.done []) 0x15 (Buffer.uninit 4 : Buffer UInt8 4) 4 = .ok t ∧
      Honours ⟨0x1b, true⟩ 0x15 false [] false 4 t) := by
  obtain ⟨⟨t₁, h₁, hiff₁⟩, ⟨t₂, h₂, hiff₂⟩, ⟨t₃, h₃, hiff₃⟩, -⟩ :=
    wrappers_honour_iff ⟨0x1b, true⟩ (.done []) 0x15 (Buffer.uninit 4 : Buffer UInt8 4) none
      (Buffer.filled_ofList [0xaa, 0xbb]) (by decide : [0xaa, 0xbb].length = (2 : UInt8).toNat)
      (by decide : (4 : UInt8).toNat ≤ 4)
  exact ⟨⟨t₁, h₁, hiff₁.mpr (by decide)⟩, ⟨t₂, h₂, hiff₂.mpr (by decide)⟩,
    ⟨t₃, h₃, hiff₃.mpr (by decide)⟩⟩

set_option maxRecDepth 2000 in
/-- A plain write of 130 bytes goes out as a block of two, and succeeds. -/
theorem i2cWriteBytes_sendsShortBlock :
    ∃ t, i2cWriteBytes ⟨0x1b, false⟩ (.done []) 0x15 (Buffer.ofList (List.replicate 130 0xaa)) 130 =
        .ok t ∧ t.rc = 0 ∧
      t.msgs.map (fun msgs => msgs.map I2cMsg.bytes) =
        some [[some 0x15, some 2, some 0xaa, some 0xaa]] ∧
      ¬ Honours ⟨0x1b, false⟩ 0x15 false (List.replicate 130 0xaa) false 0 t := by
  have hview : (i2cWriteBytes ⟨0x1b, false⟩ (.done []) 0x15
      (Buffer.ofList (List.replicate 130 0xaa)) 130).map
        (fun t => (t.rc, t.msgs.map fun msgs => msgs.map I2cMsg.bytes)) =
      .ok (0, some [[some 0x15, some 2, some 0xaa, some 0xaa]]) := by
    decide +kernel
  obtain ⟨t, ht, hview⟩ := map_eq_ok_iff.mp hview
  obtain ⟨hrc, hmsgs⟩ := Prod.mk.inj hview
  refine ⟨t, ht, hrc, hmsgs, fun h => ?_⟩
  have hlong : i2cMaxDataLen < (List.replicate 130 (0xaa : UInt8)).length := by
    rw [List.length_replicate]
    decide
  rw [Honours, if_pos (.inl hlong), hrc] at h
  exact absurd h.1 (by decide)

end GumstixExtras.I2c
