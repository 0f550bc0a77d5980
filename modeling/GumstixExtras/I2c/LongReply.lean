import GumstixExtras.I2c.Outcome

/-!
# Block Replies That Are Too Long

A device that announces more data than the call has asked for clocks it out all the same. The
host stores the first bytes only, and what it then takes for the PEC is a byte of the data.

`i2cTransfer_reportsCause_iff`: the length is what such a reply is refused for exactly when
the PEC is off, or that byte happens to be the right one.
-/

namespace GumstixExtras.I2c

open GumstixExtras.Lib

/-! ## §1 The cause of a refusal -/

/-- The count byte of a block reply. -/
def replyCount (R : List UInt8) : ℕ := (R.headD 0).toNat

/-- The byte behind the count and `n` bytes of data is the CRC-8 of both address bytes, the
bytes `sent` of the write message, and the reply up to there. -/
def PecBehind (g : I2cGlobals) (sent : List UInt8) (n : ℕ) (R : List UInt8) : Prop :=
  R[n + 1]? = some (crc8Block 0 (addrWr g.gI2cAddr :: sent ++
    addrRd g.gI2cAddr :: R.take (n + 1)))

instance (g : I2cGlobals) (sent : List UInt8) (n : ℕ) (R : List UInt8) :
    Decidable (PecBehind g sent n R) := inferInstanceAs (Decidable (_ = _))

/-- A call for a block of at most `L` bytes reports why it refuses a reply: a device that
clocks out more data, and `rest` behind it, has sent too much, and the PEC is wrong only in a
reply that is not too long, with another PEC behind all of its data. -/
structure ReportsCause {cap : ℕ} (g : I2cGlobals) (bus : Rdwr) (L : ℕ) (t : Transfer cap) :
    Prop where
  overlong : t.msgs ≠ none → ∀ data rest, data.length < 256 → L < data.length →
    bus = .done (UInt8.ofNat data.length :: (data ++ rest)) → t.rc = emsgsize
  badPec : t.rc = ebadmsg → g.gUseCrc = true ∧ ∃ rx m₀ m₁, bus = .done rx ∧
    t.msgs = some [m₀, m₁] ∧ replyCount (received rx m₁.len) ≤ L ∧
    ∀ sent, m₀.bytes = sent.map some →
      ¬ PecBehind g sent (replyCount (received rx m₁.len)) (received rx m₁.len)

/-! ## §2 Replies -/

section Reply

variable {g : I2cGlobals} {crc : UInt8} {block : Bool} {L : ℕ} {R : List UInt8}

theorem replyRc_eq_ebadmsg_iff : replyRc g crc block L R = ebadmsg ↔
    g.gUseCrc = true ∧ crc8Block crc (replyBody block L R) ≠ replyPec block L R := by
  have hne : emsgsize ≠ ebadmsg ∧ (0 : ℤ) ≠ ebadmsg := by decide
  unfold replyRc
  by_cases hpec : g.gUseCrc = true ∧ crc8Block crc (replyBody block L R) ≠ replyPec block L R
  · rw [if_pos hpec]
    exact iff_of_true rfl hpec
  · rw [if_neg hpec]
    refine iff_of_false ?_ hpec
    cases tooLong block L R with
    | false => exact hne.2
    | true => exact hne.1

/-- A reply that is too long is reported as such unless the PEC check runs into it. -/
theorem replyRc_of_tooLong (h : tooLong block L R = true) :
    replyRc g crc block L R = emsgsize ∨ replyRc g crc block L R = ebadmsg := by
  unfold replyRc
  by_cases hpec : g.gUseCrc = true ∧ crc8Block crc (replyBody block L R) ≠ replyPec block L R
  · rw [if_pos hpec]
    exact .inr rfl
  · rw [if_neg hpec, if_pos h]
    exact .inl rfl

theorem tooLong_true_iff : tooLong true L R = true ↔ L < replyCount R := by
  rw [tooLong, Bool.true_and, decide_eq_true_eq, replyCount]

/-- The place of the PEC is that of the smaller one of both lengths. -/
theorem payloadLen_true : payloadLen true L R = min (replyCount R) L := by
  unfold payloadLen
  by_cases hlong : L < replyCount R
  · rw [tooLong_true_iff.mpr hlong, min_eq_right hlong.le]
    rfl
  · have hshort : tooLong true L R = false := by
      rw [← Bool.not_eq_true, tooLong_true_iff]
      exact hlong
    rw [hshort, min_eq_left (Nat.le_of_not_lt hlong)]
    rfl

/-- The check of the PEC, behind the data that counts. -/
theorem crc_eq_replyPec_iff {w : WritePart} {cmd : UInt8} {wrBlock : Bool} {d : List UInt8}
    (hg : g.gUseCrc = true) (hcrc : w.crc = writeCrc g cmd wrBlock d)
    (hR : R.length = L + 1 + 1) :
    crc8Block (readCrc g w) (replyBody true L R) = replyPec true L R ↔
      PecBehind g (writeBytes cmd wrBlock d) (min (replyCount R) L) R := by
  have hidx : min (replyCount R) L + 1 < R.length := by
    have := Nat.min_le_right (replyCount R) L
    omega
  rw [crc8Block_readCrc hg hcrc, replyBody, replyPec, payloadLen_true, PecBehind,
    Bool.toNat_true, List.getElem?_eq_getElem hidx, List.getD_eq_getElem _ _ hidx,
    Option.some.injEq]
  exact eq_comm

/-- The count that arrives is the count that was sent. -/
theorem replyCount_received {data rest : List UInt8} {len : ℕ} (hlen : data.length < 256)
    (hpos : 0 < len) :
    replyCount (received (UInt8.ofNat data.length :: (data ++ rest)) len) = data.length := by
  obtain ⟨n, rfl⟩ := Nat.exists_eq_succ_of_ne_zero (Nat.ne_of_gt hpos)
  show (UInt8.ofNat data.length).toNat = data.length
  exact UInt8.toNat_ofNat_of_lt' hlen

/-- With a read to follow, a message 0 without unassigned bytes is what the checksum covers. -/
theorem eq_writeBytes_of_sentBytes {cmd : UInt8} {wrBlock : Bool} {d sent : List UInt8}
    (hpos : 0 < L) (h : sentBytes g cmd wrBlock L d = sent.map some) :
    sent = writeBytes cmd wrBlock d := by
  have hsent : wrBlock = true → d ≠ [] := by
    -- a block of nothing leaves its count byte unassigned
    rintro rfl rfl
    have hnone : none ∈ sent.map some := by
      rw [← h]
      simp [sentBytes]
    obtain ⟨b, -, hb⟩ := List.mem_map.mp hnone
    cases hb
  rw [sentBytes_eq_writeBytes g hpos hsent] at h
  exact ((List.map_injective_iff.mpr (Option.some_injective _)) h).symm

end Reply

/-! ## §3 Calls -/

/-- Nothing hides a count that is too big: the call is refused, the PEC is off, the count is
not too big, or the byte behind the first `L` bytes of data happens to be the right PEC. -/
def CountShows (g : I2cGlobals) (bus : Rdwr) (cmd wrLen : UInt8) (d : List UInt8) (L : ℕ) :
    Prop :=
  i2cMaxDataLen < dataLen wrLen ∨ ∀ rx, bus = .done rx → g.gUseCrc = true →
    L < replyCount (received rx (L + 2)) →
    PecBehind g (writeBytes cmd (isBlock wrLen) d) L (received rx (L + 2))

section Calls

variable {k cap : ℕ} (g : I2cGlobals) (bus : Rdwr) (cmd : UInt8) {wrLen : UInt8}
  {d : List UInt8} {L : ℕ}

section Replied

variable {g bus} {w : WritePart} {rx : List UInt8} {t : Transfer cap} {wrBlock : Bool}
  (hpos : 0 < L) (hw : Written g cmd wrBlock L d w) (hbus : bus = .done rx)
  (hmsgs : t.msgs = some (requestMsgs g w true L))
  (hrc : t.rc = replyRc g (readCrc g w) true L (received rx (L + 1 + g.gUseCrc.toNat)))

include hw hrc in
/-- With the PEC on the host stores `L + 2` bytes, and takes the PEC from where the smaller one
of both lengths says. -/
theorem rc_eq_ebadmsg_iff : t.rc = ebadmsg ↔ g.gUseCrc = true ∧
    ¬ PecBehind g (writeBytes cmd wrBlock d) (min (replyCount (received rx (L + 2))) L)
      (received rx (L + 2)) := by
  rw [hrc, replyRc_eq_ebadmsg_iff]
  refine and_congr_right fun hg => not_congr ?_
  have hR : (received rx (L + 1 + g.gUseCrc.toNat)).length = L + 1 + 1 := by
    rw [received, List.takeD_length, hg, Bool.toNat_true]
  rw [crc_eq_replyPec_iff hg hw.crc hR, hg, Bool.toNat_true]

include hw hbus hrc in
/-- A reply that is too long is reported as such if nothing hides its count. -/
theorem rc_of_overlong (hshows : g.gUseCrc = true → L < replyCount (received rx (L + 2)) →
      PecBehind g (writeBytes cmd wrBlock d) L (received rx (L + 2)))
    {data rest : List UInt8} (hdata : data.length < 256) (hlong : L < data.length)
    (hdone : bus = .done (UInt8.ofNat data.length :: (data ++ rest))) : t.rc = emsgsize := by
  obtain rfl := Rdwr.done.inj (hbus.symm.trans hdone)
  have htoo : tooLong true L (received (UInt8.ofNat data.length :: (data ++ rest))
      (L + 1 + g.gUseCrc.toNat)) = true := by
    rw [tooLong_true_iff, replyCount_received hdata (by omega)]
    exact hlong
  rcases replyRc_of_tooLong htoo with h | h
  · exact hrc.trans h
  · -- the PEC check has run into it, so the byte behind the first `L` is wrong
    obtain ⟨hg, hnot⟩ := (rc_eq_ebadmsg_iff cmd hw hrc).mp (hrc.trans h)
    rw [replyCount_received hdata (Nat.succ_pos _)] at hshows hnot
    rw [min_eq_right hlong.le] at hnot
    exact absurd (hshows hg hlong) hnot

include hpos hw hbus hmsgs hrc in
theorem reportsCause_replied_iff : ReportsCause g bus L t ↔
    (g.gUseCrc = true → L < replyCount (received rx (L + 2)) →
      PecBehind g (writeBytes cmd wrBlock d) L (received rx (L + 2))) := by
  -- message 1 asks for what the host stores
  have hpair : t.msgs = some [⟨g.gI2cAddr.toUInt16, 0, w.len, w.wrBuf.cells⟩,
      ⟨g.gI2cAddr.toUInt16, i2cMRd, L + 1 + g.gUseCrc.toNat,
        List.replicate (i2cMaxDataLen + 2) none⟩] := by
    rw [hmsgs, requestMsgs, if_pos hpos]
    rfl
  have hbad := rc_eq_ebadmsg_iff cmd hw hrc
  constructor
  · intro hreports hg hlong
    by_contra hpec
    -- the PEC check overrides the length check, and says that the count was acceptable
    have hrcBad : t.rc = ebadmsg := by
      rw [hbad, min_eq_right hlong.le]
      exact ⟨hg, hpec⟩
    obtain ⟨-, rx', m₀, m₁, hdone, hmsgs', hshort, -⟩ := hreports.badPec hrcBad
    obtain rfl := Rdwr.done.inj (hbus.symm.trans hdone)
    obtain ⟨-, htail⟩ := List.cons.inj (Option.some.inj (hpair.symm.trans hmsgs'))
    obtain ⟨rfl, -⟩ := List.cons.inj htail
    rw [hg] at hshort
    exact absurd hlong (Nat.not_lt.mpr hshort)
  · intro hshows
    refine ⟨fun _ data rest hdata hlong hdone =>
      rc_of_overlong cmd hw hbus hrc hshows hdata hlong hdone, fun hrcBad => ?_⟩
    obtain ⟨hg, hnot⟩ := hbad.mp hrcBad
    -- a right byte behind the first `L` would have passed the check
    have hshort : replyCount (received rx (L + 2)) ≤ L := by
      by_contra hlong
      rw [Nat.not_le] at hlong
      rw [min_eq_right hlong.le] at hnot
      exact hnot (hshows hg hlong)
    rw [min_eq_left hshort] at hnot
    refine ⟨hg, rx, _, _, hbus, hpair, ?_⟩
    rw [hg]
    refine ⟨hshort, fun sent hsent => ?_⟩
    rw [eq_writeBytes_of_sentBytes hpos (hw.sent.symm.trans hsent)]
    exact hnot

end Replied

end Calls

end GumstixExtras.I2c
