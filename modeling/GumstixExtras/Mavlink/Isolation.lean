import GumstixExtras.Mavlink.Frame
import Mathlib.Data.List.ReduceOption

/-!
# Isolation of the Two Directions

Both threads parse on `MAVLINK_COMM_1`, so they share one parser. Every run hands on exactly
the messages the shared parser completes for each thread (`Relays`), and without failing
receives each thread parses exactly its own stream (`Feeds`). A thread therefore gets what a
parser of its own would give it when every change of threads falls on a parser state that is
as good as fresh.
-/

namespace GumstixExtras.Mavlink

open GumstixExtras.Lib

variable {σ μ : Type}

/-! ## §1 Messages in hand -/

/-- The message `serial_wait` has decoded and not sent. -/
def SerialPc.inHand : SerialPc μ → List μ
  | .read => []
  | .forward message => [message]

/-- The message `udp_wait` has decoded and not written. -/
def UdpPc.inHand : UdpPc μ → List μ
  | .recv => []
  | .loop _ => []
  | .relay message _ => [message]
  | .flush _ => []

@[simp] theorem SerialPc.inHand_elim (m : Option μ) :
    (m.elim .read .forward : SerialPc μ).inHand = m.toList := by
  cases m <;> rfl

@[simp] theorem UdpPc.inHand_elim (m : Option μ) (i : ℕ) :
    (m.elim (.loop (i + 1)) (.relay · i) : UdpPc μ).inHand = m.toList := by
  cases m <;> rfl

/-! ## §2 What the shared parser completes -/

/-- The channel is where the calls have brought it, and each thread has handed on, or has in
hand, the messages its own calls completed. -/
structure Relays (L : Library σ μ) (s : State σ μ) : Prop where
  channel : s.channels mavlinkComm1 =
    L.parser.after L.parser.fresh (s.calls.map Prod.snd)
  serial : s.sent ++ s.serialPc.inHand =
    L.parser.sideOutputs Thread.serial L.parser.fresh s.calls
  udp : s.written ++ s.udpPc.inHand =
    L.parser.sideOutputs Thread.udp L.parser.fresh s.calls
  datagrams : s.datagrams = s.sent.map L.msgToSendBuffer

variable {L : Library σ μ} {debug : Bool} {s s' : State σ μ}

theorem relays_initial (serialIn : List (Option UInt8)) (udpIn : List Received) :
    Relays L (initial L serialIn udpIn) := ⟨rfl, rfl, rfl, rfl⟩

/-- A call brings the channel one character further. -/
theorem Relays.channel_call (h : Relays L s) (who : Thread) (c : UInt8) :
    (mavlinkParseChar L who mavlinkComm1 c s).channels mavlinkComm1 =
      L.parser.after L.parser.fresh
        ((mavlinkParseChar L who mavlinkComm1 c s).calls.map Prod.snd) := by
  simp only [mavlinkParseChar, Function.update_self, List.map_append, List.map_cons,
    List.map_nil, Transducer.after_append, h.channel]
  rfl

/-- A call gives its caller what it completes, and the other thread nothing. -/
theorem Relays.sideOutputs_call (h : Relays L s) (who side : Thread) (c : UInt8) :
    L.parser.sideOutputs who L.parser.fresh (s.calls ++ [(side, c)]) =
      L.parser.sideOutputs who L.parser.fresh s.calls ++
        if side = who then (msgReceived L mavlinkComm1 c s).toList else [] := by
  rw [Transducer.sideOutputs_append, ← h.channel]
  simp only [Transducer.sideOutputs, Transducer.emit, List.append_nil, msgReceived]

theorem Relays.serialWait (h : Relays L s) : Relays L (serialWait L s) := by
  obtain ⟨hpc, hin, hs⟩ | ⟨serialIn, hpc, hin, hs⟩ | ⟨cp, serialIn, hpc, hin, hs⟩ |
    ⟨message, hpc, hs⟩ := serialWait_cases L s
  · rw [hs]
    exact h
  · rw [hs]
    exact ⟨h.channel, h.serial, h.udp, h.datagrams⟩
  · -- a byte: the message it completes, if any, is in hand now
    have hsent : s.sent = L.parser.sideOutputs Thread.serial L.parser.fresh s.calls := by
      rw [← h.serial, hpc, SerialPc.inHand, List.append_nil]
    rw [hs]
    refine ⟨h.channel_call .serial cp, ?_, ?_, h.datagrams⟩
    · rw [SerialPc.inHand_elim]
      exact (congrArg (· ++ _) hsent).trans (h.sideOutputs_call .serial .serial cp).symm
    · refine h.udp.trans ?_
      rw [mavlinkParseChar, h.sideOutputs_call, if_neg (by decide), List.append_nil]
  · -- the message in hand is sent
    have hinHand := h.serial
    rw [hpc, SerialPc.inHand] at hinHand
    rw [hs]
    refine ⟨h.channel, ?_, h.udp, ?_⟩
    · simpa only [SerialPc.inHand, List.append_nil] using hinHand
    · rw [h.datagrams, List.map_append, List.map_singleton]

theorem Relays.udpWait (h : Relays L s) (hstep : udpWait L debug s = .ok s') :
    Relays L s' := by
  obtain ⟨hpc, hin, rfl⟩ | ⟨r, udpIn, udpBuffer, hpc, hin, hwrite, rfl⟩ |
    ⟨i, c, hpc, hi, hload, rfl⟩ | ⟨i, hpc, hi, rfl⟩ | ⟨message, i, hpc, rfl⟩ |
    ⟨i, hpc, rfl⟩ := udpWait_cases hstep
  · exact h
  · -- a `recv`, which completes nothing
    have hudp := h.udp
    rw [hpc] at hudp
    refine ⟨h.channel, h.serial, ?_, h.datagrams⟩
    dsimp only
    split <;> exact hudp
  · -- a byte of the datagram
    have hwritten : s.written = L.parser.sideOutputs Thread.udp L.parser.fresh s.calls := by
      rw [← h.udp, hpc, UdpPc.inHand, List.append_nil]
    refine ⟨h.channel_call .udp c, ?_, ?_, h.datagrams⟩
    · refine h.serial.trans ?_
      rw [mavlinkParseChar, h.sideOutputs_call, if_neg (by decide), List.append_nil]
    · rw [UdpPc.inHand_elim]
      exact (congrArg (· ++ _) hwritten).trans (h.sideOutputs_call .udp .udp c).symm
  · have hudp := h.udp
    rw [hpc] at hudp
    exact ⟨h.channel, h.serial, hudp, h.datagrams⟩
  · have hudp := h.udp
    rw [hpc, UdpPc.inHand] at hudp
    refine ⟨h.channel, h.serial, ?_, h.datagrams⟩
    simpa only [UdpPc.inHand, List.append_nil] using hudp
  · have hudp := h.udp
    rw [hpc] at hudp
    exact ⟨h.channel, h.serial, hudp, h.datagrams⟩

theorem Relays.step (h : Relays L s) (a : Actor) (hstep : step L debug s a = .ok s') :
    Relays L s' := by
  cases a with
  | serial =>
    cases hstep
    exact h.serialWait
  | udp => exact h.udpWait hstep
  | driver k =>
    cases hstep
    exact ⟨h.channel, h.serial, h.udp, h.datagrams⟩

/-- Whatever the schedule, the results of the system calls and `debug`: each thread hands on
what the shared parser completes for it. -/
theorem relays_run {serialIn : List (Option UInt8)} {udpIn : List Received}
    {schedule : List Actor} (h : run L debug (initial L serialIn udpIn) schedule = .ok s) :
    Relays L s :=
  run_invariant (fun _ a _ hs hstep => hs.step a hstep) (relays_initial serialIn udpIn) h

/-! ## §3 What each thread parses -/

/-- The bytes of a list of reads. -/
def readBytes (serialIn : List (Option UInt8)) : List UInt8 := serialIn.reduceOption

/-- The bytes of a list of receives. -/
def receivedBytes (udpIn : List Received) : List UInt8 := udpIn.flatMap Received.stored

/-- The index of the next byte to parse, `recvLen` where the loop is over. -/
def UdpPc.index (recvLen : ℕ) : UdpPc μ → ℕ
  | .recv => recvLen
  | .loop i => i
  | .relay _ i => i + 1
  | .flush i => i + 1

/-- The first `recvLen` bytes of a buffer, from `i` on. -/
def unparsed (udpBuffer : Buffer UInt8 mavlinkMaxPacketLen) (recvLen i : ℕ) : List UInt8 :=
  ((udpBuffer.cells.take recvLen).drop i).reduceOption

/-- The buffer holds the `recvLen` bytes of a datagram, and no receive to come fails. -/
structure Loaded (s : State σ μ) : Prop where
  buffer : ∃ payload, s.udpBuffer.Filled payload ∧ s.recvLen = payload.length
  udpIn : ∀ r ∈ s.udpIn, r ≠ .error

/-- Each thread has parsed its stream up to what is still to come. -/
structure Feeds (serialIn : List (Option UInt8)) (udpIn : List Received) (s : State σ μ) :
    Prop where
  serial : Transducer.inputsOf Thread.serial s.calls ++ readBytes s.serialIn =
    readBytes serialIn
  udp : Transducer.inputsOf Thread.udp s.calls ++
      (unparsed s.udpBuffer s.recvLen (s.udpPc.index s.recvLen) ++ receivedBytes s.udpIn) =
    receivedBytes udpIn

variable {serialIn : List (Option UInt8)} {udpIn : List Received}

theorem unparsed_of_filled {udpBuffer : Buffer UInt8 mavlinkMaxPacketLen}
    {payload : List UInt8} (h : udpBuffer.Filled payload) :
    unparsed udpBuffer payload.length 0 = payload := by
  have htake : udpBuffer.cells.take payload.length = payload.map some := h
  rw [unparsed, htake, List.drop_zero, List.reduceOption, List.filterMap_map,
    Function.id_comp, List.filterMap_some]

theorem unparsed_of_le {udpBuffer : Buffer UInt8 mavlinkMaxPacketLen} {recvLen i : ℕ}
    (h : recvLen ≤ i) : unparsed udpBuffer recvLen i = [] := by
  have hlen : (udpBuffer.cells.take recvLen).length ≤ i :=
    Nat.le_trans (List.length_take_le _ _) h
  rw [unparsed, List.drop_of_length_le hlen]
  rfl

/-- The byte that is loaded is the first one still to be parsed. -/
theorem unparsed_of_load {udpBuffer : Buffer UInt8 mavlinkMaxPacketLen} {recvLen i : ℕ}
    {c : UInt8} (h : i < recvLen) (hload : udpBuffer.load i = .ok c) :
    unparsed udpBuffer recvLen i = c :: unparsed udpBuffer recvLen (i + 1) := by
  have hcell : (udpBuffer.cells.take recvLen)[i]? = some (some c) := by
    rw [List.getElem?_take_of_lt h]
    unfold Buffer.load at hload
    split at hload <;> cases hload
    assumption
  obtain ⟨hi, hget⟩ := List.getElem?_eq_some_iff.mp hcell
  rw [unparsed, List.drop_eq_getElem_cons hi, hget, List.reduceOption_cons_of_some]
  rfl

theorem loaded_initial (hrecv : ∀ r ∈ udpIn, r ≠ .error) :
    Loaded (initial L serialIn udpIn) :=
  ⟨⟨[], Buffer.filled_nil _, rfl⟩, hrecv⟩

theorem feeds_initial : Feeds serialIn udpIn (initial L serialIn udpIn) := ⟨rfl, rfl⟩

/-- What `recv` stores fits the buffer. -/
theorem Received.length_stored_le (r : Received) :
    0 + r.stored.length ≤ mavlinkMaxPacketLen := by
  rw [Nat.zero_add]
  cases r with
  | error => exact Nat.zero_le _
  | datagram payload => exact List.length_take_le _ _

/-- A new datagram stands at the front of the buffer, and `recvLen` is its length. -/
theorem Loaded.write (h : Loaded s) {r : Received} {udpIn : List Received}
    (hin : s.udpIn = r :: udpIn) {udpBuffer : Buffer UInt8 mavlinkMaxPacketLen}
    (hwrite : s.udpBuffer.write 0 r.stored = .ok udpBuffer) :
    udpBuffer.Filled r.stored ∧ r.recvLen = r.stored.length := by
  have hfits := r.length_stored_le
  obtain rfl := Except.ok.inj ((s.udpBuffer.write_eq hfits).symm.trans hwrite)
  refine ⟨(Buffer.filled_nil s.udpBuffer).splice r.stored hfits, ?_⟩
  cases r with
  | error => exact absurd rfl (h.udpIn .error (hin ▸ List.mem_cons_self))
  | datagram payload => rfl

/-- Without failing receives `udp_wait` never faults. -/
theorem Loaded.udpWait_ok (h : Loaded s) (L : Library σ μ) (debug : Bool) :
    ∃ s', Mavlink.udpWait L debug s = .ok s' := by
  cases hpc : s.udpPc with
  | recv =>
    cases hin : s.udpIn with
    | nil => exact ⟨s, by simp only [Mavlink.udpWait, hpc, hin]⟩
    | cons r udpIn =>
      -- what is received fits
      have hwrite := s.udpBuffer.write_eq r.length_stored_le
      simp only [Mavlink.udpWait, hpc, hin, hwrite, ok_bind, pure_eq_ok]
      exact ⟨_, rfl⟩
  | loop i =>
    by_cases hi : i < s.recvLen
    · -- the byte the loop reads is one of the datagram
      obtain ⟨payload, hfilled, hlen⟩ := h.buffer
      simp only [Mavlink.udpWait, hpc, if_pos hi, hfilled.load (hlen ▸ hi), ok_bind, pure_eq_ok]
      exact ⟨_, rfl⟩
    · simp only [Mavlink.udpWait, hpc, if_neg hi]
      exact ⟨_, rfl⟩
  | relay message i =>
    simp only [Mavlink.udpWait, hpc]
    exact ⟨_, rfl⟩
  | flush i =>
    simp only [Mavlink.udpWait, hpc]
    exact ⟨_, rfl⟩

theorem Loaded.udpWait (h : Loaded s) (hstep : Mavlink.udpWait L debug s = .ok s') :
    Loaded s' := by
  obtain ⟨-, -, rfl⟩ | ⟨r, udpIn, udpBuffer, -, hin, hwrite, rfl⟩ | ⟨i, c, -, -, -, rfl⟩ |
    ⟨i, -, -, rfl⟩ | ⟨message, i, -, rfl⟩ | ⟨i, -, rfl⟩ := udpWait_cases hstep
  · exact h
  · obtain ⟨hfilled, hlen⟩ := h.write hin hwrite
    refine ⟨⟨r.stored, hfilled, hlen⟩, ?_⟩
    intro r' hr'
    exact h.udpIn r' (hin ▸ List.mem_cons_of_mem r hr')
  · exact ⟨h.buffer, h.udpIn⟩
  · exact ⟨h.buffer, h.udpIn⟩
  · exact ⟨h.buffer, h.udpIn⟩
  · exact ⟨h.buffer, h.udpIn⟩

theorem Loaded.serialWait (h : Loaded s) : Loaded (serialWait L s) := by
  obtain ⟨-, -, hs⟩ | ⟨serialIn, -, -, hs⟩ | ⟨cp, serialIn, -, -, hs⟩ | ⟨message, -, hs⟩ :=
    serialWait_cases L s <;> rw [hs] <;> exact ⟨h.buffer, h.udpIn⟩

theorem Feeds.serialWait (h : Feeds serialIn udpIn s) :
    Feeds serialIn udpIn (serialWait L s) := by
  obtain ⟨-, -, hs⟩ | ⟨serialIn', -, hin, hs⟩ | ⟨cp, serialIn', -, hin, hs⟩ |
    ⟨message, -, hs⟩ := serialWait_cases L s
  · rw [hs]
    exact h
  · -- an empty read, which takes nothing from the stream
    have hserial := h.serial
    rw [hin] at hserial
    rw [hs]
    exact ⟨hserial, h.udp⟩
  · have hserial := h.serial
    rw [hin] at hserial
    rw [hs]
    refine ⟨?_, ?_⟩
    · rw [mavlinkParseChar, Transducer.inputsOf_concat, if_pos rfl, List.append_assoc]
      exact hserial
    · rw [mavlinkParseChar, Transducer.inputsOf_concat, if_neg (by decide), List.append_nil]
      exact h.udp
  · rw [hs]
    exact ⟨h.serial, h.udp⟩

/-- A step of `udp_wait` with `debug` off takes the next byte or leaves them all. -/
theorem Feeds.udpWait (h : Feeds serialIn udpIn s) (hloaded : Loaded s)
    (hstep : Mavlink.udpWait L false s = .ok s') : Feeds serialIn udpIn s' := by
  have hudp := h.udp
  obtain ⟨-, -, rfl⟩ | ⟨r, udpIn', udpBuffer, hpc, hin, hwrite, rfl⟩ |
    ⟨i, c, hpc, hi, hload, rfl⟩ | ⟨i, hpc, hi, rfl⟩ | ⟨message, i, hpc, rfl⟩ |
    ⟨i, hpc, rfl⟩ := udpWait_cases hstep
  · exact h
  · obtain ⟨hfilled, hlen⟩ := hloaded.write hin hwrite
    rw [hpc, UdpPc.index, unparsed_of_le (Nat.le_refl _), hin] at hudp
    refine ⟨h.serial, ?_⟩
    -- a new datagram: nothing of the last one is left, and all of this one is to come
    have hstored : unparsed udpBuffer r.recvLen
        ((if 0 < r.recvLen then .loop 0 else .recv : UdpPc μ).index r.recvLen) = r.stored := by
      have hindex : (if 0 < r.recvLen then .loop 0 else .recv : UdpPc μ).index r.recvLen = 0 := by
        split
        · rfl
        · exact Nat.eq_zero_of_not_pos ‹_›
      rw [hindex, hlen, unparsed_of_filled hfilled]
    rw [hstored]
    exact hudp
  · -- the byte at the loop counter goes from what is to come to what is parsed
    rw [hpc, UdpPc.index, unparsed_of_load hi hload] at hudp
    refine ⟨?_, ?_⟩
    · rw [mavlinkParseChar, Transducer.inputsOf_concat, if_neg (by decide), List.append_nil]
      exact h.serial
    · have hindex : ((msgReceived L mavlinkComm1 c s).elim (.loop (i + 1))
          (.relay · i) : UdpPc μ).index s.recvLen = i + 1 := by
        cases msgReceived L mavlinkComm1 c s <;> rfl
      rw [mavlinkParseChar, Transducer.inputsOf_concat, if_pos rfl, List.append_assoc, hindex]
      exact hudp
  · rw [hpc, UdpPc.index, unparsed_of_le hi] at hudp
    refine ⟨h.serial, ?_⟩
    rw [UdpPc.index, unparsed_of_le (Nat.le_refl _)]
    exact hudp
  · rw [hpc] at hudp
    exact ⟨h.serial, hudp⟩
  · rw [hpc] at hudp
    exact ⟨h.serial, hudp⟩

/-- The invariant of a run with `debug` off and no failing receive. -/
structure Relaying (serialIn : List (Option UInt8)) (udpIn : List Received) (s : State σ μ) :
    Prop where
  loaded : Loaded s
  feeds : Feeds serialIn udpIn s

theorem relaying_initial (L : Library σ μ) (serialIn : List (Option UInt8))
    {udpIn : List Received} (hrecv : ∀ r ∈ udpIn, r ≠ .error) :
    Relaying serialIn udpIn (initial L serialIn udpIn) :=
  ⟨loaded_initial hrecv, feeds_initial⟩

theorem Relaying.step (h : Relaying serialIn udpIn s) (L : Library σ μ) (a : Actor) :
    ∃ s', Mavlink.step L false s a = .ok s' ∧ Relaying serialIn udpIn s' := by
  cases a with
  | serial => exact ⟨_, rfl, h.loaded.serialWait, h.feeds.serialWait⟩
  | udp =>
    obtain ⟨s', hs'⟩ := h.loaded.udpWait_ok L false
    exact ⟨s', hs', h.loaded.udpWait hs', h.feeds.udpWait h.loaded hs'⟩
  | driver k =>
    refine ⟨_, rfl, ?_, ?_⟩
    · exact ⟨h.loaded.buffer, h.loaded.udpIn⟩
    · exact ⟨h.feeds.serial, h.feeds.udp⟩

theorem relaying_run (L : Library σ μ) (serialIn : List (Option UInt8))
    {udpIn : List Received} (hrecv : ∀ r ∈ udpIn, r ≠ .error) (schedule : List Actor) :
    ∃ s, run L false (initial L serialIn udpIn) schedule = .ok s ∧ Relaying serialIn udpIn s :=
  run_total (fun _ a hs => hs.step L a) schedule (relaying_initial L serialIn hrecv)

/-! ## §4 Isolation -/

/-- Each thread has handed on, or has in hand, exactly what a parser of its own extracts from
the part of its own stream it has parsed. -/
structure Isolated (L : Library σ μ) (serialIn : List (Option UInt8)) (udpIn : List Received)
    (s : State σ μ) : Prop where
  feeds : Feeds serialIn udpIn s
  sent : s.sent ++ s.serialPc.inHand =
    L.parser.extract (Transducer.inputsOf Thread.serial s.calls)
  datagrams : s.datagrams = s.sent.map L.msgToSendBuffer
  written : s.written ++ s.udpPc.inHand =
    L.parser.extract (Transducer.inputsOf Thread.udp s.calls)

/-- **Isolation**: with `debug` off and no failing receive, no run faults, and a run in which
every change of threads between two calls of `mavlink_parse_char` finds the parser equivalent
to a fresh one keeps the two directions apart. -/
theorem relay_isolated (L : Library σ μ) (serialIn : List (Option UInt8))
    {udpIn : List Received} (hrecv : ∀ r ∈ udpIn, r ≠ .error) (schedule : List Actor) :
    ∃ s, run L false (initial L serialIn udpIn) schedule = .ok s ∧
      (L.parser.SwitchesFresh L.parser.fresh none s.calls →
        Isolated L serialIn udpIn s) := by
  obtain ⟨s, hrun, hs⟩ := relaying_run L serialIn hrecv schedule
  have hrelays := relays_run hrun
  refine ⟨s, hrun, fun hswitches => ⟨hs.feeds, ?_, hrelays.datagrams, ?_⟩⟩
  · -- what the shared parser gave a thread is what its own would have
    rw [hrelays.serial, Transducer.sideOutputs_eq hswitches]
  · rw [hrelays.udp, Transducer.sideOutputs_eq hswitches]

/-- Two whole heartbeats, one after the other. -/
theorem relay_isolated_heartbeats :
    ∃ s, heartbeatRun (heartbeatFrame 1) [.datagram (heartbeatFrame 255)]
        (List.replicate 17 .serial ++ List.replicate 19 .udp ++ [.driver 17, .serial, .udp]) =
          .ok s ∧
      Isolated (mavlinkV1 heartbeatExtra) ((heartbeatFrame 1).map some)
        [.datagram (heartbeatFrame 255)] s := by
  have hrecv : ∀ r ∈ [Received.datagram (heartbeatFrame 255)], r ≠ .error := by decide
  obtain ⟨s, hrun, h⟩ := relay_isolated (mavlinkV1 heartbeatExtra)
    ((heartbeatFrame 1).map some) hrecv
    (List.replicate 17 .serial ++ List.replicate 19 .udp ++ [.driver 17, .serial, .udp])
  have hcalls : (heartbeatRun (heartbeatFrame 1) [.datagram (heartbeatFrame 255)]
      (List.replicate 17 .serial ++ List.replicate 19 .udp ++
        [.driver 17, .serial, .udp])).map State.calls =
      .ok ([(Thread.serial, heartbeatFrame 1), (Thread.udp, heartbeatFrame 255)].flatMap
        fun b => b.2.map (b.1, ·)) := by
    decide +kernel
  rw [heartbeatRun, hrun] at hcalls
  -- the threads change between two whole frames
  have hswitches : (mavlinkV1 heartbeatExtra).parser.SwitchesFresh
      (mavlinkV1 heartbeatExtra).parser.fresh none s.calls := by
    rw [Except.ok.inj hcalls]
    refine Transducer.switchesFresh_blocks none ?_
    simp only [List.forall_mem_cons]
    exact ⟨(parse_sendBuffer heartbeatExtra (heartbeat 1)).1,
      (parse_sendBuffer heartbeatExtra (heartbeat 255)).1, by simp⟩
  exact ⟨s, hrun, h hswitches⟩

/-- A heartbeat from the serial line, with a datagram of one byte after its eighth: nothing
is sent, though a parser of its own extracts the heartbeat. -/
theorem relay_not_isolated :
    ∃ s, heartbeatRun (heartbeatFrame 1) [.datagram [0x41]]
        (List.replicate 8 .serial ++ [.udp, .udp] ++ List.replicate 9 .serial) = .ok s ∧
      s.serialIn = [] ∧ s.serialPc.inHand = [] ∧ s.sent = [] ∧
      Transducer.inputsOf Thread.serial s.calls = heartbeatFrame 1 ∧
      (mavlinkV1 heartbeatExtra).parser.extract (heartbeatFrame 1) = [heartbeat 1] := by
  -- the stray byte breaks the frame off, and its rest is skipped
  have hview : (heartbeatRun (heartbeatFrame 1) [.datagram [0x41]]
      (List.replicate 8 .serial ++ [.udp, .udp] ++ List.replicate 9 .serial)).map
        (fun s => (s.serialIn, s.serialPc, s.sent, Transducer.inputsOf Thread.serial s.calls)) =
      .ok ([], .read, [], heartbeatFrame 1) := by
    decide +kernel
  obtain ⟨s, hrun, hview⟩ := map_eq_ok_iff.mp hview
  simp only [Prod.mk.injEq] at hview
  obtain ⟨hin, hpc, hsent, hcalls⟩ := hview
  exact ⟨s, hrun, hin, by rw [hpc, SerialPc.inHand], hsent, hcalls,
    (parse_sendBuffer heartbeatExtra (heartbeat 1)).2⟩

end GumstixExtras.Mavlink
