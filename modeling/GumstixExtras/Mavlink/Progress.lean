import GumstixExtras.Lib.Progress
import GumstixExtras.Mavlink.Isolation

/-!
# Progress of the Relay

How much each thread has left to do, and what the system has done when neither has anything
left: with enough steps of each thread, in any order and with the driver in between, every byte
of both streams has been parsed once and every message has been handed on once
(`relay_complete`).
-/

namespace GumstixExtras.Mavlink

open GumstixExtras.Lib

variable {σ μ : Type} {L : Library σ μ} {debug : Bool} {s s' : State σ μ}
  {serialIn : List (Option UInt8)} {udpIn : List Received} {schedule : List Actor}

/-! ## §1 Ranks -/

/-- The steps `serial_wait` takes for a list of reads: each may complete a message. -/
def serialWork (serialIn : List (Option UInt8)) : ℕ := 2 * serialIn.length

/-- The steps `udp_wait` takes for a datagram: the `recv`, up to three for each byte, and the
test that ends the loop. -/
def Received.work (r : Received) : ℕ := 3 * r.stored.length + 2

/-- The steps it takes for a list of receives. -/
def udpWork : List Received → ℕ
  | [] => 0
  | r :: udpIn => r.work + udpWork udpIn

/-- The steps it takes for what is left of a datagram. -/
def UdpPc.work (recvLen : ℕ) : UdpPc μ → ℕ
  | .recv => 0
  | .loop i => 3 * (recvLen - i) + 1
  | .relay _ i => 3 * (recvLen - (i + 1)) + 3
  | .flush i => 3 * (recvLen - (i + 1)) + 2

/-- What `serial_wait` has left to do. -/
def serialRank (s : State σ μ) : ℕ := serialWork s.serialIn + s.serialPc.inHand.length

/-- What `udp_wait` has left to do. -/
def udpRank (s : State σ μ) : ℕ := udpWork s.udpIn + s.udpPc.work s.recvLen

theorem serialRank_serialWait (L : Library σ μ) (s : State σ μ) :
    serialRank (serialWait L s) ≤ serialRank s - 1 := by
  rcases serialWait_cases L s with ⟨hpc, hin, hs⟩ | ⟨serialIn, hpc, hin, hs⟩ |
    ⟨cp, serialIn, hpc, hin, hs⟩ | ⟨message, hpc, hs⟩
  · -- blocked: nothing is left
    rw [hs, serialRank, hpc, hin]
    exact Nat.le_refl 0
  · rw [hs]
    simp only [serialRank, serialWork, hpc, hin, List.length_cons]
    omega
  · -- a byte is two steps of work, of which the message it may complete is one
    have hone : ((msgReceived L mavlinkComm1 cp s).elim .read .forward :
        SerialPc μ).inHand.length ≤ 1 := by
      cases msgReceived L mavlinkComm1 cp s with
      | none => exact Nat.zero_le 1
      | some message => exact Nat.le_refl 1
    rw [hs]
    simp only [serialRank, serialWork, hin, List.length_cons]
    omega
  · rw [hs]
    simp [serialRank, hpc, SerialPc.inHand]

theorem serialRank_udpWait (h : udpWait L debug s = .ok s') : serialRank s' = serialRank s := by
  rcases udpWait_cases h with ⟨_, _, rfl⟩ | ⟨r, udpIn, udpBuffer, _, _, _, rfl⟩ |
    ⟨i, c, _, _, _, rfl⟩ | ⟨i, _, _, rfl⟩ | ⟨message, i, _, rfl⟩ | ⟨i, _, rfl⟩ <;> rfl

theorem udpRank_serialWait (L : Library σ μ) (s : State σ μ) :
    udpRank (serialWait L s) = udpRank s := by
  rcases serialWait_cases L s with ⟨_, _, hs⟩ | ⟨serialIn, _, _, hs⟩ |
    ⟨cp, serialIn, _, _, hs⟩ | ⟨message, _, hs⟩ <;> rw [hs] <;> rfl

theorem udpRank_udpWait (hloaded : Loaded s) (h : udpWait L false s = .ok s') :
    udpRank s' ≤ udpRank s - 1 := by
  rcases udpWait_cases h with ⟨hpc, hin, rfl⟩ | ⟨r, udpIn, udpBuffer, hpc, hin, hwrite, rfl⟩ |
    ⟨i, c, hpc, hi, _, rfl⟩ | ⟨i, hpc, hi, rfl⟩ | ⟨message, i, hpc, rfl⟩ | ⟨i, hpc, rfl⟩
  · rw [udpRank, hpc, hin]
    exact Nat.le_refl 0
  · -- a datagram: its own work pays for its loop
    have hlen := (hloaded.write hin hwrite).2
    have hloop : (if 0 < r.recvLen then .loop 0 else .recv : UdpPc μ).work r.recvLen ≤
        3 * r.stored.length + 1 := by
      rw [← hlen]
      split
      · exact Nat.le_refl _
      · exact Nat.zero_le _
    simp only [udpRank, udpWork, hpc, hin, Received.work, UdpPc.work] at hloop ⊢
    omega
  · -- a byte is three: its parsing, the `write` and the `tcflush`
    have hnext : ((msgReceived L mavlinkComm1 c s).elim (.loop (i + 1)) (.relay · i) :
        UdpPc μ).work s.recvLen ≤ 3 * (s.recvLen - (i + 1)) + 3 := by
      cases msgReceived L mavlinkComm1 c s with
      | none => exact Nat.add_le_add_left (by decide) _
      | some message => exact Nat.le_refl _
    simp only [udpRank, mavlinkParseChar, hpc, UdpPc.work] at hnext ⊢
    omega
  · simp only [udpRank, hpc, UdpPc.work]
    omega
  · simp only [udpRank, hpc, UdpPc.work, dump, Bool.false_eq_true, false_and, if_false]
    omega
  · simp only [udpRank, hpc, UdpPc.work]
    omega

/-! ## §2 Enough steps -/

theorem run_eq_foldlM (L : Library σ μ) (debug : Bool) (s : State σ μ) (schedule : List Actor) :
    run L debug s schedule = schedule.foldlM (step L debug) s := by
  induction schedule generalizing s with
  | nil => rfl
  | cons a schedule ih =>
    rw [run, List.foldlM_cons]
    exact congrArg (step L debug s a >>= ·) (funext ih)

theorem Relaying.keeps (hs : Relaying serialIn udpIn s) (a : Actor)
    (h : Mavlink.step L false s a = .ok s') : Relaying serialIn udpIn s' := by
  obtain ⟨t, ht, hgood⟩ := hs.step L a
  obtain rfl := Except.ok.inj (ht.symm.trans h)
  exact hgood

/-- The rank of `serial_wait` goes down with its own steps only. -/
theorem ranks_serial (L : Library σ μ) (serialIn : List (Option UInt8)) (udpIn : List Received) :
    Ranks (step L false) (Relaying serialIn udpIn) (· == .serial) serialRank where
  keeps _ a _ hs h := hs.keeps a h
  own s a s' _ h hmine := by
    obtain rfl := eq_of_beq hmine
    cases h
    exact serialRank_serialWait L s
  other s a s' _ h hmine := by
    cases a with
    | serial => exact absurd hmine (by decide)
    | udp => exact Nat.le_of_eq (serialRank_udpWait h)
    | driver k =>
      cases h
      exact Nat.le_refl _

/-- The rank of `udp_wait` goes down with its own steps only. -/
theorem ranks_udp (L : Library σ μ) (serialIn : List (Option UInt8)) (udpIn : List Received) :
    Ranks (step L false) (Relaying serialIn udpIn) (· == .udp) udpRank where
  keeps _ a _ hs h := hs.keeps a h
  own s a s' hs h hmine := by
    obtain rfl := eq_of_beq hmine
    exact udpRank_udpWait hs.loaded h
  other s a s' _ h hmine := by
    cases a with
    | serial =>
      cases h
      exact Nat.le_of_eq (udpRank_serialWait L s)
    | udp => exact absurd hmine (by decide)
    | driver k =>
      cases h
      exact Nat.le_refl _

/-- With nothing left to do `serial_wait` is before a `read` that has nothing to read. -/
theorem serialRank_eq_zero (h : serialRank s = 0) : s.serialPc = .read ∧ s.serialIn = [] := by
  obtain ⟨hin, hpc⟩ := Nat.add_eq_zero_iff.mp h
  refine ⟨?_, List.length_eq_zero_iff.mp (by unfold serialWork at hin; omega)⟩
  -- a message in hand would be work left
  cases hread : s.serialPc with
  | read => rfl
  | forward message =>
    rw [hread] at hpc
    cases hpc

/-- With nothing left to do `udp_wait` is before a `recv` that has nothing to receive. -/
theorem udpRank_eq_zero (h : udpRank s = 0) : s.udpPc = .recv ∧ s.udpIn = [] := by
  obtain ⟨hin, hpc⟩ := Nat.add_eq_zero_iff.mp h
  constructor
  · -- inside the loop there is at least its last test to make
    cases hrecv : s.udpPc with
    | recv => rfl
    | loop i =>
      rw [hrecv] at hpc
      cases hpc
    | relay message i =>
      rw [hrecv] at hpc
      cases hpc
    | flush i =>
      rw [hrecv] at hpc
      cases hpc
  · -- a datagram to come is work, even an empty one
    cases hnil : s.udpIn with
    | nil => rfl
    | cons r udpIn =>
      rw [hnil, udpWork, Received.work] at hin
      omega

/-- The messages of the two sides are those of the parser they share. -/
theorem sideOutputs_perm (T : Transducer σ UInt8 μ) (t : σ) (calls : List (Thread × UInt8)) :
    (T.sideOutputs Thread.serial t calls ++ T.sideOutputs Thread.udp t calls).Perm
      (T.outputs t (calls.map Prod.snd)) := by
  induction calls generalizing t with
  | nil => exact .nil
  | cons call calls ih =>
    obtain ⟨who, c⟩ := call
    have hrest := ih (T.next t c)
    cases who with
    | serial =>
      -- the message is the first on its own side
      show ((T.emit t c ++ T.sideOutputs Thread.serial (T.next t c) calls) ++
        T.sideOutputs Thread.udp (T.next t c) calls).Perm _
      rw [List.append_assoc]
      exact hrest.append_left _
    | udp =>
      show (T.sideOutputs Thread.serial (T.next t c) calls ++
        (T.emit t c ++ T.sideOutputs Thread.udp (T.next t c) calls)).Perm _
      -- it has to pass those of the other side
      refine List.Perm.trans ?_ (hrest.append_left (T.emit t c))
      rw [← List.append_assoc, ← List.append_assoc]
      exact List.perm_append_comm.append_right _

/-- Both threads wait for input of which there is none left; each has parsed its stream to its
end, and the messages that were sent and written are, each once, those of the parser they
share. -/
structure Complete (L : Library σ μ) (serialIn : List (Option UInt8)) (udpIn : List Received)
    (s : State σ μ) : Prop where
  serialBlocked : s.serialPc = .read ∧ s.serialIn = []
  udpBlocked : s.udpPc = .recv ∧ s.udpIn = []
  serialParsed : Transducer.inputsOf Thread.serial s.calls = readBytes serialIn
  udpParsed : Transducer.inputsOf Thread.udp s.calls = receivedBytes udpIn
  messages : (s.sent ++ s.written).Perm (L.parser.extract (s.calls.map Prod.snd))
  datagrams : s.datagrams = s.sent.map L.msgToSendBuffer
  -- and those of a parser of its own, when changes of threads find the parser as good as fresh
  isolated : L.parser.SwitchesFresh L.parser.fresh none s.calls →
    s.sent = L.parser.extract (readBytes serialIn) ∧
      s.written = L.parser.extract (receivedBytes udpIn)

/-- **Completeness of the relay**: with `debug` off and no failing receive, any schedule with
enough steps of each thread, in any order, parses every byte of both streams and hands on every
message, none of them twice. -/
theorem relay_complete (L : Library σ μ) (serialIn : List (Option UInt8)) {udpIn : List Received}
    (hrecv : ∀ r ∈ udpIn, r ≠ .error)
    (hserial : serialWork serialIn ≤ schedule.countP (· == .serial))
    (hudp : udpWork udpIn ≤ schedule.countP (· == .udp)) :
    ∃ s, run L false (initial L serialIn udpIn) schedule = .ok s ∧
      Complete L serialIn udpIn s := by
  obtain ⟨s, hrun, hs⟩ := relaying_run L serialIn hrecv schedule
  have hrelays := relays_run hrun
  have hinitial := relaying_initial L serialIn hrecv
  have hfold : schedule.foldlM (step L false) (initial L serialIn udpIn) = .ok s :=
    (run_eq_foldlM L false _ schedule).symm.trans hrun
  obtain ⟨hread, hserialIn⟩ := serialRank_eq_zero
    ((ranks_serial L serialIn udpIn).run hinitial hfold hserial)
  obtain ⟨hrecvPc, hudpIn⟩ := udpRank_eq_zero ((ranks_udp L serialIn udpIn).run hinitial hfold hudp)
  -- nothing is to come and nothing is in hand
  have hparsed : Transducer.inputsOf Thread.serial s.calls = readBytes serialIn := by
    have hfeeds := hs.feeds.serial
    rwa [hserialIn, readBytes, List.reduceOption_nil, List.append_nil] at hfeeds
  have hreceived : Transducer.inputsOf Thread.udp s.calls = receivedBytes udpIn := by
    have hfeeds := hs.feeds.udp
    rwa [hrecvPc, hudpIn, UdpPc.index, unparsed_of_le (Nat.le_refl _), receivedBytes,
      List.flatMap_nil, List.append_nil, List.append_nil] at hfeeds
  have hsent : s.sent = L.parser.sideOutputs Thread.serial L.parser.fresh s.calls := by
    rw [← hrelays.serial, hread, SerialPc.inHand, List.append_nil]
  have hwritten : s.written = L.parser.sideOutputs Thread.udp L.parser.fresh s.calls := by
    rw [← hrelays.udp, hrecvPc, UdpPc.inHand, List.append_nil]
  refine ⟨s, hrun, ⟨hread, hserialIn⟩, ⟨hrecvPc, hudpIn⟩, hparsed, hreceived, ?_,
    hrelays.datagrams, ?_⟩
  · rw [hsent, hwritten]
    -- every message the parser completed went to one of the two sides
    exact sideOutputs_perm L.parser L.parser.fresh s.calls
  · intro hswitches
    rw [hsent, hwritten, Transducer.sideOutputs_eq hswitches, Transducer.sideOutputs_eq hswitches,
      hparsed, hreceived]
    exact ⟨rfl, rfl⟩

/-- The datagram is received first, and its first byte is parsed while the message from the
serial line is in hand. -/
def crossing : List Actor :=
  [.udp] ++ List.replicate 17 .serial ++ [.udp, .driver 5, .serial] ++
    List.replicate 51 .udp ++ [.driver 17] ++ List.replicate 16 .serial

/-- A heartbeat each way. -/
theorem relay_complete_interleaved :
    ∃ s, heartbeatRun (heartbeatFrame 1) [.datagram (heartbeatFrame 255)] crossing = .ok s ∧
      Complete (mavlinkV1 heartbeatExtra) ((heartbeatFrame 1).map some)
        [.datagram (heartbeatFrame 255)] s ∧
      s.sent = [heartbeat 1] ∧ s.written = [heartbeat 255] := by
  have hcomplete : ∃ s,
      heartbeatRun (heartbeatFrame 1) [.datagram (heartbeatFrame 255)] crossing = .ok s ∧
        Complete (mavlinkV1 heartbeatExtra) ((heartbeatFrame 1).map some)
          [.datagram (heartbeatFrame 255)] s :=
    relay_complete _ _ (by decide) (by decide) (by decide)
  obtain ⟨s, hrun, hs⟩ := hcomplete
  -- the messages themselves, from the run
  have hview : (heartbeatRun (heartbeatFrame 1) [.datagram (heartbeatFrame 255)] crossing).map
      (fun s => (s.sent, s.written)) = .ok ([heartbeat 1], [heartbeat 255]) := by
    decide +kernel
  rw [hrun] at hview
  exact ⟨s, hrun, hs, Prod.mk.inj (Except.ok.inj hview)⟩

end GumstixExtras.Mavlink
