import GumstixExtras.Lib.Buffer
import GumstixExtras.Lib.OutQueue
import GumstixExtras.Lib.Transducer
import Mathlib.Logic.Function.Basic

/-!
# The Relay of `mavlink_socket`

`serial_wait`, `udp_wait` and the driver of the serial port as one system of three actors.
A schedule is the list of actors in the order of their steps. The system calls take their
results from lists of what is to come; a call that finds its list empty blocks.

`mavlink.h` is generated and enters as a parameter: a parser whose state is kept per channel
number, and the frame of a message. The traces under `debug` are left out, but for the dump
loop of `udp_wait`, which shares the loop counter.
-/

namespace GumstixExtras.Mavlink

open GumstixExtras.Lib

/-! ## §1 The generated headers -/

/-- `MAVLINK_MAX_PACKET_LEN`: 255 bytes of payload and 8 around it. -/
def mavlinkMaxPacketLen : ℕ := 263

/-- `MAVLINK_COMM_1` -/
def mavlinkComm1 : ℕ := 1

/-- What the relay uses of `mavlink.h`: the automaton of one channel, one
`mavlink_parse_char` a step, and what `mavlink_msg_to_send_buffer` puts into the buffer. -/
structure Library (σ μ : Type) where
  parser : Transducer σ UInt8 μ
  msgToSendBuffer : μ → List UInt8

/-! ## §2 The state -/

/-- The two threads. -/
inductive Thread
  | serial
  | udp
  deriving DecidableEq, Repr

/-- Whose step it is. The driver moves up to `k` bytes to the line. -/
inductive Actor
  | serial
  | udp
  | driver (k : ℕ)
  deriving DecidableEq, Repr

/-- What `recv` comes back with. -/
inductive Received
  | error
  | datagram (payload : List UInt8)
  deriving DecidableEq, Repr

/-- What `recv` stores in `udp_buffer`: the rest of a longer datagram is dropped. -/
def Received.stored : Received → List UInt8
  | .error => []
  | .datagram payload => payload.take mavlinkMaxPacketLen

/-- The result of `recv`, which is `-1` on an error, as the `unsigned int recvLen` takes it. -/
def Received.recvLen : Received → ℕ
  | .error => 0xffffffff
  | .datagram payload => (payload.take mavlinkMaxPacketLen).length

/-- Where `serial_wait` is: before the `read`, or with a decoded message before the
`sendto`. -/
inductive SerialPc (μ : Type)
  | read
  | forward (message : μ)
  deriving DecidableEq, Repr

/-- Where `udp_wait` is: before the `recv`, before the test of the loop, with a decoded
message before the `write`, or before the `tcflush`. -/
inductive UdpPc (μ : Type)
  | recv
  | loop (i : ℕ)
  | relay (message : μ) (i : ℕ)
  | flush (i : ℕ)
  deriving DecidableEq, Repr

/-- The state of the system. `calls`, `sent` and `written` are the history: the calls of
`mavlink_parse_char`, and the messages behind the datagrams and behind the writes. -/
structure State (σ μ : Type) where
  channels : ℕ → σ
  serialPc : SerialPc μ
  udpPc : UdpPc μ
  udpBuffer : Buffer UInt8 mavlinkMaxPacketLen
  recvLen : ℕ
  serialIn : List (Option UInt8)
  udpIn : List Received
  datagrams : List (List UInt8)
  tty : OutQueue UInt8
  calls : List (Thread × UInt8)
  sent : List μ
  written : List μ

variable {σ μ : Type}

/-- Both threads at the top of their loops, nothing parsed and nothing written. A read of
`serialIn` that is `none` is one that gives no byte. -/
def initial (L : Library σ μ) (serialIn : List (Option UInt8)) (udpIn : List Received) :
    State σ μ where
  channels := fun _ => L.parser.fresh
  serialPc := .read
  udpPc := .recv
  udpBuffer := Buffer.uninit mavlinkMaxPacketLen
  recvLen := 0
  serialIn := serialIn
  udpIn := udpIn
  datagrams := []
  tty := OutQueue.empty
  calls := []
  sent := []
  written := []

/-! ## §3 Steps -/

/-- `mavlink_parse_char` on a channel, called by `who`: the state it leaves. -/
def mavlinkParseChar (L : Library σ μ) (who : Thread) (chan : ℕ) (c : UInt8)
    (s : State σ μ) : State σ μ :=
  { s with
    channels := Function.update s.channels chan (L.parser.next (s.channels chan) c)
    calls := s.calls ++ [(who, c)] }

/-- `mavlink_parse_char` on a channel: the message, if the character completes one. -/
def msgReceived (L : Library σ μ) (chan : ℕ) (c : UInt8) (s : State σ μ) : Option μ :=
  (L.parser.step (s.channels chan) c).2

/-- A step of `serial_wait`. -/
def serialWait (L : Library σ μ) (s : State σ μ) : State σ μ :=
  match s.serialPc with
  | .read =>
    match s.serialIn with
    -- `read` blocks
    | [] => s
    | none :: serialIn => { s with serialIn := serialIn }
    -- the byte and the call: nothing else touches what lies between them
    | some cp :: serialIn =>
      { mavlinkParseChar L .serial mavlinkComm1 cp s with
        serialIn := serialIn
        serialPc := match msgReceived L mavlinkComm1 cp s with
          | none => .read
          | some message => .forward message }
  | .forward message =>
    { s with
      datagrams := s.datagrams ++ [L.msgToSendBuffer message]
      sent := s.sent ++ [message]
      serialPc := .read }

/-- The loop counter after the dump under `debug`. -/
def dump (debug : Bool) (messageLength i : ℕ) : ℕ :=
  if debug ∧ messageLength ≤ mavlinkMaxPacketLen then messageLength else i

/-- A step of `udp_wait`. -/
def udpWait (L : Library σ μ) (debug : Bool) (s : State σ μ) : Except Fault (State σ μ) :=
  match s.udpPc with
  | .recv =>
    match s.udpIn with
    -- `recv` blocks
    | [] => .ok s
    | r :: udpIn => do
      -- an error leaves the buffer as the last datagram left it
      let udpBuffer ← s.udpBuffer.write 0 r.stored
      pure { s with
        udpBuffer := udpBuffer
        recvLen := r.recvLen
        udpIn := udpIn
        udpPc := if 0 < r.recvLen then .loop 0 else .recv }
  | .loop i =>
    if i < s.recvLen then do
      let c ← s.udpBuffer.load i
      pure { mavlinkParseChar L .udp mavlinkComm1 c s with
        udpPc := match msgReceived L mavlinkComm1 c s with
          | none => .loop (i + 1)
          | some message => .relay message i }
    else
      .ok { s with udpPc := .recv }
  | .relay message i =>
    let buffer := L.msgToSendBuffer message
    .ok { s with
      tty := s.tty.write buffer
      written := s.written ++ [message]
      -- the dump runs before the `write`, with the counter of the loop
      udpPc := .flush (dump debug buffer.length i) }
  | .flush i => .ok { s with tty := s.tty.flush, udpPc := .loop (i + 1) }

/-- A step of the system. -/
def step (L : Library σ μ) (debug : Bool) (s : State σ μ) : Actor → Except Fault (State σ μ)
  | .serial => .ok (serialWait L s)
  | .udp => udpWait L debug s
  | .driver k => .ok { s with tty := s.tty.drain k }

/-- The system under a schedule. -/
def run (L : Library σ μ) (debug : Bool) (s : State σ μ) : List Actor → Except Fault (State σ μ)
  | [] => .ok s
  | a :: schedule => do
    let s ← step L debug s a
    run L debug s schedule

/-! ## §4 What a step does -/

section Steps

variable {L : Library σ μ} {debug : Bool} {s s' : State σ μ}

/-- Everything `serial_wait` can do in a step. -/
theorem serialWait_cases (L : Library σ μ) (s : State σ μ) :
    (s.serialPc = .read ∧ s.serialIn = [] ∧ serialWait L s = s) ∨
    (∃ serialIn, s.serialPc = .read ∧ s.serialIn = none :: serialIn ∧
      serialWait L s = { s with serialIn := serialIn }) ∨
    (∃ cp serialIn, s.serialPc = .read ∧ s.serialIn = some cp :: serialIn ∧
      serialWait L s = { mavlinkParseChar L .serial mavlinkComm1 cp s with
        serialIn := serialIn
        serialPc := (msgReceived L mavlinkComm1 cp s).elim .read .forward }) ∨
    (∃ message, s.serialPc = .forward message ∧
      serialWait L s = { s with
        datagrams := s.datagrams ++ [L.msgToSendBuffer message]
        sent := s.sent ++ [message]
        serialPc := .read }) := by
  -- a step is decided by where the thread is and what there is to read
  cases hpc : s.serialPc with
  | read =>
    cases hin : s.serialIn with
    | nil => exact .inl ⟨rfl, rfl, by simp only [serialWait, hpc, hin]⟩
    | cons r serialIn =>
      cases r with
      | none => exact .inr (.inl ⟨serialIn, rfl, rfl, by simp only [serialWait, hpc, hin]⟩)
      | some cp =>
        refine .inr (.inr (.inl ⟨cp, serialIn, rfl, rfl, ?_⟩))
        simp only [serialWait, hpc, hin]
        cases msgReceived L mavlinkComm1 cp s <;> rfl
  | forward message => exact .inr (.inr (.inr ⟨message, rfl, by simp only [serialWait, hpc]⟩))

/-- Everything `udp_wait` can do in a step that does not fault. -/
theorem udpWait_cases (h : udpWait L debug s = .ok s') :
    (s.udpPc = .recv ∧ s.udpIn = [] ∧ s' = s) ∨
    (∃ r udpIn udpBuffer, s.udpPc = .recv ∧ s.udpIn = r :: udpIn ∧
      s.udpBuffer.write 0 r.stored = .ok udpBuffer ∧
      s' = { s with
        udpBuffer := udpBuffer
        recvLen := r.recvLen
        udpIn := udpIn
        udpPc := if 0 < r.recvLen then .loop 0 else .recv }) ∨
    (∃ i c, s.udpPc = .loop i ∧ i < s.recvLen ∧ s.udpBuffer.load i = .ok c ∧
      s' = { mavlinkParseChar L .udp mavlinkComm1 c s with
        udpPc := (msgReceived L mavlinkComm1 c s).elim (.loop (i + 1)) (.relay · i) }) ∨
    (∃ i, s.udpPc = .loop i ∧ s.recvLen ≤ i ∧ s' = { s with udpPc := .recv }) ∨
    (∃ message i, s.udpPc = .relay message i ∧
      s' = { s with
        tty := s.tty.write (L.msgToSendBuffer message)
        written := s.written ++ [message]
        udpPc := .flush (dump debug (L.msgToSendBuffer message).length i) }) ∨
    (∃ i, s.udpPc = .flush i ∧
      s' = { s with tty := s.tty.flush, udpPc := .loop (i + 1) }) := by
  cases hpc : s.udpPc with
  | recv =>
    -- before a `recv`: blocked, or a datagram is stored
    cases hin : s.udpIn with
    | nil =>
      simp only [udpWait, hpc, hin, Except.ok.injEq] at h
      exact .inl ⟨rfl, rfl, h.symm⟩
    | cons r udpIn =>
      simp only [udpWait, hpc, hin, pure_eq_ok, bind_eq_ok_iff, Except.ok.injEq] at h
      obtain ⟨udpBuffer, hwrite, rfl⟩ := h
      exact .inr (.inl ⟨r, udpIn, udpBuffer, rfl, rfl, hwrite, rfl⟩)
  | loop i =>
    -- before the test of the loop: a byte is parsed, or the loop is over
    by_cases hi : i < s.recvLen
    · simp only [udpWait, hpc, if_pos hi, pure_eq_ok, bind_eq_ok_iff, Except.ok.injEq] at h
      obtain ⟨c, hload, rfl⟩ := h
      refine .inr (.inr (.inl ⟨i, c, rfl, hi, hload, ?_⟩))
      cases msgReceived L mavlinkComm1 c s <;> rfl
    · simp only [udpWait, hpc, if_neg hi, Except.ok.injEq] at h
      exact .inr (.inr (.inr (.inl ⟨i, rfl, Nat.le_of_not_lt hi, h.symm⟩)))
  | relay message i =>
    simp only [udpWait, hpc, Except.ok.injEq] at h
    exact .inr (.inr (.inr (.inr (.inl ⟨message, i, rfl, h.symm⟩))))
  | flush i =>
    simp only [udpWait, hpc, Except.ok.injEq] at h
    exact .inr (.inr (.inr (.inr (.inr ⟨i, rfl, h.symm⟩))))

/-- What every step preserves holds at the end of a run. -/
theorem run_invariant {P : State σ μ → Prop}
    (hstep : ∀ s a s', P s → step L debug s a = .ok s' → P s') {schedule : List Actor}
    (hs : P s) (h : run L debug s schedule = .ok s') : P s' := by
  induction schedule generalizing s with
  | nil =>
    cases h
    exact hs
  | cons a schedule ih =>
    rw [run, bind_eq_ok_iff] at h
    obtain ⟨t, ht, h⟩ := h
    exact ih (hstep s a t hs ht) h

/-- Where no step from a good state faults, no run does. -/
theorem run_total {P : State σ μ → Prop}
    (hstep : ∀ s a, P s → ∃ s', step L debug s a = .ok s' ∧ P s') (schedule : List Actor)
    (hs : P s) : ∃ s', run L debug s schedule = .ok s' ∧ P s' := by
  induction schedule generalizing s with
  | nil => exact ⟨s, rfl, hs⟩
  | cons a schedule ih =>
    obtain ⟨t, ht, hgood⟩ := hstep s a hs
    obtain ⟨s', hrun, hs'⟩ := ih hgood
    exact ⟨s', by rw [run, ht, ok_bind, hrun], hs'⟩

end Steps

end GumstixExtras.Mavlink
