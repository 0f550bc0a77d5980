import GumstixExtras.Mavlink.Frame

/-!
# The Serial Line

What `udp_wait` writes goes into the output queue of the serial port, and the `tcflush` behind
each `write` throws away what the driver has not moved yet. A run of the relay is a run of
operations on the queue, so a frame reaches the line whole exactly when the driver is through
with it before the `tcflush`.
-/

namespace GumstixExtras.Mavlink

open GumstixExtras.Lib

variable {σ μ : Type} {L : Library σ μ} {debug : Bool} {s s' : State σ μ}

/-! ## §1 Operations on the queue -/

/-- The frames of the messages written so far. -/
def State.writtenFrames (L : Library σ μ) (s : State σ μ) : List UInt8 :=
  s.written.flatMap L.msgToSendBuffer

/-- What a step does to the queue. -/
def ttyOps (L : Library σ μ) (s : State σ μ) : Actor → List (OutQueue.Op UInt8)
  | .serial => []
  | .udp =>
    match s.udpPc with
    | .recv => []
    | .loop _ => []
    | .relay message _ => [.write (L.msgToSendBuffer message)]
    | .flush _ => [.flush]
  | .driver k => [.drain k]

/-- What a schedule does to the queue, as far as it does not fault. -/
def ttyTrace (L : Library σ μ) (debug : Bool) (s : State σ μ) :
    List Actor → List (OutQueue.Op UInt8)
  | [] => []
  | a :: schedule =>
    match step L debug s a with
    | .error _ => []
    | .ok s' => ttyOps L s a ++ ttyTrace L debug s' schedule

theorem step_tty {a : Actor} (h : step L debug s a = .ok s') :
    s'.tty = s.tty.run (ttyOps L s a) ∧
      s'.writtenFrames L =
        s.writtenFrames L ++ (ttyOps L s a).flatMap OutQueue.Op.written := by
  cases a with
  | serial =>
    cases h
    -- `serial_wait` writes to the socket only
    obtain ⟨-, -, hs⟩ | ⟨_, -, -, hs⟩ | ⟨_, _, -, -, hs⟩ | ⟨_, -, hs⟩ := serialWait_cases L s <;>
      rw [hs] <;> exact ⟨rfl, (List.append_nil _).symm⟩
  | driver k =>
    cases h
    exact ⟨rfl, (List.append_nil _).symm⟩
  | udp =>
    obtain ⟨hpc, -, rfl⟩ | ⟨_, _, _, hpc, -, -, rfl⟩ | ⟨_, _, hpc, -, -, rfl⟩ |
      ⟨_, hpc, -, rfl⟩ | ⟨message, i, hpc, rfl⟩ | ⟨i, hpc, rfl⟩ := udpWait_cases h <;>
      simp only [ttyOps, hpc]
    · exact ⟨rfl, (List.append_nil _).symm⟩
    · exact ⟨rfl, (List.append_nil _).symm⟩
    · exact ⟨rfl, (List.append_nil _).symm⟩
    · exact ⟨rfl, (List.append_nil _).symm⟩
    · -- the `write` of a relayed frame, which is all the thread writes
      refine ⟨rfl, ?_⟩
      simp [State.writtenFrames, OutQueue.Op.written]
    · exact ⟨rfl, (List.append_nil _).symm⟩

/-- A run of the relay, seen from the serial port. -/
theorem run_tty {schedule : List Actor} (h : run L debug s schedule = .ok s') :
    s'.tty = s.tty.run (ttyTrace L debug s schedule) ∧
      s'.writtenFrames L =
        s.writtenFrames L ++ (ttyTrace L debug s schedule).flatMap OutQueue.Op.written := by
  induction schedule generalizing s with
  | nil =>
    cases h
    exact ⟨rfl, (List.append_nil _).symm⟩
  | cons a schedule ih =>
    rw [run, bind_eq_ok_iff] at h
    obtain ⟨t, ht, h⟩ := h
    obtain ⟨htty, hwritten⟩ := step_tty ht
    obtain ⟨htty', hwritten'⟩ := ih h
    simp only [ttyTrace, ht]
    refine ⟨?_, ?_⟩
    · rw [htty', htty, OutQueue.run_append]
    · rw [hwritten', hwritten, List.flatMap_append, List.append_assoc]

/-! ## §2 Losslessness -/

/-- Every `tcflush` of a schedule finds the FIFO empty. -/
def FlushesDrained (L : Library σ μ) (debug : Bool) (s : State σ μ) : List Actor → Prop
  | [] => True
  | a :: schedule =>
    (a = .udp → ∀ i, s.udpPc = .flush i → s.tty.fifo = []) ∧
      ∀ s', step L debug s a = .ok s' → FlushesDrained L debug s' schedule

/-- The operations of a step lose nothing unless it is a `tcflush` of a FIFO in use. -/
theorem drained_ttyOps (a : Actor) :
    s.tty.Drained (ttyOps L s a) ↔ (a = .udp → ∀ i, s.udpPc = .flush i → s.tty.fifo = []) := by
  cases a with
  | serial => simp [ttyOps, OutQueue.Drained]
  | driver k => simp [ttyOps, OutQueue.Drained, OutQueue.lost]
  | udp =>
    cases hpc : s.udpPc <;> simp [ttyOps, hpc, OutQueue.Drained, OutQueue.lost]

theorem drained_ttyTrace {schedule : List Actor} (h : run L debug s schedule = .ok s') :
    s.tty.Drained (ttyTrace L debug s schedule) ↔ FlushesDrained L debug s schedule := by
  induction schedule generalizing s with
  | nil => exact Iff.rfl
  | cons a schedule ih =>
    rw [run, bind_eq_ok_iff] at h
    obtain ⟨t, ht, h⟩ := h
    simp only [ttyTrace, FlushesDrained, ht, Except.ok.injEq, forall_eq']
    rw [OutQueue.drained_append, drained_ttyOps, ← (step_tty ht).1, ih h]

/-- **Losslessness**: what is on the line, with what still waits behind it, is the frames of
the messages written, in order, exactly when every `tcflush` of the run has found the FIFO
empty. -/
theorem serial_line_lossless_iff {serialIn : List (Option UInt8)} {udpIn : List Received}
    {schedule : List Actor} (h : run L debug (initial L serialIn udpIn) schedule = .ok s) :
    s.tty.line ++ s.tty.fifo = s.writtenFrames L ↔
      FlushesDrained L debug (initial L serialIn udpIn) schedule := by
  obtain ⟨htty, hwritten⟩ := run_tty h
  -- the queue of the run is the run of the queue
  rw [← drained_ttyTrace h, ← OutQueue.accepted_run_iff, ← htty, hwritten]
  rfl

/-- A heartbeat of the ground station that the driver moves in two portions. -/
theorem serial_line_lossless_heartbeat :
    ∃ s, heartbeatRun [] [.datagram (heartbeatFrame 255)]
        (List.replicate 19 .udp ++ [.driver 10, .driver 10, .udp]) = .ok s ∧
      s.tty.line ++ s.tty.fifo = heartbeatFrame 255 ∧
      FlushesDrained (mavlinkV1 heartbeatExtra) false
        (initial (mavlinkV1 heartbeatExtra) [] [.datagram (heartbeatFrame 255)])
        (List.replicate 19 .udp ++ [.driver 10, .driver 10, .udp]) := by
  have hview : (heartbeatRun [] [.datagram (heartbeatFrame 255)]
      (List.replicate 19 .udp ++ [.driver 10, .driver 10, .udp])).map
        (fun s => (s.tty.line ++ s.tty.fifo, s.writtenFrames (mavlinkV1 heartbeatExtra))) =
      .ok (heartbeatFrame 255, heartbeatFrame 255) := by
    decide +kernel
  obtain ⟨s, hrun, hview⟩ := map_eq_ok_iff.mp hview
  obtain ⟨hline, hframes⟩ := Prod.mk.inj hview
  exact ⟨s, hrun, hline, (serial_line_lossless_iff hrun).mp (hline.trans hframes.symm)⟩

/-- A heartbeat of the ground station that the driver has not begun to move when the
`tcflush` comes. -/
theorem serial_line_loses_heartbeat :
    ∃ s, heartbeatRun [] [.datagram (heartbeatFrame 255)] (List.replicate 20 .udp) = .ok s ∧
      s.written = [heartbeat 255] ∧ s.tty.line ++ s.tty.fifo = [] ∧
      s.tty.line ++ s.tty.fifo ≠ s.writtenFrames (mavlinkV1 heartbeatExtra) := by
  have hview : (heartbeatRun [] [.datagram (heartbeatFrame 255)]
      (List.replicate 20 .udp)).map (fun s => (s.written, s.tty)) =
      .ok ([heartbeat 255], OutQueue.empty) := by
    decide +kernel
  obtain ⟨s, hrun, hview⟩ := map_eq_ok_iff.mp hview
  obtain ⟨hwritten, htty⟩ := Prod.mk.inj hview
  refine ⟨s, hrun, hwritten, by rw [htty]; rfl, ?_⟩
  rw [htty, State.writtenFrames, hwritten]
  decide +kernel

end GumstixExtras.Mavlink
