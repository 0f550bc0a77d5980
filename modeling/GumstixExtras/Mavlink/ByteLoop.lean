import GumstixExtras.Lib.ForLoop
import GumstixExtras.Mavlink.Isolation
import Mathlib.Data.List.GetD

/-!
# The Byte Loop of `udp_wait`

What `udp_wait` does with one datagram. Its steps between two receives are a counting loop
with a pass for each byte (`Progress`, `pass`), and the dump of a relayed frame under `debug`
is the one place where a pass moves the counter.

- `passes_iff`: when the loop ends after one pass for each byte, in order.
- `debugTransparent_iff`: when `debug` makes no difference to what is relayed.
-/

namespace GumstixExtras.Mavlink

open GumstixExtras.Lib

variable {σ μ : Type}

/-! ## §1 One datagram -/

/-- The index a step of `udp_wait` uses on `udp_buffer`. -/
def State.used (s : State σ μ) : List ℕ :=
  match s.udpPc with
  | .loop i => if i < s.recvLen then [i] else []
  | .recv | .relay _ _ | .flush _ => []

/-- `udp_wait` goes on until it is back before a `recv`. The list has the indices it uses on
`udp_buffer` on its way. -/
inductive ByteLoop (L : Library σ μ) (debug : Bool) : State σ μ → List ℕ → State σ μ → Prop
  | done {s : State σ μ} (hpc : s.udpPc = .recv) : ByteLoop L debug s [] s
  | step {s s' t : State σ μ} {is : List ℕ} (hpc : s.udpPc ≠ .recv)
      (hstep : udpWait L debug s = .ok s') (hrest : ByteLoop L debug s' is t) :
      ByteLoop L debug s (s.used ++ is) t

/-- The datagram is received, the loop over it ends, and each of its bytes has been fed to the
parser once and in order. -/
structure Passes (L : Library σ μ) (debug : Bool) (payload : List UInt8) (s t : State σ μ) :
    Prop where
  loop : ∃ s₁, udpWait L debug s = .ok s₁ ∧
    ByteLoop L debug s₁ (List.range payload.length) t
  calls : t.calls = s.calls ++ payload.map (Thread.udp, ·)

/-- The loop is in order with and without `debug`, and writes the same messages. -/
def DebugTransparent (L : Library σ μ) (payload : List UInt8) (s : State σ μ) : Prop :=
  ∃ t₀ t₁, Passes L false payload s t₀ ∧ Passes L true payload s t₁ ∧
    t₁.written = t₀.written

/-- Every frame the datagram completes at an index `i`, the channel starting in `c`, is one
whose dump is harmless: too long to be dumped, as long as `i`, or completed by the last byte
and no shorter than `i`. -/
def DumpHarmless (L : Library σ μ) (c : σ) (payload : List UInt8) : Prop :=
  ∀ i (hi : i < payload.length),
    ∀ m ∈ L.parser.emit (L.parser.after c (payload.take i)) payload[i],
      mavlinkMaxPacketLen < (L.msgToSendBuffer m).length ∨ (L.msgToSendBuffer m).length = i ∨
        (i + 1 = payload.length ∧ i ≤ (L.msgToSendBuffer m).length)

instance (L : Library σ μ) (c : σ) (payload : List UInt8) :
    Decidable (DumpHarmless L c payload) :=
  inferInstanceAs (Decidable (∀ i (hi : i < payload.length),
    ∀ m ∈ L.parser.emit (L.parser.after c (payload.take i)) payload[i], _ ∨ _ ∨ (_ ∧ _)))

/-! ## §2 The loop as passes -/

/-- What a pass reads and leaves. -/
structure Progress (σ μ : Type) where
  channel : σ
  calls : List (Thread × UInt8)
  written : List μ

/-- The pass over the byte at `i`, with the counter it leaves. -/
def pass (L : Library σ μ) (debug : Bool) (payload : List UInt8) (p : Progress σ μ) (i : ℕ) :
    Progress σ μ × ℕ :=
  let c := payload.getD i 0
  ({ channel := L.parser.next p.channel c
     calls := p.calls ++ [(Thread.udp, c)]
     written := p.written ++ L.parser.emit p.channel c },
    match (L.parser.step p.channel c).2 with
    | none => i
    | some message => dump debug (L.msgToSendBuffer message).length i)

/-- The progress of a state, a message in hand counted as written. -/
def State.progress (s : State σ μ) : Progress σ μ :=
  ⟨s.channels mavlinkComm1, s.calls, s.written ++ s.udpPc.inHand⟩

/-- The counter with which the next test of the loop is made. -/
def State.counter (L : Library σ μ) (debug : Bool) (s : State σ μ) : ℕ :=
  match s.udpPc with
  | .recv => s.recvLen
  | .loop i => i
  | .relay message i => dump debug (L.msgToSendBuffer message).length i + 1
  | .flush i => i + 1

/-- The buffer holds the datagram the loop is about, and the receives to come are `udpIn`. -/
structure Holds (payload : List UInt8) (udpIn : List Received) (s : State σ μ) : Prop where
  buffer : s.udpBuffer.Filled payload
  recvLen : s.recvLen = payload.length
  udpIn : s.udpIn = udpIn

variable {L : Library σ μ} {debug : Bool} {payload : List UInt8} {udpIn : List Received}
  {s s' t : State σ μ} {i : ℕ} {is : List ℕ}

/-- The step over a byte is a pass. -/
theorem udpWait_pass (L : Library σ μ) (debug : Bool) (h : Holds payload udpIn s)
    (hpc : s.udpPc = .loop i) (hi : i < payload.length) :
    ∃ s', udpWait L debug s = .ok s' ∧ Holds payload udpIn s' ∧ s'.udpPc ≠ .recv ∧
      s'.progress = (pass L debug payload s.progress i).1 ∧
      s'.counter L debug = (pass L debug payload s.progress i).2 + 1 := by
  have hlt : i < s.recvLen := h.recvLen ▸ hi
  have hbyte : payload.getD i 0 = payload[i] := List.getD_eq_getElem payload 0 hi
  have hstep : L.parser.step s.progress.channel (payload.getD i 0) =
      L.parser.step (s.channels mavlinkComm1) payload[i] := by
    rw [hbyte]
    rfl
  simp only [udpWait, hpc, if_pos hlt, h.buffer.load hi, ok_bind, pure_eq_ok]
  refine ⟨_, rfl, ⟨h.buffer, h.recvLen, h.udpIn⟩, ?_⟩
  -- a byte that completes a message leads to `relay`, any other to the next byte
  cases hmsg : (L.parser.step (s.channels mavlinkComm1) payload[i]).2 with
  | none =>
    simp only [State.progress, State.counter, pass, mavlinkParseChar, msgReceived,
      Transducer.next, Transducer.emit, hbyte, hmsg, hpc, Function.update_self]
    simp [UdpPc.inHand]
  | some message =>
    simp only [State.progress, State.counter, pass, mavlinkParseChar, msgReceived,
      Transducer.next, Transducer.emit, hbyte, hmsg, hpc, Function.update_self]
    simp [UdpPc.inHand]

/-- The steps that relay a message change neither the progress nor the counter. -/
theorem udpWait_relay (L : Library σ μ) (debug : Bool) (h : Holds payload udpIn s)
    (hrecv : s.udpPc ≠ .recv) (hloop : ∀ i, s.udpPc ≠ .loop i) :
    ∃ s', udpWait L debug s = .ok s' ∧ Holds payload udpIn s' ∧
      (s'.udpPc = .loop (s.counter L debug) ∨ ∃ i, s'.udpPc = .flush i) ∧
      s'.progress = s.progress ∧ s'.counter L debug = s.counter L debug := by
  cases hpc : s.udpPc with
  | recv => exact absurd hpc hrecv
  | loop i => exact absurd hpc (hloop i)
  | relay message i =>
    simp only [udpWait, hpc]
    -- the dump that moves the counter is already in `counter`
    refine ⟨_, rfl, ⟨h.buffer, h.recvLen, h.udpIn⟩, .inr ⟨_, rfl⟩, ?_, ?_⟩
    · simp only [State.progress, hpc, UdpPc.inHand, List.append_nil]
    · simp only [State.counter, hpc]
  | flush i =>
    simp only [udpWait, hpc]
    refine ⟨_, rfl, ⟨h.buffer, h.recvLen, h.udpIn⟩, .inl ?_, ?_, ?_⟩
    · simp only [State.counter, hpc]
    · simp only [State.progress, hpc, UdpPc.inHand]
    · simp only [State.counter, hpc]

/-- The end of the loop. -/
theorem udpWait_end (L : Library σ μ) (debug : Bool) (h : Holds payload udpIn s)
    (hpc : s.udpPc = .loop i) (hi : payload.length ≤ i) :
    udpWait L debug s = .ok { s with udpPc := .recv } := by
  have hle : ¬ i < s.recvLen := by
    rw [h.recvLen]
    exact Nat.not_lt.mpr hi
  simp only [udpWait, hpc, if_neg hle]

/-! ## §3 The steps and the passes -/

theorem State.used_loop (h : Holds payload udpIn s) (hpc : s.udpPc = .loop i) :
    s.used = if i < payload.length then [i] else [] := by
  simp only [State.used, hpc, h.recvLen]

theorem State.used_of_not_loop (hloop : ∀ i, s.udpPc ≠ .loop i) : s.used = [] := by
  cases hpc : s.udpPc with
  | recv => simp only [State.used, hpc]
  | loop i => exact absurd hpc (hloop i)
  | relay message i => simp only [State.used, hpc]
  | flush i => simp only [State.used, hpc]

/-- A step that uses no index can be put in front of a run. -/
theorem ByteLoop.step_of_not_loop (hrecv : s.udpPc ≠ .recv) (hloop : ∀ i, s.udpPc ≠ .loop i)
    (hstep : udpWait L debug s = .ok s') (hrest : ByteLoop L debug s' is t) :
    ByteLoop L debug s is t := by
  have h := ByteLoop.step hrecv hstep hrest
  rwa [State.used_of_not_loop hloop, List.nil_append] at h

/-- A state that is not before a `recv` comes before the test of the loop without using an
index. -/
theorem exists_loop (L : Library σ μ) (debug : Bool) (h : Holds payload udpIn s)
    (hrecv : s.udpPc ≠ .recv) :
    ∃ s', s'.udpPc = .loop (s.counter L debug) ∧ Holds payload udpIn s' ∧
      s'.progress = s.progress ∧
      ∀ is t, ByteLoop L debug s' is t → ByteLoop L debug s is t := by
  by_cases hloop : ∀ i, s.udpPc ≠ .loop i
  · obtain ⟨s₁, hstep, hs₁, hpc, hprogress, hcounter⟩ := udpWait_relay L debug h hrecv hloop
    rcases hpc with hpc | ⟨i, hpc⟩
    · exact ⟨s₁, hpc, hs₁, hprogress, fun _ _ hrest => hrest.step_of_not_loop hrecv hloop hstep⟩
    · -- the `write` is done, and the `tcflush` is still to come
      have hrecv₁ : s₁.udpPc ≠ .recv := by simp [hpc]
      have hloop₁ : ∀ i, s₁.udpPc ≠ .loop i := by simp [hpc]
      have hstep₁ : udpWait L debug s₁ =
          .ok { s₁ with tty := s₁.tty.flush, udpPc := .loop (i + 1) } := by
        simp only [udpWait, hpc]
      refine ⟨{ s₁ with tty := s₁.tty.flush, udpPc := .loop (i + 1) }, ?_,
        ⟨hs₁.buffer, hs₁.recvLen, hs₁.udpIn⟩, ?_, fun is t hrest =>
        (hrest.step_of_not_loop hrecv₁ hloop₁ hstep₁).step_of_not_loop hrecv hloop hstep⟩
      · rw [← hcounter]
        simp only [State.counter, hpc]
      · rw [← hprogress]
        simp only [State.progress, hpc, UdpPc.inHand]
  · rw [not_forall] at hloop
    obtain ⟨i, hloop⟩ := hloop
    have hpc := not_not.mp hloop
    exact ⟨s, by simp only [State.counter, hpc], h, rfl, fun _ _ hrest => hrest⟩

theorem byteLoop_end (h : Holds payload udpIn s) (hpc : s.udpPc = .loop i)
    (hi : payload.length ≤ i) : ByteLoop L debug s [] { s with udpPc := .recv } := by
  have hlast := ByteLoop.step (by simp [hpc]) (udpWait_end L debug h hpc hi) (.done rfl)
  rwa [State.used_loop h hpc, if_neg (Nat.not_lt.mpr hi)] at hlast

/-- **The steps are passes**: a run of steps to the next `recv` is a run of the loop. -/
theorem ByteLoop.runFor (h : ByteLoop L debug s is t) (hs : Holds payload udpIn s) :
    ∃ k, ForLoop.runFor payload.length (pass L debug payload) k s.progress (s.counter L debug) =
        some (is, t.progress) ∧ t.udpPc = .recv ∧ Holds payload udpIn t := by
  -- induction on the steps; only the step over a byte is a pass
  induction h with
  | @done s hpc =>
    have hle : payload.length ≤ s.counter L debug := by
      simp only [State.counter, hpc, hs.recvLen, Nat.le_refl]
    exact ⟨0, ForLoop.runFor_of_le hle, hpc, hs⟩
  | @step s s' t is hrecv hstep hrest ih =>
    by_cases hloop : ∀ i, s.udpPc ≠ .loop i
    · -- a step of the relaying, between two passes
      obtain ⟨s₁, hstep₁, hs₁, -, hprogress, hcounter⟩ := udpWait_relay L debug hs hrecv hloop
      obtain rfl := Except.ok.inj (hstep.symm.trans hstep₁)
      obtain ⟨k, hrun, ht⟩ := ih hs₁
      rw [State.used_of_not_loop hloop, List.nil_append, ← hprogress, ← hcounter]
      exact ⟨k, hrun, ht⟩
    · rw [not_forall] at hloop
      obtain ⟨i, hloop⟩ := hloop
      have hpc := not_not.mp hloop
      have hcounter : s.counter L debug = i := by simp only [State.counter, hpc]
      rw [State.used_loop hs hpc, hcounter]
      by_cases hi : i < payload.length
      · obtain ⟨s₁, hstep₁, hs₁, -, hprogress, hnext⟩ := udpWait_pass L debug hs hpc hi
        obtain rfl := Except.ok.inj (hstep.symm.trans hstep₁)
        obtain ⟨k, hrun, ht⟩ := ih hs₁
        rw [hprogress, hnext] at hrun
        refine ⟨k + 1, ?_, ht⟩
        rw [ForLoop.runFor_of_lt hi, hrun, if_pos hi]
        rfl
      · -- the end of the loop: the next `recv` is where it stops
        have hle := Nat.le_of_not_lt hi
        obtain rfl := Except.ok.inj (hstep.symm.trans (udpWait_end L debug hs hpc hle))
        obtain ⟨k, hrun, ht⟩ := ih ⟨hs.buffer, hs.recvLen, hs.udpIn⟩
        refine ⟨k, ?_, ht⟩
        have hprogress : ({ s with udpPc := .recv } : State σ μ).progress = s.progress := by
          simp only [State.progress, hpc, UdpPc.inHand]
        have hstop : ForLoop.runFor payload.length (pass L debug payload) k s.progress s.recvLen =
            some ([], s.progress) := ForLoop.runFor_of_le (Nat.le_of_eq hs.recvLen.symm)
        rw [hprogress] at hrun
        rw [ForLoop.runFor_of_le hle, if_neg hi, List.nil_append]
        exact hstop.symm.trans hrun

/-- **The passes are steps**: a loop that ends is a run of steps to the next `recv`. -/
theorem exists_byteLoop {k : ℕ} {p : Progress σ μ} (hs : Holds payload udpIn s)
    (hrecv : s.udpPc ≠ .recv)
    (hrun : ForLoop.runFor payload.length (pass L debug payload) k s.progress
      (s.counter L debug) = some (is, p)) :
    ∃ t, ByteLoop L debug s is t := by
  induction k generalizing s is with
  | zero =>
    obtain ⟨s₁, hpc, hs₁, -, hbefore⟩ := exists_loop L debug hs hrecv
    rw [ForLoop.runFor] at hrun
    split at hrun
    · cases hrun
    · cases hrun
      exact ⟨_, hbefore _ _ (byteLoop_end hs₁ hpc (Nat.le_of_not_lt ‹_›))⟩
  | succ k ih =>
    obtain ⟨s₁, hpc, hs₁, hprogress, hbefore⟩ := exists_loop L debug hs hrecv
    by_cases hi : s.counter L debug < payload.length
    · -- one pass, and the rest of the loop from where it leaves the counter
      rw [ForLoop.runFor_of_lt hi, Option.map_eq_some_iff] at hrun
      obtain ⟨⟨is', q⟩, hrest, heq⟩ := hrun
      cases heq
      obtain ⟨s₂, hstep, hs₂, hrecv₂, hprogress₂, hcounter₂⟩ := udpWait_pass L debug hs₁ hpc hi
      rw [← hprogress, ← hprogress₂, ← hcounter₂] at hrest
      obtain ⟨t, ht⟩ := ih hs₂ hrecv₂ hrest
      have hfirst := ByteLoop.step (by simp [hpc]) hstep ht
      rw [State.used_loop hs₁ hpc, if_pos hi] at hfirst
      exact ⟨t, hbefore _ _ hfirst⟩
    · -- the counter is past the end
      rw [ForLoop.runFor_of_le (Nat.le_of_not_lt hi)] at hrun
      cases hrun
      exact ⟨_, hbefore _ _ (byteLoop_end hs₁ hpc (Nat.le_of_not_lt hi))⟩

/-! ## §4 Loops in order -/

/-- Passes at successive counters parse the bytes there. -/
theorem inTurn_pass (L : Library σ μ) (debug : Bool) {j : ℕ} (p : Progress σ μ)
    (h : i + j ≤ payload.length) :
    ForLoop.inTurn (pass L debug payload) j p i =
      ⟨L.parser.after p.channel ((payload.drop i).take j),
        p.calls ++ ((payload.drop i).take j).map (Thread.udp, ·),
        p.written ++ L.parser.outputs p.channel ((payload.drop i).take j)⟩ := by
  induction j generalizing p i with
  | zero => simp [ForLoop.inTurn, Transducer.after, Transducer.outputs]
  | succ j ih =>
    -- the first byte, and the pass counter moves to the second
    have hi : i < payload.length := by omega
    have hbytes : (payload.drop i).take (j + 1) =
        payload[i] :: (payload.drop (i + 1)).take j := by
      rw [List.drop_eq_getElem_cons hi, List.take_succ_cons]
    rw [ForLoop.inTurn_succ, ih _ (by omega), hbytes]
    simp only [pass, List.getD_eq_getElem _ _ hi, Transducer.after, Transducer.outputs,
      List.map_cons, List.append_assoc, List.singleton_append]

/-- A pass keeps the counter, or moves it forward at the end, when the dump of the message it
completes is harmless. -/
theorem pass_counter_iff (L : Library σ μ) (p : Progress σ μ) (hi : i < payload.length) :
    ((pass L true payload p i).2 = i ∨
      (i + 1 = payload.length ∧ i ≤ (pass L true payload p i).2)) ↔
    ∀ m ∈ L.parser.emit p.channel payload[i],
      mavlinkMaxPacketLen < (L.msgToSendBuffer m).length ∨ (L.msgToSendBuffer m).length = i ∨
        (i + 1 = payload.length ∧ i ≤ (L.msgToSendBuffer m).length) := by
  simp only [pass, List.getD_eq_getElem _ _ hi, Transducer.emit, Option.mem_toList]
  cases (L.parser.step p.channel payload[i]).2 with
  | none => simp
  | some message =>
    simp only [Option.some.injEq, forall_eq', dump, true_and]
    -- a frame too long to be dumped leaves the counter alone
    by_cases hlong : mavlinkMaxPacketLen < (L.msgToSendBuffer message).length
    · rw [if_neg (Nat.not_le.mpr hlong)]
      exact iff_of_true (.inl rfl) (.inl hlong)
    · rw [if_pos (Nat.le_of_not_lt hlong)]
      exact (or_iff_right hlong).symm

/-- Without `debug` the loop is always in order, and with it as long as dumps are harmless. -/
theorem steady_pass_iff (L : Library σ μ) (debug : Bool) (p : Progress σ μ) :
    ForLoop.Steady (pass L debug payload) payload.length p 0 ↔
      (debug = true → DumpHarmless L p.channel payload) := by
  unfold ForLoop.Steady DumpHarmless
  cases debug with
  | false =>
    refine iff_of_true (fun m _ => .inl ?_) (fun h => by cases h)
    -- nothing is dumped, so no pass touches the counter
    simp only [pass, dump, Bool.false_eq_true, false_and, if_false]
    split <;> rfl
  | true =>
    rw [forall_prop_of_true rfl]
    refine forall₂_congr fun m hm => ?_
    rw [Nat.zero_add, inTurn_pass L true p (by omega), List.drop_zero]
    exact pass_counter_iff L _ hm

/-- What a loop in order leaves. -/
theorem ByteLoop.inOrder (hs : Holds payload udpIn s) (hpc : s.udpPc = .loop 0)
    (h : ByteLoop L debug s (List.range payload.length) t) :
    ForLoop.Steady (pass L debug payload) payload.length s.progress 0 ∧ t.udpPc = .recv ∧
      t.udpIn = udpIn ∧ t.calls = s.calls ++ payload.map (Thread.udp, ·) ∧
      t.written = s.written ++ L.parser.outputs (s.channels mavlinkComm1) payload := by
  obtain ⟨k, hrun, hend, ht⟩ := h.runFor hs
  have hcounter : s.counter L debug = 0 := by simp only [State.counter, hpc]
  rw [hcounter, List.range_eq_range'] at hrun
  obtain ⟨hsteady, hprogress⟩ := ForLoop.steady_of_runFor (Nat.zero_add _) hrun
  rw [inTurn_pass L debug s.progress (Nat.le_of_eq (Nat.zero_add _)), List.drop_zero,
    List.take_length] at hprogress
  simp only [State.progress, hpc, hend, UdpPc.inHand, List.append_nil, Progress.mk.injEq]
    at hprogress
  exact ⟨hsteady, hend, ht.udpIn, hprogress.2.1, hprogress.2.2⟩

/-- A receive that gives bytes. -/
theorem udpWait_recv (L : Library σ μ) (debug : Bool) {r : Received} (hpc : s.udpPc = .recv)
    (hin : s.udpIn = r :: udpIn) (hr : r ≠ .error) (hpos : 0 < r.stored.length) :
    ∃ s₁, udpWait L debug s = .ok s₁ ∧ Holds r.stored udpIn s₁ ∧ s₁.udpPc = .loop 0 ∧
      s₁.channels = s.channels ∧ s₁.calls = s.calls ∧ s₁.written = s.written := by
  have hlen : r.recvLen = r.stored.length := by
    cases r with
    | error => exact absurd rfl hr
    | datagram payload => rfl
  have hwrite := s.udpBuffer.write_eq r.length_stored_le
  have hfilled := (Buffer.filled_nil s.udpBuffer).splice r.stored r.length_stored_le
  simp only [udpWait, hpc, hin, hwrite, ok_bind, pure_eq_ok, hlen, if_pos hpos]
  exact ⟨_, rfl, ⟨hfilled, rfl, rfl⟩, rfl, rfl, rfl, rfl⟩

/-- The loop over a datagram ends exactly after one pass for each byte where `debug` is off or
the dumps are harmless. -/
theorem exists_byteLoop_inOrder_iff (L : Library σ μ) (debug : Bool)
    (hs : Holds payload udpIn s) (hpc : s.udpPc = .loop 0) :
    (∃ t, ByteLoop L debug s (List.range payload.length) t) ↔
      (debug = true → DumpHarmless L (s.channels mavlinkComm1) payload) := by
  have hcounter : s.counter L debug = 0 := by simp only [State.counter, hpc]
  -- the steps of the thread and the passes of the loop come to the same
  have hloop : (∃ t, ByteLoop L debug s (List.range payload.length) t) ↔
      ∃ k p, ForLoop.runFor payload.length (pass L debug payload) k s.progress 0 =
        some (List.range payload.length, p) := by
    constructor
    · rintro ⟨t, ht⟩
      obtain ⟨k, hrun, -⟩ := ht.runFor hs
      rw [hcounter] at hrun
      exact ⟨k, _, hrun⟩
    · rintro ⟨k, p, hrun⟩
      rw [← hcounter] at hrun
      exact exists_byteLoop hs (by simp [hpc]) hrun
  rw [hloop, List.range_eq_range', ForLoop.runFor_inOrder_iff (Nat.zero_add _)]
  exact steady_pass_iff L debug s.progress

section Datagram

variable (L : Library σ μ) (debug : Bool) (hpc : s.udpPc = .recv)
  (hin : s.udpIn = .datagram payload :: udpIn) (hpos : 0 < payload.length)
  (hmax : payload.length ≤ mavlinkMaxPacketLen)

include hpc hin hpos hmax

/-- The receive of a datagram that fits the buffer. -/
theorem udpWait_datagram :
    ∃ s₁, udpWait L debug s = .ok s₁ ∧ Holds payload udpIn s₁ ∧ s₁.udpPc = .loop 0 ∧
      s₁.channels = s.channels ∧ s₁.calls = s.calls ∧ s₁.written = s.written := by
  have hstored : (Received.datagram payload).stored = payload := List.take_of_length_le hmax
  have hrecv := udpWait_recv L debug hpc hin Received.noConfusion (by rwa [hstored])
  rwa [hstored] at hrecv

/-- What is written for a datagram does not depend on `debug`. -/
theorem Passes.written (h : Passes L debug payload s t) :
    t.written = s.written ++ L.parser.outputs (s.channels mavlinkComm1) payload := by
  obtain ⟨s₁, hrecv, hs₁, hpc₁, hchannels, -, hwritten⟩ :=
    udpWait_datagram L debug hpc hin hpos hmax
  obtain ⟨s₁', hrecv', hloop⟩ := h.loop
  obtain rfl := Except.ok.inj (hrecv.symm.trans hrecv')
  obtain ⟨-, -, -, -, hout⟩ := hloop.inOrder hs₁ hpc₁
  rw [hout, hchannels, hwritten]

/-- **Loops in order**: a datagram is fed to the parser byte by byte, and the loop ends, exactly
where `debug` is off or the dumps are harmless. -/
theorem passes_iff : (∃ t, Passes L debug payload s t) ↔
    (debug = true → DumpHarmless L (s.channels mavlinkComm1) payload) := by
  obtain ⟨s₁, hrecv, hs₁, hpc₁, hchannels, hcalls, -⟩ :=
    udpWait_datagram L debug hpc hin hpos hmax
  rw [← hchannels, ← exists_byteLoop_inOrder_iff L debug hs₁ hpc₁]
  constructor
  · rintro ⟨t, ⟨s₁', hrecv', hloop⟩, -⟩
    obtain rfl := Except.ok.inj (hrecv.symm.trans hrecv')
    exact ⟨t, hloop⟩
  · rintro ⟨t, hloop⟩
    -- a loop in order has fed every byte
    obtain ⟨-, -, -, hfed, -⟩ := hloop.inOrder hs₁ hpc₁
    exact ⟨t, ⟨s₁, hrecv, hloop⟩, by rw [hfed, hcalls]⟩

/-- **Debug output**: for a datagram of 1 to `MAVLINK_MAX_PACKET_LEN` bytes and any state of the
parser, `debug` makes no difference to the loop and to what is written if and only if the dumps
are harmless. -/
theorem debugTransparent_iff : DebugTransparent L payload s ↔
    DumpHarmless L (s.channels mavlinkComm1) payload := by
  constructor
  · rintro ⟨t₀, t₁, -, hdebug, -⟩
    exact (passes_iff L true hpc hin hpos hmax).mp ⟨t₁, hdebug⟩ rfl
  · intro hharmless
    obtain ⟨t₀, h₀⟩ := (passes_iff L false hpc hin hpos hmax).mpr fun h => by cases h
    obtain ⟨t₁, h₁⟩ := (passes_iff L true hpc hin hpos hmax).mpr fun _ => hharmless
    exact ⟨t₀, t₁, h₀, h₁, (h₁.written L true hpc hin hpos hmax).trans
      (h₀.written L false hpc hin hpos hmax).symm⟩

end Datagram

/-- A datagram that is one heartbeat. -/
theorem debugTransparent_heartbeat :
    DebugTransparent (mavlinkV1 heartbeatExtra) (heartbeatFrame 255)
      (initial (mavlinkV1 heartbeatExtra) [] [.datagram (heartbeatFrame 255)]) :=
  (debugTransparent_iff (mavlinkV1 heartbeatExtra) rfl rfl (by decide) (by decide)).mpr
    (by decide +kernel)

/-- A datagram of two heartbeats: with `debug` the start byte of the second is skipped. -/
theorem not_debugTransparent_twoHeartbeats :
    ¬ DebugTransparent (mavlinkV1 heartbeatExtra) (heartbeatFrame 255 ++ heartbeatFrame 254)
      (initial (mavlinkV1 heartbeatExtra) []
        [.datagram (heartbeatFrame 255 ++ heartbeatFrame 254)]) := by
  rintro ⟨t₀, t₁, -, hdebug, -⟩
  have hharmless := (passes_iff (mavlinkV1 heartbeatExtra) true rfl rfl (by decide)
    (by decide)).mp ⟨t₁, hdebug⟩ rfl
  exact absurd hharmless (by decide +kernel)

end GumstixExtras.Mavlink
