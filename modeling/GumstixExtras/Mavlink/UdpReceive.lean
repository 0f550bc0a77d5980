import GumstixExtras.Mavlink.ByteLoop

/-!
# Receives That Fail

`recv` comes back with a length, with 0 or with -1, and `udp_wait` takes the result as
unsigned. `FeedsPayloads` is what the parser may be given: the payloads of the datagrams
received, nothing for an empty one and nothing for an error.

`run_feedsPayloads_iff` says that all runs keep to it exactly when no receive fails. An error
is taken for a datagram of 4294967295 bytes, and the loop runs over what the buffer happens to
hold.
-/

namespace GumstixExtras.Mavlink

open GumstixExtras.Lib

variable {σ μ : Type}

/-! ## §1 What the parser may be given -/

/-- What `udp_wait` has parsed is what has been received, as far as it has got; the index it
is about to use is below the length just received; after an error it is back before the
`recv`; and it has only written what its own bytes completed. -/
structure FeedsPayloads (L : Library σ μ) (udpIn : List Received) (s : State σ μ) : Prop where
  stream : ∃ consumed, udpIn = consumed ++ s.udpIn ∧
    Transducer.inputsOf Thread.udp s.calls <+: receivedBytes consumed ∧
    (s.udpPc = .recv → Transducer.inputsOf Thread.udp s.calls = receivedBytes consumed)
  index : ∀ i ∈ s.used, ∃ consumed payload,
    udpIn = consumed ++ .datagram payload :: s.udpIn ∧
    i < (payload.take mavlinkMaxPacketLen).length
  failed : ∀ consumed, udpIn = consumed ++ .error :: s.udpIn → s.udpPc = .recv
  writes : s.written ++ s.udpPc.inHand =
    L.parser.sideOutputs Thread.udp L.parser.fresh s.calls

/-! ## §2 Without errors -/

/-- `recvLen` is the length of the datagram received last, and no receive has been passed
over. -/
structure LastReceived (udpIn : List Received) (s : State σ μ) : Prop where
  suffix : s.udpIn <:+ udpIn
  last : s.udpPc ≠ .recv → ∃ consumed payload,
    udpIn = consumed ++ .datagram payload :: s.udpIn ∧
    s.recvLen = (payload.take mavlinkMaxPacketLen).length

variable {L : Library σ μ} {debug : Bool} {serialIn : List (Option UInt8)}
  {udpIn rest : List Received} {s s' : State σ μ}

theorem lastReceived_initial : LastReceived udpIn (initial L serialIn udpIn) :=
  ⟨List.suffix_rfl, fun h => absurd rfl h⟩

theorem LastReceived.udpWait (h : LastReceived udpIn s) (hrecv : ∀ r ∈ udpIn, r ≠ .error)
    (hstep : Mavlink.udpWait L debug s = .ok s') : LastReceived udpIn s' := by
  obtain ⟨-, -, rfl⟩ | ⟨r, udpIn', udpBuffer, hpc, hin, hwrite, rfl⟩ |
    ⟨i, c, hpc, hi, hload, rfl⟩ | ⟨i, hpc, hi, rfl⟩ | ⟨message, i, hpc, rfl⟩ |
    ⟨i, hpc, rfl⟩ := udpWait_cases hstep
  · exact h
  · -- a receive: it is the first of those that were to come
    obtain ⟨consumed, hsplit⟩ := h.suffix
    rw [hin] at hsplit
    refine ⟨⟨consumed ++ [r], by simpa using hsplit⟩, fun _ => ?_⟩
    cases r with
    | error => exact absurd rfl (hrecv .error (by simp [← hsplit]))
    | datagram payload => exact ⟨consumed, payload, hsplit.symm, rfl⟩
  · have hnot : s.udpPc ≠ .recv := by simp [hpc]
    exact ⟨h.suffix, fun _ => h.last hnot⟩
  · exact ⟨h.suffix, fun hne => absurd rfl hne⟩
  · have hnot : s.udpPc ≠ .recv := by simp [hpc]
    exact ⟨h.suffix, fun _ => h.last hnot⟩
  · have hnot : s.udpPc ≠ .recv := by simp [hpc]
    exact ⟨h.suffix, fun _ => h.last hnot⟩

theorem LastReceived.step (h : LastReceived udpIn s) (hrecv : ∀ r ∈ udpIn, r ≠ .error)
    (a : Actor) (hstep : step L debug s a = .ok s') : LastReceived udpIn s' := by
  cases a with
  | serial =>
    cases hstep
    obtain ⟨-, -, hs⟩ | ⟨serialIn, -, -, hs⟩ | ⟨cp, serialIn, -, -, hs⟩ | ⟨message, -, hs⟩ :=
      serialWait_cases L s <;> rw [hs] <;> exact ⟨h.suffix, h.last⟩
  | udp => exact h.udpWait hrecv hstep
  | driver k =>
    cases hstep
    exact ⟨h.suffix, h.last⟩

/-- What is parsed and what is left of the last datagram make up what was received. -/
theorem Relaying.feedsPayloads (h : Relaying serialIn udpIn s) (hrelays : Relays L s)
    (hrecv : ∀ r ∈ udpIn, r ≠ .error) (hlast : LastReceived udpIn s) :
    FeedsPayloads L udpIn s := by
  obtain ⟨consumed, hsplit⟩ := hlast.suffix
  have hstream : Transducer.inputsOf Thread.udp s.calls ++
      unparsed s.udpBuffer s.recvLen (s.udpPc.index s.recvLen) = receivedBytes consumed := by
    have hudp := h.feeds.udp
    rw [← hsplit, ← List.append_assoc] at hudp
    refine List.append_cancel_right (hudp.trans ?_)
    exact List.flatMap_append
  refine ⟨⟨consumed, hsplit.symm, ⟨_, hstream⟩, fun hpc => ?_⟩, fun i hi => ?_, ?_,
    hrelays.udp⟩
  · rw [hpc, UdpPc.index, unparsed_of_le (Nat.le_refl _), List.append_nil] at hstream
    exact hstream
  · -- an index is used inside the loop only
    have hloop : s.udpPc = .loop i ∧ i < s.recvLen := by
      unfold State.used at hi
      split at hi
      · next j hpc =>
        split at hi
        · next hj =>
          rw [List.mem_singleton] at hi
          exact hi ▸ ⟨hpc, hj⟩
        · cases hi
      · cases hi
      · cases hi
      · cases hi
    obtain ⟨consumed', payload, hsplit', hlen⟩ := hlast.last (by simp [hloop.1])
    exact ⟨consumed', payload, hsplit', hlen ▸ hloop.2⟩
  · intro consumed' herror
    exact absurd rfl (hrecv .error (by simp [herror]))

/-! ## §3 Up to the first error -/

theorem run_append (L : Library σ μ) (debug : Bool) (s : State σ μ)
    (schedule schedule' : List Actor) :
    run L debug s (schedule ++ schedule') =
      run L debug s schedule >>= fun s' => run L debug s' schedule' := by
  induction schedule generalizing s with
  | nil => rfl
  | cons a schedule ih =>
    rw [List.cons_append, run, run]
    cases step L debug s a with
    | error e => rfl
    | ok t => exact ih t

/-- A thread on its own gets to the end of its loop. -/
theorem ByteLoop.run {is : List ℕ} {t : State σ μ} (h : ByteLoop L debug s is t) :
    ∃ k, Mavlink.run L debug s (List.replicate k .udp) = .ok t := by
  induction h with
  | done hpc => exact ⟨0, rfl⟩
  | step hpc hstep hrest ih =>
    obtain ⟨k, hk⟩ := ih
    refine ⟨k + 1, ?_⟩
    rw [List.replicate_succ, Mavlink.run, Mavlink.step, hstep, ok_bind, hk]

/-- With `debug` off every receive that does not fail is followed by the next one. -/
theorem exists_run_recv {r : Received} (L : Library σ μ) (hpc : s.udpPc = .recv)
    (hin : s.udpIn = r :: rest) (hr : r ≠ .error) :
    ∃ k t, run L false s (List.replicate k .udp) = .ok t ∧ t.udpPc = .recv ∧
      t.udpIn = rest := by
  by_cases hpos : 0 < r.stored.length
  · -- the loop over the datagram comes to its end in order
    obtain ⟨s₁, hrecv, hs₁, hpc₁, -⟩ := udpWait_recv L false hpc hin hr hpos
    obtain ⟨t, ht⟩ := (exists_byteLoop_inOrder_iff L false hs₁ hpc₁).mpr fun h => by cases h
    obtain ⟨-, hend, hrest, -⟩ := ht.inOrder hs₁ hpc₁
    obtain ⟨k, hrun⟩ := ht.run
    refine ⟨k + 1, t, ?_, hend, hrest⟩
    rw [List.replicate_succ, run, step, hrecv, ok_bind, hrun]
  · -- an empty datagram
    have hlen : r.recvLen = 0 := by
      cases r with
      | error => exact absurd rfl hr
      | datagram payload => exact Nat.eq_zero_of_not_pos hpos
    have hwrite := s.udpBuffer.write_eq r.length_stored_le
    have hstep : ∃ t, udpWait L false s = .ok t ∧ t.udpPc = .recv ∧ t.udpIn = rest := by
      simp only [udpWait, hpc, hin, hwrite, ok_bind, pure_eq_ok, hlen, Nat.lt_irrefl, if_false]
      exact ⟨_, rfl, rfl, rfl⟩
    obtain ⟨t, ht, hend, hrest⟩ := hstep
    exact ⟨1, t, by rw [List.replicate_one, run, step, ht, ok_bind, run], hend, hrest⟩

theorem exists_run_recvs (L : Library σ μ) (before : List Received)
    (hbefore : ∀ r ∈ before, r ≠ .error) (hpc : s.udpPc = .recv)
    (hin : s.udpIn = before ++ rest) :
    ∃ k t, run L false s (List.replicate k .udp) = .ok t ∧ t.udpPc = .recv ∧
      t.udpIn = rest := by
  induction before generalizing s with
  | nil => exact ⟨0, s, rfl, hpc, hin⟩
  | cons r before ih =>
    -- the first datagram, and then the others
    obtain ⟨k, t, hrun, hpc', hin'⟩ := exists_run_recv L hpc hin
      (hbefore r List.mem_cons_self)
    obtain ⟨k', t', hrun', ht'⟩ := ih (fun r' hr' => hbefore r' (List.mem_cons_of_mem r hr'))
      hpc' hin'
    refine ⟨k + k', t', ?_, ht'⟩
    rw [List.replicate_add, run_append, hrun, ok_bind, hrun']

/-! ## §4 Runs -/

/-- **Failing receives**: with `debug` off, every run feeds the parser the payloads received
and nothing else if and only if no receive fails. -/
theorem run_feedsPayloads_iff (L : Library σ μ) (serialIn : List (Option UInt8))
    (udpIn : List Received) :
    (∀ schedule, ∃ s, run L false (initial L serialIn udpIn) schedule = .ok s ∧
      FeedsPayloads L udpIn s) ↔ ∀ r ∈ udpIn, r ≠ .error := by
  constructor
  · intro h r hr
    rintro rfl
    -- run up to the first error, and one step further
    obtain ⟨before, after, hsplit, hfirst⟩ := List.eq_append_cons_of_mem hr
    have hstart : (initial L serialIn udpIn).udpIn = before ++ .error :: after := hsplit
    obtain ⟨k, t, hrun, hpc, hin⟩ := exists_run_recvs L before
      (fun r hr heq => hfirst (heq ▸ hr)) rfl hstart
    have hstep : udpWait L false t = .ok { t with
        recvLen := Received.error.recvLen
        udpIn := after
        udpPc := .loop 0 } := by
      simp only [udpWait, hpc, hin, Received.stored, Buffer.write, ok_bind, pure_eq_ok]
      rfl
    obtain ⟨s, hs, hfeeds⟩ := h (List.replicate k .udp ++ [.udp])
    rw [run_append, hrun, ok_bind, run, step, hstep, ok_bind, run] at hs
    obtain rfl := Except.ok.inj hs
    -- the payloads are parsed, and yet the thread is not back before a `recv`
    have hback := hfeeds.failed before hsplit
    cases hback
  · intro hrecv schedule
    obtain ⟨s, hrun, hs⟩ := relaying_run L serialIn hrecv schedule
    have hlast : LastReceived udpIn s :=
      run_invariant (fun _ a _ hs hstep => hs.step hrecv a hstep) lastReceived_initial hrun
    exact ⟨s, hrun, hs.feedsPayloads (relays_run hrun) hrecv hlast⟩

/-- An error behind a datagram of three bytes: the parser is given the first of them again. -/
theorem run_feedsStaleByte :
    ∃ s, heartbeatRun [] [.datagram [1, 2, 3], .error] (List.replicate 7 .udp) = .ok s ∧
      Transducer.inputsOf Thread.udp s.calls = [1, 2, 3, 1] ∧
      ¬ FeedsPayloads (mavlinkV1 heartbeatExtra) [.datagram [1, 2, 3], .error] s := by
  have hview : (heartbeatRun [] [.datagram [1, 2, 3], .error] (List.replicate 7 .udp)).map
      (fun s => (Transducer.inputsOf Thread.udp s.calls, s.udpPc, s.udpIn)) =
      .ok ([1, 2, 3, 1], .loop 1, []) := by
    decide +kernel
  obtain ⟨s, hrun, hview⟩ := map_eq_ok_iff.mp hview
  simp only [Prod.mk.injEq] at hview
  obtain ⟨hinputs, hpc, hin⟩ := hview
  refine ⟨s, hrun, hinputs, fun hfeeds => ?_⟩
  have hback := hfeeds.failed [.datagram [1, 2, 3]] (by rw [hin]; rfl)
  cases hpc.symm.trans hback

end GumstixExtras.Mavlink
