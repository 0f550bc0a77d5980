import Mathlib.Data.List.Range
import Mathlib.Tactic.Common

/-!
# Counting Loops Whose Body May Move the Counter

`for (; i < n; i++) body`, where `body` takes a state and the counter and leaves both. Such a
loop need not end, and need not make a pass for every value of the counter.
`runFor_inOrder_iff` says when it does both: no pass moves the counter, except that the last
one may move it forward.
-/

namespace GumstixExtras.Lib

namespace ForLoop

variable {S : Type} (n : ℕ) (body : S → ℕ → S × ℕ)

/-! ## §1 Passes -/

/-- At most `k` passes: the counters at which they start and the state behind the loop, or
`none` if it is still going on. -/
def runFor : ℕ → S → ℕ → Option (List ℕ × S)
  | 0, s, i => if i < n then none else some ([], s)
  | k + 1, s, i =>
    if i < n then
      (runFor k (body s i).1 ((body s i).2 + 1)).map fun r => (i :: r.1, r.2)
    else
      some ([], s)

/-- The state after `j` passes at the counters `i`, `i + 1` and so on. -/
def inTurn : ℕ → S → ℕ → S
  | 0, s, _ => s
  | j + 1, s, i => inTurn j (body s i).1 (i + 1)

/-- Of `j` passes at successive counters none moves the counter, but for the last one, which
may move it forward. -/
def Steady (j : ℕ) (s : S) (i : ℕ) : Prop :=
  ∀ m < j, (body (inTurn body m s i) (i + m)).2 = i + m ∨
    (m + 1 = j ∧ i + m ≤ (body (inTurn body m s i) (i + m)).2)

variable {n body} {k j i : ℕ} {s s' : S} {is : List ℕ}

theorem runFor_of_lt (h : i < n) : runFor n body (k + 1) s i =
    (runFor n body k (body s i).1 ((body s i).2 + 1)).map fun r => (i :: r.1, r.2) :=
  if_pos h

theorem runFor_of_le (h : n ≤ i) : runFor n body k s i = some ([], s) := by
  cases k <;> exact if_neg (Nat.not_lt.mpr h)

/-- A pass inside the loop takes one unit of `k`. -/
theorem runFor_eq_some_of_lt (h : i < n) (hrun : runFor n body k s i = some (is, s')) :
    ∃ k' is', runFor n body k' (body s i).1 ((body s i).2 + 1) = some (is', s') ∧
      is = i :: is' := by
  cases k with
  | zero =>
    rw [runFor, if_pos h] at hrun
    cases hrun
  | succ k =>
    rw [runFor_of_lt h, Option.map_eq_some_iff] at hrun
    obtain ⟨⟨is', t⟩, hrest, heq⟩ := hrun
    cases heq
    exact ⟨k, is', hrest, rfl⟩

theorem inTurn_succ (j : ℕ) (s : S) (i : ℕ) :
    inTurn body (j + 1) s i = inTurn body j (body s i).1 (i + 1) := rfl

theorem steady_zero (s : S) (i : ℕ) : Steady body 0 s i := fun _ hm => absurd hm (Nat.not_lt_zero _)

theorem steady_succ : Steady body (j + 1) s i ↔
    ((body s i).2 = i ∨ (j = 0 ∧ i ≤ (body s i).2)) ∧ Steady body j (body s i).1 (i + 1) := by
  unfold Steady
  rw [Nat.forall_lt_succ_left]
  -- the first pass, and the others counted from the next value on
  have hzero : (0 + 1 = j + 1) ↔ j = 0 := by omega
  refine and_congr ?_ (forall₂_congr fun m _ => ?_)
  · rw [inTurn, Nat.add_zero, hzero]
  · rw [inTurn_succ, Nat.add_right_comm i 1 m, Nat.add_assoc i m 1, Nat.succ_inj]

/-! ## §2 Passes in order -/

/-- A steady loop makes its passes in order and ends. -/
theorem Steady.runFor (h : Steady body j s i) (hn : i + j = n) :
    runFor n body j s i = some (List.range' i j, inTurn body j s i) := by
  induction j generalizing s i with
  | zero => exact runFor_of_le (Nat.le_of_eq hn.symm)
  | succ j ih =>
    obtain ⟨hcounter, hrest⟩ := steady_succ.mp h
    rw [runFor_of_lt (by omega), List.range'_succ, inTurn_succ]
    -- the pass leaves the counter alone, or is the last one
    rcases hcounter with hstays | ⟨rfl, hforward⟩
    · rw [hstays, ih hrest (by omega)]
      rfl
    · -- the last pass has moved the counter, and the loop is over all the same
      rw [runFor_of_le (by omega)]
      rfl

/-- Passes in order show a steady loop, and the state it ends in. -/
theorem steady_of_runFor (hn : i + j = n)
    (h : ForLoop.runFor n body k s i = some (List.range' i j, s')) :
    Steady body j s i ∧ s' = inTurn body j s i := by
  induction j generalizing k s i with
  | zero =>
    have hle : n ≤ i := Nat.le_of_eq hn.symm
    rw [runFor_of_le hle, Option.some.injEq, Prod.mk.injEq] at h
    exact ⟨steady_zero s i, h.2.symm⟩
  | succ j ih =>
    obtain ⟨k', is', hrest, his⟩ := runFor_eq_some_of_lt (by omega) h
    rw [List.range'_succ] at his
    obtain ⟨-, rfl⟩ := List.cons.inj his
    rw [steady_succ, inTurn_succ]
    -- the next pass, if there is one, shows where the counter is
    by_cases hin : (body s i).2 + 1 < n
    · obtain ⟨_, _, _, hnext⟩ := runFor_eq_some_of_lt hin hrest
      cases j with
      | zero => cases hnext
      | succ j =>
        rw [List.range'_succ] at hnext
        have hstays : (body s i).2 = i := (Nat.succ_inj.mp (List.cons.inj hnext).1).symm
        rw [hstays] at hrest
        obtain ⟨hsteady, hs'⟩ := ih (by omega) hrest
        exact ⟨⟨.inl hstays, hsteady⟩, hs'⟩
    · rw [runFor_of_le (Nat.le_of_not_lt hin), Option.some.injEq, Prod.mk.injEq] at hrest
      have hlast : j = 0 := by
        have := congrArg List.length hrest.1
        rw [List.length_nil, List.length_range'] at this
        exact this.symm
      subst hlast
      exact ⟨⟨.inr ⟨rfl, by omega⟩, steady_zero _ _⟩, hrest.2.symm⟩

/-- **Passes in order**: a loop with `j` values of the counter ahead makes exactly these
passes, in order, if and only if it is steady. -/
theorem runFor_inOrder_iff (hn : i + j = n) :
    (∃ k s', runFor n body k s i = some (List.range' i j, s')) ↔ Steady body j s i :=
  ⟨fun ⟨_, _, h⟩ => (steady_of_runFor hn h).1, fun h => ⟨j, _, h.runFor hn⟩⟩

end ForLoop

end GumstixExtras.Lib
