import Mathlib.Data.List.Basic
import Mathlib.Tactic.Common

/-!
# Output Queues

The output side of a terminal: what is written waits in a FIFO, the driver moves it to the
line in portions of its own choice, and a flush throws away what is still waiting.
`accepted_run_iff` says when a run of such operations loses nothing.
-/

namespace GumstixExtras.Lib

/-- What is already on the line, and what still waits. -/
structure OutQueue (α : Type) where
  line : List α
  fifo : List α
  deriving DecidableEq, Repr

namespace OutQueue

variable {α : Type}

/-! ## §1 Operations -/

/-- The queue before anything is written. -/
def empty : OutQueue α := ⟨[], []⟩

/-- `write`: everything is appended to the FIFO. -/
def write (q : OutQueue α) (xs : List α) : OutQueue α := { q with fifo := q.fifo ++ xs }

/-- The driver moves up to `k` elements from the front of the FIFO to the line. -/
def drain (q : OutQueue α) (k : ℕ) : OutQueue α :=
  { line := q.line ++ q.fifo.take k, fifo := q.fifo.drop k }

/-- `tcflush` of the output: what still waits is discarded. -/
def flush (q : OutQueue α) : OutQueue α := { q with fifo := [] }

/-- What the queue has taken and not lost. -/
def accepted (q : OutQueue α) : List α := q.line ++ q.fifo

@[simp] theorem accepted_empty : (empty : OutQueue α).accepted = [] := rfl

@[simp] theorem accepted_write (q : OutQueue α) (xs : List α) :
    (q.write xs).accepted = q.accepted ++ xs := (List.append_assoc _ _ _).symm

@[simp] theorem accepted_drain (q : OutQueue α) (k : ℕ) :
    (q.drain k).accepted = q.accepted := by
  rw [accepted, drain, List.append_assoc, List.take_append_drop, accepted]

theorem accepted_flush (q : OutQueue α) (h : q.fifo = []) : q.flush.accepted = q.accepted := by
  rw [accepted, accepted, flush, h]

/-! ## §2 Runs -/

/-- One operation on the queue. -/
inductive Op (α : Type)
  | write (xs : List α)
  | drain (k : ℕ)
  | flush

/-- The effect of an operation. -/
def apply (q : OutQueue α) : Op α → OutQueue α
  | .write xs => q.write xs
  | .drain k => q.drain k
  | .flush => q.flush

/-- The queue after a list of operations. -/
def run (q : OutQueue α) : List (Op α) → OutQueue α
  | [] => q
  | op :: ops => (q.apply op).run ops

/-- What an operation writes. -/
def Op.written : Op α → List α
  | .write xs => xs
  | .drain _ => []
  | .flush => []

/-- What an operation loses. -/
def lost (q : OutQueue α) : Op α → ℕ
  | .write _ => 0
  | .drain _ => 0
  | .flush => q.fifo.length

/-- Every flush of a run finds the FIFO empty. -/
def Drained (q : OutQueue α) : List (Op α) → Prop
  | [] => True
  | op :: ops => q.lost op = 0 ∧ (q.apply op).Drained ops

theorem run_append (q : OutQueue α) (ops ops' : List (Op α)) :
    q.run (ops ++ ops') = (q.run ops).run ops' := by
  induction ops generalizing q with
  | nil => rfl
  | cons op ops ih => exact ih (q.apply op)

theorem drained_append (q : OutQueue α) (ops ops' : List (Op α)) :
    q.Drained (ops ++ ops') ↔ q.Drained ops ∧ (q.run ops).Drained ops' := by
  induction ops generalizing q with
  | nil => exact (iff_of_eq (true_and _)).symm
  | cons op ops ih =>
    rw [List.cons_append, Drained, Drained, ih, run, and_assoc]

/-- An operation that loses nothing adds what it writes. -/
theorem accepted_apply {q : OutQueue α} {op : Op α} (h : q.lost op = 0) :
    (q.apply op).accepted = q.accepted ++ op.written := by
  cases op with
  | write xs => exact q.accepted_write xs
  | drain k => rw [apply, accepted_drain, Op.written, List.append_nil]
  | flush => rw [apply, accepted_flush q (List.length_eq_zero_iff.mp h), Op.written,
      List.append_nil]

/-- What an operation loses is missing afterwards. -/
theorem length_accepted_apply (q : OutQueue α) (op : Op α) :
    (q.apply op).accepted.length + q.lost op = q.accepted.length + op.written.length := by
  cases op with
  | write xs => simp [apply, lost, Op.written]
  | drain k => simp [apply, lost, Op.written]
  | flush => simp [apply, lost, Op.written, accepted, flush]

theorem accepted_run {q : OutQueue α} {ops : List (Op α)} (h : q.Drained ops) :
    (q.run ops).accepted = q.accepted ++ ops.flatMap Op.written := by
  induction ops generalizing q with
  | nil => exact (List.append_nil _).symm
  | cons op ops ih =>
    rw [run, ih h.2, accepted_apply h.1, List.flatMap_cons, List.append_assoc]

theorem length_accepted_run_le (q : OutQueue α) (ops : List (Op α)) :
    (q.run ops).accepted.length ≤ q.accepted.length + (ops.flatMap Op.written).length := by
  induction ops generalizing q with
  | nil => simp [run]
  | cons op ops ih =>
    have hrest := ih (q.apply op)
    have hop := q.length_accepted_apply op
    rw [List.flatMap_cons, List.length_append, run]
    omega

theorem length_accepted_run_lt {q : OutQueue α} {ops : List (Op α)} (h : ¬ q.Drained ops) :
    (q.run ops).accepted.length < q.accepted.length + (ops.flatMap Op.written).length := by
  induction ops generalizing q with
  | nil => exact absurd trivial h
  | cons op ops ih =>
    have hop := q.length_accepted_apply op
    rw [List.flatMap_cons, List.length_append, run]
    -- either this operation is the flush that loses something, or a later one is, and nothing
    -- that follows can make up for it
    by_cases hlost : q.lost op = 0
    · have hrest := ih fun hdrained => h ⟨hlost, hdrained⟩
      omega
    · have hrest := (q.apply op).length_accepted_run_le ops
      omega

/-- **Losslessness**: a run keeps everything it writes, in order, exactly when every flush
finds the FIFO empty. -/
theorem accepted_run_iff (q : OutQueue α) (ops : List (Op α)) :
    (q.run ops).accepted = q.accepted ++ ops.flatMap Op.written ↔ q.Drained ops := by
  refine ⟨fun h => ?_, accepted_run⟩
  -- what was lost is missing from the length
  by_contra hdrained
  have hlt := length_accepted_run_lt hdrained
  rw [h, List.length_append] at hlt
  exact absurd hlt (Nat.lt_irrefl _)

end OutQueue

end GumstixExtras.Lib
