import Mathlib.Data.List.Basic
import Mathlib.Data.List.TakeWhile
import Mathlib.Logic.Function.Basic
import Mathlib.Tactic.Common

/-!
# Memories under Lists of Writes

A memory as a function from offsets to values, and what a list of single writes makes of
it: writes elsewhere do not matter (`applyWrites_of_forall_ne`), a block written is the
block read (`readBlock_blockWrites`), and strings in fields of fixed size survive whatever
was there before (`FieldString.read_writes`).
-/

namespace GumstixExtras.Lib

/-! ## §1 Writes -/

section Writes

variable {β : Type} (m : ℕ → β)

/-- The memory after a list of writes, the first one first. -/
def applyWrites (ws : List (ℕ × β)) : ℕ → β :=
  ws.foldl (fun m w => Function.update m w.1 w.2) m

@[simp] theorem applyWrites_nil : applyWrites m [] = m := rfl

theorem applyWrites_cons (w : ℕ × β) (ws : List (ℕ × β)) :
    applyWrites m (w :: ws) = applyWrites (Function.update m w.1 w.2) ws := rfl

theorem applyWrites_append (ws vs : List (ℕ × β)) :
    applyWrites m (ws ++ vs) = applyWrites (applyWrites m ws) vs := List.foldl_append

/-- A cell nobody writes keeps its value. -/
theorem applyWrites_of_forall_ne {ws : List (ℕ × β)} {i : ℕ} (h : ∀ w ∈ ws, w.1 ≠ i) :
    applyWrites m ws i = m i := by
  induction ws generalizing m with
  | nil => rfl
  | cons w ws ih =>
    rw [applyWrites_cons, ih _ fun v hv => h v (List.mem_cons_of_mem w hv)]
    exact Function.update_of_ne (h w List.mem_cons_self).symm _ _

/-- A write that may be left out does not matter where the value is there already. -/
theorem applyWrites_option {i : ℕ} {b : Option β} {c : β} (h : b.getD (m i) = c) :
    applyWrites m (b.map fun v => (i, v)).toList = Function.update m i c := by
  cases b with
  | none => exact (Function.update_eq_self_iff.mpr h.symm).symm
  | some v =>
    rw [← h]
    rfl

end Writes

/-! ## §2 Blocks -/

section Blocks

variable {β : Type} (m : ℕ → β)

/-- The writes of consecutive values from `off` on. -/
def blockWrites (off : ℕ) : List β → List (ℕ × β)
  | [] => []
  | b :: bs => (off, b) :: blockWrites (off + 1) bs

/-- The `len` values from `off` on. -/
def readBlock (off len : ℕ) : List β := (List.range len).map fun i => m (off + i)

@[simp] theorem length_readBlock (off len : ℕ) : (readBlock m off len).length = len := by
  simp [readBlock]

theorem readBlock_succ (off len : ℕ) :
    readBlock m off (len + 1) = m off :: readBlock m (off + 1) len := by
  simp [readBlock, List.range_succ_eq_map, Nat.add_comm, Nat.add_left_comm]

theorem readBlock_add (off k len : ℕ) :
    readBlock m off (k + len) = readBlock m off k ++ readBlock m (off + k) len := by
  simp [readBlock, List.range_add, Nat.add_assoc]

theorem range_of_mem_blockWrites {off : ℕ} {bs : List β} {w : ℕ × β}
    (h : w ∈ blockWrites off bs) : off ≤ w.1 ∧ w.1 < off + bs.length := by
  induction bs generalizing off with
  | nil => cases h
  | cons b bs ih =>
    rw [List.length_cons]
    rcases List.mem_cons.mp h with rfl | h
    · dsimp only
      omega
    · have := ih h
      omega

/-- Writes outside a block do not change what is read from it. -/
theorem readBlock_applyWrites {off len : ℕ} {ws : List (ℕ × β)}
    (h : ∀ w ∈ ws, w.1 < off ∨ off + len ≤ w.1) :
    readBlock (applyWrites m ws) off len = readBlock m off len := by
  refine List.map_congr_left fun i hi => ?_
  have hlt := List.mem_range.mp hi
  refine applyWrites_of_forall_ne m fun w hw => ?_
  have := h w hw
  omega

/-- The first value of a block is the last one written to its offset. -/
theorem applyWrites_blockWrites_head (off : ℕ) (b : β) (bs : List β) :
    applyWrites m (blockWrites off (b :: bs)) off = b := by
  rw [blockWrites, applyWrites_cons, applyWrites_of_forall_ne, Function.update_self]
  -- the rest of the block goes to later offsets
  intro w hw
  have := range_of_mem_blockWrites hw
  omega

/-- The first writes of a block are those of its first values. -/
theorem prefix_blockWrites {off : ℕ} {bs : List β} {ws : List (ℕ × β)}
    (h : ws <+: blockWrites off bs) : ∃ k, k ≤ bs.length ∧ ws = blockWrites off (bs.take k) := by
  induction bs generalizing off ws with
  | nil => exact ⟨0, Nat.le_refl 0, List.prefix_nil.mp h⟩
  | cons b bs ih =>
    rcases List.prefix_cons_iff.mp h with rfl | ⟨ws', rfl, h'⟩
    · exact ⟨0, Nat.zero_le _, rfl⟩
    · obtain ⟨k, hk, rfl⟩ := ih h'
      exact ⟨k + 1, Nat.succ_le_succ hk, rfl⟩

/-- Each value of a block is at its offset. -/
theorem applyWrites_blockWrites_getElem (off : ℕ) {bs : List β} {i : ℕ} (hi : i < bs.length) :
    applyWrites m (blockWrites off bs) (off + i) = bs[i] := by
  induction bs generalizing m off i with
  | nil => cases hi
  | cons b bs ih =>
    cases i with
    | zero => exact applyWrites_blockWrites_head m off b bs
    | succ i =>
      have hshift : off + (i + 1) = off + 1 + i := by omega
      rw [blockWrites, applyWrites_cons, hshift]
      exact ih _ (off + 1) (Nat.lt_of_succ_lt_succ hi)

/-- A block that has been written reads back. -/
theorem readBlock_blockWrites (off : ℕ) (bs : List β) :
    readBlock (applyWrites m (blockWrites off bs)) off bs.length = bs := by
  induction bs generalizing m off with
  | nil => rfl
  | cons b bs ih =>
    rw [List.length_cons, readBlock_succ, applyWrites_blockWrites_head, blockWrites,
      applyWrites_cons, ih]

end Blocks

/-! ## §3 Strings in fields -/

/-- A string that fits a field of `size` bytes with its terminator, and does not contain
the terminator itself. -/
structure FieldString (size : ℕ) where
  bytes : List UInt8
  noNul : (0 : UInt8) ∉ bytes
  fits : bytes.length < size
  deriving DecidableEq

namespace FieldString

variable {size : ℕ}

@[ext] theorem ext {s t : FieldString size} (h : s.bytes = t.bytes) : s = t := by
  cases s
  cases t
  cases h
  rfl

/-- The writes that put the string and its terminator into the field at `off`. -/
def writes (s : FieldString size) (off : ℕ) : List (ℕ × UInt8) :=
  blockWrites off (s.bytes ++ [0])

theorem length_takeWhile_lt {block : List UInt8} (h : (0 : UInt8) ∈ block) :
    (block.takeWhile (· ≠ 0)).length < block.length := by
  refine Nat.lt_of_le_of_ne (List.takeWhile_prefix _).length_le fun hlen => ?_
  -- otherwise the terminator itself would be among the bytes before it
  have heq := (List.takeWhile_prefix _).eq_of_length hlen
  simpa using List.takeWhile_eq_self_iff.mp heq 0 h

/-- The string in the field at `off`, if the field holds a terminator. -/
def read (m : ℕ → UInt8) (off size : ℕ) : Option (FieldString size) :=
  if h : (0 : UInt8) ∈ readBlock m off size then
    some ⟨(readBlock m off size).takeWhile (· ≠ 0), fun h0 => by
      simpa using List.mem_takeWhile_imp h0,
      (length_takeWhile_lt h).trans_eq (length_readBlock m off size)⟩
  else none

/-- A string written into its field reads back, whatever the field held. -/
theorem read_writes (m : ℕ → UInt8) (s : FieldString size) (off : ℕ) :
    read (applyWrites m (s.writes off)) off size = some s := by
  -- the field is the string, its terminator and whatever was there behind it
  have hblock : readBlock (applyWrites m (s.writes off)) off size =
      s.bytes ++ 0 :: readBlock (applyWrites m (s.writes off))
        (off + (s.bytes ++ [0]).length) (size - (s.bytes ++ [0]).length) := by
    have hsize : size = (s.bytes ++ [0]).length + (size - (s.bytes ++ [0]).length) := by
      have := s.fits
      simp
      omega
    refine (congrArg (readBlock (applyWrites m (s.writes off)) off) hsize).trans ?_
    rw [readBlock_add, writes, readBlock_blockWrites, List.append_assoc, List.singleton_append]
  have hmem : (0 : UInt8) ∈ readBlock (applyWrites m (s.writes off)) off size := by
    rw [hblock]
    simp
  have htake : (readBlock (applyWrites m (s.writes off)) off size).takeWhile (· ≠ 0) =
      s.bytes := by
    rw [hblock, List.takeWhile_append_of_pos]
    · simp
    · intro b hb
      simpa using fun h0 : b = 0 => s.noNul (h0 ▸ hb)
  rw [read, dif_pos hmem]
  exact congrArg some (FieldString.ext htake)

/-- The writes of a string stay in its field. -/
theorem range_of_mem_writes (s : FieldString size) {off : ℕ} {w : ℕ × UInt8}
    (h : w ∈ s.writes off) : off ≤ w.1 ∧ w.1 < off + size := by
  have hrange := range_of_mem_blockWrites h
  have := s.fits
  simp at hrange
  omega

end FieldString

/-- What a field holds depends on the cells of the field only. -/
theorem FieldString.read_applyWrites {m : ℕ → UInt8} {off size : ℕ} {ws : List (ℕ × UInt8)}
    (h : ∀ w ∈ ws, w.1 < off ∨ off + size ≤ w.1) :
    FieldString.read (applyWrites m ws) off size = FieldString.read m off size := by
  simp only [FieldString.read, readBlock_applyWrites m h]

end GumstixExtras.Lib
