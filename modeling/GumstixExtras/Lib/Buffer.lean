import Mathlib.Data.List.Basic
import Mathlib.Tactic.Common

/-!
# Bounded Buffers with Indeterminate Cells

A C array of automatic storage duration: a fixed number of cells, each of which is
indeterminate until it is assigned. A store outside the array, and a load from outside it
or from a cell nobody assigned, is a fault rather than a value.

The rules `write_eq` and `Filled.read` say what the block operations do when they stay in
bounds; a program over buffers is executed by rewriting with them.
-/

namespace GumstixExtras.Lib

/-! ## §1 Faults -/

/-- Accesses that have no defined result. -/
inductive Fault
  | outOfBounds (index size : ℕ)
  | indeterminate (index : ℕ)
  deriving DecidableEq, Repr

/-- A computation that already has its value goes on with it. -/
@[simp] theorem ok_bind {ε α β : Type} (a : α) (f : α → Except ε β) :
    (Except.ok a >>= f) = f a := rfl

@[simp] theorem pure_eq_ok {ε α : Type} (a : α) : (pure a : Except ε α) = Except.ok a := rfl

/-- A computation that succeeds has a first part that succeeds and a rest that does. -/
theorem bind_eq_ok_iff {ε α β : Type} {x : Except ε α} {f : α → Except ε β} {b : β} :
    (x >>= f) = Except.ok b ↔ ∃ a, x = Except.ok a ∧ f a = Except.ok b := by
  cases x with
  | error e => simp [bind, Except.bind]
  | ok a => simp

theorem map_eq_ok_iff {ε α β : Type} {x : Except ε α} {f : α → β} {b : β} :
    x.map f = Except.ok b ↔ ∃ a, x = Except.ok a ∧ f a = b := by
  cases x <;> simp [Except.map]

/-! ## §2 Buffers -/

/-- An array of `n` cells; `none` is a cell that has not been assigned. -/
structure Buffer (α : Type) (n : ℕ) where
  cells : List (Option α)
  length_cells : cells.length = n
  deriving DecidableEq, Repr

namespace Buffer

variable {α : Type} {n : ℕ}

@[ext] theorem ext {b c : Buffer α n} (h : b.cells = c.cells) : b = c := by
  cases b
  cases c
  cases h
  rfl

/-- A buffer as its declaration leaves it. -/
def uninit (n : ℕ) : Buffer α n := ⟨List.replicate n none, List.length_replicate⟩

/-- The buffer that holds exactly the given values. -/
def ofList (xs : List α) : Buffer α xs.length := ⟨xs.map some, List.length_map _⟩

@[simp] theorem cells_uninit : (uninit n : Buffer α n).cells = List.replicate n none := rfl

@[simp] theorem cells_ofList (xs : List α) : (ofList xs).cells = xs.map some := rfl

/-- Assign one cell. -/
def store (b : Buffer α n) (i : ℕ) (v : α) : Except Fault (Buffer α n) :=
  if i < n then
    .ok ⟨b.cells.set i (some v), by rw [List.length_set, b.length_cells]⟩
  else
    .error (.outOfBounds i n)

/-- Read one cell. -/
def load (b : Buffer α n) (i : ℕ) : Except Fault α :=
  match b.cells[i]? with
  | none => .error (.outOfBounds i n)
  | some none => .error (.indeterminate i)
  | some (some v) => .ok v

/-- Assign consecutive cells from `off` on. -/
def write (b : Buffer α n) (off : ℕ) : List α → Except Fault (Buffer α n)
  | [] => .ok b
  | x :: xs => do
    let b ← b.store off x
    b.write (off + 1) xs

/-- Read `len` consecutive cells from `off` on. -/
def read (b : Buffer α n) (off : ℕ) : ℕ → Except Fault (List α)
  | 0 => .ok []
  | len + 1 => do
    let v ← b.load off
    let vs ← b.read (off + 1) len
    pure (v :: vs)

/-! ## §3 Writing -/

/-- The buffer with `xs` in its cells from `off` on. -/
def splice (b : Buffer α n) (off : ℕ) (xs : List α) (h : off + xs.length ≤ n) :
    Buffer α n :=
  ⟨b.cells.take off ++ xs.map some ++ b.cells.drop (off + xs.length), by
    simp only [List.length_append, List.length_take, List.length_map, List.length_drop,
      b.length_cells]
    omega⟩

theorem cells_splice (b : Buffer α n) (off : ℕ) (xs : List α) (h : off + xs.length ≤ n) :
    (b.splice off xs h).cells =
      b.cells.take off ++ xs.map some ++ b.cells.drop (off + xs.length) := rfl

/-- The cells up to, at and after a position inside the buffer. -/
theorem exists_cells_eq (b : Buffer α n) {i : ℕ} (h : i < n) :
    ∃ front c rest, b.cells = front ++ c :: rest ∧ front.length = i := by
  have hi : i < b.cells.length := by rw [b.length_cells]; exact h
  refine ⟨b.cells.take i, b.cells[i], b.cells.drop (i + 1), ?_, ?_⟩
  · rw [← List.drop_eq_getElem_cons hi, List.take_append_drop]
  · rw [List.length_take]
    omega

theorem store_eq (b : Buffer α n) {i : ℕ} (h : i < n) (v : α) :
    b.store i v = .ok (b.splice i [v] h) := by
  -- around the cell that is assigned nothing changes
  obtain ⟨front, c, rest, hcells, rfl⟩ := b.exists_cells_eq h
  simp only [store, h, if_true, Except.ok.injEq]
  apply Buffer.ext
  simp [cells_splice, hcells]

theorem splice_splice (b : Buffer α n) {off : ℕ} {x : α} {xs : List α}
    (h : off + (x :: xs).length ≤ n) (h₁ : off + [x].length ≤ n)
    (h₂ : off + 1 + xs.length ≤ n) :
    (b.splice off [x] h₁).splice (off + 1) xs h₂ = b.splice off (x :: xs) h := by
  obtain ⟨front, c, rest, hcells, rfl⟩ := b.exists_cells_eq (i := off) (by simp at h₁; omega)
  apply Buffer.ext
  have htake : (front ++ some x :: rest).take (front.length + 1) = front ++ [some x] := by
    rw [List.take_length_add_append, List.take_succ_cons, List.take_zero]
  simp [cells_splice, hcells, Nat.add_assoc, Nat.add_comm 1, htake]

/-- An in-bounds write succeeds and replaces exactly the cells it covers. -/
theorem write_eq (b : Buffer α n) {off : ℕ} {xs : List α} (h : off + xs.length ≤ n) :
    b.write off xs = .ok (b.splice off xs h) := by
  induction xs generalizing b off with
  | nil =>
    apply congrArg Except.ok
    apply Buffer.ext
    simp [cells_splice, List.take_append_drop]
  | cons x xs ih =>
    -- the first cell is in bounds, and so is the rest behind it
    have hoff : off < n := by simp at h; omega
    have hrest : off + 1 + xs.length ≤ n := by simp at h; omega
    rw [write, store_eq b hoff x, ok_bind, ih _ hrest, splice_splice]

/-- What was written lies inside the buffer. -/
theorem le_of_write {b b' : Buffer α n} {off : ℕ} {xs : List α} (hoff : off ≤ n)
    (h : b.write off xs = .ok b') : off + xs.length ≤ n := by
  induction xs generalizing b off with
  | nil => exact hoff
  | cons x xs ih =>
    rw [write] at h
    obtain ⟨next, hnext, h⟩ := bind_eq_ok_iff.mp h
    have hlt : off < n := by
      by_contra hge
      rw [store, if_neg hge] at hnext
      cases hnext
    rw [List.length_cons, Nat.add_comm xs.length, ← Nat.add_assoc]
    exact ih hlt h

/-- Behind what is written at the front nothing changes. -/
theorem drop_splice_zero (b : Buffer α n) {xs : List α} (h : 0 + xs.length ≤ n) {m : ℕ}
    (hm : xs.length ≤ m) : (b.splice 0 xs h).cells.drop m = b.cells.drop m := by
  have hfront : (xs.map some).length ≤ m := by rw [List.length_map]; exact hm
  rw [cells_splice, List.take_zero, List.nil_append, Nat.zero_add, List.drop_append,
    List.drop_of_length_le hfront, List.nil_append, List.drop_drop, List.length_map,
    Nat.add_sub_cancel' hm]

/-! ## §4 Buffers filled from the front -/

/-- The first cells hold `xs`. -/
def Filled (b : Buffer α n) (xs : List α) : Prop := b.cells.take xs.length = xs.map some

theorem filled_nil (b : Buffer α n) : b.Filled [] := by simp [Filled]

theorem filled_ofList (xs : List α) : (ofList xs).Filled xs :=
  List.take_of_length_le (by simp)

theorem Filled.length_le {b : Buffer α n} {xs : List α} (h : b.Filled xs) : xs.length ≤ n := by
  have hlen := congrArg List.length h
  rw [List.length_take, List.length_map, b.length_cells] at hlen
  omega

theorem Filled.of_append {b : Buffer α n} {xs ys : List α} (h : b.Filled (xs ++ ys)) :
    b.Filled xs := by
  have htake := congrArg (List.take xs.length) h
  rwa [List.take_take, List.map_append, List.length_append, Nat.min_eq_left (Nat.le_add_right _ _),
    List.take_left' (List.length_map _)] at htake

/-- Writing right after the filled part extends it. -/
theorem Filled.splice {b : Buffer α n} {xs : List α} (hb : b.Filled xs) (ys : List α)
    (h : xs.length + ys.length ≤ n) : (b.splice xs.length ys h).Filled (xs ++ ys) := by
  have htake : b.cells.take xs.length = xs.map some := hb
  rw [Filled, cells_splice, htake, ← List.map_append]
  exact List.take_left' (by simp)

/-- Writing at the front changes nothing exactly when the values are there already. -/
theorem splice_zero_eq_iff (b : Buffer α n) {xs : List α} (h : 0 + xs.length ≤ n) :
    b.splice 0 xs h = b ↔ b.Filled xs := by
  constructor
  · intro heq
    have hfilled := (filled_nil b).splice xs h
    simp only [List.length_nil] at hfilled
    rwa [heq, List.nil_append] at hfilled
  · intro hb
    have htake : b.cells.take xs.length = xs.map some := hb
    apply Buffer.ext
    rw [cells_splice, List.take_zero, List.nil_append, Nat.zero_add, ← htake,
      List.take_append_drop]

/-- Storing right after the filled part extends it by one value. -/
theorem Filled.exists_store {b : Buffer α n} {xs : List α} (hb : b.Filled xs)
    (h : xs.length < n) (v : α) :
    ∃ b', b.store xs.length v = .ok b' ∧ b'.Filled (xs ++ [v]) :=
  ⟨_, b.store_eq h v, hb.splice [v] h⟩

/-- Copying right after the filled part extends it by the copied values. -/
theorem Filled.exists_write {b : Buffer α n} {xs : List α} (hb : b.Filled xs) (ys : List α)
    (h : xs.length + ys.length ≤ n) :
    ∃ b', b.write xs.length ys = .ok b' ∧ b'.Filled (xs ++ ys) :=
  ⟨_, b.write_eq h, hb.splice ys h⟩

theorem Filled.load {b : Buffer α n} {xs : List α} (hb : b.Filled xs) {i : ℕ}
    (h : i < xs.length) : b.load i = .ok xs[i] := by
  have hcell : (b.cells.take xs.length)[i]? = (xs.map some)[i]? := by rw [hb]
  rw [List.getElem?_take_of_lt h, List.getElem?_map, List.getElem?_eq_getElem h] at hcell
  simp [Buffer.load, hcell]

/-- Cells that can all be read are filled. -/
theorem exists_filled {b : Buffer α n} {m : ℕ} (h : ∀ i < m, ∃ v, b.load i = .ok v) :
    ∃ xs, xs.length = m ∧ b.Filled xs := by
  induction m with
  | zero => exact ⟨[], rfl, b.filled_nil⟩
  | succ m ih =>
    obtain ⟨xs, rfl, hxs⟩ := ih fun i hi => h i (Nat.lt_succ_of_lt hi)
    obtain ⟨v, hv⟩ := h xs.length (Nat.lt_succ_self _)
    refine ⟨xs ++ [v], List.length_append, ?_⟩
    -- the next cell is there, and it has been assigned
    unfold Buffer.load at hv
    have hcell : b.cells[xs.length]? = some (some v) := by
      split at hv
      · cases hv
      · cases hv
      · next heq => rw [heq, Except.ok.inj hv]
    rw [Filled, List.length_append, List.length_singleton, List.take_add_one, hcell, hxs,
      List.map_append]
    rfl

/-- Every cell of a block that was read can be read. -/
theorem load_of_read {b : Buffer α n} {off len : ℕ} {vs : List α} (h : b.read off len = .ok vs)
    {i : ℕ} (hi : i < len) : ∃ v, b.load (off + i) = .ok v := by
  induction len generalizing off vs i with
  | zero => exact absurd hi (Nat.not_lt_zero i)
  | succ len ih =>
    rw [Buffer.read] at h
    obtain ⟨v, hv, h⟩ := bind_eq_ok_iff.mp h
    obtain ⟨rest, hrest, -⟩ := bind_eq_ok_iff.mp h
    cases i with
    | zero => exact ⟨v, hv⟩
    | succ i =>
      rw [Nat.add_comm i 1, ← Nat.add_assoc]
      exact ih hrest (Nat.lt_of_succ_lt_succ hi)

/-- Reading inside the filled part gives back what is there. -/
theorem Filled.read {b : Buffer α n} {xs : List α} (hb : b.Filled xs) (off len : ℕ)
    (h : off + len ≤ xs.length) : b.read off len = .ok ((xs.drop off).take len) := by
  induction len generalizing off with
  | zero => simp [Buffer.read]
  | succ len ih =>
    have hoff : off < xs.length := by omega
    -- the first value, then the shorter run behind it
    rw [Buffer.read, hb.load hoff, ok_bind, ih (off + 1) (by omega), ok_bind, pure_eq_ok,
      List.drop_eq_getElem_cons hoff, List.take_succ_cons]

theorem Filled.read_all {b : Buffer α n} {xs : List α} (hb : b.Filled xs) :
    b.read 0 xs.length = .ok xs := by
  rw [hb.read 0 xs.length (by omega), List.drop_zero, List.take_length]

/-- Copying to the front fills the front. -/
theorem exists_write_zero (b : Buffer α n) {xs : List α} (h : xs.length ≤ n) :
    ∃ b', b.write 0 xs = .ok b' ∧ b'.Filled xs := by
  have hroom : ([] : List α).length + xs.length ≤ n := by
    rw [List.length_nil, Nat.zero_add]
    exact h
  exact b.filled_nil.exists_write xs hroom

/-- From a buffer that nothing was assigned nothing can be read. -/
theorem read_uninit {off len : ℕ} (h : 0 < len) (vs : List α) :
    (uninit n : Buffer α n).read off len ≠ .ok vs := by
  obtain ⟨len, rfl⟩ := Nat.exists_eq_succ_of_ne_zero (Nat.ne_of_gt h)
  intro hread
  rw [read] at hread
  obtain ⟨v, hv, -⟩ := bind_eq_ok_iff.mp hread
  unfold load at hv
  cases hcell : (uninit n : Buffer α n).cells[off]? with
  | none =>
    rw [hcell] at hv
    cases hv
  | some c =>
    have hc : c = none := List.eq_of_mem_replicate (List.mem_of_getElem? hcell)
    rw [hcell, hc] at hv
    cases hv

end Buffer

end GumstixExtras.Lib
