import GumstixExtras.Lib.Buffer

/-!
# Strings in Arrays

A C string is what stands in an array up to the first zero. `strcpy` puts a string at the front
of an array, zero included, and never asks how long the array is.
-/

namespace GumstixExtras.Lib

/-- The character that ends a string. -/
def nul : Char := Char.ofNat 0

/-- `strcpy`. -/
def strcpy {n : ℕ} (dest : Buffer Char n) (src : List Char) : Except Fault (Buffer Char n) :=
  dest.write 0 (src ++ [nul])

/-- The string that starts at an index; `fuel` bounds its length. -/
def stringFrom {n : ℕ} (b : Buffer Char n) (i : ℕ) : ℕ → Except Fault (List Char)
  | 0 => .error (.outOfBounds i n)
  | fuel + 1 => do
    let c ← b.load i
    if c = nul then pure []
    else do
      let cs ← stringFrom b (i + 1) fuel
      pure (c :: cs)

/-- The string in an array. -/
def cString {n : ℕ} (b : Buffer Char n) : Except Fault (List Char) := stringFrom b 0 n

section

variable {n : ℕ} {b : Buffer Char n} {s : List Char}

/-- A string is copied within the array exactly when it is shorter. -/
theorem strcpy_ok_iff (dest : Buffer Char n) : (∃ b, strcpy dest s = .ok b) ↔ s.length < n := by
  constructor
  · intro ⟨b, hb⟩
    have hle := Buffer.le_of_write (Nat.zero_le n) hb
    rw [Nat.zero_add, List.length_append, List.length_singleton] at hle
    exact hle
  · intro hlt
    have hroom : (s ++ [nul]).length ≤ n := by
      rw [List.length_append, List.length_singleton]
      exact hlt
    obtain ⟨b, hb, _⟩ := dest.exists_write_zero hroom
    exact ⟨b, hb⟩

theorem stringFrom_filled {front : List Char} (h : b.Filled (front ++ s ++ [nul]))
    (hs : nul ∉ s) {fuel : ℕ} (hfuel : s.length < fuel) :
    stringFrom b front.length fuel = .ok s := by
  -- induction on the characters in front of the zero
  induction s generalizing front fuel with
  | nil =>
    obtain ⟨fuel, rfl⟩ := Nat.exists_eq_succ_of_ne_zero (Nat.ne_of_gt hfuel)
    have hload := h.load (i := front.length) (by simp)
    rw [stringFrom, hload, ok_bind]
    simp
  | cons c s ih =>
    obtain ⟨fuel, rfl⟩ := Nat.exists_eq_succ_of_ne_zero (Nat.ne_of_gt (Nat.zero_lt_of_lt hfuel))
    have hload := h.load (i := front.length) (by simp)
    have hc : c ≠ nul := fun heq => hs (heq ▸ List.mem_cons_self)
    have hrest : b.Filled ((front ++ [c]) ++ s ++ [nul]) := by simpa using h
    have hnext := ih hrest (fun hmem => hs (List.mem_cons_of_mem c hmem))
      (Nat.lt_of_succ_lt_succ hfuel)
    rw [List.length_append, List.length_singleton] at hnext
    rw [stringFrom, hload, ok_bind]
    simp [hc, hnext]

/-- What was copied is read back. -/
theorem cString_strcpy {dest : Buffer Char n} (h : strcpy dest s = .ok b) (hs : nul ∉ s) :
    cString b = .ok s := by
  have hlt := (strcpy_ok_iff dest).mp ⟨b, h⟩
  have hroom : (s ++ [nul]).length ≤ n := by
    rw [List.length_append, List.length_singleton]
    exact hlt
  obtain ⟨b', hb', hfilled⟩ := dest.exists_write_zero hroom
  obtain rfl := Except.ok.inj (hb'.symm.trans h)
  have hstart : b'.Filled ([] ++ s ++ [nul]) := hfilled
  exact stringFrom_filled hstart hs hlt

end

end GumstixExtras.Lib
