import Mathlib.Data.List.Basic
import Mathlib.Data.List.Nodup
import Mathlib.Data.List.ReduceOption
import Mathlib.Logic.Function.Iterate
import Mathlib.Tactic.Common

/-!
# Devices on a Shared Bus

Chips behind one bus, each with an address, and the accesses a host makes to them: bytes
behind a register number, or bytes without one. A register file is the device that such
accesses are made for. It keeps a register pointer, a write sets the pointer and stores
behind it, and a read goes on from where the pointer is.

- `Bus.run_writes`: what a run of writes to one chip does to the bus.
- `read_after_write`: what was stored in a register file is read back, whatever has happened
  on the bus since, as long as nothing stored over it.
-/

namespace GumstixExtras.Lib

/-! ## §1 Devices and accesses -/

/-- A device as the bus sees it. A read gives the number of bytes it was asked for. -/
structure Device (δ β : Type) where
  write : δ → List β → δ
  read : δ → ℕ → List β × δ
  length_read : ∀ d n, (read d n).1.length = n

/-- The accesses of a host, with a register number or without. -/
inductive Access (β : Type)
  | read (reg : β) (n : ℕ)
  | write (reg : β) (bytes : List β)
  | recv (n : ℕ)
  | send (bytes : List β)
  deriving DecidableEq, Repr

variable {α β δ : Type}

/-- What an access reads, and the device behind it. -/
def Access.perform (D : Device δ β) (d : δ) : Access β → List β × δ
  | .read reg n => D.read (D.write d [reg]) n
  | .write reg bytes => ([], D.write d (reg :: bytes))
  | .recv n => D.read d n
  | .send bytes => ([], D.write d bytes)

/-- An access to a chip. -/
structure Command (α β : Type) where
  chip : α
  access : Access β
  deriving DecidableEq, Repr

/-- What becomes of a command: there was none, nobody answered it, or it read some bytes. -/
inductive Reply (β : Type)
  | idle
  | nack
  | done (bytes : List β)
  deriving DecidableEq, Repr

/-! ## §2 The bus -/

/-- The chips by their addresses. -/
abbrev Bus (α δ : Type) := α → Option δ

section Bus

variable [DecidableEq α] (D : Device δ β) (bus : Bus α δ)

/-- The effect of a command. -/
def Bus.perform : Option (Command α β) → Reply β × Bus α δ
  | none => (.idle, bus)
  | some c =>
    match bus c.chip with
    | none => (.nack, bus)
    | some d =>
      (.done (c.access.perform D d).1,
        Function.update bus c.chip (some (c.access.perform D d).2))

/-- The effect of a list of commands. -/
def Bus.run (D : Device δ β) (bus : Bus α δ) :
    List (Option (Command α β)) → List (Reply β) × Bus α δ
  | [] => ([], bus)
  | c :: cs => ((bus.perform D c).1 :: ((bus.perform D c).2.run D cs).1,
      ((bus.perform D c).2.run D cs).2)

variable {D bus} {d : δ}

theorem Bus.perform_of_some {c : Command α β} (h : bus c.chip = some d) :
    bus.perform D (some c) = (.done (c.access.perform D d).1,
      Function.update bus c.chip (some (c.access.perform D d).2)) := by
  rw [perform, h]

theorem Bus.perform_self {a : α} (h : bus a = some d) (access : Access β) :
    (bus.perform D (some ⟨a, access⟩)).2 a = some (access.perform D d).2 := by
  rw [perform_of_some (c := ⟨a, access⟩) h]
  exact Function.update_self _ _ _

/-- What a command does to one chip: nothing, unless it is addressed to it. -/
theorem Bus.perform_chip {a : α} (h : bus a = some d) (c : Option (Command α β)) :
    (bus.perform D c).2 a = some d ∨
      ∃ c', c = some c' ∧ c'.chip = a ∧
        (bus.perform D c).2 a = some (c'.access.perform D d).2 := by
  cases c with
  | none => exact .inl h
  | some c =>
    by_cases hchip : c.chip = a
    · subst hchip
      exact .inr ⟨c, rfl, rfl, perform_self h c.access⟩
    · left
      cases hc : bus c.chip with
      | none => rwa [perform, hc]
      | some d' =>
        rw [perform_of_some hc]
        exact (Function.update_of_ne (Ne.symm hchip) _ _).trans h

/-- **Invariants**: what every access to a chip preserves holds of it after any run. -/
theorem Bus.run_invariant {P : δ → Prop} {a : α} {cs : List (Option (Command α β))}
    (hstep : ∀ c, some c ∈ cs → c.chip = a → ∀ d, P d → P (c.access.perform D d).2)
    (h : bus a = some d) (hd : P d) : ∃ d', (bus.run D cs).2 a = some d' ∧ P d' := by
  induction cs generalizing bus d with
  | nil => exact ⟨d, h, hd⟩
  | cons c cs ih =>
    have hrest := fun c' hc' => hstep c' (List.mem_cons_of_mem c hc')
    rcases bus.perform_chip (D := D) h c with hsame | ⟨c', rfl, hchip, hnext⟩
    · exact ih hrest hsame hd
    · exact ih hrest hnext (hstep c' List.mem_cons_self hchip d hd)

/-- The command that writes bytes behind a register of a chip. -/
def writeCommand (a : α) (w : β × List β) : Command α β := ⟨a, .write w.1 w.2⟩

/-- **Writes**: a run that only writes to one chip leaves it as the writes do, the first one
first, and every other chip as it was. -/
theorem Bus.run_writes {a : α} (h : bus a = some d) (ws : List (Option (β × List β))) :
    (bus.run D (ws.map fun w => w.map (writeCommand a))).2 =
      Function.update bus a
        (some (ws.reduceOption.foldl (fun d w => D.write d (w.1 :: w.2)) d)) := by
  induction ws generalizing bus d with
  | nil => exact (Function.update_eq_self_iff.mpr h.symm).symm
  | cons w ws ih =>
    cases w with
    | none => exact ih h
    | some w =>
      have hstep : (bus.perform D (some (writeCommand a w))).2 =
          Function.update bus a (some (D.write d (w.1 :: w.2))) := by
        rw [perform_of_some (c := writeCommand a w) h]
        rfl
      rw [List.map_cons, Option.map_some, run, hstep, ih (Function.update_self _ _ _),
        Function.update_idem, List.reduceOption_cons_of_some, List.foldl_cons]

end Bus

/-! ## §3 Register files -/

section RegisterFile

variable [DecidableEq β] (next : β → β)

/-- Consecutive addresses. -/
def addresses (a : β) : ℕ → List β
  | 0 => []
  | n + 1 => a :: addresses (next a) n

/-- Store values at consecutive addresses, the first one first. -/
def storeFrom (m : β → β) (a : β) : List β → β → β
  | [] => m
  | b :: bs => storeFrom (Function.update m a b) (next a) bs

/-- A register pointer and the registers. -/
structure RegisterFile (β : Type) where
  pointer : β
  cells : β → β

/-- The device: the first byte written is the register number. -/
def registerFile : Device (RegisterFile β) β where
  write d
    | [] => d
    | reg :: bytes => ⟨next^[bytes.length] reg, storeFrom next d.cells reg bytes⟩
  read d n := ((addresses next d.pointer n).map d.cells, ⟨next^[n] d.pointer, d.cells⟩)
  length_read d n := by
    have hlen : ∀ a n, (addresses next a n).length = n := by
      intro a n
      induction n generalizing a with
      | zero => rfl
      | succ n ih => rw [addresses, List.length_cons, ih]
    rw [List.length_map, hlen]

/-- The registers an access stores to. -/
def Access.stored : Access β → List β
  | .read _ _ => []
  | .write reg bytes => addresses next reg bytes.length
  | .recv _ => []
  | .send [] => []
  | .send (reg :: bytes) => addresses next reg bytes.length

variable {next}

/-- A register nobody stores to keeps its value. -/
theorem storeFrom_of_notMem {m : β → β} {a c : β} {bs : List β}
    (h : c ∉ addresses next a bs.length) : storeFrom next m a bs c = m c := by
  induction bs generalizing m a with
  | nil => rfl
  | cons b bs ih =>
    rw [List.length_cons, addresses, List.mem_cons, not_or] at h
    rw [storeFrom, ih h.2, Function.update_of_ne h.1]

/-- Registers that do not wrap around hold what was stored. -/
theorem map_storeFrom {m : β → β} {a : β} {bs : List β}
    (h : (addresses next a bs.length).Nodup) :
    (addresses next a bs.length).map (storeFrom next m a bs) = bs := by
  induction bs generalizing m a with
  | nil => rfl
  | cons b bs ih =>
    rw [List.length_cons, addresses, List.nodup_cons] at h
    have hhead : storeFrom next m a (b :: bs) a = b := by
      rw [storeFrom, storeFrom_of_notMem h.1, Function.update_self]
    rw [List.length_cons, addresses, List.map_cons, hhead]
    exact congrArg (b :: ·) (ih h.2)

/-- An access changes the registers it stores to, and no other. -/
theorem cells_perform {d : RegisterFile β} {access : Access β} {c : β}
    (h : c ∉ access.stored next) :
    (access.perform (registerFile next) d).2.cells c = d.cells c := by
  cases access with
  | read reg n => rfl
  | write reg bytes => exact storeFrom_of_notMem h
  | recv n => rfl
  | send bytes =>
    cases bytes with
    | nil => rfl
    | cons reg bytes => exact storeFrom_of_notMem h

/-- **Reading back**: what was written behind a register of a chip is what a later read from
this register gives, when no command in between stores to these registers of the chip. -/
theorem read_after_write [DecidableEq α] {bus : Bus α (RegisterFile β)} {a : α}
    (hchip : bus a ≠ none) {reg : β} {bytes : List β}
    (hdistinct : (addresses next reg bytes.length).Nodup) {between : List (Option (Command α β))}
    (hspares : ∀ c, some c ∈ between → c.chip = a →
      ∀ r ∈ addresses next reg bytes.length, r ∉ c.access.stored next) :
    ((bus.run (registerFile next) (some ⟨a, .write reg bytes⟩ :: between)).2.perform
      (registerFile next) (some ⟨a, .read reg bytes.length⟩)).1 = .done bytes := by
  obtain ⟨d, hd⟩ := Option.ne_none_iff_exists'.mp hchip
  -- right behind the write the registers hold the bytes
  have hwritten := Bus.perform_self (D := registerFile next) hd (.write reg bytes)
  -- and every command in between keeps them
  have hkeeps : ∀ c, some c ∈ between → c.chip = a → ∀ d' : RegisterFile β,
      (addresses next reg bytes.length).map d'.cells = bytes →
        (addresses next reg bytes.length).map
          (c.access.perform (registerFile next) d').2.cells = bytes := by
    intro c hc hca d' hd'
    refine Eq.trans (List.map_congr_left fun r hr => ?_) hd'
    exact cells_perform (hspares c hc hca r hr)
  obtain ⟨d', hd', hcells⟩ := Bus.run_invariant hkeeps hwritten (map_storeFrom hdistinct)
  rw [Bus.run, Bus.perform_of_some (c := ⟨a, .read reg bytes.length⟩) hd']
  exact congrArg Reply.done hcells

end RegisterFile

end GumstixExtras.Lib
