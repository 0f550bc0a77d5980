import Mathlib.Data.List.Basic
import Mathlib.Tactic.Common

/-!
# Transducers and Their Multiplexing

A transducer reads a stream and puts out a message now and then. When several sides feed
one transducer in turns, each side gets the messages its own bytes complete. The question is
when a side gets what it would get from a transducer of its own: `sideOutputs_eq` says that
this is so when every change of sides finds the shared state equivalent to a fresh one.
-/

namespace GumstixExtras.Lib

/-- A deterministic automaton with optional output. -/
structure Transducer (σ α μ : Type) where
  fresh : σ
  step : σ → α → σ × Option μ

namespace Transducer

variable {σ α μ ι : Type} (T : Transducer σ α μ)

/-! ## §1 Runs -/

/-- The state after an input. -/
def next (s : σ) (a : α) : σ := (T.step s a).1

/-- The messages of one input. -/
def emit (s : σ) (a : α) : List μ := (T.step s a).2.toList

/-- The state after a list of inputs. -/
def after (s : σ) : List α → σ
  | [] => s
  | a :: as => after (T.next s a) as

/-- The messages of a list of inputs. -/
def outputs (s : σ) : List α → List μ
  | [] => []
  | a :: as => T.emit s a ++ outputs (T.next s a) as

/-- What a transducer of one's own makes of a stream. -/
def extract (as : List α) : List μ := T.outputs T.fresh as

theorem after_append (s : σ) (as bs : List α) :
    T.after s (as ++ bs) = T.after (T.after s as) bs := by
  induction as generalizing s with
  | nil => rfl
  | cons a as ih => exact ih (T.next s a)

theorem outputs_append (s : σ) (as bs : List α) :
    T.outputs s (as ++ bs) = T.outputs s as ++ T.outputs (T.after s as) bs := by
  induction as generalizing s with
  | nil => rfl
  | cons a as ih => rw [List.cons_append, outputs, outputs, after, ih, List.append_assoc]

/-! ## §2 Observational equivalence -/

/-- No stream tells the two states apart. -/
def Equiv (s t : σ) : Prop := ∀ as, T.outputs s as = T.outputs t as

variable {T} {s t u : σ}

theorem Equiv.refl (s : σ) : T.Equiv s s := fun _ => rfl

theorem Equiv.symm (h : T.Equiv s t) : T.Equiv t s := fun as => (h as).symm

theorem Equiv.trans (h : T.Equiv s t) (h' : T.Equiv t u) : T.Equiv s u := fun as =>
  (h as).trans (h' as)

theorem Equiv.emit_eq (h : T.Equiv s t) (a : α) : T.emit s a = T.emit t a := by
  have := h [a]
  simpa [outputs] using this

theorem Equiv.next (h : T.Equiv s t) (a : α) : T.Equiv (T.next s a) (T.next t a) := by
  intro as
  -- the messages of the first input agree, so those of the rest do
  have hcons := h (a :: as)
  rw [outputs, outputs, h.emit_eq a] at hcons
  exact List.append_cancel_left hcons

/-! ## §3 Multiplexing -/

section Multiplexing

variable (T) [DecidableEq ι] (who : ι)

/-- The inputs of one side. -/
def inputsOf (h : List (ι × α)) : List α :=
  (h.filter fun x => x.1 = who).map Prod.snd

theorem inputsOf_concat (h : List (ι × α)) (side : ι) (a : α) :
    inputsOf who (h ++ [(side, a)]) = inputsOf who h ++ if side = who then [a] else [] := by
  by_cases hside : side = who <;> simp [inputsOf, hside]

/-- The messages one side gets from the shared transducer. -/
def sideOutputs (s : σ) : List (ι × α) → List μ
  | [] => []
  | (side, a) :: h => (if side = who then T.emit s a else []) ++ sideOutputs (T.next s a) h

/-- Every input that follows one of another side finds the state equivalent to a fresh one;
`last` is the side of the previous input. -/
def SwitchesFresh (s : σ) (last : Option ι) : List (ι × α) → Prop
  | [] => True
  | (side, a) :: h => (∀ l, last = some l → l ≠ side → T.Equiv s T.fresh) ∧
      SwitchesFresh (T.next s a) (some side) h

theorem sideOutputs_append (s : σ) (h h' : List (ι × α)) :
    T.sideOutputs who s (h ++ h') =
      T.sideOutputs who s h ++ T.sideOutputs who (T.after s (h.map Prod.snd)) h' := by
  induction h generalizing s with
  | nil => rfl
  | cons x h ih =>
    rw [List.cons_append, sideOutputs, sideOutputs, ih, List.append_assoc]
    rfl

/-- How the shared state and the state of a transducer of one's own are related: they are
equivalent while the side is on, and in between both have come back to a fresh one. -/
def Tracks (s t : σ) : Option ι → Prop
  | none => T.Equiv s T.fresh ∧ T.Equiv t T.fresh
  | some l => if l = who then T.Equiv s t else T.Equiv t T.fresh

variable {T who} {last : Option ι} {side : ι}

/-- When the side's own input comes, the two states are equivalent. -/
theorem Tracks.equiv (h : T.Tracks who s t last)
    (hswitch : ∀ l, last = some l → l ≠ who → T.Equiv s T.fresh) : T.Equiv s t := by
  cases last with
  | none => exact h.1.trans h.2.symm
  | some l =>
    -- either the side was on already, or the change of sides finds both fresh
    by_cases hl : l = who
    · rwa [Tracks, if_pos hl] at h
    · rw [Tracks, if_neg hl] at h
      exact (hswitch l rfl hl).trans h.symm

/-- When another side's input comes, the side's own state is equivalent to a fresh one. -/
theorem Tracks.fresh (h : T.Tracks who s t last) (hside : side ≠ who)
    (hswitch : ∀ l, last = some l → l ≠ side → T.Equiv s T.fresh) : T.Equiv t T.fresh := by
  cases last with
  | none => exact h.2
  | some l =>
    -- a side that leaves has come back to a fresh state, or this would be no fresh change
    by_cases hl : l = who
    · rw [Tracks, if_pos hl] at h
      exact h.symm.trans (hswitch l rfl (hl.trans_ne hside.symm))
    · rwa [Tracks, if_neg hl] at h

theorem sideOutputs_eq_of_tracks {h : List (ι × α)} (hswitches : T.SwitchesFresh s last h)
    (htracks : T.Tracks who s t last) :
    T.sideOutputs who s h = T.outputs t (inputsOf who h) := by
  induction h generalizing s t last with
  | nil => rfl
  | cons x h ih =>
    obtain ⟨side, a⟩ := x
    obtain ⟨hswitch, hrest⟩ := hswitches
    -- induction on the history; `Tracks` is what each input preserves
    by_cases hside : side = who
    · subst hside
      have hequiv := htracks.equiv hswitch
      have hnext : T.Tracks side (T.next s a) (T.next t a) (some side) := by
        rw [Tracks, if_pos rfl]
        exact hequiv.next a
      have hinputs : inputsOf side ((side, a) :: h) = a :: inputsOf side h := by
        simp [inputsOf]
      rw [sideOutputs, if_pos rfl, hinputs, outputs, hequiv.emit_eq a, ih hrest hnext]
    · have hnext : T.Tracks who (T.next s a) t (some side) := by
        rw [Tracks, if_neg hside]
        exact htracks.fresh hside hswitch
      have hinputs : inputsOf who ((side, a) :: h) = inputsOf who h := by
        simp [inputsOf, hside]
      rw [sideOutputs, if_neg hside, hinputs, List.nil_append, ih hrest hnext]

/-- **Multiplexing**: when every change of sides finds the shared state equivalent to a fresh
one, each side gets what a transducer of its own would give it. -/
theorem sideOutputs_eq {h : List (ι × α)} (hswitches : T.SwitchesFresh T.fresh none h) :
    T.sideOutputs who T.fresh h = T.extract (inputsOf who h) :=
  sideOutputs_eq_of_tracks hswitches ⟨Equiv.refl _, Equiv.refl _⟩

end Multiplexing

/-! ## §4 Whole blocks -/

variable {side : ι}

/-- Going on with one's own inputs is never a change of sides. -/
theorem switchesFresh_map_append (as : List α) (h : List (ι × α)) :
    T.SwitchesFresh s (some side) (as.map (side, ·) ++ h) ↔
      T.SwitchesFresh (T.after s as) (some side) h := by
  induction as generalizing s with
  | nil => rfl
  | cons a as ih =>
    rw [List.map_cons, List.cons_append, SwitchesFresh, ih]
    exact and_iff_right fun l hl hne => absurd (Option.some.inj hl).symm hne

/-- Sides that only take turns between whole blocks, each of which brings a fresh state back
to a fresh one, always find a fresh state. -/
theorem switchesFresh_blocks {blocks : List (ι × List α)} (last : Option ι)
    (hblocks : ∀ b ∈ blocks, T.after T.fresh b.2 = T.fresh) :
    T.SwitchesFresh T.fresh last (blocks.flatMap fun b => b.2.map (b.1, ·)) := by
  induction blocks generalizing last with
  | nil => exact trivial
  | cons b blocks ih =>
    obtain ⟨side, as⟩ := b
    have hafter : T.after T.fresh as = T.fresh := hblocks (side, as) List.mem_cons_self
    have hrest := fun last => ih last fun b hb => hblocks b (List.mem_cons_of_mem _ hb)
    rw [List.flatMap_cons]
    -- the first input of a block may change sides, since the state is fresh there
    cases as with
    | nil => exact hrest last
    | cons a as =>
      refine ⟨fun _ _ _ => Equiv.refl _, (switchesFresh_map_append as _).mpr ?_⟩
      rw [after] at hafter
      rw [hafter]
      exact hrest (some side)


end Transducer

end GumstixExtras.Lib
