import GumstixExtras.Lib.Buffer

/-!
# Progress of One Actor among Others

A system takes its steps in the order of a schedule. An actor makes progress when some measure
of what it has left to do goes down with each of its own steps and is not raised by the steps
of others. `Ranks.run` says that then any schedule with enough steps of the actor, in whatever
order, finds it with nothing left to do.
-/

namespace GumstixExtras.Lib

variable {S A ε : Type} {step : S → A → Except ε S} {good : S → Prop} {mine : A → Bool}
  {rank : S → ℕ}

/-- From good states the steps of the actor take one from its rank, unless that is zero, and
the steps of others add nothing to it. -/
structure Ranks (step : S → A → Except ε S) (good : S → Prop) (mine : A → Bool)
    (rank : S → ℕ) : Prop where
  keeps : ∀ s a s', good s → step s a = .ok s' → good s'
  own : ∀ s a s', good s → step s a = .ok s' → mine a = true → rank s' ≤ rank s - 1
  other : ∀ s a s', good s → step s a = .ok s' → mine a = false → rank s' ≤ rank s

/-- A run takes as much from the rank as the actor has steps in it. -/
theorem Ranks.run_le (h : Ranks step good mine rank) {schedule : List A} {s s' : S} (hs : good s)
    (hrun : schedule.foldlM step s = .ok s') :
    rank s' ≤ rank s - schedule.countP mine := by
  induction schedule generalizing s with
  | nil =>
    cases hrun
    exact Nat.le_refl _
  | cons a schedule ih =>
    rw [List.foldlM_cons] at hrun
    obtain ⟨t, ht, hrun⟩ := bind_eq_ok_iff.mp hrun
    have hrest := ih (h.keeps s a t hs ht) hrun
    -- a step of the actor pays for itself, another one costs nothing
    cases hmine : mine a with
    | true =>
      have hstep := h.own s a t hs ht hmine
      rw [List.countP_cons_of_pos hmine]
      omega
    | false =>
      have hstep := h.other s a t hs ht hmine
      rw [List.countP_cons_of_neg (by rw [hmine]; exact Bool.false_ne_true)]
      omega

/-- **Progress**: after enough steps of the actor its rank is zero. -/
theorem Ranks.run (h : Ranks step good mine rank) {schedule : List A} {s s' : S} (hs : good s)
    (hrun : schedule.foldlM step s = .ok s') (henough : rank s ≤ schedule.countP mine) :
    rank s' = 0 := by
  have hle := h.run_le hs hrun
  omega

end GumstixExtras.Lib
