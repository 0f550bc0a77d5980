import Mathlib.Data.List.Basic
import Mathlib.Tactic.Common

/-!
# Shell Words

What a POSIX shell makes of an unquoted parameter expansion: field splitting at the
characters of the default `IFS`, and pathname expansion of each field. Which pathnames there
are is the file system's business, so that part is a parameter.
-/

namespace GumstixExtras.Lib

/-- A statement about the characters of a text is decided on the text, not on all characters. -/
instance (priority := high) decidableForallMemChar (p : Char → Prop) [DecidablePred p]
    (text : List Char) : Decidable (∀ c ∈ text, p c) := List.decidableBAll p text

/-- A character of the default `IFS`. -/
def isIfs (c : Char) : Bool := c = ' ' || c = '\t' || c = '\n'

/-- The fields of a text: the runs of characters that are not in `IFS`. -/
def ifsFields : List Char → List (List Char)
  | [] => []
  | c :: cs =>
    -- separators in front, also several, start no field
    if isIfs c then ifsFields cs
    else match cs with
      | [] => [[c]]
      | c' :: _ =>
        if isIfs c' then [c] :: ifsFields cs
        else match ifsFields cs with
          | [] => [[c]]
          | field :: fields => (c :: field) :: fields

example : ifsFields " 0x12  34\n".toList = ["0x12".toList, "34".toList] := by decide

/-- A non-empty text without `IFS` characters. -/
def IsWord (value : List Char) : Prop := value ≠ [] ∧ ∀ c ∈ value, isIfs c = false

instance (value : List Char) : Decidable (IsWord value) := inferInstanceAs (Decidable (_ ∧ _))

/-- A further character of a field goes in front of it. -/
theorem ifsFields_cons {c c' : Char} {cs field : List Char} {fields : List (List Char)}
    (hc : isIfs c = false) (hc' : isIfs c' = false)
    (h : ifsFields (c' :: cs) = field :: fields) :
    ifsFields (c :: c' :: cs) = (c :: field) :: fields := by
  conv_lhs => unfold ifsFields
  simp only [hc, hc', Bool.false_eq_true, if_false, h]

/-- A word in front of a separator is the first field. -/
theorem ifsFields_append {value : List Char} (h : IsWord value) {sep : Char}
    (hsep : isIfs sep = true) (rest : List Char) :
    ifsFields (value ++ sep :: rest) = value :: ifsFields rest := by
  obtain ⟨hne, hall⟩ := h
  induction value with
  | nil => exact absurd rfl hne
  | cons c cs ih =>
    have hc : isIfs c = false := hall c List.mem_cons_self
    -- the last character meets the separator, an earlier one the next character
    cases cs with
    | nil => simp [ifsFields, hc, hsep]
    | cons c' cs =>
      exact ifsFields_cons hc (hall c' (by simp))
        (ih (by simp) fun d hd => hall d (List.mem_cons_of_mem c hd))

/-- A word is one field. -/
theorem ifsFields_eq_singleton {value : List Char} (h : IsWord value) :
    ifsFields value = [value] := by
  obtain ⟨hne, hall⟩ := h
  induction value with
  | nil => exact absurd rfl hne
  | cons c cs ih =>
    have hc : isIfs c = false := hall c List.mem_cons_self
    cases cs with
    | nil => simp [ifsFields, hc]
    | cons c' cs =>
      exact ifsFields_cons hc (hall c' (by simp))
        (ih (by simp) fun d hd => hall d (List.mem_cons_of_mem c hd))

/-- The words of an unquoted parameter expansion. -/
def expandUnquoted (glob : List Char → List (List Char)) (value : List Char) :
    List (List Char) :=
  (ifsFields value).flatMap glob

end GumstixExtras.Lib
