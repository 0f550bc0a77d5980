import Mathlib.Data.List.Basic
import Mathlib.Tactic.Common

/-!
# Option Scanning

`getopt_long` as the GNU C library documents it: clusters of short options, long options
with unique abbreviations, option arguments in the same or in the next element, `--` as the
end of the options, and operands that may stand between options (unless `POSIXLY_CORRECT`
is set, where the first operand ends the options).

The whole sequence of results is computed at once: `getoptLong` gives what the calls return
one after the other, and the operands that are left.
-/

namespace GumstixExtras.Lib

/-! ## §1 Options -/

/-- An entry of the `struct option` array. With `flag` the call stores `val` behind a
pointer of the program and returns zero. -/
structure LongOption where
  name : String
  hasArg : Bool
  flag : Bool
  val : ℕ
  deriving DecidableEq, Repr

/-- What the call returns for an entry. -/
def LongOption.ret (o : LongOption) : ℕ := if o.flag then 0 else o.val

/-- One return of `getopt_long`: the value, and `optarg`. -/
structure OptEvent where
  ret : ℕ
  optarg : Option (List Char)
  deriving DecidableEq, Repr

/-- The return value `'?'`. -/
def optUnknown : ℕ := 63

/-- The entry a name or an abbreviation selects: an exact match, or the only entry the name
is a prefix of. -/
def findLong (longs : List LongOption) (name : List Char) : Option LongOption :=
  match longs.find? fun o => o.name.toList = name with
  -- an exact match wins over any abbreviation
  | some o => some o
  | none =>
    match longs.filter fun o => name.isPrefixOf o.name.toList with
    | [o] => some o
    | _ => none

/-! ## §2 The scan -/

/-- The results of one element; `pending` is the return value of an option that takes the
next element as its argument. -/
structure ArgScan where
  events : List OptEvent
  pending : Option ℕ
  deriving DecidableEq, Repr

/-- A long option without its dashes. -/
def scanLong (longs : List LongOption) (body : List Char) : ArgScan :=
  let name := body.takeWhile (· ≠ '=')
  match findLong longs name, body.dropWhile (· ≠ '=') with
  | none, _ => ⟨[⟨optUnknown, none⟩], none⟩
  -- no `=`: the argument is the next element
  | some o, [] => if o.hasArg then ⟨[], some o.ret⟩ else ⟨[⟨o.ret, none⟩], none⟩
  | some o, _ :: value =>
    if o.hasArg then ⟨[⟨o.ret, some value⟩], none⟩ else ⟨[⟨optUnknown, none⟩], none⟩

/-- A cluster of short options without its dash; `shorts` tells which take an argument. -/
def scanShort (shorts : List (Char × Bool)) : List Char → ArgScan
  | [] => ⟨[], none⟩
  | c :: cs =>
    match shorts.lookup c with
    | some true =>
      -- the rest of the cluster is the argument, if there is a rest
      if cs = [] then ⟨[], some c.toNat⟩ else ⟨[⟨c.toNat, some cs⟩], none⟩
    | some false =>
      let rest := scanShort shorts cs
      ⟨⟨c.toNat, none⟩ :: rest.events, rest.pending⟩
    | none =>
      let rest := scanShort shorts cs
      ⟨⟨optUnknown, none⟩ :: rest.events, rest.pending⟩

/-- The scan of the elements; `pending` is an option that waits for its argument. -/
def scanArgs (posixlyCorrect : Bool) (shorts : List (Char × Bool)) (longs : List LongOption)
    (pending : Option ℕ) : List (List Char) → List OptEvent × List (List Char)
  | [] => (if pending.isSome then [⟨optUnknown, none⟩] else [], [])
  | arg :: args =>
    match pending, arg with
    | some ret, optarg =>
      let rest := scanArgs posixlyCorrect shorts longs none args
      (⟨ret, some optarg⟩ :: rest.1, rest.2)
    -- everything behind `--` is an operand
    | none, ['-', '-'] => ([], args)
    | none, '-' :: c :: cs =>
      let scan := if c = '-' then scanLong longs cs else scanShort shorts (c :: cs)
      let rest := scanArgs posixlyCorrect shorts longs scan.pending args
      (scan.events ++ rest.1, rest.2)
    | none, operand =>
      -- operands are collected behind the options, unless the first one ends the options
      if posixlyCorrect then
        ([], operand :: args)
      else
        let rest := scanArgs posixlyCorrect shorts longs none args
        (rest.1, operand :: rest.2)

/-- `getopt_long` called until it returns -1. -/
def getoptLong (posixlyCorrect : Bool) (shorts : List (Char × Bool)) (longs : List LongOption)
    (args : List (List Char)) : List OptEvent × List (List Char) :=
  scanArgs posixlyCorrect shorts longs none args

example : getoptLong false [('c', true)] [⟨"count", true, false, 99⟩]
    ["0x1b".toList, "--co=3".toList, "rb".toList, "-c".toList, "4".toList, "0x15".toList] =
    ([⟨99, some ['3']⟩, ⟨99, some ['4']⟩], ["0x1b".toList, "rb".toList, "0x15".toList]) := by
  decide

/-- An element that does not start with a dash is an operand. -/
def IsOperand (arg : List Char) : Prop := arg.head? ≠ some '-'

instance (arg : List Char) : Decidable (IsOperand arg) := inferInstanceAs (Decidable (_ ≠ _))

/-- A command line of operands only is left as it is. -/
theorem getoptLong_operands (posixlyCorrect : Bool) (shorts : List (Char × Bool))
    (longs : List LongOption) {args : List (List Char)} (h : ∀ arg ∈ args, IsOperand arg) :
    getoptLong posixlyCorrect shorts longs args = ([], args) := by
  unfold getoptLong
  induction args with
  | nil => rfl
  | cons arg args ih =>
    have harg : IsOperand arg := h arg List.mem_cons_self
    have hargs := ih fun a ha => h a (List.mem_cons_of_mem arg ha)
    unfold scanArgs
    -- no option waits, and the element is neither `--` nor an option
    split
    · next heq => cases heq
    · exact absurd rfl harg
    · exact absurd rfl harg
    · rw [hargs]
      split <;> rfl

end GumstixExtras.Lib
