import GumstixExtras.I2c.Commands
import GumstixExtras.Lib.Shell

/-!
# The `picodlp-control` Script

The script as the list of commands it runs: the messages it echoes and the argument vectors
it hands to `bus3-i2c`. Its register values are constants, except for the ones of `itp 0`
and `ledc`, which come from the caller and undergo field splitting and pathname expansion:
`commandLine_writeRegister` says what the program makes of them.
-/

namespace GumstixExtras.I2c

open GumstixExtras.Lib

/-! ## §1 The script -/

/-- `WORD_ON`. -/
def wordOn : List Char := "0xf0000000".toList

/-- `WORD_OFF`. -/
def wordOff : List Char := "0x00000001".toList

/-- `PICO_ADDRESS`. -/
def picoAddress : List Char := "0x1b".toList

/-- A command the script runs. -/
inductive PicoCommand
  | echo (text : List Char)
  | i2cApp (argv : List (List Char))
  deriving DecidableEq, Repr

/-- A `wb4` to a register; `value` is the words the value expands to. -/
def writeRegister (register : String) (value : List (List Char)) : PicoCommand :=
  .i2cApp ([picoAddress, "wb4".toList, register.toList] ++ value)

/-- A register with one bit. -/
def writeFlag (register : String) (on : Bool) : List PicoCommand :=
  [writeRegister register [if on then wordOn else wordOff]]

/-- The second `case` of the script, on `PICO_OPTION`; `on` is the outcome of
`[ $2 -gt 0 ]`, and `args` are the positional parameters. -/
def picoCase (glob : List Char → List (List Char)) (self : List Char)
    (args : List (List Char)) (on : Bool) (picoOption : List Char) : List PicoCommand :=
  let param k := args.getD (k - 1) []
  if picoOption = "hflip".toList then writeFlag "0x08" on
  else if picoOption = "vflip".toList then writeFlag "0x09" on
  else if picoOption = "temporal-enhance".toList then writeFlag "0x26" on
  else if picoOption = "rled".toList then writeFlag "0x11" on
  else if picoOption = "gled".toList then writeFlag "0x12" on
  else if picoOption = "bled".toList then writeFlag "0x13" on
  else if picoOption = "itp".toList then
    if on then
      -- `itp 1` turns the pattern off and the enable bit on
      writeFlag "0x0B" false ++ writeFlag "0x04" true
    else
      writeRegister "0x0B" (expandUnquoted glob (param 3)) :: writeFlag "0x04" false
  else if picoOption = "ledc".toList then
    [writeRegister "0x0E" (expandUnquoted glob (param 4)),
      writeRegister "0x0F" (expandUnquoted glob (param 5)),
      writeRegister "0x10" (expandUnquoted glob (param 6))]
  else
    [.echo ("Usage: ".toList ++ self ++
      " vflip|hflip|temporal-enhance|rled|gled|bled|itp|ledc 0/1 0x\n".toList)]

/-- `picodlp-control`, called as `self` with the positional parameters `args`. -/
def picodlpControl (glob : List Char → List (List Char)) (self : List Char)
    (args : List (List Char)) : List PicoCommand :=
  let picoOptionValue := args.getD 1 []
  if picoOptionValue = "0".toList ∨ picoOptionValue = "1".toList then
    picoCase glob self args (picoOptionValue = "1".toList) (args.getD 0 [])
  else
    -- the option is replaced by one no case knows, which prints the usage
    .echo "Invalid value\n".toList :: picoCase glob self args false "invalid-as-well".toList

/-! ## §2 Its calls of the program -/

/-- A `wb4` of the script on operands: one word is the data argument, none or several are
refused. -/
theorem commandLine_writeRegister (dm : DataModel) (posixlyCorrect : Bool) {register : String}
    (hreg : IsOperand register.toList) {value : List (List Char)}
    (hvalue : ∀ v ∈ value, IsOperand v) :
    match value with
    | [word] => commandLine dm posixlyCorrect
        ([picoAddress, "wb4".toList, register.toList] ++ value) =
          .ok ⟨4, 27, .writeByte4, .write register.toList word⟩
    | _ => ∃ e, commandLine dm posixlyCorrect
        ([picoAddress, "wb4".toList, register.toList] ++ value) = .error e := by
  -- none of the words is an option
  have hoperands : getoptLong posixlyCorrect shortOpts gOption
      (picoAddress :: "wb4".toList :: register.toList :: value) =
      ([], picoAddress :: "wb4".toList :: register.toList :: value) := by
    apply getoptLong_operands
    simp only [List.forall_mem_cons]
    exact ⟨by decide, by decide, hreg, hvalue⟩
  have haddr : toCInt (strtol dm picoAddress).1 = 27 := by cases dm <;> decide
  have hcmd : findCmd "wb4".toList = some .writeByte4 := by decide
  have hrange : ¬ ((27 : ℤ) ≤ 0 ∨ 127 < (27 : ℤ)) := by decide
  simp only [List.cons_append, List.nil_append, commandLine, hoperands, List.foldlM_nil,
    pure_eq_ok, ok_bind, operands, haddr, hrange, if_false, hcmd]
  cases value with
  | nil => exact ⟨_, rfl⟩
  | cons v vs =>
    cases vs with
    | nil => rfl
    | cons v' vs => exact ⟨_, rfl⟩

/-- `picodlp-control itp 0 0x12` writes one byte into a four byte register. -/
theorem picodlpControl_partialWrite :
    PicoCommand.i2cApp ["0x1b".toList, "wb4".toList, "0x0B".toList, "0x12".toList] ∈
      picodlpControl (fun w => [w]) "picodlp-control".toList
        ["itp".toList, "0".toList, "0x12".toList] ∧
    ∃ cl r, commandLine .ilp32 false
        ["0x1b".toList, "wb4".toList, "0x0B".toList, "0x12".toList] = .ok cl ∧
      main (Env.calm (.done []))
        ["0x1b".toList, "wb4".toList, "0x0B".toList, "0x12".toList] = .ok r ∧
      phases r.ioctls = [[.write [some 0x0b, some 0x12]]] ∧
      ¬ TransfersDocumented (Env.calm (.done [])) (requestedCount .ilp32 false
        ["0x1b".toList, "wb4".toList, "0x0B".toList, "0x12".toList]) cl r := by
  refine ⟨by decide, ?_⟩
  have haddr : parseByte .ilp32 "0x0B".toList = .ok 0x0b := by decide
  have hone : takenBytes .ilp32 i2cMaxDataLen "0x12".toList = some [0x12] := by decide
  have hcl : commandLine .ilp32 false
      ["0x1b".toList, "wb4".toList, "0x0B".toList, "0x12".toList] =
      .ok ⟨4, 0x1b, .writeByte4, .write "0x0B".toList "0x12".toList⟩ := by decide
  obtain ⟨e, he, hphases⟩ := processWriteByteCommand_spec (Env.calm (.done []))
    (g := ⟨0x1b, false⟩) rfl haddr hone
  obtain ⟨log, hrun⟩ := main_eq (Env.calm (.done [])) hcl rfl he
  refine ⟨_, _, hcl, hrun, hphases, ?_⟩
  intro hdocumented
  have hissued : e.ioctls ≠ [] := by
    intro hnil
    rw [hnil] at hphases
    cases hphases
  obtain ⟨reg, bs, -, ⟨hdenotes, hsize⟩, -⟩ := hdocumented hissued
  -- the argument denotes the one byte it was taken for
  obtain rfl : bs = [0x12] := hdenotes.eq_of_takenBytes hone
  exact absurd (hsize 4 rfl) (by decide)

end GumstixExtras.I2c
