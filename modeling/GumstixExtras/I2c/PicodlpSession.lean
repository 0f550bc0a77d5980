import GumstixExtras.I2c.PicodlpControl
import GumstixExtras.I2c.Session

/-!
# Sessions of `picodlp-control`

The script through `bus3-i2c` down to the registers of the projector. What a call of the
script is for is a short list of registers and their new contents; `picodlp_session` says that
any sequence of calls whose values are registers, or cannot be read, brings exactly these to
the projector, in order, and `picodlp_lastSetting` that the last one of a register of one bit
is that of the last valid call.
-/

namespace GumstixExtras.I2c

open GumstixExtras.Lib

variable {δ : Type}

/-! ## §1 What a call of the script is for -/

/-- The address of the projector. -/
def picoChip : UInt16 := 0x1b

/-- The four bytes of a word. -/
def wordBytes (on : Bool) : List UInt8 := if on then [0xf0, 0, 0, 0] else [0, 0, 0, 1]

/-- The register of an option with one bit. -/
def flagRegister (picoOption : List Char) : Option UInt8 :=
  if picoOption = "hflip".toList then some 0x08
  else if picoOption = "vflip".toList then some 0x09
  else if picoOption = "temporal-enhance".toList then some 0x26
  else if picoOption = "rled".toList then some 0x11
  else if picoOption = "gled".toList then some 0x12
  else if picoOption = "bled".toList then some 0x13
  else none

/-- A register and its new contents. -/
abbrev Setting := UInt8 × List UInt8

/-- The four bytes of a register, written behind `0x`. -/
def registerBytes : List Char → Option (List UInt8)
  | '0' :: 'x' :: digits =>
    if (∀ c ∈ digits, isBaseDigit 16 c = true) ∧ (digits.length + 1) / 2 = 4 then
      some (pairBytes digits)
    else none
  | _ => none

/-- A register with the contents that the words of an argument denote. Only a single word is a
value. -/
def valueSetting (reg : UInt8) : List (List Char) → Option Setting
  | [word] => (registerBytes word).map fun bs => (reg, bs)
  | _ => none

/-- The settings of a valid call. -/
def optionSettings (glob : List Char → List (List Char)) (args : List (List Char)) (on : Bool)
    (picoOption : List Char) : List (Option Setting) :=
  let value reg k := valueSetting reg (expandUnquoted glob (args.getD (k - 1) []))
  match flagRegister picoOption with
  | some reg => [some (reg, wordBytes on)]
  | none =>
    if picoOption = "itp".toList then
      [if on then some (0x0b, wordBytes false) else value 0x0b 3, some (0x04, wordBytes on)]
    else if picoOption = "ledc".toList then
      [value 0x0e 4, value 0x0f 5, value 0x10 6]
    else []

/-- The settings of a call with the parameters `args`. A call whose value is neither 0 nor 1
has none. -/
def picoSettings (glob : List Char → List (List Char)) (args : List (List Char)) :
    List (Option Setting) :=
  if args.getD 1 [] = "0".toList then optionSettings glob args false (args.getD 0 [])
  else if args.getD 1 [] = "1".toList then optionSettings glob args true (args.getD 0 [])
  else []

/-- The parameters that a valid call hands on as values. -/
def valueParams (on : Bool) (picoOption : List Char) : List ℕ :=
  if picoOption = "itp".toList then if on then [] else [3]
  else if picoOption = "ledc".toList then [4, 5, 6]
  else []

/-- What the words of a value may be: none of them is an option of the program, and a single
one that can be read denotes the four bytes of a register. -/
structure RegisterValue (words : List (List Char)) : Prop where
  operands : ∀ w ∈ words, IsOperand w
  whole : ∀ word, words = [word] → ReadableData word → ∃ bs, DenotesData .writeByte4 word bs

/-- All the values of a call are such. -/
def RegisterValues (glob : List Char → List (List Char)) (args : List (List Char)) : Prop :=
  ∀ on : Bool, args.getD 1 [] = (if on then "1".toList else "0".toList) →
    ∀ k ∈ valueParams on (args.getD 0 []),
      RegisterValue (expandUnquoted glob (args.getD (k - 1) []))

/-! ## §2 The calls of the script -/

/-- The program calls among the commands of the script. -/
def programCalls (env : Env) (commands : List PicoCommand) : List Call :=
  commands.filterMap fun c =>
    match c with
    | .echo _ => none
    | .i2cApp argv => some ⟨env, argv⟩

/-- The program calls of a call of the script. -/
def scriptCalls (env : Env) (glob : List Char → List (List Char)) (self : List Char)
    (args : List (List Char)) : List Call :=
  programCalls env (picodlpControl glob self args)

section Calls

variable {env : Env} (hopen : env.openErrno = none)

/-- A register number as the script writes it. -/
def NamesRegister (dm : DataModel) (register : String) (reg : UInt8) : Prop :=
  IsOperand register.toList ∧ parseByte dm register.toList = .ok reg

/-- The bytes of a register are what its text denotes. -/
theorem registerBytes_eq_some_iff {word : List Char} {bs : List UInt8} :
    registerBytes word = some bs ↔ DenotesData .writeByte4 word bs := by
  constructor
  · intro h
    unfold registerBytes at h
    split at h
    · next digits =>
      split at h
      · next hdigits =>
        obtain rfl := Option.some.inj h
        refine ⟨.pairs hdigits.1, fun size hsize => ?_⟩
        obtain rfl : 4 = size := Option.some.inj hsize
        rw [length_pairBytes, hdigits.2]
      · cases h
    · cases h
  · rintro ⟨hdenotes, hsize⟩
    have hlen := hsize 4 rfl
    cases hdenotes with
    | pairs hall =>
      rw [length_pairBytes] at hlen
      exact if_pos ⟨hall, hlen⟩
    -- a single byte is no register
    | byte hmarker hb => cases hlen

/-- A value is taken for the register it denotes. -/
theorem takenBytes_register (dm : DataModel) {word : List Char} (h : RegisterValue [word]) :
    takenBytes dm i2cMaxDataLen word = registerBytes word := by
  cases hbytes : registerBytes word with
  | some bs =>
    obtain ⟨hdenotes, hsize⟩ := registerBytes_eq_some_iff.mp hbytes
    apply hdenotes.taken
    rw [hsize 4 rfl]
    decide
  | none =>
    rw [Option.eq_none_iff_forall_ne_some]
    intro bs hbs
    -- it would have been read
    obtain ⟨bs', hbs'⟩ := h.whole word rfl (takenBytes_some_iff.mp ⟨bs, hbs⟩)
    cases hbytes.symm.trans (registerBytes_eq_some_iff.mpr hbs')

include hopen in
/-- A `wb4` of a value writes it, if it is the bytes of a register. -/
theorem command_writeRegister {register : String} {reg : UInt8}
    (hreg : NamesRegister env.dm register reg) {value : List (List Char)}
    (hvalue : RegisterValue value) :
    (programCalls env [writeRegister register value]).map Call.command =
      [(valueSetting reg value).map (writeCommand picoChip)] := by
  have hline := commandLine_writeRegister env.dm env.posixlyCorrect hreg.1 hvalue.operands
  have hchip : (UInt8.ofInt 27).toUInt16 = picoChip := by decide
  show [Call.command ⟨env, [picoAddress, "wb4".toList, register.toList] ++ value⟩] = _
  refine congrArg (fun c => [c]) ?_
  unfold Call.command
  dsimp only
  -- one word is the value; none or several are refused
  rcases value with - | ⟨v, - | ⟨v', vs⟩⟩
  · obtain ⟨e, he⟩ := hline
    rw [he]
    rfl
  · dsimp only at hline
    rw [hline]
    simp only [hopen, Option.isSome_none, Bool.false_eq_true, if_false, access, hreg.2,
      takenBytes_register env.dm hvalue, valueSetting, Option.map_map, hchip]
    rfl
  · obtain ⟨e, he⟩ := hline
    rw [he]
    rfl

/-- The words of a register with one bit. -/
theorem registerValue_word (on : Bool) : RegisterValue [if on then wordOn else wordOff] := by
  refine ⟨?_, fun word hword _ => ?_⟩
  · rw [List.forall_mem_singleton]
    cases on <;> decide
  · obtain rfl := List.singleton_inj.mp hword
    refine ⟨wordBytes on, registerBytes_eq_some_iff.mp ?_⟩
    cases on <;> decide

include hopen in
/-- A register with one bit. -/
theorem command_writeFlag {register : String} {reg : UInt8}
    (hreg : NamesRegister env.dm register reg) (on : Bool) :
    (programCalls env (writeFlag register on)).map Call.command =
      [some (writeCommand picoChip (reg, wordBytes on))] := by
  have hcommand := command_writeRegister hopen hreg (registerValue_word on)
  have hbytes : registerBytes (if on then wordOn else wordOff) = some (wordBytes on) := by
    cases on <;> decide
  rw [valueSetting, hbytes] at hcommand
  exact hcommand

theorem map_command_append (env : Env) (cs cs' : List PicoCommand) :
    (programCalls env (cs ++ cs')).map Call.command =
      (programCalls env cs).map Call.command ++ (programCalls env cs').map Call.command := by
  rw [programCalls, List.filterMap_append, List.map_append]
  rfl

/-- The register numbers of the script. -/
theorem namesRegister (dm : DataModel) :
    NamesRegister dm "0x08" 0x08 ∧ NamesRegister dm "0x09" 0x09 ∧
    NamesRegister dm "0x26" 0x26 ∧ NamesRegister dm "0x11" 0x11 ∧
    NamesRegister dm "0x12" 0x12 ∧ NamesRegister dm "0x13" 0x13 ∧
    NamesRegister dm "0x0B" 0x0b ∧ NamesRegister dm "0x04" 0x04 ∧
    NamesRegister dm "0x0E" 0x0e ∧ NamesRegister dm "0x0F" 0x0f ∧
    NamesRegister dm "0x10" 0x10 := by
  unfold NamesRegister
  cases dm <;> decide

variable {glob : List Char → List (List Char)} {args : List (List Char)}

include hopen in
/-- The commands of a branch of the script are its settings. -/
theorem picoCase_command (self : List Char) {on : Bool} {picoOption : List Char}
    (hvalues : ∀ k ∈ valueParams on picoOption,
      RegisterValue (expandUnquoted glob (args.getD (k - 1) []))) :
    (programCalls env (picoCase glob self args on picoOption)).map Call.command =
      (optionSettings glob args on picoOption).map (Option.map (writeCommand picoChip)) := by
  obtain ⟨h08, h09, h26, h11, h12, h13, h0b, h04, h0e, h0f, h10⟩ := namesRegister env.dm
  unfold picoCase optionSettings flagRegister
  dsimp only
  -- the six options with one bit
  by_cases hhflip : picoOption = "hflip".toList
  · simp only [if_pos hhflip, command_writeFlag hopen h08]
    rfl
  by_cases hvflip : picoOption = "vflip".toList
  · simp only [if_neg hhflip, if_pos hvflip, command_writeFlag hopen h09]
    rfl
  by_cases htemporal : picoOption = "temporal-enhance".toList
  · simp only [if_neg hhflip, if_neg hvflip, if_pos htemporal, command_writeFlag hopen h26]
    rfl
  by_cases hrled : picoOption = "rled".toList
  · simp only [if_neg hhflip, if_neg hvflip, if_neg htemporal, if_pos hrled,
      command_writeFlag hopen h11]
    rfl
  by_cases hgled : picoOption = "gled".toList
  · simp only [if_neg hhflip, if_neg hvflip, if_neg htemporal, if_neg hrled, if_pos hgled,
      command_writeFlag hopen h12]
    rfl
  by_cases hbled : picoOption = "bled".toList
  · simp only [if_neg hhflip, if_neg hvflip, if_neg htemporal, if_neg hrled, if_neg hgled,
      if_pos hbled, command_writeFlag hopen h13]
    rfl
  simp only [if_neg hhflip, if_neg hvflip, if_neg htemporal, if_neg hrled, if_neg hgled,
    if_neg hbled]
  by_cases hitp : picoOption = "itp".toList
  · simp only [if_pos hitp]
    rw [valueParams, if_pos hitp] at hvalues
    cases on with
    | true =>
      simp only [if_true, map_command_append, command_writeFlag hopen h0b,
        command_writeFlag hopen h04]
      rfl
    | false =>
      -- the pattern that was given, and the register that selects it
      have hpattern := command_writeRegister hopen h0b (hvalues 3 List.mem_cons_self)
      have hcons := map_command_append env
        [writeRegister "0x0B" (expandUnquoted glob (args.getD 2 []))] (writeFlag "0x04" false)
      rw [hpattern, command_writeFlag hopen h04] at hcons
      exact hcons
  by_cases hledc : picoOption = "ledc".toList
  · simp only [if_neg hitp, if_pos hledc]
    rw [valueParams, if_neg hitp, if_pos hledc] at hvalues
    -- three currents, one register each
    have hfour := command_writeRegister hopen h0e (hvalues 4 (by decide))
    have hfive := command_writeRegister hopen h0f (hvalues 5 (by decide))
    have hsix := command_writeRegister hopen h10 (hvalues 6 (by decide))
    have hlast := map_command_append env
      [writeRegister "0x0F" (expandUnquoted glob (args.getD 4 []))]
      [writeRegister "0x10" (expandUnquoted glob (args.getD 5 []))]
    have hall := map_command_append env
      [writeRegister "0x0E" (expandUnquoted glob (args.getD 3 []))]
      ([writeRegister "0x0F" (expandUnquoted glob (args.getD 4 []))] ++
        [writeRegister "0x10" (expandUnquoted glob (args.getD 5 []))])
    rw [hlast, hfour, hfive, hsix] at hall
    exact hall
  · simp only [if_neg hitp, if_neg hledc]
    rfl

include hopen in
theorem scriptCalls_command (hargs : RegisterValues glob args) (self : List Char) :
    (scriptCalls env glob self args).map Call.command =
      (picoSettings glob args).map (Option.map (writeCommand picoChip)) := by
  unfold scriptCalls picodlpControl picoSettings
  dsimp only
  by_cases hzero : args.getD 1 [] = "0".toList
  · have hone : ¬ args.getD 1 [] = "1".toList := by
      rw [hzero]
      decide
    rw [if_pos (.inl hzero), if_pos hzero, decide_eq_false hone]
    exact picoCase_command hopen self (hargs false hzero)
  · by_cases hone : args.getD 1 [] = "1".toList
    · rw [if_pos (.inr hone), if_neg hzero, if_pos hone, decide_eq_true hone]
      exact picoCase_command hopen self (hargs true hone)
    · -- an invalid value is replaced by an option no branch knows
      rw [if_neg (not_or.mpr ⟨hzero, hone⟩), if_neg hzero, if_neg hone]
      have hnone : valueParams false "invalid-as-well".toList = [] := by decide
      refine picoCase_command hopen self fun k hk => ?_
      rw [hnone] at hk
      cases hk

end Calls

/-! ## §3 Sequences of calls -/

/-- The program calls of a sequence of calls of the script. -/
def scriptsCalls (env : Env) (glob : List Char → List (List Char)) (self : List Char)
    (scripts : List (List (List Char))) : List Call :=
  scripts.flatMap (scriptCalls env glob self)

/-- The settings of a sequence of calls. -/
def scriptsSettings (glob : List Char → List (List Char)) (scripts : List (List (List Char))) :
    List Setting :=
  (scripts.flatMap (picoSettings glob)).reduceOption

/-- A chip behind a list of settings. -/
def applySettings (D : Device δ UInt8) (d : δ) (settings : List Setting) : δ :=
  settings.foldl (fun d w => D.write d (w.1 :: w.2)) d

section Sessions

variable {D : Device δ UInt8} {errno : ℤ} {bus bus' : Bus UInt16 δ} {d : δ} {env : Env}
  {glob : List Char → List (List Char)} {self : List Char} {scripts : List (List (List Char))}
  {rs : List Run}

theorem scriptsCalls_command (hopen : env.openErrno = none)
    (hargs : ∀ args ∈ scripts, RegisterValues glob args) :
    (scriptsCalls env glob self scripts).map Call.command =
      (scripts.flatMap (picoSettings glob)).map (Option.map (writeCommand picoChip)) := by
  induction scripts with
  | nil => rfl
  | cons args scripts ih =>
    rw [scriptsCalls, List.flatMap_cons, List.flatMap_cons, List.map_append, List.map_append,
      scriptCalls_command hopen (hargs args List.mem_cons_self) self]
    exact congrArg (_ ++ ·) (ih fun a ha => hargs a (List.mem_cons_of_mem args ha))

/-- What the calls of the script do to the bus. -/
theorem session_scriptsCalls (hopen : env.openErrno = none)
    (hargs : ∀ args ∈ scripts, RegisterValues glob args) (hchip : bus picoChip = some d)
    (h : Session D errno bus (scriptsCalls env glob self scripts) rs bus') :
    bus' = Function.update bus picoChip
      (some (applySettings D d (scriptsSettings glob scripts))) := by
  obtain ⟨rfl, -⟩ := session_performs h
  rw [scriptsCalls_command hopen hargs, Bus.run_writes hchip]
  rfl

/-- **Sequences of calls**: any sequence of calls of the script runs to its end. Whatever chip
answers at the address of the projector, when the device file opens and each value is the bytes
of a register or cannot be read, the calls bring it exactly their settings, in order, and no
other chip is touched. -/
theorem picodlp_session (D : Device δ UInt8) (errno : ℤ) (bus : Bus UInt16 δ) (env : Env)
    (glob : List Char → List (List Char)) (self : List Char)
    (scripts : List (List (List Char))) :
    (∃ rs bus', Session D errno bus (scriptsCalls env glob self scripts) rs bus') ∧
      (env.openErrno = none → (∀ args ∈ scripts, RegisterValues glob args) →
        ∀ d, bus picoChip = some d →
          ∀ rs bus', Session D errno bus (scriptsCalls env glob self scripts) rs bus' →
            bus' = Function.update bus picoChip
              (some (applySettings D d (scriptsSettings glob scripts)))) :=
  ⟨session_exists D errno bus _, fun hopen hargs _ hchip _ _ h =>
    session_scriptsCalls hopen hargs hchip h⟩

/-- A mirrored picture, an invalid call, and a test pattern. -/
theorem picodlp_session_testPattern :
    ∃ rs, Session byteRegisters 6
      (fun a => if a = picoChip then some ⟨0, fun _ => 0⟩ else none)
      (scriptsCalls (Env.calm (.done [])) (fun w => [w]) "picodlp-control".toList
        [["hflip".toList, "1".toList], ["vflip".toList, "on".toList],
          ["itp".toList, "0".toList, "0x12345678".toList]]) rs
      (Function.update (fun a => if a = picoChip then some ⟨0, fun _ => 0⟩ else none) picoChip
        (some (applySettings byteRegisters ⟨0, fun _ => 0⟩
          [(0x08, [0xf0, 0, 0, 0]), (0x0b, [0x12, 0x34, 0x56, 0x78]), (0x04, [0, 0, 0, 1])]))) := by
  have hsettings : scriptsSettings (fun w => [w])
      [["hflip".toList, "1".toList], ["vflip".toList, "on".toList],
        ["itp".toList, "0".toList, "0x12345678".toList]] =
      [(0x08, [0xf0, 0, 0, 0]), (0x0b, [0x12, 0x34, 0x56, 0x78]), (0x04, [0, 0, 0, 1])] := by
    decide
  have hpattern : RegisterValue (expandUnquoted (fun w => [w]) "0x12345678".toList) := by
    have hword : expandUnquoted (fun w => [w]) "0x12345678".toList = ["0x12345678".toList] := by
      decide
    rw [hword]
    refine ⟨by decide, fun word hw _ => ⟨[0x12, 0x34, 0x56, 0x78], ?_⟩⟩
    obtain rfl := List.singleton_inj.mp hw
    exact registerBytes_eq_some_iff.mp (by decide)
  -- only `itp 0` hands a value on
  have hargs : ∀ args ∈ [["hflip".toList, "1".toList], ["vflip".toList, "on".toList],
      ["itp".toList, "0".toList, "0x12345678".toList]], RegisterValues (fun w => [w]) args := by
    simp only [List.forall_mem_cons]
    refine ⟨fun on _ k hk => ?_, fun on hon => ?_, fun on hon k hk => ?_, by simp⟩
    · cases on <;> cases hk
    · cases on <;> cases hon
    · cases on with
      | true => cases hon
      | false =>
        obtain rfl := List.mem_singleton.mp hk
        exact hpattern
  obtain ⟨⟨rs, bus', h⟩, hsession⟩ := picodlp_session byteRegisters 6
    (fun a => if a = picoChip then some ⟨0, fun _ => 0⟩ else none) (Env.calm (.done []))
    (fun w => [w]) "picodlp-control".toList
    [["hflip".toList, "1".toList], ["vflip".toList, "on".toList],
      ["itp".toList, "0".toList, "0x12345678".toList]]
  have hbus := hsession rfl hargs _ rfl rs bus' h
  rw [hbus, hsettings] at h
  exact ⟨rs, h⟩

end Sessions

/-! ## §4 Registers of one bit -/

/-- The options with one bit and their registers. -/
def flagTable : List (List Char × UInt8) :=
  [("hflip".toList, 0x08), ("vflip".toList, 0x09), ("temporal-enhance".toList, 0x26),
    ("rled".toList, 0x11), ("gled".toList, 0x12), ("bled".toList, 0x13)]

/-- A branch of the chain is taken, or a later one. -/
theorem eq_or_of_ite {picoOption name : List Char} {r reg : UInt8} {rest : Option UInt8}
    (h : (if picoOption = name then some r else rest) = some reg) :
    (picoOption, reg) = (name, r) ∨ rest = some reg := by
  by_cases hname : picoOption = name
  · rw [if_pos hname] at h
    rw [hname, Option.some.inj h]
    exact .inl rfl
  · rw [if_neg hname] at h
    exact .inr h

theorem mem_flagTable {picoOption : List Char} {reg : UInt8}
    (h : flagRegister picoOption = some reg) : (picoOption, reg) ∈ flagTable := by
  unfold flagRegister at h
  iterate 6
    rcases eq_or_of_ite h with heq | h
    · rw [heq]
      decide
  cases h

/-- No two options share a register. -/
theorem flagTable_injective : ∀ p ∈ flagTable, ∀ q ∈ flagTable, p.2 = q.2 → p.1 = q.1 := by
  decide

/-- The registers the other options use. -/
theorem flagTable_other : ∀ p ∈ flagTable, p.2 ∉ [0x0b, 0x04, 0x0e, 0x0f, (0x10 : UInt8)] := by
  decide

theorem valueSetting_reg {reg : UInt8} {words : List (List Char)} {s : Setting}
    (h : valueSetting reg words = some s) : s.1 = reg := by
  unfold valueSetting at h
  split at h
  · obtain ⟨bs, -, rfl⟩ := Option.map_eq_some_iff.mp h
    rfl
  · cases h

/-- The settings of a call are those of one of the two valid values. -/
theorem picoSettings_cases {glob : List Char → List (List Char)} {args : List (List Char)}
    {s : Setting} (h : some s ∈ picoSettings glob args) :
    (args.getD 1 [] = "0".toList ∨ args.getD 1 [] = "1".toList) ∧
      ∃ on, some s ∈ optionSettings glob args on (args.getD 0 []) := by
  unfold picoSettings at h
  by_cases hzero : args.getD 1 [] = "0".toList
  · rw [if_pos hzero] at h
    exact ⟨.inl hzero, false, h⟩
  · rw [if_neg hzero] at h
    by_cases hone : args.getD 1 [] = "1".toList
    · rw [if_pos hone] at h
      exact ⟨.inr hone, true, h⟩
    · rw [if_neg hone] at h
      cases h

/-- A register of one bit is set by its own option only. -/
theorem optionSettings_reg {glob : List Char → List (List Char)} {args : List (List Char)}
    {on : Bool} {s : Setting} {picoOption picoOption' : List Char}
    (h : some s ∈ optionSettings glob args on picoOption')
    (hreg : flagRegister picoOption = some s.1) : picoOption' = picoOption := by
  have hmem := mem_flagTable hreg
  have hother := flagTable_other _ hmem
  simp only [List.mem_cons, List.not_mem_nil, or_false, not_or] at hother
  obtain ⟨h0b, h04, h0e, h0f, h10⟩ := hother
  unfold optionSettings at h
  dsimp only at h
  cases hflag : flagRegister picoOption' with
  | some reg =>
    rw [hflag] at h
    obtain rfl := Option.some.inj (List.mem_singleton.mp h)
    exact flagTable_injective _ (mem_flagTable hflag) _ hmem rfl
  | none =>
    -- the other options set other registers
    rw [hflag] at h
    dsimp only at h
    by_cases hitp : picoOption' = "itp".toList
    · rw [if_pos hitp, List.mem_cons, List.mem_singleton] at h
      rcases h with h | h
      · cases on with
        | true => exact absurd (congrArg Prod.fst (Option.some.inj h)) h0b
        | false => exact absurd (valueSetting_reg h.symm) h0b
      · exact absurd (congrArg Prod.fst (Option.some.inj h)) h04
    · rw [if_neg hitp] at h
      by_cases hledc : picoOption' = "ledc".toList
      · rw [if_pos hledc, List.mem_cons, List.mem_cons, List.mem_singleton] at h
        rcases h with h | h | h
        · exact absurd (valueSetting_reg h.symm) h0e
        · exact absurd (valueSetting_reg h.symm) h0f
        · exact absurd (valueSetting_reg h.symm) h10
      · rw [if_neg hledc] at h
        cases h

section LastSetting

variable {glob : List Char → List (List Char)} {args : List (List Char)}
  {before after : List (List (List Char))} {reg : UInt8} {on : Bool}

/-- A valid call that names an option with one bit has one setting. -/
theorem picoSettings_flag (hreg : flagRegister (args.getD 0 []) = some reg)
    (hvalue : args.getD 1 [] = if on then "1".toList else "0".toList) :
    picoSettings glob args = [some (reg, wordBytes on)] := by
  have hone : ¬ "1".toList = "0".toList := by decide
  cases on with
  | false => rw [picoSettings, hvalue, if_neg Bool.false_ne_true, if_pos rfl, optionSettings, hreg]
  | true =>
    rw [picoSettings, hvalue, if_pos rfl, if_neg hone, if_pos rfl, optionSettings, hreg]

/-- Behind the last valid call that names an option, nothing sets its register. -/
theorem scriptsSettings_spares (hreg : flagRegister (args.getD 0 []) = some reg)
    (hafter : ∀ a ∈ after, a.getD 0 [] = args.getD 0 [] →
      a.getD 1 [] ≠ "0".toList ∧ a.getD 1 [] ≠ "1".toList) :
    ∀ s ∈ scriptsSettings glob after, s.1 ≠ reg := by
  intro s hs hsreg
  rw [scriptsSettings, List.reduceOption_mem_iff, List.mem_flatMap] at hs
  obtain ⟨a, ha, hset⟩ := hs
  obtain ⟨hvalid, on, hoption⟩ := picoSettings_cases hset
  have hname := optionSettings_reg hoption (hreg.trans (congrArg some hsreg.symm))
  obtain ⟨hzero, hone⟩ := hafter a ha hname
  exact hvalid.elim hzero hone

/-- **Last settings**: in any sequence of calls of the script, the chip is brought the word of
the last valid call that names an option with one bit, and behind it nothing more for the
register of the option, whatever the other calls are. -/
theorem picodlp_lastSetting {D : Device δ UInt8} {errno : ℤ} {bus bus' : Bus UInt16 δ} {d : δ}
    (hchip : bus picoChip = some d) {env : Env} (hopen : env.openErrno = none)
    {self : List Char} (hargs : ∀ a ∈ before ++ args :: after, RegisterValues glob a)
    (hreg : flagRegister (args.getD 0 []) = some reg)
    (hvalue : args.getD 1 [] = if on then "1".toList else "0".toList)
    (hafter : ∀ a ∈ after, a.getD 0 [] = args.getD 0 [] →
      a.getD 1 [] ≠ "0".toList ∧ a.getD 1 [] ≠ "1".toList) {rs : List Run}
    (h : Session D errno bus (scriptsCalls env glob self (before ++ args :: after)) rs bus') :
    bus' = Function.update bus picoChip (some (applySettings D d
      (scriptsSettings glob before ++ (reg, wordBytes on) :: scriptsSettings glob after))) ∧
    ∀ s ∈ scriptsSettings glob after, s.1 ≠ reg := by
  refine ⟨?_, scriptsSettings_spares hreg hafter⟩
  rw [session_scriptsCalls hopen hargs hchip h, scriptsSettings, List.flatMap_append,
    List.flatMap_cons, picoSettings_flag hreg hvalue, List.reduceOption_append,
    List.reduceOption_append]
  rfl

/-- The picture is mirrored and turned back, with other calls and an invalid one behind. -/
theorem picodlp_lastSetting_hflip :
    ∃ rs bus', Session byteRegisters 6
        (fun a => if a = picoChip then some ⟨0, fun _ => 0⟩ else none)
        (scriptsCalls (Env.calm (.done [])) (fun w => [w]) "picodlp-control".toList
          ([["hflip".toList, "1".toList]] ++ ["hflip".toList, "0".toList] ::
            [["rled".toList, "1".toList], ["hflip".toList, "2".toList]])) rs bus' ∧
      bus' = Function.update (fun a => if a = picoChip then some ⟨0, fun _ => 0⟩ else none)
        picoChip (some (applySettings byteRegisters ⟨0, fun _ => 0⟩
          [(0x08, [0xf0, 0, 0, 0]), (0x08, [0, 0, 0, 1]), (0x11, [0xf0, 0, 0, 0])])) := by
  have hargs : ∀ a ∈ [["hflip".toList, "1".toList]] ++ ["hflip".toList, "0".toList] ::
      [["rled".toList, "1".toList], ["hflip".toList, "2".toList]],
      RegisterValues (fun w => [w]) a := by
    intro args hmem on _ k hk
    -- none of these options has a value
    have hnone : ∀ a ∈ [["hflip".toList, "1".toList]] ++ ["hflip".toList, "0".toList] ::
        [["rled".toList, "1".toList], ["hflip".toList, "2".toList]], ∀ on : Bool,
        valueParams on (a.getD 0 []) = [] := by decide
    rw [hnone args hmem on] at hk
    cases hk
  obtain ⟨rs, bus', h⟩ := session_exists byteRegisters 6
    (fun a => if a = picoChip then some ⟨0, fun _ => 0⟩ else none)
    (scriptsCalls (Env.calm (.done [])) (fun w => [w]) "picodlp-control".toList
      ([["hflip".toList, "1".toList]] ++ ["hflip".toList, "0".toList] ::
        [["rled".toList, "1".toList], ["hflip".toList, "2".toList]]))
  have hreg : flagRegister "hflip".toList = some 0x08 := by decide
  have hvalue : "0".toList = if false then "1".toList else "0".toList := rfl
  have hchip : (fun a => if a = picoChip then some ⟨0, fun _ => 0⟩ else none :
      Bus UInt16 (RegisterFile UInt8)) picoChip = some ⟨0, fun _ => 0⟩ := rfl
  have hbefore : scriptsSettings (fun w => [w]) [["hflip".toList, "1".toList]] =
      [(0x08, [0xf0, 0, 0, 0])] := by decide
  have hbehind : scriptsSettings (fun w => [w])
      [["rled".toList, "1".toList], ["hflip".toList, "2".toList]] =
      [(0x11, [0xf0, 0, 0, 0])] := by decide
  obtain ⟨hbus, -⟩ := picodlp_lastSetting hchip rfl hargs hreg hvalue (by decide) h
  rw [hbefore, hbehind] at hbus
  exact ⟨rs, bus', h, hbus⟩

end LastSetting

end GumstixExtras.I2c
