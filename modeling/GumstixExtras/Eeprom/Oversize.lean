import GumstixExtras.Lib.Buffer
import GumstixExtras.Eeprom.Writeprom

/-!
# Texts Too Long for Their Fields

The length checks of the two programmers. A fab revision, a variable name or a setting that
leaves no room for its terminator should be refused before anything is written, and what is
not refused should stay in its field.

`oversize_guards_iff` says for which arguments the two do so. The script takes any text here,
whatever the shell makes of it.
-/

namespace GumstixExtras.Eeprom

open GumstixExtras.Lib

/-! ## §1 Fields and offsets -/

/-- Texts of these lengths do not fit: a fab revision, a variable name and a setting. -/
def Oversize (fab name setting : ℕ) : Prop := 7 < fab ∨ 15 < name ∨ 63 < setting

/-- The offsets of string writes, each in the field of its string. The environment, if there
is one, follows its flag. -/
def InFields (offsets : List ℕ) : Prop :=
  ∃ fab env, offsets = fab ++ env ∧ (∀ o ∈ fab, 6 ≤ o ∧ o ≤ 13) ∧
    (env = [] ∨ ∃ name setting, env = envFlagOff :: (name ++ setting) ∧
      (∀ o ∈ name, 14 ≤ o ∧ o ≤ 29) ∧ ∀ o ∈ setting, 30 ≤ o ∧ o ≤ 93)

/-- Without the flag there is only the first field. -/
theorem InFields.le_of_forall {offsets : List ℕ} (h : InFields offsets)
    (hlow : ∀ o ∈ offsets, 6 ≤ o) : ∀ o ∈ offsets, o ≤ 13 := by
  obtain ⟨fab, env, rfl, hfab, henv⟩ := h
  rcases henv with rfl | ⟨name, setting, rfl, -, -⟩
  · intro o ho
    rw [List.append_nil] at ho
    exact (hfab o ho).2
  · have hflag : 6 ≤ envFlagOff := hlow envFlagOff (by simp)
    exact absurd hflag (by decide)

/-! ## §2 The script on any text -/

/-- One byte is dumped for each character of plain text, or none. -/
theorem length_hex_plain_le (text : List Char) :
    (ShellReading.plain.hex text).length ≤ text.length := by
  show (ifsFields (hexdump (echoN text))).length ≤ text.length
  rw [ifsFields_hexdump, List.length_map, echoN]
  split
  · exact Nat.zero_le _
  · rw [List.length_map]

/-- The offset an `i2cset` writes at, if it takes the number. -/
def i2csetOffset (dm : DataModel) : I2cset → Option ℕ
  | _ :: _ :: offset :: _ => i2csetNumber dm offset
  | _ => none

/-- The arguments the script gives up on: their number, the revision or the vendor id. -/
def Refused (args : List (List Char)) : Prop :=
  (args.length ≠ 4 ∧ args.length ≠ 6) ∨ 8 ≤ (param args 4).length ∨ 6 ≤ (param args 1).length

/-- The script gives up on oversize texts before the first `i2cset`, and what it writes as
strings otherwise stays in the fields. The first six commands write the numbers. -/
structure ScriptGuards (dm : DataModel) (sh : ShellReading) (machineId : List Char)
    (args : List (List Char)) : Prop where
  rejects : Oversize (param args 4).length (param args 5).length (param args 6).length →
    ∃ refusal, writepromText sh machineId args = .error refusal
  fields : ∀ commands, writepromText sh machineId args = .ok commands →
    InFields ((commands.drop 6).filterMap (i2csetOffset dm))

section Script

variable (dm : DataModel) (sh : ShellReading) (machineId : List Char) (args : List (List Char))

theorem writepromText_refused (h : Refused args) :
    ∃ refusal, writepromText sh machineId args = .error refusal := by
  have hempty : ¬ 16 ≤ ([] : List Char).length ∧ ¬ 64 ≤ ([] : List Char).length := by decide
  by_cases hcount : args.length ≠ 4 ∧ args.length ≠ 6
  · exact ⟨.usage, if_pos hcount⟩
  · by_cases hfab : 8 ≤ (param args 4).length
    · exact ⟨.fabRevision, (if_neg hcount).trans (if_pos hfab)⟩
    · -- the two checks in between never fail
      rcases h with h | h | hvendor
      · exact absurd h hcount
      · exact absurd h hfab
      · refine ⟨.vendorId, ?_⟩
        simp only [writepromText, if_neg hcount, if_neg hfab, if_neg hempty.1, if_neg hempty.2,
          if_pos hvendor]

theorem writepromText_accepted (h : ¬ Refused args) :
    ∃ bus device header, header.length = 6 ∧ writepromText sh machineId args =
      .ok (header ++ forCharacter bus device 6 (sh.hex (param args 4))) := by
  rw [Refused, not_or, not_or] at h
  obtain ⟨hcount, hfab, hvendor⟩ := h
  have hempty : ¬ 16 ≤ ([] : List Char).length ∧ ¬ 64 ≤ ([] : List Char).length := by decide
  -- the environment waits for a number of arguments that has been refused
  have hfive : args.length ≠ 5 := by omega
  simp only [writepromText, if_neg hcount, if_neg hfab, if_neg hempty.1, if_neg hempty.2,
    if_neg hvendor, if_neg hfive, List.append_nil]
  exact ⟨_, _, _, rfl, rfl⟩

/-- The loop and the terminator behind it count up; what no longer fits a byte is not taken. -/
theorem forCharacter_offsets (bus device : List Char) (i : ℕ) (hex : List (List Char)) :
    (forCharacter bus device i hex).filterMap (i2csetOffset dm) =
      (List.range' i (hex.length + 1)).filter (· ≤ 0xFF) := by
  have hoffset : ∀ i value, i2csetOffset dm [bus, device, fmtInt (i : ℕ), value] =
      if i ≤ 0xFF then some i else none := fun i _ => i2csetNumber_fmtInt dm i
  induction hex generalizing i with
  | nil =>
    -- only the terminator
    rw [forCharacter, List.filterMap_cons, hoffset, List.length_nil, List.range'_one]
    by_cases hi : i ≤ 0xFF
    · rw [if_pos hi, List.filter_cons_of_pos (by simpa using hi)]
      rfl
    · rw [if_neg hi, List.filter_cons_of_neg (by simpa using hi)]
      rfl
  | cons character hex ih =>
    have hsucc : List.range' i (hex.length + 1 + 1) =
      i :: List.range' (i + 1) (hex.length + 1) := List.range'_succ
    rw [forCharacter, List.filterMap_cons, hoffset, ih, List.length_cons, hsucc]
    by_cases hi : i ≤ 0xFF
    · rw [if_pos hi, List.filter_cons_of_pos (by simpa using hi)]
    · rw [if_neg hi, List.filter_cons_of_neg (by simpa using hi)]

/-- The revision stays in its field exactly when at most seven bytes are dumped. -/
theorem inFields_forCharacter_iff (bus device : List Char) (hex : List (List Char)) :
    InFields ((forCharacter bus device 6 hex).filterMap (i2csetOffset dm)) ↔
      hex.length ≤ 7 := by
  rw [forCharacter_offsets]
  constructor
  · intro hfields
    by_contra hlong
    have hlow : ∀ o ∈ (List.range' 6 (hex.length + 1)).filter (· ≤ 0xFF), 6 ≤ o := by
      intro o ho
      exact (List.mem_range'_1.mp (List.mem_of_mem_filter ho)).1
    -- the ninth write is the first behind the field
    have hmem : 14 ∈ (List.range' 6 (hex.length + 1)).filter (· ≤ 0xFF) := by
      rw [List.mem_filter, List.mem_range'_1]
      exact ⟨by omega, by decide⟩
    exact absurd (hfields.le_of_forall hlow 14 hmem) (by decide)
  · intro hshort
    refine ⟨_, [], (List.append_nil _).symm, ?_, .inl rfl⟩
    intro o ho
    have := List.mem_range'_1.mp (List.mem_of_mem_filter ho)
    omega

theorem scriptGuards_iff :
    ScriptGuards dm sh machineId args ↔ Refused args ∨
      ((param args 5).length ≤ 15 ∧ (param args 6).length ≤ 63 ∧
        (sh.hex (param args 4)).length ≤ 7) := by
  by_cases hrefused : Refused args
  · obtain ⟨refusal, herror⟩ := writepromText_refused sh machineId args hrefused
    -- refused before anything is written, so both guards hold
    refine iff_of_true ⟨fun _ => ⟨refusal, herror⟩, fun commands hok => ?_⟩ (.inl hrefused)
    rw [herror] at hok
    cases hok
  · -- accepted: behind the six commands of the header stand the bytes of the revision
    obtain ⟨bus, device, header, hlen, hok⟩ :=
      writepromText_accepted sh machineId args hrefused
    have hstrings : (header ++ forCharacter bus device 6 (sh.hex (param args 4))).drop 6 =
        forCharacter bus device 6 (sh.hex (param args 4)) := List.drop_left' hlen
    have hfab : (param args 4).length ≤ 7 := by
      rw [Refused] at hrefused
      omega
    rw [or_iff_right hrefused]
    constructor
    · intro hguards
      -- an accepted call must not have been oversize, as a refusal is not what came out
      have hfits : ¬ Oversize (param args 4).length (param args 5).length
          (param args 6).length := by
        intro hover
        obtain ⟨refusal, herror⟩ := hguards.rejects hover
        rw [hok] at herror
        cases herror
      have hfields := hguards.fields _ hok
      rw [hstrings, inFields_forCharacter_iff] at hfields
      rw [Oversize] at hfits
      exact ⟨by omega, by omega, hfields⟩
    · rintro ⟨hname, hsetting, hhex⟩
      refine ⟨fun hover => ?_, fun commands hcommands => ?_⟩
      · rw [Oversize] at hover
        omega
      · cases Except.ok.inj (hok.symm.trans hcommands)
        rw [hstrings, inFields_forCharacter_iff]
        exact hhex

/-- On plain text a revision that is not refused fits, so that only the environment counts. -/
theorem scriptGuards_plain_iff :
    ScriptGuards dm .plain machineId args ↔
      Refused args ∨ ((param args 5).length ≤ 15 ∧ (param args 6).length ≤ 63) := by
  rw [scriptGuards_iff]
  refine ⟨Or.imp_right fun h => ⟨h.1, h.2.1⟩, fun h => ?_⟩
  by_cases hrefused : Refused args
  · exact .inl hrefused
  · obtain ⟨hname, hsetting⟩ := h.resolve_left hrefused
    have hdump := length_hex_plain_le (param args 4)
    rw [Refused] at hrefused
    exact .inr ⟨hname, hsetting, by omega⟩

end Script

/-! ## §3 The generator -/

/-- What a printed `i2c mw` line starts with. -/
def mwPrefix (address : List Char) : List Char :=
  "i2c".toList ++ ' ' :: ("mw".toList ++ ' ' :: (address ++ [' ']))

/-- The offset in a line printed for an address. -/
def mwOffset (address line : List Char) : Option ℕ :=
  (line.dropPrefix? (mwPrefix address)).map fun rest => ubootHex (rest.takeWhile (¬ isIfs ·))

/-- The environment entry that `execute` looks at. -/
def envEntry (env : Option (List (List UInt8 × List UInt8))) : List UInt8 × List UInt8 :=
  (env.bind List.head?).getD ([], [])

/-- Both numbers are numerals to `int(_, 16)`, which raises an exception otherwise. -/
def NumbersParse (deviceId rev : List Char) : Prop :=
  (∃ device, pyInt16 deviceId = .ok device) ∧ ∃ r, pyInt16 rev = .ok r

/-- `execute` returns -1 for oversize texts and prints no `i2c mw`, and the strings it prints
otherwise stay in the fields. The first seven lines are the bus and the numbers. -/
structure GeneratorGuards (fabRev : List UInt8) (env : Option (List (List UInt8 × List UInt8)))
    (deviceId rev : List Char) (bus : ℤ) (address : List Char) : Prop where
  rejects : NumbersParse deviceId rev →
    Oversize fabRev.length (envEntry env).1.length (envEntry env).2.length →
    ∃ lines, execute fabRev env deviceId rev bus address = .ok (-1, lines) ∧
      ∀ line ∈ lines, ¬ "i2c mw".toList <+: line
  fields : ∀ lines, execute fabRev env deviceId rev bus address = .ok (0, lines) →
    InFields ((lines.drop 7).filterMap (mwOffset address))

section Generator

variable (fabRev : List UInt8) (env : Option (List (List UInt8 × List UInt8)))
  (deviceId rev : List Char) (bus : ℤ) (address : List Char)

theorem mwOffset_mwLine {offset : List Char} (h : IsWord offset) (value : List Char) :
    mwOffset address (mwLine address offset value) = some (ubootHex offset) := by
  have hline : mwLine address offset value = mwPrefix address ++ (offset ++ ' ' :: value) := by
    simp [mwLine, mwPrefix]
  have hoffset : (offset ++ ' ' :: value).takeWhile (¬ isIfs ·) = offset := by
    rw [List.takeWhile_append_of_pos fun c hc => by simp [h.2 c hc],
      List.takeWhile_cons_of_neg (by decide), List.append_nil]
  rw [mwOffset, hline, List.dropPrefix?_append_of_beq _ (beq_self_eq_true _), Option.map_some,
    hoffset]

theorem enumLines_offsets (off : ℕ) (xs : List (List Char)) :
    (enumLines address off xs).filterMap (mwOffset address) = List.range' off xs.length := by
  have hline : ∀ x : List Char × ℕ,
      mwOffset address (mwLine address (fmtHex (x.2 + off)) x.1) = some (x.2 + off) := by
    intro x
    rw [mwOffset_mwLine address (isWord_fmtHex _), ubootHex_fmtHex]
  rw [enumLines, List.filterMap_map]
  -- the offsets are the positions, moved by `off`
  calc List.filterMap (mwOffset address ∘ fun x => mwLine address (fmtHex (x.2 + off)) x.1)
        xs.zipIdx
      = xs.zipIdx.map (fun x => x.2 + off) := by
        rw [← List.filterMap_eq_map']
        exact congrArg (List.filterMap · _) (funext hline)
    _ = (xs.zipIdx.map Prod.snd).map (off + ·) := by
        rw [List.map_map]
        exact congrArg (List.map · _) (funext fun x => Nat.add_comm _ _)
    _ = List.range' off xs.length := by
        rw [List.zipIdx_map_snd, List.map_add_range', Nat.add_zero]

/-- An accepted environment has an entry that fits. -/
theorem envHex_ok {entries : List (List UInt8 × List UInt8)}
    {hex : List (List Char) × List (List Char)} (h : envHex entries = .ok hex) :
    ∃ e rest, entries = e :: rest ∧ e.1.length ≤ 15 ∧ e.2.length ≤ 63 ∧
      hex = (toHex e.1, toHex e.2) := by
  cases entries with
  | nil => cases h
  | cons e rest =>
    by_cases hbig : (toHex e.1).length > 16 ∨ (toHex e.2).length > 64
    · cases h.symm.trans (if_pos hbig)
    · cases h.symm.trans (if_neg hbig)
      rw [length_toHex, length_toHex] at hbig
      exact ⟨e, rest, rfl, by omega, by omega, rfl⟩

/-- `execute` returns 0 or not at all, and what it then prints after the numbers are the
strings, all of which fit. -/
theorem execute_ok {rc : ℤ} {lines : List (List Char)}
    (h : execute fabRev env deviceId rev bus address = .ok (rc, lines)) :
    rc = 0 ∧ fabRev.length ≤ 7 ∧
      ((env = none ∧ lines.drop 7 = enumLines address 0x06 (toHex fabRev)) ∨
        ∃ e entries, env = some (e :: entries) ∧ e.1.length ≤ 15 ∧ e.2.length ≤ 63 ∧
          lines.drop 7 = enumLines address 0x06 (toHex fabRev) ++
            mwLine address "0x05".toList "0x01".toList ::
              (enumLines address 14 (toHex e.1) ++ enumLines address 30 (toHex e.2))) := by
  -- past both conversions, past the test of the revision, past that of the environment
  obtain ⟨device, -, h⟩ := bind_eq_ok_iff.mp h
  obtain ⟨r, -, h⟩ := bind_eq_ok_iff.mp h
  by_cases hlong : (toHex fabRev).length > 8
  · cases h.symm.trans (if_pos hlong)
  · have h := (if_neg hlong).symm.trans h
    have hfab : fabRev.length ≤ 7 := by
      rw [length_toHex] at hlong
      omega
    cases env with
    | none =>
      cases h
      exact ⟨rfl, hfab, .inl ⟨rfl, List.append_nil _⟩⟩
    | some entries =>
      obtain ⟨hex, hhex, h⟩ := bind_eq_ok_iff.mp h
      obtain ⟨e, rest, rfl, hname, hsetting, rfl⟩ := envHex_ok hhex
      cases h
      exact ⟨rfl, hfab, .inr ⟨e, rest, rfl, hname, hsetting, rfl⟩⟩

/-- The strings of a run that returns 0 stay in their fields, whatever its arguments. -/
theorem execute_inFields {lines : List (List Char)}
    (h : execute fabRev env deviceId rev bus address = .ok (0, lines)) :
    InFields ((lines.drop 7).filterMap (mwOffset address)) := by
  obtain ⟨-, hfab, henv⟩ := execute_ok fabRev env deviceId rev bus address h
  have hrange : ∀ {off size : ℕ} {text : List UInt8}, text.length < size →
      ∀ o ∈ List.range' off (toHex text).length, off ≤ o ∧ o ≤ off + size - 1 := by
    intro off size text hsize o ho
    rw [length_toHex] at ho
    have := List.mem_range'_1.mp ho
    omega
  rcases henv with ⟨-, hlines⟩ | ⟨e, rest, -, hname, hsetting, hlines⟩
  · rw [hlines, enumLines_offsets]
    exact ⟨_, [], (List.append_nil _).symm, hrange (Nat.lt_succ_of_le hfab), .inl rfl⟩
  · -- the line of the flag parts the revision from the environment
    have hflag : mwOffset address (mwLine address "0x05".toList "0x01".toList) =
        some envFlagOff := mwOffset_mwLine address (by decide) _
    rw [hlines, List.filterMap_append, enumLines_offsets, List.filterMap_cons_some hflag,
      List.filterMap_append, enumLines_offsets, enumLines_offsets]
    exact ⟨_, _, rfl, hrange (Nat.lt_succ_of_le hfab), .inr ⟨_, _, rfl,
      hrange (Nat.lt_succ_of_le hname), hrange (Nat.lt_succ_of_le hsetting)⟩⟩

theorem generatorGuards_iff :
    GeneratorGuards fabRev env deviceId rev bus address ↔ ¬ NumbersParse deviceId rev ∨
      ¬ Oversize fabRev.length (envEntry env).1.length (envEntry env).2.length := by
  constructor
  · intro hguards
    by_contra hneither
    rw [not_or, not_not, not_not] at hneither
    obtain ⟨hparse, hover⟩ := hneither
    -- the branch that should return -1 raises an exception
    obtain ⟨lines, hlines, -⟩ := hguards.rejects hparse hover
    obtain ⟨hrc, -⟩ := execute_ok fabRev env deviceId rev bus address hlines
    exact absurd hrc (by decide)
  · intro h
    refine ⟨fun hparse hover => ?_, fun lines hlines =>
      execute_inFields fabRev env deviceId rev bus address hlines⟩
    rcases h with h | h
    · exact absurd hparse h
    · exact absurd hover h

end Generator

/-! ## §4 Both programmers -/

/-- **Length checks**: the script guards its fields if and only if it refuses the arguments, or
the environment fits and no more than seven bytes are dumped for the revision. The generator
does so if and only if everything fits or a number is none. -/
theorem oversize_guards_iff (dm : DataModel) (sh : ShellReading) (machineId : List Char)
    (args : List (List Char)) (fabRev : List UInt8)
    (env : Option (List (List UInt8 × List UInt8))) (deviceId rev : List Char) (bus : ℤ)
    (address : List Char) :
    (ScriptGuards dm sh machineId args ↔ Refused args ∨
      ((param args 5).length ≤ 15 ∧ (param args 6).length ≤ 63 ∧
        (sh.hex (param args 4)).length ≤ 7)) ∧
    (GeneratorGuards fabRev env deviceId rev bus address ↔ ¬ NumbersParse deviceId rev ∨
      ¬ Oversize fabRev.length (envEntry env).1.length (envEntry env).2.length) :=
  ⟨scriptGuards_iff dm sh machineId args,
    generatorGuards_iff fabRev env deviceId rev bus address⟩

/-- A variable name of sixteen characters is not refused by the script, and a revision of
eight characters is not refused by the generator. -/
theorem not_guards_longTexts :
    ¬ ScriptGuards .ilp32 .plain "overo".toList
        ["0x02".toList, "0x0001".toList, "0x00".toList, "R2411".toList,
          "display_mode_lcd".toList, "1024x768MR-16@60".toList] ∧
      ¬ GeneratorGuards [82, 50, 52, 49, 49, 88, 89, 90] none "0x0001".toList "0x00".toList 2
        "0x51".toList := by
  constructor
  · rw [scriptGuards_iff, Refused]
    decide
  · rw [generatorGuards_iff, not_or, not_not, not_not]
    exact ⟨⟨⟨1, rfl⟩, ⟨0, rfl⟩⟩, .inl (by decide)⟩

end GumstixExtras.Eeprom
