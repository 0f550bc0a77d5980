import GumstixExtras.Eeprom.UenvGenerator

/-!
# The `writeprom.sh` Script

The script as the `i2cset` commands it runs, and what they store. What the shell makes of a
text is a parameter. Of plain text, in which no character means anything to the shell, it makes
the text itself, split at white space where the script does not quote it.

`writeprom_agrees_iff` compares it with `uenv-generator`, whose header promises the same
contents. The EEPROM is the chip that each of the two addresses.
-/

namespace GumstixExtras.Eeprom

open GumstixExtras.Lib

/-! ## §1 Plain text -/

/-- The characters that are nothing but themselves to a shell. -/
def plainChars : List Char :=
  "ABCDEFGHIJKLMNOPQRSTUVWXYZabcdefghijklmnopqrstuvwxyz0123456789-._@:+,/=%".toList

/-- Text of plain characters. -/
structure PlainText where
  chars : List Char
  plain : ∀ c ∈ chars, c ∈ plainChars

/-- The length as `${#...}` gives it. -/
def PlainText.length (t : PlainText) : ℕ := t.chars.length

/-- The bytes of the text, which is ASCII. -/
def PlainText.bytes (t : PlainText) : List UInt8 := t.chars.map fun c => UInt8.ofNat c.toNat

/-! ## §2 The script -/

/-- The ways the script gives up before it touches the bus. -/
inductive Refusal
  | usage
  | fabRevision
  | envVar
  | envSetting
  | vendorId
  deriving DecidableEq, Repr

/-- What the script echoes when it gives up. -/
def Refusal.text : Refusal → List String
  | .usage =>
    ["Usage:", "", "writeprom.sh vendorid deviceid rev fab_rev [envvar envsetting]", "",
      " vendorid, deviceid - expansion board device number from " ++
        "http://www.elinux.org/BeagleBoardPinMux#Vendor_and_Device_IDs", "",
      " rev          - board revision (e.g. 0x00)",
      " fab_rev      - revision marking from pcb (e.g. R2411)",
      " envvar       - optional u-boot env variable name", "                (e.g. dvimode)",
      " envsetting   - optional u-boot env variable setting",
      "                (e.g. 1024x768MR-16@60)", "",
      "Don't forget to make the EEPROM writeable if it has a writeprotect jumper!"]
  | .fabRevision => ["Error: fab revision string must less than 8 characters"]
  | .envVar => ["Error: environment variable name string must less than 16 characters"]
  | .envSetting => ["Error: environment setting string must less than 64 characters"]
  | .vendorId => ["Error: vendorid number must be less than 6 digits"]

/-- The arguments of an `i2cset -y`: bus, device, offset and value. -/
abbrev I2cset := List (List Char)

/-- `echo` takes this text as an option. -/
def isEchoOption : List Char → Bool
  | '-' :: c :: cs => (c :: cs).all fun o => o = 'n' || o = 'e' || o = 'E'
  | _ => false

/-- What `echo -n "$text"` writes. -/
def echoN (text : List Char) : List UInt8 :=
  if isEchoOption text then [] else text.map fun c => UInt8.ofNat c.toNat

/-- `hexdump` with the constructed format: each byte of the input once. -/
def hexdump (input : List UInt8) : List Char :=
  input.flatMap fun b => '0' :: 'x' :: fmtByte b ++ [' ']

/-- The loop over the characters from offset `i` on, and the terminator behind it. -/
def forCharacter (bus device : List Char) (i : ℕ) : List (List Char) → List I2cset
  | [] => [[bus, device, fmtInt i, "0x00".toList]]
  | character :: hex => [bus, device, fmtInt i, character] ::
      forCharacter bus device (i + 1) hex

/-- What the shell makes of a text. Of the pipeline that dumps a text, and of the `eval`
around it, only the output counts. -/
structure ShellReading where
  /-- The words of the unquoted text. -/
  words : List Char → List (List Char)
  /-- The words of `$hex`, once the text has been dumped into it. -/
  hex : List Char → List (List Char)

/-- The reading of plain text, with white space in it or without. -/
def ShellReading.plain : ShellReading where
  words := ifsFields
  hex text := ifsFields (hexdump (echoN text))

/-- The positional parameter `$k`, empty when there are fewer. -/
def param (args : List (List Char)) (k : ℕ) : List Char := args.getD (k - 1) []

/-- `writeprom.sh` with the positional parameters `args`, on a machine that `machine_id`
names. -/
def writepromText (sh : ShellReading) (machineId : List Char) (args : List (List Char)) :
    Except Refusal (List I2cset) :=
  let fabrevision := param args 4
  let envvar := param args 5
  let envsetting := param args 6
  -- the lengths tested below are those of `envar` and `ensetting`, which are never set
  let envar : List Char := []
  let ensetting : List Char := []
  let vendorid := param args 1
  if args.length ≠ 4 ∧ args.length ≠ 6 then .error .usage
  else if 8 ≤ fabrevision.length then .error .fabRevision
  else if 16 ≤ envar.length then .error .envVar
  else if 64 ≤ ensetting.length then .error .envSetting
  else if 6 ≤ vendorid.length then .error .vendorId
  else
    let bus := if machineId = "omap3_beagle_board".toList then "2".toList else "3".toList
    -- whatever the machine, the device chosen with the bus is overwritten
    let device := "0x50".toList
    .ok ([[bus, device, "0x00".toList, "0x00".toList],
      [bus, device, "0x01".toList] ++ sh.words vendorid,
      [bus, device, "0x02".toList, "0x00".toList],
      [bus, device, "0x03".toList] ++ sh.words (param args 2),
      [bus, device, "0x04".toList] ++ sh.words (param args 3),
      [bus, device, "0x05".toList, "00".toList]] ++
      forCharacter bus device 6 (sh.hex fabrevision) ++
      if args.length = 5 then
        [bus, device, "0x05".toList, "0x01".toList] ::
          (forCharacter bus device 14 (sh.hex envvar) ++
            forCharacter bus device 30 (sh.hex envsetting))
      else [])

/-- `writeprom.sh` on plain text. -/
def writeprom (machineId : List Char) (args : List (List Char)) :
    Except Refusal (List I2cset) :=
  writepromText .plain machineId args

/-! ## §3 What the commands store -/

/-- A number of `i2cset`, up to 0xFF. -/
def i2csetNumber (dm : DataModel) (s : List Char) : Option ℕ :=
  let parsed := strtol dm s
  if parsed.2 ≠ [] ∨ parsed.1 < 0 ∨ 0xFF < parsed.1 then none else some parsed.1.toNat

/-- The byte an `i2cset` stores. -/
def i2cset (dm : DataModel) : I2cset → Option (ℕ × UInt8)
  | [_, _, offset, value] => do
    let offset ← i2csetNumber dm offset
    let value ← i2csetNumber dm value
    some (offset, UInt8.ofNat value)
  | _ => none

/-- The bytes a run of the script stores. -/
def writepromWrites (dm : DataModel) (machineId : List Char) (args : List (List Char)) :
    List (ℕ × UInt8) :=
  match writeprom machineId args with
  | .error _ => []
  | .ok commands => commands.filterMap (i2cset dm)

/-- The number an `i2cset` is given by an unquoted text: none if the text is not a single
word. -/
def i2csetReads (dm : DataModel) (text : List Char) : Option ℕ :=
  match ifsFields text with
  | [value] => i2csetNumber dm value
  | _ => none

theorem i2csetNumber_le {dm : DataModel} {s : List Char} {n : ℕ} (h : i2csetNumber dm s = some n) :
    n ≤ 0xFF := by
  unfold i2csetNumber at h
  dsimp only at h
  split at h
  · cases h
  · next hrange =>
    obtain rfl := Option.some.inj h
    omega

theorem i2csetReads_le {dm : DataModel} {text : List Char} {n : ℕ}
    (h : i2csetReads dm text = some n) : n ≤ 0xFF := by
  unfold i2csetReads at h
  split at h
  · exact i2csetNumber_le h
  · cases h

theorem i2csetNumber_hexNumeral (dm : DataModel) {s : List Char} {n : ℕ}
    (h : IsHexNumeral s n) : i2csetNumber dm s = if n ≤ 0xFF then some n else none := by
  have hmax : 0xFF < dm.longMax := by cases dm <;> decide
  rw [i2csetNumber, strtol_hexNumeral dm h]
  by_cases hn : n ≤ 0xFF
  · rw [if_pos hn, if_neg (by simp; omega)]
    simp only [Option.some.injEq]
    omega
  · rw [if_neg hn, if_pos (by simp; omega)]

/-- A number the script has counted up. -/
theorem i2csetNumber_fmtInt (dm : DataModel) (n : ℕ) :
    i2csetNumber dm (fmtInt n) = if n ≤ 0xFF then some n else none := by
  have hmax : 0xFF < dm.longMax := by cases dm <;> decide
  have hmin : dm.longMin ≤ 0 := by cases dm <;> decide
  rw [i2csetNumber, strtol_fmtInt, DataModel.clamp]
  by_cases hn : n ≤ 0xFF
  · rw [if_pos hn, if_neg (by simp; omega)]
    simp only [Option.some.injEq]
    omega
  · rw [if_neg hn, if_pos (by simp; omega)]

/-- The offsets of the layout. -/
theorem i2csetNumber_offset (dm : DataModel) {i : ℕ} (hi : i ≤ 93) :
    i2csetNumber dm (fmtInt i) = some i := by
  rw [i2csetNumber_fmtInt, if_pos (by omega)]

/-- The words of a dump. -/
theorem ifsFields_hexdump (input : List UInt8) :
    ifsFields (hexdump input) = input.map fun b => '0' :: 'x' :: fmtByte b := by
  induction input with
  | nil => rfl
  | cons b input ih =>
    have hword : IsWord ('0' :: 'x' :: fmtByte b) := isWord_hexNumeral (isHexNumeral_fmtByte b)
    have hdump : hexdump (b :: input) = ('0' :: 'x' :: fmtByte b) ++ ' ' :: hexdump input := rfl
    rw [hdump, ifsFields_append hword (by decide), ih, List.map_cons]

section Commands

variable (dm : DataModel) (bus device : List Char)

theorem i2cset_eq {offset value : List Char} {o v : ℕ} (ho : i2csetNumber dm offset = some o)
    (hv : i2csetNumber dm value = some v) :
    i2cset dm [bus, device, offset, value] = some (o, UInt8.ofNat v) := by
  simp only [i2cset, ho, hv, Option.bind_eq_bind, Option.bind_some]

/-- The loop stores the dumped bytes and a terminator. -/
theorem forCharacter_writes {i : ℕ} (input : List UInt8) (hi : i + input.length ≤ 93) :
    (forCharacter bus device i (input.map fun b => '0' :: 'x' :: fmtByte b)).filterMap
      (i2cset dm) = blockWrites i (input ++ [0]) := by
  induction input generalizing i with
  | nil =>
    -- behind the last byte the script writes the terminator
    have hzero : i2csetNumber dm "0x00".toList = some 0 := by cases dm <;> decide
    have hstore := i2cset_eq dm bus device (i2csetNumber_offset dm (i := i) (by simpa using hi))
      hzero
    rw [List.map_nil, forCharacter, List.filterMap_cons_some hstore]
    rfl
  | cons b input ih =>
    have hbyte : i2csetNumber dm ('0' :: 'x' :: fmtByte b) = some b.toNat := by
      have := b.toNat_lt
      rw [i2csetNumber_hexNumeral dm (isHexNumeral_fmtByte b), if_pos (by omega)]
    have hstore := i2cset_eq dm bus device (i2csetNumber_offset dm (i := i) (by omega)) hbyte
    rw [UInt8.ofNat_toNat] at hstore
    rw [List.map_cons, forCharacter, List.filterMap_cons_some hstore,
      ih (by rw [List.length_cons] at hi; omega), List.cons_append, blockWrites]

theorem hex_writes {i : ℕ} (text : List Char) (hi : i + text.length ≤ 93) :
    (forCharacter bus device i (ShellReading.plain.hex text)).filterMap (i2cset dm) =
      blockWrites i (echoN text ++ [0]) := by
  have hlen : (echoN text).length ≤ text.length := by
    unfold echoN
    split
    · exact Nat.zero_le _
    · rw [List.length_map]
  show (forCharacter bus device i (ifsFields (hexdump (echoN text)))).filterMap _ = _
  rw [ifsFields_hexdump, forCharacter_writes dm bus device _ (by omega)]

/-- An `i2cset` of an unquoted text stores the number the text gives it, if any. -/
theorem i2cset_words {offset : List Char} {o : ℕ} (ho : i2csetNumber dm offset = some o)
    (text : List Char) :
    i2cset dm ([bus, device, offset] ++ ifsFields text) =
      ((i2csetReads dm text).map UInt8.ofNat).map fun b => (o, b) := by
  unfold i2csetReads
  rcases hwords : ifsFields text with - | ⟨value, - | ⟨value', rest⟩⟩
  · rfl
  · simp only [List.cons_append, List.nil_append, i2cset, ho, Option.bind_eq_bind,
      Option.bind_some]
    cases i2csetNumber dm value with
    | none => rfl
    | some v => rfl
  · rfl

theorem filterMap_words {offset : List Char} {o : ℕ} (ho : i2csetNumber dm offset = some o)
    (text : List Char) (commands : List I2cset) :
    (([bus, device, offset] ++ ifsFields text) :: commands).filterMap (i2cset dm) =
      (((i2csetReads dm text).map UInt8.ofNat).map fun b => (o, b)).toList ++
        commands.filterMap (i2cset dm) := by
  rw [List.filterMap_cons, i2cset_words dm bus device ho]
  cases i2csetReads dm text <;> rfl

end Commands

/-- What the script stores: the high bytes of the ids are constants, an id that `i2cset` does
not take is left out, and the flag is cleared. -/
def scriptWrites (device rev : Option ℕ) (fabRev : List UInt8) : List (ℕ × UInt8) :=
  [(0x00, 0), (0x01, 0x02), (0x02, 0)] ++
    ((device.map UInt8.ofNat).map fun b => (0x03, b)).toList ++
    ((rev.map UInt8.ofNat).map fun b => (0x04, b)).toList ++
    [(envFlagOff, 0)] ++ blockWrites fabRevOff (fabRev ++ [0])

/-- The environment arguments. -/
def envArgs : Option (PlainText × PlainText) → List (List Char)
  | none => []
  | some (name, setting) => [name.chars, setting.chars]

/-- The vendor id on the command line. -/
def vendorArg : List Char := "0x02".toList

/-- The commands, with or without an environment: the number of arguments the environment
waits for is one that was refused above. -/
theorem writeprom_eq (machineId deviceId revision : List Char) {fabRev : PlainText}
    (hfab : fabRev.length ≤ 7) (env : Option (PlainText × PlainText)) :
    ∃ bus, writeprom machineId
        (vendorArg :: deviceId :: revision :: fabRev.chars :: envArgs env) =
      .ok ([[bus, "0x50".toList, "0x00".toList, "0x00".toList],
        [bus, "0x50".toList, "0x01".toList, "0x02".toList],
        [bus, "0x50".toList, "0x02".toList, "0x00".toList],
        [bus, "0x50".toList, "0x03".toList] ++ ifsFields deviceId,
        [bus, "0x50".toList, "0x04".toList] ++ ifsFields revision,
        [bus, "0x50".toList, "0x05".toList, "00".toList]] ++
        forCharacter bus "0x50".toList 6 (ShellReading.plain.hex fabRev.chars)) := by
  have hfabLen : ¬ 8 ≤ fabRev.chars.length := Nat.not_le.mpr (Nat.lt_succ_of_le hfab)
  have hempty : ¬ 16 ≤ ([] : List Char).length ∧ ¬ 64 ≤ ([] : List Char).length := by decide
  have hvendor : ¬ 6 ≤ vendorArg.length := by decide
  have hvendorWords : ShellReading.plain.words vendorArg = ["0x02".toList] := by decide
  have hparams : ∀ args : List (List Char),
      param (vendorArg :: deviceId :: revision :: fabRev.chars :: args) 1 = vendorArg ∧
      param (vendorArg :: deviceId :: revision :: fabRev.chars :: args) 2 = deviceId ∧
      param (vendorArg :: deviceId :: revision :: fabRev.chars :: args) 3 = revision ∧
      param (vendorArg :: deviceId :: revision :: fabRev.chars :: args) 4 = fabRev.chars :=
    fun _ => ⟨rfl, rfl, rfl, rfl⟩
  obtain ⟨hp1, hp2, hp3, hp4⟩ := hparams (envArgs env)
  have hargs : (vendorArg :: deviceId :: revision :: fabRev.chars :: envArgs env).length = 4 ∨
      (vendorArg :: deviceId :: revision :: fabRev.chars :: envArgs env).length = 6 := by
    cases env with
    | none => exact .inl rfl
    | some e => exact .inr rfl
  generalize vendorArg :: deviceId :: revision :: fabRev.chars :: envArgs env = args at *
  have hcount : ¬ (args.length ≠ 4 ∧ args.length ≠ 6) := by omega
  -- four or six arguments are never five
  have hfive : args.length ≠ 5 := by omega
  refine ⟨if machineId = "omap3_beagle_board".toList then "2".toList else "3".toList, ?_⟩
  simp only [writeprom, writepromText, hp1, hp2, hp3, hp4, if_neg hcount, if_neg hfive,
    if_neg hfabLen, if_neg hempty.1, if_neg hempty.2, if_neg hvendor, hvendorWords,
    List.append_nil]
  rfl

/-- With or without an environment, the script stores the same bytes. -/
theorem writepromWrites_eq (dm : DataModel) (machineId deviceId revision : List Char)
    {fabRev : PlainText} (hfab : fabRev.length ≤ 7) (env : Option (PlainText × PlainText)) :
    writepromWrites dm machineId
        (vendorArg :: deviceId :: revision :: fabRev.chars :: envArgs env) =
      scriptWrites (i2csetReads dm deviceId) (i2csetReads dm revision) (echoN fabRev.chars) := by
  obtain ⟨bus, hcommands⟩ := writeprom_eq machineId deviceId revision hfab env
  have hnumbers : i2csetNumber dm "0x00".toList = some 0 ∧
      i2csetNumber dm "0x01".toList = some 1 ∧ i2csetNumber dm "0x02".toList = some 2 ∧
      i2csetNumber dm "0x03".toList = some 3 ∧ i2csetNumber dm "0x04".toList = some 4 ∧
      i2csetNumber dm "0x05".toList = some 5 ∧ i2csetNumber dm "00".toList = some 0 := by
    cases dm <;> decide
  obtain ⟨h0, h1, h2, h3, h4, h5, h00⟩ := hnumbers
  -- the offsets of the string stay below those that are no longer two digits
  have hfit : 6 + fabRev.chars.length ≤ 93 := by
    have : fabRev.chars.length ≤ 7 := hfab
    omega
  have hstring := hex_writes dm bus "0x50".toList fabRev.chars hfit
  have hhead := fun (o v : List Char) (a b : ℕ) (ho : i2csetNumber dm o = some a)
    (hv : i2csetNumber dm v = some b) => i2cset_eq dm bus "0x50".toList ho hv
  -- one command after the other, the ids as the shell splits them
  rw [writepromWrites, hcommands]
  dsimp only
  rw [List.filterMap_append, hstring, List.filterMap_cons_some (hhead _ _ _ _ h0 h0),
    List.filterMap_cons_some (hhead _ _ _ _ h1 h2), List.filterMap_cons_some (hhead _ _ _ _ h2 h0),
    filterMap_words dm bus _ h3, filterMap_words dm bus _ h4,
    List.filterMap_cons_some (hhead _ _ _ _ h5 h00), List.filterMap_nil, scriptWrites]
  simp only [List.cons_append, List.nil_append, List.append_assoc]
  rfl

/-! ## §4 The two programmers -/

theorem PlainText.zero_notMem_bytes (t : PlainText) : (0 : UInt8) ∉ t.bytes := by
  have hascii : ∀ c ∈ plainChars, UInt8.ofNat c.toNat ≠ 0 := by decide
  intro h
  obtain ⟨c, hc, hzero⟩ := List.mem_map.mp h
  exact hascii c (t.plain c hc) hzero

/-- Plain text that fits a field, as the string of that field. -/
def PlainText.toField (t : PlainText) {size : ℕ} (h : t.length < size) : FieldString size :=
  ⟨t.bytes, t.zero_notMem_bytes, by rwa [PlainText.bytes, List.length_map]⟩

section Agreement

variable (m : Contents) {device rev : ℕ} {d r : Option ℕ} {fabRev : PlainText}
  (hfab : fabRev.length < 8) (env : Option EnvEntry)

/-- The image the other programmer writes. -/
def uenvImage (device rev : ℕ) (hfab : fabRev.length < 8) (env : Option EnvEntry) : Image :=
  ⟨0x0002, device, rev, fabRev.toField hfab, env⟩

/-- The script and the generator leave the same bytes. -/
def SameBytes (d r : Option ℕ) (device rev : ℕ) (hfab : fabRev.length < 8)
    (env : Option EnvEntry) : Prop :=
  applyWrites m (scriptWrites d r (echoN fabRev.chars)) =
    applyWrites m (uenvImage device rev hfab env).writes

/-- What the script leaves in front of the strings. -/
theorem scriptWrites_header (d r : Option ℕ) (fab : List UInt8) :
    applyWrites m (scriptWrites d r fab) 0x02 = 0 ∧
      applyWrites m (scriptWrites d r fab) 0x03 = (d.map UInt8.ofNat).getD (m 0x03) ∧
      applyWrites m (scriptWrites d r fab) 0x04 = (r.map UInt8.ofNat).getD (m 0x04) ∧
      applyWrites m (scriptWrites d r fab) envFlagOff = 0 := by
  have hoff : fabRevOff = 6 := rfl
  have hflag : envFlagOff = 5 := rfl
  -- the string is behind these bytes
  have hfront : ∀ i, i < 6 → ∀ m',
      applyWrites m' (blockWrites fabRevOff (fab ++ [0])) i = m' i := by
    intro i hi m'
    apply applyWrites_of_forall_ne
    intro w hw
    have := range_of_mem_blockWrites hw
    omega
  simp only [scriptWrites, applyWrites_append _ _ (blockWrites fabRevOff (fab ++ [0]))]
  rw [hfront _ (by decide), hfront _ (by decide), hfront _ (by decide), hfront _ (by decide)]
  -- an id that was refused leaves its byte as it was
  cases d <;> cases r <;> exact ⟨rfl, rfl, rfl, rfl⟩

/-- What the generator leaves there. -/
theorem uenvImage_header :
    applyWrites m (uenvImage device rev hfab env).writes 0x02 = UInt8.ofNat (device / 256) ∧
      applyWrites m (uenvImage device rev hfab env).writes 0x03 = UInt8.ofNat device ∧
      applyWrites m (uenvImage device rev hfab env).writes 0x04 = UInt8.ofNat rev := by
  rw [applyWrites_ids m _ (by decide), applyWrites_ids m _ (by decide),
    applyWrites_ids m _ (by decide)]
  exact ⟨rfl, rfl, rfl⟩

section Necessary

variable {m} {env} (h : SameBytes m d r device rev hfab env)

include h

/-- The flags agree only without an environment. -/
theorem env_eq_none_of_sameBytes : env = none := by
  -- the script clears the flag, the generator sets it for an environment
  have hflag := congrFun h envFlagOff
  rw [(scriptWrites_header m d r _).2.2.2, applyWrites_envFlag] at hflag
  have hne : (0 : UInt8) ≠ 1 := by decide
  cases env with
  | none => rfl
  | some e => exact absurd hflag hne

/-- The high bytes of the device ids agree only when that byte is zero. -/
theorem device_le_of_sameBytes (hdevice : device ≤ 0xFFFF) : device ≤ 0xFF := by
  -- the byte at 0x02 is a constant of the script and the high byte of the id
  have hhigh := congrFun h 0x02
  rw [(scriptWrites_header m d r _).1, (uenvImage_header m hfab env).1] at hhigh
  have hzero := congrArg UInt8.toNat hhigh
  rw [UInt8.toNat_ofNat'] at hzero
  simp at hzero
  omega

/-- The first characters agree only when `echo` prints them. -/
theorem not_isEchoOption_of_sameBytes : isEchoOption fabRev.chars = false := by
  by_contra hopt
  rw [Bool.not_eq_false] at hopt
  obtain ⟨hflag, hoff, hvar, hsetting⟩ := layout
  -- a text that `echo` takes as an option has a first character, and the script stores a
  -- terminator in its place
  have hfirst := congrFun h fabRevOff
  obtain ⟨b, bs, hbytes⟩ : ∃ b bs, fabRev.bytes = b :: bs := by
    apply List.exists_cons_of_ne_nil
    rw [PlainText.bytes, ne_eq, List.map_eq_nil_iff]
    intro hnil
    rw [hnil] at hopt
    exact absurd hopt (by decide)
  have hwrites : (fabRev.toField hfab).writes fabRevOff =
      blockWrites fabRevOff (b :: (bs ++ [0])) := by
    change blockWrites fabRevOff (fabRev.bytes ++ [0]) = _
    rw [hbytes, List.cons_append]
  rw [scriptWrites, echoN, if_pos hopt, applyWrites_append, List.nil_append,
    applyWrites_blockWrites_head, uenvImage, Image.writes, applyWrites_append,
    applyWrites_of_forall_ne _ (fun w hw => by have := range_of_mem_envWrites hw; omega),
    applyWrites_append, hwrites, applyWrites_blockWrites_head] at hfirst
  exact fabRev.zero_notMem_bytes (by rw [hbytes, hfirst]; exact List.mem_cons_self)

/-- The bytes of the two ids agree only when each command leaves its number. -/
theorem ids_of_sameBytes : (d.map UInt8.ofNat).getD (m 0x03) = UInt8.ofNat device ∧
    (r.map UInt8.ofNat).getD (m 0x04) = UInt8.ofNat rev := by
  obtain ⟨-, hdev, hrev, -⟩ := scriptWrites_header m d r (echoN fabRev.chars)
  obtain ⟨-, hdevice, hrevision⟩ := @uenvImage_header m device rev fabRev hfab env
  have hthree := congrFun h 0x03
  have hfour := congrFun h 0x04
  rw [hdev, hdevice] at hthree
  rw [hrev, hrevision] at hfour
  exact ⟨hthree, hfour⟩

end Necessary

/-- On a short id and an ordinary text the script leaves the image itself, where its numbers are
the ones of the image. -/
theorem sameBytes_of_ids (hd : device ≤ 0xFF) (hopt : isEchoOption fabRev.chars = false)
    (hdev : (d.map UInt8.ofNat).getD (m 0x03) = UInt8.ofNat device)
    (hrev : (r.map UInt8.ofNat).getD (m 0x04) = UInt8.ofNat rev) :
    SameBytes m d r device rev hfab none := by
  have hhigh : UInt8.ofNat (device / 256) = 0 := by
    rw [Nat.div_eq_of_lt (by omega)]
    rfl
  -- a number that is left out is there already, in front of the others as well as behind them
  have hthree : ((d.map UInt8.ofNat).getD
      ((applyWrites m [(0x00, 0), (0x01, 0x02), (0x02, 0)]) 0x03)) = UInt8.ofNat device := hdev
  have hfour : ((r.map UInt8.ofNat).getD ((Function.update
      (applyWrites m [(0x00, 0), (0x01, 0x02), (0x02, 0)]) 0x03 (UInt8.ofNat device)) 0x04)) =
      UInt8.ofNat rev := hrev
  rw [SameBytes, scriptWrites, applyWrites_append, applyWrites_append, applyWrites_append,
    applyWrites_append, applyWrites_option _ hthree, applyWrites_option _ hfour, echoN,
    if_neg (by simp [hopt]), uenvImage, Image.writes, idWrites]
  simp only [idBytes, blockWrites, hhigh, envWrites, List.append_nil, applyWrites_append]
  rfl

end Agreement

/-- The two programmers leave the same bytes. -/
def Agree (dm : DataModel) (machineId deviceId revision : List Char) (fabRev : PlainText)
    (env : Option (PlainText × PlainText)) (m : Contents) : Prop :=
  ∃ lines, execute fabRev.bytes (env.map fun e => [(e.1.bytes, e.2.bytes)]) deviceId revision 2
      "0x51".toList = .ok (0, lines) ∧
    applyWrites m (writepromWrites dm machineId
      (vendorArg :: deviceId :: revision :: fabRev.chars :: envArgs env)) =
    applyWrites m (ubootWrites lines)

/-- The entries of an environment whose texts fit their fields. -/
def envFields (env : Option (PlainText × PlainText))
    (henv : ∀ e, env = some e → e.1.length < 16 ∧ e.2.length < 64) : Option EnvEntry :=
  match env, henv with
  | none, _ => none
  | some e, henv => some (e.1.toField (henv e rfl).1, e.2.toField (henv e rfl).2)

/-- Both programmers, seen as lists of writes. -/
theorem agree_iff_sameBytes (dm : DataModel) (machineId : List Char)
    {deviceId revision : List Char} {fabRev : PlainText} {env : Option (PlainText × PlainText)}
    {device rev : ℕ} (m : Contents) (hdev : pyInt16 deviceId = .ok device)
    (hrev : pyInt16 revision = .ok rev) (hfab : fabRev.length < 8)
    (henv : ∀ e, env = some e → e.1.length < 16 ∧ e.2.length < 64) :
    Agree dm machineId deviceId revision fabRev env m ↔
      SameBytes m (i2csetReads dm deviceId) (i2csetReads dm revision) device rev hfab
        (envFields env henv) := by
  have hfields : (env.map fun e => [(e.1.bytes, e.2.bytes)]) =
      (envFields env henv).map fun e => [(e.1.bytes, e.2.bytes)] := by
    cases env <;> rfl
  have haddr : IsWord "0x51".toList := by decide
  -- each side as the writes of its image
  have hexecute := execute_eq "0x51".toList (fabRev.toField hfab) (envFields env henv) hdev hrev 2
  have hwrites := ubootWrites_printed haddr
    (fabRev.toField hfab) (envFields env henv) device rev 2
  have hscript := writepromWrites_eq dm machineId deviceId revision (Nat.le_of_lt_succ hfab) env
  rw [Agree, hfields, hscript]
  constructor
  · rintro ⟨lines, hlines, hagree⟩
    cases Except.ok.inj (hexecute.symm.trans hlines)
    rwa [hwrites] at hagree
  · intro hagree
    exact ⟨_, hexecute, by rw [hwrites]; exact hagree⟩

/-- An `i2cset` of a text leaves a number at an offset: it reads this number, or it refuses the
text and the byte of the number is there already. -/
def LeavesNumber (dm : DataModel) (m : Contents) (offset : ℕ) (text : List Char) (n : ℕ) : Prop :=
  match i2csetReads dm text with
  | some value => value = n
  | none => m offset = UInt8.ofNat n

theorem leavesNumber_iff {dm : DataModel} {m : Contents} {offset n : ℕ} {text : List Char}
    (hn : n ≤ 0xFF) : LeavesNumber dm m offset text n ↔
      ((i2csetReads dm text).map UInt8.ofNat).getD (m offset) = UInt8.ofNat n := by
  unfold LeavesNumber
  cases hreads : i2csetReads dm text with
  | none => rfl
  | some value =>
    dsimp only [Option.map_some, Option.getD_some]
    refine ⟨congrArg UInt8.ofNat, fun h => ?_⟩
    -- both numbers are bytes
    have hvalue := i2csetReads_le hreads
    have hnat := congrArg UInt8.toNat h
    rwa [UInt8.toNat_ofNat_of_lt' (by rw [UInt8.size]; omega),
      UInt8.toNat_ofNat_of_lt' (by rw [UInt8.size]; omega)] at hnat

/-- A numeral with a marker is read alike by both programmers. -/
theorem leavesNumber_hexNumeral (dm : DataModel) (m : Contents) (offset : ℕ) {text : List Char}
    {n : ℕ} (h : IsHexNumeral text n) (hn : n ≤ 0xFF) :
    pyInt16 text = .ok n ∧ LeavesNumber dm m offset text n := by
  have hreads : i2csetReads dm text = some n := by
    rw [i2csetReads, ifsFields_eq_singleton (isWord_hexNumeral h)]
    dsimp only
    rw [i2csetNumber_hexNumeral dm h, if_pos hn]
  refine ⟨pyInt16_hexNumeral h, ?_⟩
  rw [LeavesNumber, hreads]

/-- **Agreement**: the two programmers leave the same bytes if and only if there is no
environment, the device id fits one byte, the revision text is no option of `echo`, and
`i2cset` reads the two numbers as `int(_, 16)` does, or refuses one that is there already. -/
theorem writeprom_agrees_iff (dm : DataModel) (machineId deviceId revision : List Char)
    (fabRev : PlainText) (env : Option (PlainText × PlainText)) (device rev : ℕ) (m : Contents)
    (hdev : pyInt16 deviceId = .ok device) (hdevice : device ≤ 0xFFFF)
    (hrev : pyInt16 revision = .ok rev) (hr : rev ≤ 0xFF)
    (hfab : 1 ≤ fabRev.length ∧ fabRev.length ≤ 7)
    (henv : ∀ e, env = some e → (1 ≤ e.1.length ∧ e.1.length ≤ 15) ∧
      1 ≤ e.2.length ∧ e.2.length ≤ 63) :
    Agree dm machineId deviceId revision fabRev env m ↔
      env = none ∧ device ≤ 0xFF ∧ isEchoOption fabRev.chars = false ∧
        LeavesNumber dm m 0x03 deviceId device ∧ LeavesNumber dm m 0x04 revision rev := by
  have hfab' : fabRev.length < 8 := by omega
  have henv' : ∀ e, env = some e → e.1.length < 16 ∧ e.2.length < 64 := by
    intro e he
    have := henv e he
    omega
  rw [agree_iff_sameBytes dm machineId m hdev hrev hfab' henv']
  constructor
  · intro hagree
    -- the flag, the high byte of the device id, the ids, the first byte of the string
    have hnone := env_eq_none_of_sameBytes hfab' hagree
    have hd := device_le_of_sameBytes hfab' hagree hdevice
    obtain ⟨hthree, hfour⟩ := ids_of_sameBytes hfab' hagree
    refine ⟨?_, hd, not_isEchoOption_of_sameBytes hfab' hagree, (leavesNumber_iff hd).mpr hthree,
      (leavesNumber_iff hr).mpr hfour⟩
    cases env with
    | none => rfl
    | some e => cases hnone
  · rintro ⟨rfl, hd, hopt, hthree, hfour⟩
    exact sameBytes_of_ids m hfab' hd hopt ((leavesNumber_iff hd).mp hthree)
      ((leavesNumber_iff hr).mp hfour)

/-- A board without an environment, one number with a marker and one without: both write the
same. -/
theorem writeprom_agrees_plainBoard :
    Agree .ilp32 "overo".toList "0x0011".toList "0".toList ⟨"R2411".toList, by decide⟩ none
      (fun _ => 0xff) := by
  have hmarked : IsHexNumeral "0x0011".toList 0x11 :=
    ⟨"0011".toList, rfl, by decide, by decide, by decide⟩
  obtain ⟨hdev, hleaves⟩ :=
    leavesNumber_hexNumeral .ilp32 (fun _ => 0xff) 0x03 hmarked (by decide)
  exact (writeprom_agrees_iff .ilp32 "overo".toList "0x0011".toList "0".toList
    ⟨"R2411".toList, by decide⟩ none 0x11 0 (fun _ => 0xff) hdev (by decide) (by decide)
    (by decide) (by decide) (by simp)).mpr ⟨rfl, by decide, by decide, hleaves, rfl⟩

/-- With a display mode the script clears the flag and writes no environment. -/
theorem writeprom_ignores_environment :
    ¬ Agree .ilp32 "overo".toList "0x0001".toList "0x00".toList ⟨"R2411".toList, by decide⟩
      (some (⟨"dvimode".toList, by decide⟩, ⟨"1024x768MR-16@60".toList, by decide⟩))
      (fun _ => 0xff) := by
  have hdev : pyInt16 "0x0001".toList = .ok ((1 : ℕ) : ℤ) := by decide
  have hrev : pyInt16 "0x00".toList = .ok ((0 : ℕ) : ℤ) := by decide
  rw [agree_iff_sameBytes .ilp32 "overo".toList (fun _ => 0xff) hdev hrev (by decide)
    (by
      rintro e ⟨⟩
      decide)]
  intro hagree
  cases env_eq_none_of_sameBytes _ hagree

end GumstixExtras.Eeprom
