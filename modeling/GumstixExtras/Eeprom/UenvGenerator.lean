import GumstixExtras.Eeprom.Image
import GumstixExtras.Lib.Shell
import GumstixExtras.Lib.Strtol

/-!
# The `uenv-generator` Script

`execute` and `to_hex` under Python 2, as the text they print, and what the boot loader
stores when it is given that text. Strings are byte strings; the texts of the numbers and of
the printed lines are lists of characters.

- `ubootWrites_printed`: the printed commands are the writes of an image.
- `execute_roundTrip`: executing them programs that image, whatever was there before.
-/

namespace GumstixExtras.Eeprom

open GumstixExtras.Lib

/-! ## §1 The script -/

/-- The exceptions `execute` can raise. -/
inductive PyError
  | valueError
  | nameError
  | indexError
  deriving DecidableEq, Repr

/-- `int(s, 16)`. -/
def pyInt16 (s : List Char) : Except PyError ℤ :=
  let trimmed := ((s.dropWhile isSpace).reverse.dropWhile isSpace).reverse
  let signed := splitSign trimmed
  -- Python 2 also skips white space behind the sign
  let digits := stripHexMarker (signed.2.dropWhile isSpace)
  if digits = [] ∨ ¬ digits.all (isBaseDigit 16) then
    .error .valueError
  else
    .ok (if signed.1 then -numeralValue 16 digits else numeralValue 16 digits)

/-- `{:#x}` of an integer. -/
def fmtHexInt (n : ℤ) : List Char := if n < 0 then '-' :: fmtHex n.natAbs else fmtHex n.natAbs

/-- `to_hex`: a null-terminated sequence of hex byte-strings. -/
def toHex (word : List UInt8) : List (List Char) :=
  word.map (fun c => fmtHex c.toNat) ++ ["0x00".toList]

/-- A printed `i2c mw` line. -/
def mwLine (address offset value : List Char) : List Char :=
  "i2c".toList ++ ' ' :: ("mw".toList ++ ' ' :: (address ++ ' ' :: (offset ++ ' ' :: value)))

/-- The lines for an enumerated sequence of hex byte-strings, from `off` on. -/
def enumLines (address : List Char) (off : ℕ) (xs : List (List Char)) : List (List Char) :=
  xs.zipIdx.map fun x => mwLine address (fmtHex (x.2 + off)) x.1

/-- The environment of `execute`: the first entry of the dictionary, in hex. -/
def envHex (env : List (List UInt8 × List UInt8)) :
    Except PyError (List (List Char) × List (List Char)) :=
  match env with
  | [] => .error .indexError
  | (key, value) :: _ =>
    let envVar := toHex key
    let envSetting := toHex value
    -- the report of the error fails itself: only `stderr` was imported, not `sys`
    if envVar.length > 16 ∨ envSetting.length > 64 then .error .nameError
    else .ok (envVar, envSetting)

/-- The lines printed once everything has been checked. -/
def printedLines (fabRev : List (List Char)) (env : Option (List (List Char) × List (List Char)))
    (deviceId rev bus : ℤ) (address : List Char) : List (List Char) :=
  let vendorId : ℤ := 0x0002
  ["i2c".toList ++ ' ' :: ("dev".toList ++ ' ' :: fmtInt bus),
    mwLine address "0x00".toList (fmtHexInt (vendorId / 256 % 256)),
    mwLine address "0x01".toList (fmtHexInt (vendorId % 256)),
    mwLine address "0x02".toList (fmtHexInt (deviceId / 256 % 256)),
    mwLine address "0x03".toList (fmtHexInt (deviceId % 256)),
    mwLine address "0x04".toList (fmtHexInt rev),
    mwLine address "0x05".toList "0x00".toList] ++
  enumLines address 0x06 fabRev ++
  match env with
  | none => []
  | some (envVar, envSetting) =>
    mwLine address "0x05".toList "0x01".toList ::
      (enumLines address 14 envVar ++ enumLines address 30 envSetting)

/-- `execute`: the return value and the printed lines. Nothing is printed before an
exception. -/
def execute (fabRev : List UInt8) (env : Option (List (List UInt8 × List UInt8)))
    (deviceId rev : List Char) (bus : ℤ) (address : List Char) :
    Except PyError (ℤ × List (List Char)) := do
  let deviceId ← pyInt16 deviceId
  let rev ← pyInt16 rev
  let fabRev := toHex fabRev
  -- the length counts the terminator; the report of the error fails as in `envHex`
  if fabRev.length > 8 then
    .error .nameError
  else
    match env with
    | none => .ok (0, printedLines fabRev none deviceId rev bus address)
    | some env => do
      let env ← envHex env
      .ok (0, printedLines fabRev (some env) deviceId rev bus address)

/-! ## §2 The boot loader -/

/-- A number on the boot loader's command line, which is hexadecimal there. -/
def ubootHex (s : List Char) : ℕ :=
  numeralValue 16 ((stripHexMarker s).takeWhile (isBaseDigit 16))

/-- What a line stores: `i2c mw` with a chip, an offset and a value stores one byte. -/
def ubootStore (line : List Char) : Option (ℕ × UInt8) :=
  match ifsFields line with
  | [i2c, mw, _, offset, value] =>
    if i2c = "i2c".toList ∧ mw = "mw".toList then
      some (ubootHex offset, UInt8.ofNat (ubootHex value))
    else none
  | _ => none

/-- The bytes a sequence of lines stores. -/
def ubootWrites (lines : List (List Char)) : List (ℕ × UInt8) := lines.filterMap ubootStore

theorem ubootWrites_append (lines lines' : List (List Char)) :
    ubootWrites (lines ++ lines') = ubootWrites lines ++ ubootWrites lines' :=
  List.filterMap_append

theorem ubootWrites_cons_of_some {line : List Char} {w : ℕ × UInt8} (h : ubootStore line = some w)
    (lines : List (List Char)) : ubootWrites (line :: lines) = w :: ubootWrites lines :=
  List.filterMap_cons_some h

theorem ubootHex_fmtHex (n : ℕ) : ubootHex (fmtHex n) = n := by
  have hall : ∀ c ∈ Nat.toDigits 16 n, isBaseDigit 16 c = true := fun c hc =>
    isBaseDigit_of_mem_toDigits (by decide) (by decide) hc
  rw [ubootHex, stripHexMarker_fmtHex, List.takeWhile_eq_self_iff.mpr hall,
    numeralValue_toDigits (by decide) (by decide)]

/-- A digit of a numeral is not a separator. -/
theorem isIfs_of_isBaseDigit {c : Char} (h : isBaseDigit 16 c = true) : isIfs c = false := by
  by_contra hifs
  rw [Bool.not_eq_false, isIfs, Bool.or_eq_true, Bool.or_eq_true, decide_eq_true_eq,
    decide_eq_true_eq, decide_eq_true_eq] at hifs
  rcases hifs with (rfl | rfl) | rfl <;> exact absurd h (by decide)

theorem isWord_hexNumeral {s : List Char} {n : ℕ} (h : IsHexNumeral s n) : IsWord s := by
  obtain ⟨digits, rfl, -, hall, -⟩ := h
  refine ⟨by simp, ?_⟩
  simp only [List.forall_mem_cons]
  exact ⟨by decide, by decide, fun c hc => isIfs_of_isBaseDigit (hall c hc)⟩

theorem isWord_fmtHex (n : ℕ) : IsWord (fmtHex n) := isWord_hexNumeral (isHexNumeral_fmtHex n)

/-- `int(s, 16)` takes a hexadecimal numeral. -/
theorem pyInt16_hexNumeral {s : List Char} {n : ℕ} (h : IsHexNumeral s n) :
    pyInt16 s = .ok n := by
  obtain ⟨digits, rfl, hne, hall, rfl⟩ := h
  -- no digit is white space, so trimming takes nothing away
  have hspace : ∀ c ∈ digits, isSpace c = false := by
    intro c hc
    by_contra hs
    simp only [Bool.not_eq_false, isSpace, Bool.or_eq_true, decide_eq_true_eq] at hs
    have hdigit := hall c hc
    rcases hs with ((((rfl | rfl) | rfl) | rfl) | rfl) | rfl <;> exact absurd hdigit (by decide)
  obtain ⟨front, c, rfl⟩ : ∃ front c, digits = front ++ [c] :=
    ⟨_, _, (List.dropLast_append_getLast hne).symm⟩
  have hlast : isSpace c = false := hspace c (by simp)
  have htrim : ((('0' :: 'x' :: (front ++ [c])).dropWhile isSpace).reverse.dropWhile
      isSpace).reverse = '0' :: 'x' :: (front ++ [c]) := by
    have hfirst : ('0' :: 'x' :: (front ++ [c])).dropWhile isSpace =
        '0' :: 'x' :: (front ++ [c]) := rfl
    rw [hfirst]
    simp [hlast]
  have hdigits : (front ++ [c]).all (isBaseDigit 16) = true := List.all_eq_true.mpr hall
  have hsign : splitSign ('0' :: 'x' :: (front ++ [c])) =
    (false, '0' :: 'x' :: (front ++ [c])) := rfl
  have hstrip : stripHexMarker (('0' :: 'x' :: (front ++ [c])).dropWhile isSpace) =
      front ++ [c] := rfl
  simp only [pyInt16, htrim, hsign, hstrip, hne, hdigits, not_true_eq_false, or_self, if_false,
    Bool.false_eq_true]

section Lines

variable {address : List Char} (haddr : IsWord address)

include haddr

theorem ubootStore_mwLine {offset value : List Char} (hoff : IsWord offset)
    (hvalue : IsWord value) :
    ubootStore (mwLine address offset value) =
      some (ubootHex offset, UInt8.ofNat (ubootHex value)) := by
  have hfields : ifsFields (mwLine address offset value) =
      ["i2c".toList, "mw".toList, address, offset, value] := by
    rw [mwLine, ifsFields_append (by decide) (by decide), ifsFields_append (by decide) (by decide),
      ifsFields_append haddr (by decide), ifsFields_append hoff (by decide),
      ifsFields_eq_singleton hvalue]
  simp [ubootStore, hfields]

theorem ubootStore_fmtHex {offset : List Char} (hoff : IsWord offset) (n : ℕ) :
    ubootStore (mwLine address offset (fmtHex n)) = some (ubootHex offset, UInt8.ofNat n) := by
  rw [ubootStore_mwLine haddr hoff (isWord_fmtHex n), ubootHex_fmtHex]

/-- The enumerated lines store a string and its terminator, byte by byte. -/
theorem ubootWrites_enumLines (off : ℕ) (word : List UInt8) :
    ubootWrites (enumLines address off (toHex word)) = blockWrites off (word ++ [0]) := by
  -- the enumeration starts anywhere for the induction
  have hgeneral : ∀ (word : List UInt8) (k : ℕ),
      ubootWrites (((toHex word).zipIdx k).map fun x => mwLine address (fmtHex (x.2 + off)) x.1) =
        blockWrites (k + off) (word ++ [0]) := by
    intro word
    induction word with
    | nil =>
      intro k
      have hzero : IsWord "0x00".toList := by decide
      have hstore := ubootStore_mwLine haddr (isWord_fmtHex (k + off)) hzero
      rw [ubootHex_fmtHex] at hstore
      exact ubootWrites_cons_of_some hstore []
    | cons b word ih =>
      intro k
      have hstore := ubootStore_fmtHex haddr (isWord_fmtHex (k + off)) b.toNat
      rw [ubootHex_fmtHex, UInt8.ofNat_toNat] at hstore
      have hrest := ih (k + 1)
      rw [Nat.add_right_comm] at hrest
      rw [toHex, List.map_cons, List.cons_append, List.zipIdx_cons, List.map_cons,
        ubootWrites_cons_of_some hstore, List.cons_append, blockWrites, ← hrest]
      rfl
  simpa [enumLines] using hgeneral word 0

omit haddr in
/-- The line that selects the bus stores nothing. -/
theorem ubootStore_dev (bus : List Char) :
    ubootStore ("i2c".toList ++ ' ' :: ("dev".toList ++ ' ' :: bus)) = none := by
  have hfields : ifsFields ("i2c".toList ++ ' ' :: ("dev".toList ++ ' ' :: bus)) =
      "i2c".toList :: "dev".toList :: ifsFields bus := by
    rw [ifsFields_append (by decide) (by decide), ifsFields_append (by decide) (by decide)]
  rw [ubootStore, hfields]
  split
  · next heq =>
    injection heq with hi2c htail
    injection htail with hdev _
    rw [if_neg]
    rintro ⟨-, hmw⟩
    rw [← hdev] at hmw
    exact absurd hmw (by decide)
  · rfl

omit haddr in
theorem fmtHexInt_natCast (n : ℕ) : fmtHexInt n = fmtHex n := by
  rw [fmtHexInt, if_neg (by omega), Int.natAbs_natCast]

/-- The numbers above the strings. -/
theorem ubootWrites_ids (vendor device rev : ℕ) (bus : List Char) :
    ubootWrites ["i2c".toList ++ ' ' :: ("dev".toList ++ ' ' :: bus),
      mwLine address "0x00".toList (fmtHexInt ((vendor : ℤ) / 256 % 256)),
      mwLine address "0x01".toList (fmtHexInt ((vendor : ℤ) % 256)),
      mwLine address "0x02".toList (fmtHexInt ((device : ℤ) / 256 % 256)),
      mwLine address "0x03".toList (fmtHexInt ((device : ℤ) % 256)),
      mwLine address "0x04".toList (fmtHexInt rev),
      mwLine address "0x05".toList "0x00".toList] =
    idWrites vendor device rev ++ [(envFlagOff, 0)] := by
  have hhigh : ∀ n : ℕ, fmtHexInt ((n : ℤ) / 256 % 256) = fmtHex (n / 256 % 256) := fun n =>
    (congrArg fmtHexInt (by omega)).trans (fmtHexInt_natCast _)
  have hlow : ∀ n : ℕ, fmtHexInt ((n : ℤ) % 256) = fmtHex (n % 256) := fun n =>
    (congrArg fmtHexInt (by omega)).trans (fmtHexInt_natCast _)
  -- a byte takes a number modulo 256 anyway
  have hbyte : ∀ n : ℕ, UInt8.ofNat (n % 256) = UInt8.ofNat n := fun n => UInt8.ofNat_mod_size
  have hstore : ∀ (offset : List Char) (n : ℕ), IsWord offset →
      ubootStore (mwLine address offset (fmtHex (n % 256))) =
        some (ubootHex offset, UInt8.ofNat n) := fun offset n hoff => by
    rw [ubootStore_fmtHex haddr hoff, hbyte]
  have hrev : IsWord "0x04".toList := by decide
  have hflag : IsWord "0x05".toList := by decide
  have hzero : IsWord "0x00".toList := by decide
  rw [fmtHexInt_natCast, hhigh, hhigh, hlow, hlow, ubootWrites,
    List.filterMap_cons_none (ubootStore_dev bus),
    List.filterMap_cons_some (hstore "0x00".toList _ (by decide)),
    List.filterMap_cons_some (hstore "0x01".toList _ (by decide)),
    List.filterMap_cons_some (hstore "0x02".toList _ (by decide)),
    List.filterMap_cons_some (hstore "0x03".toList _ (by decide)),
    List.filterMap_cons_some (ubootStore_fmtHex haddr hrev rev),
    List.filterMap_cons_some (ubootStore_mwLine haddr hflag hzero), List.filterMap_nil]
  rfl

/-- The printed commands are the writes of the image. -/
theorem ubootWrites_printed (fabRev : FieldString 8) (env : Option EnvEntry) (device rev : ℕ)
    (bus : ℤ) :
    ubootWrites (printedLines (toHex fabRev.bytes)
      (env.map fun e => (toHex e.1.bytes, toHex e.2.bytes)) device rev bus address) =
    (Image.mk 0x0002 device rev fabRev env).writes := by
  have hids := ubootWrites_ids haddr 0x0002 device rev (fmtInt bus)
  have hfab := ubootWrites_enumLines haddr 0x06 fabRev.bytes
  unfold printedLines
  dsimp only
  rw [ubootWrites_append, ubootWrites_append, hfab]
  -- the flag line and the two strings follow only for an environment
  cases env with
  | none => exact congrArg (· ++ _ ++ []) hids
  | some e =>
    have hoff : IsWord "0x05".toList := by decide
    have hone : IsWord "0x01".toList := by decide
    have hflag := ubootStore_mwLine haddr hoff hone
    rw [Option.map_some]
    dsimp only
    rw [ubootWrites_cons_of_some hflag, ubootWrites_append, ubootWrites_enumLines haddr,
      ubootWrites_enumLines haddr]
    exact congrArg (· ++ _ ++ _) hids

omit haddr in
theorem length_toHex (word : List UInt8) : (toHex word).length = word.length + 1 := by
  simp [toHex]

omit haddr in
/-- Texts with room for their terminators pass the checks of `execute`. -/
theorem execute_fits (address : List Char) {fabRev : List UInt8}
    {env : Option (List UInt8 × List UInt8)} (hfab : fabRev.length ≤ 7)
    (henv : ∀ e, env = some e → e.1.length ≤ 15 ∧ e.2.length ≤ 63)
    {deviceId rev : List Char} {device r : ℤ} (hdev : pyInt16 deviceId = .ok device)
    (hrev : pyInt16 rev = .ok r) (bus : ℤ) :
    execute fabRev (env.map fun e => [e]) deviceId rev bus address =
      .ok (0, printedLines (toHex fabRev) (env.map fun e => (toHex e.1, toHex e.2)) device r bus
        address) := by
  -- the generator measures the printed list, terminator included
  have hfab' : ¬ (toHex fabRev).length > 8 := by
    rw [length_toHex]
    omega
  simp only [execute, hdev, hrev]
  cases env with
  | none => exact if_neg hfab'
  | some e =>
    obtain ⟨hname, hsetting⟩ := henv e rfl
    have hfits : ¬ ((toHex e.1).length > 16 ∨ (toHex e.2).length > 64) := by
      rw [length_toHex, length_toHex]
      omega
    refine (if_neg hfab').trans ?_
    simp only [Option.map_some, envHex, if_neg hfits]
    rfl

omit haddr in
/-- Strings that fit their fields pass the checks of `execute`. -/
theorem execute_eq (address : List Char) (fabRev : FieldString 8) (env : Option EnvEntry)
    {deviceId rev : List Char} {device r : ℤ} (hdev : pyInt16 deviceId = .ok device)
    (hrev : pyInt16 rev = .ok r) (bus : ℤ) :
    execute fabRev.bytes (env.map fun e => [(e.1.bytes, e.2.bytes)]) deviceId rev bus address =
      .ok (0, printedLines (toHex fabRev.bytes)
        (env.map fun e => (toHex e.1.bytes, toHex e.2.bytes)) device r bus address) := by
  have hfab : fabRev.bytes.length ≤ 7 := Nat.le_of_lt_succ fabRev.fits
  have henv : ∀ e, (env.map fun e => (e.1.bytes, e.2.bytes)) = some e →
      e.1.length ≤ 15 ∧ e.2.length ≤ 63 := by
    intro e he
    obtain ⟨e', -, rfl⟩ := Option.map_eq_some_iff.mp he
    exact ⟨Nat.le_of_lt_succ e'.1.fits, Nat.le_of_lt_succ e'.2.fits⟩
  have hrun := execute_fits address hfab henv hdev hrev bus
  rwa [Option.map_map, Option.map_map] at hrun

end Lines

/-! ## §3 The programmed image -/

/-- The string writes stay in their fields. -/
def StaysInFields (fabRev : FieldString 8) (env : Option EnvEntry) : Prop :=
  (∀ w ∈ fabRev.writes fabRevOff, 6 ≤ w.1 ∧ w.1 < 14) ∧
    ∀ e, env = some e → (∀ w ∈ e.1.writes envVarOff, 14 ≤ w.1 ∧ w.1 < 30) ∧
      ∀ w ∈ e.2.writes envSettingOff, 30 ≤ w.1 ∧ w.1 < 94

theorem staysInFields (fabRev : FieldString 8) (env : Option EnvEntry) :
    StaysInFields fabRev env :=
  ⟨fun _ hw => fabRev.range_of_mem_writes hw, fun e _ =>
    ⟨fun _ hw => e.1.range_of_mem_writes hw, fun _ hw => e.2.range_of_mem_writes hw⟩⟩

/-- The commands program an image: from any previous contents the layout reads it back, no
write leaves the layout, and no string its field. -/
def Programs (lines : List (List Char)) (img : Image) : Prop :=
  (∀ m, decode (applyWrites m (ubootWrites lines)) = some img) ∧
    (∀ w ∈ ubootWrites lines, w.1 ≤ 93) ∧
    ubootWrites lines = idWrites img.vendor img.device img.rev ++ [(envFlagOff, 0)] ++
      img.fabRev.writes fabRevOff ++ envWrites img.env ∧
    StaysInFields img.fabRev img.env

/-- **Round trip**: the printed commands program the image that was asked for. -/
theorem execute_roundTrip (fabRev : FieldString 8) (env : Option EnvEntry)
    (deviceId rev address : List Char) (device r : ℕ) (bus : ℤ)
    (hdev : pyInt16 deviceId = .ok device) (hdevice : device ≤ 0xFFFF)
    (hrev : pyInt16 rev = .ok r) (hr : r ≤ 0xFF) (haddr : IsWord address) :
    ∃ lines, execute fabRev.bytes (env.map fun e => [(e.1.bytes, e.2.bytes)]) deviceId rev bus
        address = .ok (0, lines) ∧
      Programs lines ⟨0x0002, device, r, fabRev, env⟩ := by
  have hwrites := ubootWrites_printed haddr fabRev env device r bus
  have hfits : (Image.mk 0x0002 device r fabRev env).Fits :=
    ⟨(by decide : 0x0002 ≤ 0xFFFF), hdevice, hr⟩
  refine ⟨_, execute_eq address fabRev env hdev hrev bus, ?_, ?_, hwrites, staysInFields fabRev env⟩
  · intro m
    rw [hwrites]
    exact decode_writes m _ hfits
  · intro w hw
    rw [hwrites] at hw
    exact Image.range_of_mem_writes hw

/-- A board with a display mode, and a revision at the full width of its field. -/
theorem execute_roundTrip_display :
    ∃ lines, execute [82, 49, 50, 51, 52, 53, 54]
        (some [([100, 118, 105], [49, 48, 50, 52])]) "0x0123".toList "0x05".toList 2
        "0x51".toList = .ok (0, lines) ∧
      Programs lines ⟨0x0002, 0x0123, 0x05, ⟨[82, 49, 50, 51, 52, 53, 54], by decide, by decide⟩,
        some (⟨[100, 118, 105], by decide, by decide⟩,
          ⟨[49, 48, 50, 52], by decide, by decide⟩)⟩ :=
  execute_roundTrip ⟨[82, 49, 50, 51, 52, 53, 54], by decide, by decide⟩
    (some (⟨[100, 118, 105], by decide, by decide⟩, ⟨[49, 48, 50, 52], by decide, by decide⟩))
    "0x0123".toList "0x05".toList "0x51".toList 0x0123 0x05 2 (by decide) (by decide) (by decide)
    (by decide) (by decide)

end GumstixExtras.Eeprom
