import GumstixExtras.Lib.Atoi
import GumstixExtras.Lib.Getopt
import GumstixExtras.Lib.Termios
import GumstixExtras.Spidev.Text

/-!
# The `spidev_test` Program (`spidev_test.c`)

`parse_opts`, `transfer` and `main`. What the driver does with a setting and with a message is
data of the environment; the program writes each setting, reads it back and goes on with what
it read.

- `parse_opts_mode`: the bits of the mode word are those of the options, in any order.
- `main_ok_iff`: the runs that read and write only memory that is there and has a value.
- `main_loopback`: what is sent over a wire that leads back is what is shown as received.
-/

namespace GumstixExtras.Spidev

open GumstixExtras.Lib

/-! ## §1 Settings -/

/-- The options that set a bit of `mode`. -/
def modeFlags : List (Char × UInt32) :=
  [('l', 0x20), ('H', 0x01), ('O', 0x02), ('L', 0x08), ('C', 0x04), ('3', 0x10), ('N', 0x40),
    ('R', 0x80), ('2', 0x100), ('4', 0x200)]

/-- `SPI_LOOP`. -/
def spiLoop : UInt32 := 0x20

/-- `SPI_TX_DUAL`. -/
def spiTxDual : UInt32 := 0x100

/-- `SPI_TX_QUAD`. -/
def spiTxQuad : UInt32 := 0x200

/-- `SPI_RX_DUAL`. -/
def spiRxDual : UInt32 := 0x400

/-- `SPI_RX_QUAD`. -/
def spiRxQuad : UInt32 := 0x800

/-- The variables of the file. -/
structure Settings where
  device : List Char
  mode : UInt32
  bits : UInt8
  speed : UInt32
  delay : UInt16
  verbose : Bool
  input_tx : Option (List Char)
  deriving DecidableEq, Repr

/-- Their initial values. -/
def defaults : Settings := ⟨"/dev/spidev1.1".toList, 0, 8, 500000, 0, false, none⟩

def default_tx : List UInt8 :=
  [0xFF, 0xFF, 0xFF, 0xFF, 0xFF, 0xFF, 0x40, 0x00, 0x00, 0x00, 0x00, 0x95, 0xFF, 0xFF, 0xFF, 0xFF,
    0xFF, 0xFF, 0xFF, 0xFF, 0xFF, 0xFF, 0xFF, 0xFF, 0xFF, 0xFF, 0xFF, 0xFF, 0xFF, 0xFF, 0xF0, 0x0D]

/-! ## §2 `parse_opts` -/

/-- The option string `"D:s:d:b:lHOLC3NR24p:v"`. -/
def shortOpts : List (Char × Bool) :=
  [('D', true), ('s', true), ('d', true), ('b', true), ('l', false), ('H', false), ('O', false),
    ('L', false), ('C', false), ('3', false), ('N', false), ('R', false), ('2', false),
    ('4', false), ('p', true), ('v', false)]

/-- `lopts`. -/
def lopts : List LongOption :=
  [⟨"device", true, false, 'D'.toNat⟩, ⟨"speed", true, false, 's'.toNat⟩,
    ⟨"delay", true, false, 'd'.toNat⟩, ⟨"bpw", true, false, 'b'.toNat⟩,
    ⟨"loop", false, false, 'l'.toNat⟩, ⟨"cpha", false, false, 'H'.toNat⟩,
    ⟨"cpol", false, false, 'O'.toNat⟩, ⟨"lsb", false, false, 'L'.toNat⟩,
    ⟨"cs-high", false, false, 'C'.toNat⟩, ⟨"3wire", false, false, '3'.toNat⟩,
    ⟨"no-cs", false, false, 'N'.toNat⟩, ⟨"ready", false, false, 'R'.toNat⟩,
    ⟨"dual", false, false, '2'.toNat⟩, ⟨"verbose", false, false, 'v'.toNat⟩,
    ⟨"quad", false, false, '4'.toNat⟩]

/-- The switch of `parse_opts`; `none` is `print_usage`. -/
def optStep (dm : DataModel) (s : Settings) (opt : OptEvent) : Option Settings :=
  let c := Char.ofNat opt.ret
  let optarg := opt.optarg.getD []
  match modeFlags.lookup c with
  | some bit => some { s with mode := s.mode ||| bit }
  | none =>
    if c = 'D' then some { s with device := optarg }
    else if c = 's' then some { s with speed := UInt32.ofInt (atoi dm optarg) }
    else if c = 'd' then some { s with delay := UInt16.ofInt (atoi dm optarg) }
    else if c = 'b' then some { s with bits := UInt8.ofInt (atoi dm optarg) }
    else if c = 'v' then some { s with verbose := true }
    else if c = 'p' then some { s with input_tx := some optarg }
    else none

/-- The receiving side of a loop is as wide as the sending side. -/
def loopMode (mode : UInt32) : UInt32 :=
  if mode &&& spiLoop ≠ 0 then
    let mode := if mode &&& spiTxDual ≠ 0 then mode ||| spiRxDual else mode
    if mode &&& spiTxQuad ≠ 0 then mode ||| spiRxQuad else mode
  else mode

/-- The options of an argument vector without the program name, as `getopt_long` finds them. -/
def options (posixlyCorrect : Bool) (argv : List (List Char)) : List OptEvent :=
  (getoptLong posixlyCorrect shortOpts lopts argv).1

/-- `parse_opts`. -/
def parse_opts (dm : DataModel) (posixlyCorrect : Bool) (argv : List (List Char)) :
    Option Settings := do
  let s ← (options posixlyCorrect argv).foldlM (optStep dm) defaults
  some { s with mode := loopMode s.mode }

/-- What `print_usage` prints. -/
def usageText (prog : List Char) : List Char :=
  "Usage: ".toList ++ prog ++ " [-DsbdlHOLC3]\n".toList ++
    ("  -D --device   device to use (default /dev/spidev1.1)\n" ++
    "  -s --speed    max speed (Hz)\n" ++
    "  -d --delay    delay (usec)\n" ++
    "  -b --bpw      bits per word \n" ++
    "  -l --loop     loopback\n" ++
    "  -H --cpha     clock phase\n" ++
    "  -O --cpol     clock polarity\n" ++
    "  -L --lsb      least significant bit first\n" ++
    "  -C --cs-high  chip select active high\n" ++
    "  -3 --3wire    SI/SO signals shared\n" ++
    "  -v --verbose  Verbose (show tx buffer)\n" ++
    "  -p            Send data (e.g. \"1234\\xde\\xad\")\n" ++
    "  -N --no-cs    no chip select\n" ++
    "  -R --ready    slave pulls low to pause\n" ++
    "  -2 --dual     dual transfer\n" ++
    "  -4 --quad     quad transfer\n\n").toList

/-! ## §3 The driver -/

/-- `struct spi_ioc_transfer`. Of a buffer that is sent the message has the bytes; `rx_buf`
tells whether there is a buffer to receive into. -/
structure SpiTransfer where
  tx_buf : Option (List UInt8)
  rx_buf : Bool
  len : ℕ
  delay_usecs : UInt16
  speed_hz : UInt32
  bits_per_word : UInt8
  tx_nbits : UInt8
  rx_nbits : UInt8
  deriving DecidableEq, Repr

/-- The requests to the driver. -/
inductive Ioctl
  | wrMode32 (mode : UInt32)
  | rdMode32
  | wrBitsPerWord (bits : UInt8)
  | rdBitsPerWord
  | wrMaxSpeedHz (speed : UInt32)
  | rdMaxSpeedHz
  | message (tr : SpiTransfer)
  deriving DecidableEq, Repr

/-- A setting of the driver: what `ioctl` returns when a value is written, and what it returns
and stores when the setting is read behind it. -/
structure Attribute (α : Type) where
  wr : α → ℤ
  rd : α → ℤ × α

/-- A setting that takes and keeps every value. -/
def Attribute.plain (α : Type) : Attribute α := ⟨fun _ => 0, fun v => (0, v)⟩

/-- What a run meets. A message gives the bytes received, or fails. -/
structure SpiEnv where
  dm : DataModel
  posixlyCorrect : Bool
  opens : List Char → Bool
  mode32 : Attribute UInt32
  bitsPerWord : Attribute UInt8
  maxSpeedHz : Attribute UInt32
  message : SpiTransfer → Option (List UInt8)
  length_message : ∀ tr bs, message tr = some bs → bs.length = tr.len

/-- How a run ends; `pabort` has a text for `perror`. -/
inductive SpiExit
  | exited (status : ℕ)
  | aborted (s : String)
  deriving DecidableEq, Repr

/-- The status a parent sees when `main` returns `ret`. -/
def exitStatus (ret : ℤ) : ℕ := (ret % 256).toNat

/-- What `transfer` does; `aborted` has the text of a `pabort`. -/
structure Transferred where
  aborted : Option String
  out : List Char
  ioctls : List Ioctl
  deriving DecidableEq, Repr

/-- A finished run. -/
structure SpiRun where
  exit : SpiExit
  out : List Char
  ioctls : List Ioctl
  deriving DecidableEq, Repr

/-! ## §4 `transfer` and `main` -/

/-- Write a setting and read it back; with the value goes what the last `ioctl` returned. -/
def setting {α : Type} (a : Attribute α) (wr : α → Ioctl) (rd : Ioctl) (name : String) (v : α) :
    Except String (ℤ × α) × List Ioctl :=
  if a.wr v = -1 then (.error ("can't set " ++ name), [wr v])
  else if (a.rd v).1 = -1 then (.error ("can't get " ++ name), [wr v, rd])
  else (.ok (a.rd v), [wr v, rd])

/-- The settings of `main` one after the other, and the `ret` they leave. -/
def configure (env : SpiEnv) (s : Settings) : Except String (ℤ × Settings) × List Ioctl :=
  match setting env.mode32 .wrMode32 .rdMode32 "spi mode" s.mode with
  | (.error text, ops) => (.error text, ops)
  | (.ok (_, mode), ops) =>
    match setting env.bitsPerWord .wrBitsPerWord .rdBitsPerWord "bits per word" s.bits with
    | (.error text, ops') => (.error text, ops ++ ops')
    | (.ok (_, bits), ops') =>
      match setting env.maxSpeedHz .wrMaxSpeedHz .rdMaxSpeedHz "max speed hz" s.speed with
      | (.error text, ops'') => (.error text, ops ++ ops' ++ ops'')
      | (.ok (ret, speed), ops'') =>
        (.ok (ret, { s with mode := mode, bits := bits, speed := speed }), ops ++ ops' ++ ops'')

/-- The lines about the settings. -/
def settingsText (s : Settings) : List Char :=
  "spi mode: ".toList ++ fmtHex s.mode.toNat ++ "\nbits per word: ".toList ++
    fmtInt s.bits.toNat ++ "\nmax speed: ".toList ++ fmtInt (toCInt s.speed.toNat) ++
    " Hz (".toList ++ fmtInt (toCInt (s.speed / 1000).toNat) ++ " KHz)\n".toList

/-- Without a loop a wide transfer goes one way: no receive buffer for a wide sender, no send
buffer for a wide receiver. -/
def Settings.receives (s : Settings) : Bool :=
  s.mode &&& spiLoop ≠ 0 || s.mode &&& (spiTxQuad ||| spiTxDual) = 0

def Settings.sends (s : Settings) : Bool :=
  s.mode &&& spiLoop ≠ 0 || s.mode &&& (spiTxQuad ||| spiTxDual) ≠ 0 ||
    s.mode &&& (spiRxQuad ||| spiRxDual) = 0

/-- The lines of a direction. -/
def nbits (mode quad dual : UInt32) : UInt8 :=
  if mode &&& quad ≠ 0 then 4 else if mode &&& dual ≠ 0 then 2 else 0

/-- `tr` of `transfer`. -/
def spiTransfer (s : Settings) (tx : List UInt8) : SpiTransfer where
  tx_buf := if s.sends then some tx else none
  rx_buf := s.receives
  len := tx.length
  delay_usecs := s.delay
  speed_hz := s.speed
  bits_per_word := s.bits
  tx_nbits := nbits s.mode spiTxQuad spiTxDual
  rx_nbits := nbits s.mode spiRxQuad spiRxDual

/-- `hex_dump` with 32 bytes in a line. -/
def dump32 (prefix_ : List Char) (src : List UInt8) : List Char :=
  hexDump (Nat.succ_pos 31) prefix_ src

/-- `transfer`. -/
def transfer {cap : ℕ} (env : SpiEnv) (s : Settings) (tx rx : Buffer UInt8 cap) (len : ℕ) :
    Except Fault Transferred := do
  let sent ← tx.read 0 len
  let tr := spiTransfer s sent
  match env.message tr with
  | none => .ok ⟨some "can't send spi message", [], [.message tr]⟩
  | some received =>
    let rx ← if tr.rx_buf then rx.write 0 received else .ok rx
    let shown ← rx.read 0 len
    .ok ⟨none, (if s.verbose then dump32 "TX".toList sent else []) ++
      dump32 "RX".toList shown, [.message tr]⟩

/-- The transfer of `main`. -/
def transferInput (env : SpiEnv) (s : Settings) : Except Fault Transferred :=
  match s.input_tx with
  | some input_tx => do
    let (tx, size) ← unescapeInput input_tx
    transfer env s tx (Buffer.uninit _) size
  | none =>
    transfer env s (Buffer.ofList default_tx) (Buffer.ofList (default_tx.map fun _ => 0))
      default_tx.length

/-- `main`. Its result is that of the last `ioctl` on a setting. -/
def main (env : SpiEnv) (prog : List Char) (argv : List (List Char)) : Except Fault SpiRun :=
  match parse_opts env.dm env.posixlyCorrect argv with
  | none => .ok ⟨.exited 1, usageText prog, []⟩
  | some s =>
    if env.opens s.device then
      match configure env s with
      | (.error text, ops) => .ok ⟨.aborted text, [], ops⟩
      | (.ok (ret, s), ops) => (transferInput env s).map fun r =>
        ⟨r.aborted.elim (.exited (exitStatus ret)) .aborted, settingsText s ++ r.out,
          ops ++ r.ioctls⟩
    else .ok ⟨.aborted "can't open device", [], []⟩

/-! ## §5 The mode word -/

section Mode

theorem or_and_eq_zero_iff (a b m : UInt32) :
    (a ||| b) &&& m = 0 ↔ a &&& m = 0 ∧ b &&& m = 0 := by
  rw [or_and_distrib, UInt32.or_eq_zero_iff]

/-- The option occurs. -/
def Given (opts : List OptEvent) (c : Char) : Prop := ∃ opt ∈ opts, Char.ofNat opt.ret = c

variable {dm : DataModel} {s s' : Settings} {opt : OptEvent} {opts : List OptEvent} {m : UInt32}

/-- One option adds its bit to the mode word, or leaves the word alone. -/
theorem optStep_mode (h : optStep dm s opt = some s') :
    s'.mode = s.mode ||| (modeFlags.lookup (Char.ofNat opt.ret)).getD 0 := by
  unfold optStep at h
  dsimp only at h
  cases hflag : modeFlags.lookup (Char.ofNat opt.ret) with
  | some bit =>
    rw [hflag] at h
    cases h
    rfl
  | none =>
    rw [hflag] at h
    -- an option without a bit sets another variable, or ends the program
    have hkeep : s.mode ||| (none : Option UInt32).getD 0 = s.mode := UInt32.or_zero
    rw [hkeep]
    dsimp only at h
    repeat' split at h
    all_goals cases h
    all_goals rfl

/-- The bits of a mask come from the options that own one of them. -/
theorem foldlM_optStep_mode (h : opts.foldlM (optStep dm) s = some s') :
    s'.mode &&& m ≠ 0 ↔ s.mode &&& m ≠ 0 ∨
      ∃ c, Given opts c ∧ (modeFlags.lookup c).getD 0 &&& m ≠ 0 := by
  induction opts generalizing s with
  | nil =>
    cases h
    refine (or_iff_left ?_).symm
    intro ⟨c, ⟨opt, hopt, _⟩, _⟩
    exact List.not_mem_nil hopt
  | cons opt opts ih =>
    rw [List.foldlM_cons] at h
    obtain ⟨next, hnext, h⟩ := Option.bind_eq_some_iff.mp h
    -- the bit comes from the word before, from this option or from one behind it
    rw [ih h, optStep_mode hnext, Ne, or_and_eq_zero_iff, not_and_or, or_assoc]
    refine or_congr_right ⟨?_, ?_⟩
    · intro hbit
      rcases hbit with hbit | ⟨c, ⟨o, ho, hc⟩, hbit⟩
      · exact ⟨_, ⟨opt, List.mem_cons_self, rfl⟩, hbit⟩
      · exact ⟨c, ⟨o, List.mem_cons_of_mem opt ho, hc⟩, hbit⟩
    · intro ⟨c, ⟨o, ho, hc⟩, hbit⟩
      rcases List.mem_cons.mp ho with rfl | ho
      · exact Or.inl (hc ▸ hbit)
      · exact Or.inr ⟨c, ⟨o, ho, hc⟩, hbit⟩

/-- The word that the options left before the receiving side was widened. -/
theorem exists_of_parse_opts {px : Bool} {argv : List (List Char)}
    (h : parse_opts dm px argv = some s) :
    ∃ t, (options px argv).foldlM (optStep dm) defaults = some t ∧ s.mode = loopMode t.mode := by
  obtain ⟨t, ht, hs⟩ := Option.bind_eq_some_iff.mp h
  cases hs
  exact ⟨t, ht, rfl⟩

/-- What a loop adds to the word. -/
theorem loopMode_eq (mode : UInt32) :
    loopMode mode = mode |||
      (if mode &&& spiLoop ≠ 0 ∧ mode &&& spiTxDual ≠ 0 then spiRxDual else 0) |||
      (if mode &&& spiLoop ≠ 0 ∧ mode &&& spiTxQuad ≠ 0 then spiRxQuad else 0) := by
  -- the bit of the first test does not show in the second
  have hquad : (mode ||| spiRxDual) &&& spiTxQuad = 0 ↔ mode &&& spiTxQuad = 0 := by
    rw [or_and_eq_zero_iff]
    exact and_iff_left rfl
  unfold loopMode
  by_cases hloop : mode &&& spiLoop ≠ 0
  · by_cases hdual : mode &&& spiTxDual ≠ 0
    · by_cases hwide : mode &&& spiTxQuad = 0 <;> simp [hloop, hdual, hquad, hwide]
    · by_cases hwide : mode &&& spiTxQuad = 0 <;> simp [hloop, hdual, hwide]
  · simp [hloop]

/-- A mask sees of it the word and the bits added. -/
theorem loopMode_and {mode : UInt32} :
    loopMode mode &&& m ≠ 0 ↔ mode &&& m ≠ 0 ∨
      (spiRxDual &&& m ≠ 0 ∧ mode &&& spiLoop ≠ 0 ∧ mode &&& spiTxDual ≠ 0) ∨
      (spiRxQuad &&& m ≠ 0 ∧ mode &&& spiLoop ≠ 0 ∧ mode &&& spiTxQuad ≠ 0) := by
  have hif : ∀ (p : Prop) [Decidable p] (bit : UInt32),
      (if p then bit else 0) &&& m ≠ 0 ↔ bit &&& m ≠ 0 ∧ p := by
    intro p _ bit
    by_cases hp : p
    · rw [if_pos hp]
      exact (and_iff_left hp).symm
    · rw [if_neg hp]
      exact iff_of_false (fun h => h UInt32.zero_and) fun h => hp h.2
  rw [loopMode_eq, Ne, or_and_eq_zero_iff, or_and_eq_zero_iff, not_and_or, not_and_or, or_assoc]
  exact or_congr_right (or_congr (hif _ _) (hif _ _))

theorem mem_of_lookup {c : Char} {bit : UInt32} (h : modeFlags.lookup c = some bit) :
    (c, bit) ∈ modeFlags := by
  obtain ⟨front, rest, hflags, -⟩ := List.lookup_eq_some_iff.mp h
  rw [hflags]
  exact List.mem_append_right front List.mem_cons_self

/-- The options that bring a bit of the word of one option are those of this option. -/
theorem exists_given_iff {f : Char × UInt32} (hf : f ∈ modeFlags) :
    (∃ c, Given opts c ∧ (modeFlags.lookup c).getD 0 &&& f.2 ≠ 0) ↔ Given opts f.1 := by
  have hother : ∀ f ∈ modeFlags, ∀ g ∈ modeFlags, g.2 &&& f.2 ≠ 0 → g.1 = f.1 := by decide
  have hself : ∀ f ∈ modeFlags, (modeFlags.lookup f.1).getD 0 &&& f.2 ≠ 0 := by decide
  refine ⟨?_, fun h => ⟨f.1, h, hself f hf⟩⟩
  intro ⟨c, hc, hbit⟩
  cases hlookup : modeFlags.lookup c with
  | none =>
    rw [hlookup] at hbit
    exact absurd UInt32.zero_and hbit
  | some bit =>
    rw [hlookup] at hbit
    exact hother f hf (c, bit) (mem_of_lookup hlookup) hbit ▸ hc

/-- No option has a bit outside the flags. -/
theorem foldlM_optStep_mode_other (h : opts.foldlM (optStep dm) defaults = some s)
    (hm : ∀ f ∈ modeFlags, f.2 &&& m = 0) : s.mode &&& m = 0 := by
  by_contra hbit
  rcases (foldlM_optStep_mode h).mp hbit with hbit | ⟨c, _, hbit⟩
  · exact hbit UInt32.zero_and
  · cases hlookup : modeFlags.lookup c with
    | none =>
      rw [hlookup] at hbit
      exact hbit UInt32.zero_and
    | some bit =>
      rw [hlookup] at hbit
      exact hbit (hm (c, bit) (mem_of_lookup hlookup))

/-- **The mode word**: an option sets its bit wherever it stands and however often, the
receiving side is widened exactly for a loop with a wide sender, and no other bit is set. -/
theorem parse_opts_mode {px : Bool} {argv : List (List Char)} (h : parse_opts dm px argv = some s) :
    (∀ f ∈ modeFlags, s.mode &&& f.2 ≠ 0 ↔ Given (options px argv) f.1) ∧
      (s.mode &&& spiRxDual ≠ 0 ↔ Given (options px argv) 'l' ∧ Given (options px argv) '2') ∧
      (s.mode &&& spiRxQuad ≠ 0 ↔ Given (options px argv) 'l' ∧ Given (options px argv) '4') ∧
      s.mode &&& 0xFFFFF000 = 0 := by
  obtain ⟨t, ht, hmode⟩ := exists_of_parse_opts h
  have hflag : ∀ f ∈ modeFlags, t.mode &&& f.2 ≠ 0 ↔ Given (options px argv) f.1 := by
    intro f hf
    rw [foldlM_optStep_mode ht, exists_given_iff hf]
    exact or_iff_right fun hzero => hzero UInt32.zero_and
  have hnone : ∀ m : UInt32, (∀ f ∈ modeFlags, f.2 &&& m = 0) → ¬t.mode &&& m ≠ 0 := fun m hm =>
    not_not_intro (foldlM_optStep_mode_other ht hm)
  have hloop := hflag ('l', spiLoop) (by decide)
  rw [hmode]
  refine ⟨?_, ?_, ?_, ?_⟩
  · intro f hf
    -- the bits a loop adds belong to no option
    have hmasks : ∀ f ∈ modeFlags, spiRxDual &&& f.2 = 0 ∧ spiRxQuad &&& f.2 = 0 := by decide
    rw [loopMode_and, hflag f hf]
    refine or_iff_left fun hadded => ?_
    rcases hadded with hadded | hadded
    · exact hadded.1 (hmasks f hf).1
    · exact hadded.1 (hmasks f hf).2
  · rw [loopMode_and, ← hloop, ← hflag ('2', spiTxDual) (by decide),
      or_iff_right (hnone spiRxDual (by decide)), or_iff_left fun hquad => hquad.1 rfl]
    exact and_iff_right (by decide)
  · rw [loopMode_and, ← hloop, ← hflag ('4', spiTxQuad) (by decide),
      or_iff_right (hnone spiRxQuad (by decide)), or_iff_right fun hdual => hdual.1 rfl]
    exact and_iff_right (by decide)
  · -- a bit outside the word is neither an option's nor one that a loop adds
    by_contra hbit
    rcases loopMode_and.mp hbit with hbit | hadded | hadded
    · exact hnone _ (by decide) hbit
    · exact hadded.1 rfl
    · exact hadded.1 rfl

theorem parse_opts_mode_dual :
    ∃ s, parse_opts .ilp32 false ["-2".toList, "--loop".toList, "-2H".toList] = some s ∧
      s.mode &&& spiRxDual ≠ 0 := by
  have h : parse_opts .ilp32 false ["-2".toList, "--loop".toList, "-2H".toList] =
      some { defaults with mode := 0x521 } := by decide
  exact ⟨_, h, (parse_opts_mode h).2.1.mpr
    ⟨⟨⟨'l'.toNat, none⟩, by decide, rfl⟩, ⟨⟨'2'.toNat, none⟩, by decide, rfl⟩⟩⟩

/-- The options never leave a mode in which nothing is sent. -/
theorem sends_of_parse_opts {px : Bool} {argv : List (List Char)}
    (h : parse_opts dm px argv = some s) : s.sends = true := by
  obtain ⟨t, ht, hmode⟩ := exists_of_parse_opts h
  by_cases hloop : s.mode &&& spiLoop ≠ 0
  · simp [Settings.sends, hloop]
  · -- without a loop no receiving side is widened
    have hrx : s.mode &&& (spiRxQuad ||| spiRxDual) = 0 := by
      by_contra hbit
      rw [hmode] at hbit hloop
      have hkeep := fun h => hloop (loopMode_and.mpr (Or.inl h))
      rcases loopMode_and.mp hbit with hbit | hadded | hadded
      · exact hbit (foldlM_optStep_mode_other ht (by decide))
      · exact hkeep hadded.2.1
      · exact hkeep hadded.2.1
    simp [Settings.sends, hrx]

end Mode

/-! ## §6 Runs -/

section Runs

variable {env : SpiEnv} {s : Settings} {cap : ℕ} {tx rx : Buffer UInt8 cap} {bs : List UInt8}

theorem transfer_failed (htx : tx.Filled bs) (h : env.message (spiTransfer s bs) = none) :
    transfer env s tx rx bs.length =
      .ok ⟨some "can't send spi message", [], [.message (spiTransfer s bs)]⟩ := by
  simp only [transfer, htx.read_all, ok_bind, h]

/-- What was received is shown, when there is a buffer for it. -/
theorem transfer_received (htx : tx.Filled bs) (hreceives : s.receives = true)
    {received : List UInt8} (h : env.message (spiTransfer s bs) = some received) :
    transfer env s tx rx bs.length =
      .ok ⟨none, (if s.verbose then dump32 "TX".toList bs else []) ++
        dump32 "RX".toList received, [.message (spiTransfer s bs)]⟩ := by
  have hlen : received.length = bs.length := env.length_message _ _ h
  obtain ⟨rx', hwrite, hfilled⟩ := rx.exists_write_zero (hlen ▸ htx.length_le)
  have hshown : rx'.read 0 bs.length = .ok received := hlen ▸ hfilled.read_all
  have hrx : (spiTransfer s bs).rx_buf = true := hreceives
  simp only [transfer, htx.read_all, ok_bind, h, hrx, if_true, hwrite, hshown]

/-- Else the buffer is shown as it was. -/
theorem transfer_kept (rx : Buffer UInt8 cap) (htx : tx.Filled bs) (hreceives : s.receives = false)
    {received : List UInt8} (h : env.message (spiTransfer s bs) = some received) :
    transfer env s tx rx bs.length = (rx.read 0 bs.length).map fun shown =>
      ⟨none, (if s.verbose then dump32 "TX".toList bs else []) ++
        dump32 "RX".toList shown, [.message (spiTransfer s bs)]⟩ := by
  have hrx : (spiTransfer s bs).rx_buf = false := hreceives
  simp only [transfer, htx.read_all, ok_bind, h, hrx, Bool.false_eq_true, if_false]
  rfl

/-- Without an argument the bytes of the program are sent, which cannot go wrong. -/
theorem transfer_default (env : SpiEnv) (s : Settings) :
    ∃ r, transfer env s (Buffer.ofList default_tx)
      (Buffer.ofList (default_tx.map fun _ => 0)) default_tx.length = .ok r := by
  have htx := Buffer.filled_ofList default_tx
  have hrx := Buffer.filled_ofList (default_tx.map fun _ => (0 : UInt8))
  cases h : env.message (spiTransfer s default_tx) with
  | none => exact ⟨_, transfer_failed htx h⟩
  | some received =>
    cases hreceives : s.receives with
    | true => exact ⟨_, transfer_received htx hreceives h⟩
    | false =>
      have hread : Buffer.read (Buffer.ofList (default_tx.map fun _ => (0 : UInt8))) 0
          default_tx.length = .ok (default_tx.map fun _ => 0) := hrx.read_all
      have hkept := transfer_kept (Buffer.ofList (default_tx.map fun _ => 0)) htx hreceives h
      rw [hread] at hkept
      exact ⟨_, hkept⟩

/-- When the transfer of an argument stays in its buffers. -/
theorem transferInput_ok_iff {input_tx : List Char} (h : s.input_tx = some input_tx) :
    (∃ r, transferInput env s = .ok r) ↔
      ∃ bs, Unescapes none input_tx bs ∧ "\\x".toList <:+: input_tx ∧
        (env.message (spiTransfer s bs) = none ∨ s.receives = true) := by
  have hinput : transferInput env s =
      (unescapeInput input_tx >>= fun r => transfer env s r.1 (Buffer.uninit _) r.2) := by
    rw [transferInput, h]
  rw [hinput]
  constructor
  · intro ⟨r, hr⟩
    -- the argument was unescaped inside its buffer
    obtain ⟨read, hread, hr⟩ := bind_eq_ok_iff.mp hr
    obtain ⟨⟨bs, hbs⟩, hescape⟩ := unescapeInput_ok_iff.mp ⟨read, hread⟩
    refine ⟨bs, hbs, hescape, ?_⟩
    obtain ⟨tx, htx, hfilled⟩ := exists_unescapeInput hbs hescape
    obtain rfl := Except.ok.inj (htx.symm.trans hread)
    cases hmessage : env.message (spiTransfer s bs) with
    | none => exact Or.inl rfl
    | some received =>
      cases hreceives : s.receives with
      | true => exact Or.inr rfl
      | false =>
        -- nothing was stored in the buffer that is shown
        rw [transfer_kept _ hfilled hreceives hmessage, map_eq_ok_iff] at hr
        obtain ⟨shown, hshown, -⟩ := hr
        have hne : input_tx ≠ [] := by
          rintro rfl
          exact absurd hescape.length_le (by decide)
        exact absurd hshown (Buffer.read_uninit (hbs.length_pos hne) shown)
  · intro ⟨bs, hbs, hescape, hend⟩
    obtain ⟨tx, htx, hfilled⟩ := exists_unescapeInput hbs hescape
    rw [htx]
    show ∃ r, transfer env s tx _ bs.length = .ok r
    cases hmessage : env.message (spiTransfer s bs) with
    | none => exact ⟨_, transfer_failed hfilled hmessage⟩
    | some received =>
      rw [hmessage] at hend
      -- the reply has filled the buffer that is shown
      have hreceives := hend.resolve_left (Option.some_ne_none received)
      exact ⟨_, transfer_received hfilled hreceives hmessage⟩

variable {prog : List Char} {argv : List (List Char)} {t : Settings} {ret : ℤ}
  {ops : List Ioctl}

/-- A run in which the settings were made ends with the transfer. -/
theorem main_eq (hparse : parse_opts env.dm env.posixlyCorrect argv = some s)
    (hopens : env.opens s.device = true) (hconfigure : configure env s = (.ok (ret, t), ops)) :
    main env prog argv = (transferInput env t).map fun r =>
      ⟨r.aborted.elim (.exited (exitStatus ret)) .aborted, settingsText t ++ r.out,
        ops ++ r.ioctls⟩ := by
  simp only [main, hparse, hopens, if_true, hconfigure]

/-- Any other run ends before. -/
theorem exists_main_eq (h : ∀ s, parse_opts env.dm env.posixlyCorrect argv = some s →
    env.opens s.device = true → ∀ ret t, (configure env s).1 ≠ .ok (ret, t)) :
    ∃ r, main env prog argv = .ok r := by
  unfold main
  cases hparse : parse_opts env.dm env.posixlyCorrect argv with
  | none => exact ⟨_, rfl⟩
  | some s =>
    by_cases hopens : env.opens s.device = true
    · -- a setting failed
      have hnot := h s hparse hopens
      rcases hconfigure : configure env s with ⟨text | ⟨ret, t⟩, ops⟩
      · refine ⟨⟨.aborted text, [], ops⟩, ?_⟩
        simp only [hopens, if_true, hconfigure]
      · rw [hconfigure] at hnot
        exact absurd rfl (hnot ret t)
    · refine ⟨⟨.aborted "can't open device", [], []⟩, ?_⟩
      exact if_neg hopens

/-- **Memory**: a run of the program is free of stray and of indeterminate accesses exactly
when, if it gets as far as sending the argument of `-p`, the argument has an escape, its
escapes are complete and the first is a number, and the message fails or what it receives has a
buffer. -/
theorem main_ok_iff :
    (∃ r, main env prog argv = .ok r) ↔
      ∀ s, parse_opts env.dm env.posixlyCorrect argv = some s → env.opens s.device = true →
        ∀ ret t, (configure env s).1 = .ok (ret, t) → ∀ input_tx, t.input_tx = some input_tx →
          ∃ bs, Unescapes none input_tx bs ∧ "\\x".toList <:+: input_tx ∧
            (env.message (spiTransfer t bs) = none ∨ t.receives = true) := by
  constructor
  · intro ⟨r, hr⟩ s hparse hopens ret t ht input_tx hinput
    have hconfigure : configure env s = (.ok (ret, t), (configure env s).2) := Prod.ext ht rfl
    rw [main_eq hparse hopens hconfigure, map_eq_ok_iff] at hr
    obtain ⟨r', hr', -⟩ := hr
    exact (transferInput_ok_iff hinput).mp ⟨r', hr'⟩
  · intro h
    by_cases hmade : ∀ s, parse_opts env.dm env.posixlyCorrect argv = some s →
        env.opens s.device = true → ∀ ret t, (configure env s).1 ≠ .ok (ret, t)
    · -- the run ends before the transfer
      exact exists_main_eq hmade
    · push Not at hmade
      obtain ⟨s, hparse, hopens, ret, t, ht⟩ := hmade
      have hconfigure : configure env s = (.ok (ret, t), (configure env s).2) := Prod.ext ht rfl
      -- the settings were made, and the transfer decides
      have htransfer : ∃ r, transferInput env t = .ok r := by
        cases hinput : t.input_tx with
        | none =>
          rw [transferInput, hinput]
          exact transfer_default env t
        | some input_tx =>
          exact (transferInput_ok_iff hinput).mpr (h s hparse hopens ret t ht input_tx hinput)
      obtain ⟨r, hr⟩ := htransfer
      rw [main_eq hparse hopens hconfigure, hr]
      exact ⟨_, rfl⟩

/-- A driver that takes and keeps every setting, its output wired to its input. -/
structure Loopback (env : SpiEnv) : Prop where
  opens : ∀ device, env.opens device = true
  mode32 : env.mode32 = .plain UInt32
  bitsPerWord : env.bitsPerWord = .plain UInt8
  maxSpeedHz : env.maxSpeedHz = .plain UInt32
  message : ∀ tr bs, tr.tx_buf = some bs → bs.length = tr.len → env.message tr = some bs

/-- Such a driver leaves the settings as they are. -/
theorem Loopback.configure_eq (henv : Loopback env) (s : Settings) :
    configure env s = (.ok (0, s), [.wrMode32 s.mode, .rdMode32, .wrBitsPerWord s.bits,
      .rdBitsPerWord, .wrMaxSpeedHz s.speed, .rdMaxSpeedHz]) := by
  unfold configure
  rw [henv.mode32, henv.bitsPerWord, henv.maxSpeedHz]
  rfl

/-- **Loopback**: over a wire that leads back, with room for what is received, the program ends
well and the last thing it shows is a dump of the bytes it was told to send. -/
theorem main_loopback (henv : Loopback env)
    (hparse : parse_opts env.dm env.posixlyCorrect argv = some s) (hreceives : s.receives = true)
    {input_tx : List Char} (hinput : s.input_tx = some input_tx)
    (hbs : Unescapes none input_tx bs) (hescape : "\\x".toList <:+: input_tx) :
    ∃ r, main env prog argv = .ok r ∧ r.exit = .exited 0 ∧
      dump32 "RX".toList bs <:+ r.out := by
  obtain ⟨tx, htx, hfilled⟩ := exists_unescapeInput hbs hescape
  -- the options never leave a mode in which nothing is sent
  have hsent : (spiTransfer s bs).tx_buf = some bs := if_pos (sends_of_parse_opts hparse)
  have hmessage := henv.message (spiTransfer s bs) bs hsent rfl
  have htransfer : transferInput env s =
      transfer env s tx (Buffer.uninit (input_tx.length - 1)) bs.length := by
    rw [transferInput, hinput]
    show (unescapeInput input_tx >>= _) = _
    rw [htx]
    rfl
  rw [main_eq hparse (henv.opens s.device) (henv.configure_eq s), htransfer,
    transfer_received hfilled hreceives hmessage]
  -- the last setting was read with the result 0
  have hstatus : exitStatus 0 = 0 := rfl
  refine ⟨_, rfl, congrArg SpiExit.exited hstatus, ?_⟩
  exact (List.suffix_append _ _).trans (List.suffix_append _ _)

/-- A 32 bit host with such a driver. -/
def loopbackEnv : SpiEnv where
  dm := .ilp32
  posixlyCorrect := false
  opens _ := true
  mode32 := .plain _
  bitsPerWord := .plain _
  maxSpeedHz := .plain _
  message tr := (tr.tx_buf.filter fun bs => bs.length = tr.len)
  length_message tr bs h := by
    have hlen := (Option.filter_eq_some_iff.mp h).2
    exact of_decide_eq_true hlen

theorem main_loopback_quad :
    ∃ r, main loopbackEnv "spidev_test".toList
        ["-l4".toList, "-p".toList, "a\\x00\\xff".toList] = .ok r ∧ r.exit = .exited 0 ∧
      dump32 "RX".toList [0x61, 0x00, 0xFF] <:+ r.out := by
  have henv : Loopback loopbackEnv :=
    ⟨fun _ => rfl, rfl, rfl, rfl, fun tr bs htx hlen => by
      show tr.tx_buf.filter _ = some bs
      rw [htx]
      exact if_pos (decide_eq_true hlen)⟩
  have hparse : parse_opts loopbackEnv.dm loopbackEnv.posixlyCorrect
      ["-l4".toList, "-p".toList, "a\\x00\\xff".toList] =
        some { defaults with mode := 0xA20, input_tx := some "a\\x00\\xff".toList } := by decide
  have hbs : Unescapes none "a\\x00\\xff".toList [0x61, 0x00, 0xFF] :=
    .literal (by decide) (.escape (v := 0x00) rfl (.escape (v := 0xFF) rfl (.nil _)))
  exact main_loopback henv hparse (by decide) rfl hbs ⟨['a'], "00\\xff".toList, rfl⟩

end Runs

end GumstixExtras.Spidev
