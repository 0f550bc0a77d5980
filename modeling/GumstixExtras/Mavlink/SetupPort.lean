import GumstixExtras.Lib.Numeral
import GumstixExtras.Lib.Termios

/-!
# The Serial Port (`setup_port`)

`setup_port` reads the attributes of the terminal, masks them and applies them again. What it
does not mask stays as another program has left it: `setupPort_raw_iff` says from which
attributes a successful call makes a raw 8N1 line.
-/

namespace GumstixExtras.Mavlink

open GumstixExtras.Lib
open GumstixExtras.Lib.Termios

/-! ## §1 The code -/

/-- What the system calls on the port do: `isatty`, `tcgetattr` (`none` where it fails),
whether `cfsetispeed` and `cfsetospeed` take a rate, and whether `tcsetattr` succeeds. -/
structure TtyCalls where
  isatty : Bool
  tcgetattr : Option Termios
  cfsetispeed : Bool
  cfsetospeed : Bool
  tcsetattr : Bool
  deriving DecidableEq, Repr

/-- What a call of `setup_port` returns, logs, and has applied to the port. -/
structure SetupResult where
  rc : ℤ
  stderr : List Char
  applied : Option Termios
  deriving DecidableEq, Repr

/-- The masks: input processing, output processing and line processing are turned off, and the
character size is set. -/
def maskConfig (config : Termios) : Termios :=
  { config with
    iflag := config.iflag &&&
      ~~~(ignbrk ||| brkint ||| icrnl ||| inlcr ||| parmrk ||| inpck ||| istrip ||| ixon)
    oflag := config.oflag &&& ~~~(ocrnl ||| onlcr ||| onlret ||| onocr ||| ofill ||| opost) &&&
      ~~~olcuc
    lflag := config.lflag &&& ~~~(echo ||| echonl ||| icanon ||| iexten ||| isig)
    cflag := config.cflag &&& ~~~(csize ||| parenb) ||| cs8
    cc := { config.cc with vmin := 1, vtime := 10 } }

section Speed

variable (io : TtyCalls) (config : Termios) (speed : ℕ)

/-- `cfsetispeed`. -/
def cfsetispeed : Option Termios :=
  if io.cfsetispeed then some { config with ispeed := speed } else none

/-- `cfsetospeed`. -/
def cfsetospeed : Option Termios :=
  if io.cfsetospeed then some { config with ospeed := speed } else none

/-- A case of the switch that looks at the results. -/
def checkedSpeed (baud : ℤ) : Except (List Char) Termios :=
  match (cfsetispeed io config speed).bind fun config => cfsetospeed io config speed with
  | some config => .ok config
  | none => .error ("\nERROR: Could not set desired baud rate of ".toList ++ fmtInt baud ++
      " Baud\n".toList)

/-- A case of the switch that does not. -/
def uncheckedSpeed : Except (List Char) Termios :=
  let config := (cfsetispeed io config speed).getD config
  .ok ((cfsetospeed io config speed).getD config)

/-- The switch on the baud rate. -/
def setSpeed (baud : ℤ) : Except (List Char) Termios :=
  if baud = 1200 then checkedSpeed io config 0o11 baud
  else if baud = 1800 then uncheckedSpeed io config 0o12
  else if baud = 9600 then uncheckedSpeed io config 0o15
  else if baud = 19200 then uncheckedSpeed io config 0o16
  else if baud = 38400 then checkedSpeed io config 0o17 baud
  else if baud = 57600 then checkedSpeed io config 0o10001 baud
  else if baud = 115200 then checkedSpeed io config 0o10002 baud
  else if baud = 460800 then checkedSpeed io config 0o10004 baud
  else if baud = 921600 then checkedSpeed io config 0o10007 baud
  else .error ("ERROR: Desired baud rate ".toList ++ fmtInt baud ++
    " could not be set, aborting.\n".toList)

end Speed

/-- `setup_port`. It looks at none of its parameters behind `baud`. -/
def setupPort (io : TtyCalls) (fd baud _dataBits _stopBits _parity _hardwareControl : ℤ) :
    SetupResult :=
  if !io.isatty then
    ⟨-1, "\nERROR: file descriptor ".toList ++ fmtInt fd ++ " is NOT a serial port\n".toList,
      none⟩
  else
    match io.tcgetattr with
    | none =>
      ⟨-1, "\nERROR: could not read configuration of fd ".toList ++ fmtInt fd ++ "\n".toList,
        none⟩
    | some config =>
      match setSpeed io (maskConfig config) baud with
      | .error message => ⟨-1, message, none⟩
      | .ok config =>
        if io.tcsetattr then
          ⟨0, [], some config⟩
        else
          ⟨-1, "\nERROR: could not set configuration of fd ".toList ++ fmtInt fd ++
            "\n".toList, none⟩

/-! ## §2 What the call is for -/

/-- The rates of the switch. -/
def supportedBauds : List ℤ := [1200, 1800, 9600, 19200, 38400, 57600, 115200, 460800, 921600]

/-- The rates whose cases do not look at the results of setting them. -/
def uncheckedBauds : List ℤ := [1800, 9600, 19200]

/-- A successful call, with the arguments of `main`, has applied a raw 8N1 line on which every
byte passes unchanged; and a rate that is not in the switch is refused before anything is
applied. -/
structure SetsUpRaw (io : TtyCalls) (fd baud : ℤ) : Prop where
  raw : (setupPort io fd baud 8 1 0 0).rc = 0 →
    ∃ c, (setupPort io fd baud 8 1 0 0).applied = some c ∧ Raw8N1 c ∧ Transparent c
  unsupported : baud ∉ supportedBauds →
    (setupPort io fd baud 8 1 0 0).rc = -1 ∧ (setupPort io fd baud 8 1 0 0).applied = none

/-- The port is a terminal, the rate is in the switch and is taken where that is looked at, and
the attributes can be applied. -/
structure TtyCalls.Succeeds (io : TtyCalls) (baud : ℤ) : Prop where
  isatty : io.isatty = true
  supported : baud ∈ supportedBauds
  speed : baud ∉ uncheckedBauds → io.cfsetispeed = true ∧ io.cfsetospeed = true
  tcsetattr : io.tcsetattr = true

/-- The attributes a terminal must have before the call, because no mask covers them: CR is not
ignored, upper case not mapped, input not controlled by START and STOP, one stop bit, no
hardware flow control, and the receiver on. -/
structure RightBesideMasks (initial : Termios) : Prop where
  igncr : hasFlag initial.iflag igncr = false
  iuclc : hasFlag initial.iflag iuclc = false
  ixoff : hasFlag initial.iflag ixoff = false
  cstopb : hasFlag initial.cflag cstopb = false
  crtscts : hasFlag initial.cflag crtscts = false
  cread : hasFlag initial.cflag cread = true

/-! ## §3 The switch -/

section Switch

variable {io : TtyCalls} {config c : Termios} {speed : ℕ} {baud : ℤ}

/-- A case that looks at the results goes on when both calls take the rate. -/
theorem checkedSpeed_eq_ok_iff : checkedSpeed io config speed baud = .ok c ↔
    (io.cfsetispeed = true ∧ io.cfsetospeed = true) ∧
      c = { config with ispeed := speed, ospeed := speed } := by
  unfold checkedSpeed cfsetispeed cfsetospeed
  cases io.cfsetispeed with
  | false =>
    refine iff_of_false (fun h => ?_) fun h => absurd h.1.1 Bool.false_ne_true
    cases h
  | true =>
    cases io.cfsetospeed with
    | false =>
      refine iff_of_false (fun h => ?_) fun h => absurd h.1.2 Bool.false_ne_true
      cases h
    | true => exact ⟨fun h => ⟨⟨rfl, rfl⟩, (Except.ok.inj h).symm⟩, fun h => congrArg _ h.2.symm⟩

/-- A case that does not goes on anyway, with what has been taken. -/
theorem uncheckedSpeed_eq_ok (io : TtyCalls) (config : Termios) (speed : ℕ) :
    ∃ ispeed ospeed, uncheckedSpeed io config speed =
      .ok { config with ispeed := ispeed, ospeed := ospeed } := by
  unfold uncheckedSpeed cfsetispeed cfsetospeed
  cases io.cfsetispeed <;> cases io.cfsetospeed <;> exact ⟨_, _, rfl⟩

/-- The switch: a case that looks at the results, one that does not, or the default. -/
theorem setSpeed_cases (io : TtyCalls) (config : Termios) (baud : ℤ) :
    (baud ∈ supportedBauds ∧ baud ∉ uncheckedBauds ∧
      ∃ speed, setSpeed io config baud = checkedSpeed io config speed baud) ∨
    (baud ∈ supportedBauds ∧ baud ∈ uncheckedBauds ∧
      ∃ speed, setSpeed io config baud = uncheckedSpeed io config speed) ∨
    (baud ∉ supportedBauds ∧ ∃ message, setSpeed io config baud = .error message) := by
  by_cases hbaud : baud ∈ supportedBauds
  · -- one case of the switch for each rate
    simp only [supportedBauds, List.mem_cons, List.not_mem_nil, or_false] at hbaud
    rcases hbaud with rfl | rfl | rfl | rfl | rfl | rfl | rfl | rfl | rfl
    · exact .inl ⟨by decide, by decide, _, rfl⟩
    · exact .inr (.inl ⟨by decide, by decide, _, rfl⟩)
    · exact .inr (.inl ⟨by decide, by decide, _, rfl⟩)
    · exact .inr (.inl ⟨by decide, by decide, _, rfl⟩)
    · exact .inl ⟨by decide, by decide, _, rfl⟩
    · exact .inl ⟨by decide, by decide, _, rfl⟩
    · exact .inl ⟨by decide, by decide, _, rfl⟩
    · exact .inl ⟨by decide, by decide, _, rfl⟩
    · exact .inl ⟨by decide, by decide, _, rfl⟩
  · -- no case matches
    refine .inr (.inr ⟨hbaud, ?_⟩)
    simp only [supportedBauds, List.mem_cons, not_or] at hbaud
    obtain ⟨h1, h2, h3, h4, h5, h6, h7, h8, h9, -⟩ := hbaud
    rw [setSpeed, if_neg h1, if_neg h2, if_neg h3, if_neg h4, if_neg h5, if_neg h6, if_neg h7,
      if_neg h8, if_neg h9]
    exact ⟨_, rfl⟩

theorem setSpeed_ok_iff : (∃ c, setSpeed io config baud = .ok c) ↔
    baud ∈ supportedBauds ∧
      (baud ∉ uncheckedBauds → io.cfsetispeed = true ∧ io.cfsetospeed = true) := by
  rcases setSpeed_cases io config baud with ⟨hsupported, hlooked, speed, hspeed⟩ |
    ⟨hsupported, hignored, speed, hspeed⟩ | ⟨hunsupported, message, hspeed⟩
  · rw [hspeed]
    constructor
    · rintro ⟨c, hc⟩
      exact ⟨hsupported, fun _ => (checkedSpeed_eq_ok_iff.mp hc).1⟩
    · rintro ⟨-, htaken⟩
      exact ⟨_, checkedSpeed_eq_ok_iff.mpr ⟨htaken hlooked, rfl⟩⟩
  · obtain ⟨ispeed, ospeed, hok⟩ := uncheckedSpeed_eq_ok io config speed
    exact iff_of_true ⟨_, hspeed.trans hok⟩ ⟨hsupported, fun h => absurd hignored h⟩
  · refine iff_of_false ?_ fun h => hunsupported h.1
    rintro ⟨c, hc⟩
    cases hspeed.symm.trans hc

/-- Setting the rate leaves everything else. -/
theorem setSpeed_flags (h : setSpeed io config baud = .ok c) :
    ∃ ispeed ospeed, c = { config with ispeed := ispeed, ospeed := ospeed } := by
  rcases setSpeed_cases io config baud with ⟨-, -, speed, hspeed⟩ | ⟨-, -, speed, hspeed⟩ |
    ⟨-, message, hspeed⟩
  · exact ⟨speed, speed, (checkedSpeed_eq_ok_iff.mp (hspeed.symm.trans h)).2⟩
  · obtain ⟨ispeed, ospeed, hok⟩ := uncheckedSpeed_eq_ok io config speed
    exact ⟨ispeed, ospeed, Except.ok.inj (h.symm.trans (hspeed.trans hok))⟩
  · cases hspeed.symm.trans h

end Switch

/-! ## §4 The masks -/

section Masks

variable (initial : Termios)

/-- The flags no mask covers are those the terminal had. -/
theorem maskConfig_kept :
    hasFlag (maskConfig initial).iflag igncr = hasFlag initial.iflag igncr ∧
    hasFlag (maskConfig initial).iflag iuclc = hasFlag initial.iflag iuclc ∧
    hasFlag (maskConfig initial).iflag ixoff = hasFlag initial.iflag ixoff ∧
    hasFlag (maskConfig initial).cflag cstopb = hasFlag initial.cflag cstopb ∧
    hasFlag (maskConfig initial).cflag crtscts = hasFlag initial.cflag crtscts ∧
    hasFlag (maskConfig initial).cflag cread = hasFlag initial.cflag cread :=
  ⟨hasFlag_mask_keep (by decide), hasFlag_mask_keep (by decide), hasFlag_mask_keep (by decide),
    hasFlag_mask_or_keep (by decide) (by decide), hasFlag_mask_or_keep (by decide) (by decide),
    hasFlag_mask_or_keep (by decide) (by decide)⟩

/-- No input mapping is left that the masks cover. -/
theorem maskConfig_inputMappings (higncr : hasFlag initial.iflag igncr = false)
    (hiuclc : hasFlag initial.iflag iuclc = false) :
    ∀ f ∈ inputMappings, hasFlag (maskConfig initial).iflag f = false := by
  obtain ⟨hcr, hlc, -⟩ := maskConfig_kept initial
  simp only [inputMappings, List.forall_mem_cons, hcr, hlc, higncr, hiuclc]
  exact ⟨hasFlag_mask_out (by decide), hasFlag_mask_out (by decide), trivial,
    hasFlag_mask_out (by decide), trivial, hasFlag_mask_out (by decide), by simp⟩

/-- No output mapping is left. -/
theorem maskConfig_outputMappings :
    ∀ f ∈ outputMappings, hasFlag (maskConfig initial).oflag f = false := by
  simp only [outputMappings, List.forall_mem_cons]
  -- `olcuc` has a mask of its own behind that of the other output flags
  refine ⟨?_, hasFlag_mask_out (by decide), ?_, ?_, ?_, ?_, by simp⟩
  all_goals exact (hasFlag_mask_keep (by decide)).trans (hasFlag_mask_out (by decide))

/-- What the masks leave is raw 8N1 and transparent exactly when the attributes beside them are
right. -/
theorem maskConfig_raw_iff (ispeed ospeed : ℕ) :
    (Raw8N1 { maskConfig initial with ispeed := ispeed, ospeed := ospeed } ∧
      Transparent { maskConfig initial with ispeed := ispeed, ospeed := ospeed }) ↔
    RightBesideMasks initial := by
  obtain ⟨higncr, hiuclc, hixoff, hcstopb, hcrtscts, hcread⟩ := maskConfig_kept initial
  constructor
  · rintro ⟨hraw, htransparent⟩
    -- each of the six was not touched by the masks, so it was right before
    refine ⟨?_, ?_, ?_, ?_, ?_, ?_⟩
    · rw [← higncr]
      exact hraw.noInputMapping igncr (by simp [inputMappings])
    · rw [← hiuclc]
      exact hraw.noInputMapping iuclc (by simp [inputMappings])
    · rw [← hixoff]
      exact hraw.noSoftwareFlow.2
    · rw [← hcstopb]
      exact hraw.oneStopBit
    · rw [← hcrtscts]
      exact hraw.noHardwareFlow
    · rw [← hcread]
      exact htransparent.cread
  · intro h
    -- the rest is set by the masks themselves
    have hparenb : (maskConfig initial).cflag &&& parenb = 0 :=
      (mask_or_and (by decide)).trans (by decide)
    have hraw : Raw8N1 { maskConfig initial with ispeed := ispeed, ospeed := ospeed } :=
      { eightBits := (mask_or_and (by decide)).trans (by decide)
        noParity := hasFlag_eq_false_iff.mpr hparenb
        oneStopBit := hcstopb.trans h.cstopb
        noHardwareFlow := hcrtscts.trans h.crtscts
        noSoftwareFlow := ⟨hasFlag_mask_out (by decide), hixoff.trans h.ixoff⟩
        noInputMapping := maskConfig_inputMappings initial h.igncr h.iuclc
        noOutputMapping := maskConfig_outputMappings initial }
    have hlocal : NoLocal { maskConfig initial with ispeed := ispeed, ospeed := ospeed } :=
      ⟨hasFlag_mask_out (by decide), hasFlag_mask_out (by decide), hasFlag_mask_out (by decide)⟩
    exact ⟨hraw, transparent_of_raw hraw hlocal (hcread.trans h.cread)⟩

end Masks

/-! ## §5 Calls -/

section Calls

variable (io : TtyCalls) (fd baud dataBits stopBits parity hardwareControl : ℤ)

/-- A call that cannot go through returns -1 and applies nothing. -/
theorem setupPort_failed
    (h : ∀ initial, io.tcgetattr = some initial → ¬ io.Succeeds baud) :
    ∃ message, setupPort io fd baud dataBits stopBits parity hardwareControl =
      ⟨-1, message, none⟩ := by
  unfold setupPort
  cases htty : io.isatty with
  | false => exact ⟨_, rfl⟩
  | true =>
    cases hget : io.tcgetattr with
    | none => exact ⟨_, rfl⟩
    | some initial =>
      dsimp only
      cases hspeed : setSpeed io (maskConfig initial) baud with
      | error message => exact ⟨message, rfl⟩
      | ok c =>
        -- all that is left to fail is applying the attributes
        obtain ⟨hsupported, htaken⟩ := setSpeed_ok_iff.mp ⟨c, hspeed⟩
        cases hset : io.tcsetattr with
        | false => exact ⟨_, rfl⟩
        | true => exact absurd ⟨htty, hsupported, htaken, hset⟩ (h initial hget)

/-- A call that goes through applies the masked attributes with some rate. -/
theorem setupPort_succeeded {initial : Termios} (hget : io.tcgetattr = some initial)
    (h : io.Succeeds baud) :
    ∃ ispeed ospeed, setupPort io fd baud dataBits stopBits parity hardwareControl =
      ⟨0, [], some { maskConfig initial with ispeed := ispeed, ospeed := ospeed }⟩ := by
  have hok : ∃ c, setSpeed io (maskConfig initial) baud = .ok c :=
    setSpeed_ok_iff.mpr ⟨h.supported, h.speed⟩
  -- the switch changes the rates only
  obtain ⟨c, hspeed⟩ := hok
  obtain ⟨ispeed, ospeed, rfl⟩ := setSpeed_flags hspeed
  refine ⟨ispeed, ospeed, ?_⟩
  unfold setupPort
  rw [h.isatty, hget]
  dsimp only
  rw [hspeed, h.tcsetattr]
  rfl

end Calls

/-- **The serial port**: a call does what it is for if and only if it fails, or the attributes
that no mask covers are right beforehand. -/
theorem setupPort_raw_iff (io : TtyCalls) (fd baud : ℤ) : SetsUpRaw io fd baud ↔
    ∀ initial, io.tcgetattr = some initial → io.Succeeds baud → RightBesideMasks initial := by
  by_cases hsucceeds : ∃ initial, io.tcgetattr = some initial ∧ io.Succeeds baud
  · -- the call succeeds, and applies what the masks leave
    obtain ⟨initial, hget, hsucceeds⟩ := hsucceeds
    obtain ⟨ispeed, ospeed, hrun⟩ := setupPort_succeeded io fd baud 8 1 0 0 hget hsucceeds
    have hmask := maskConfig_raw_iff initial ispeed ospeed
    constructor
    · intro h initial' hget' _
      obtain rfl := Option.some.inj (hget.symm.trans hget')
      obtain ⟨c, hc, hraw⟩ := h.raw (by rw [hrun])
      rw [hrun] at hc
      obtain rfl := Option.some.inj hc
      exact hmask.mp hraw
    · intro h
      refine ⟨fun _ => ⟨_, by rw [hrun], hmask.mpr (h initial hget hsucceeds)⟩, fun hbaud => ?_⟩
      exact absurd hsucceeds.supported hbaud
  · have hfails : ∀ initial, io.tcgetattr = some initial → ¬ io.Succeeds baud :=
      fun initial hget h => hsucceeds ⟨initial, hget, h⟩
    obtain ⟨message, hrun⟩ := setupPort_failed io fd baud 8 1 0 0 hfails
    refine iff_of_true ⟨fun h => ?_, fun _ => by rw [hrun]; exact ⟨rfl, rfl⟩⟩
      fun initial hget h => absurd h (hfails initial hget)
    rw [hrun] at h
    -- the call returned -1
    exact absurd (show (-1 : ℤ) = 0 from h) (by decide)

/-- The attributes of a port whose last user ignored carriage returns and let START and STOP
hold the device back. -/
def strayTermios : Termios where
  iflag := igncr ||| ixoff
  oflag := 0
  cflag := cs8 ||| cread
  lflag := 0
  cc := ⟨0x03, 0x1c, 0x1a, 0x7f, 0x15, 0x04, 0x00, 0x11, 0x13, 0x01, 0x00⟩
  ispeed := 0o10002
  ospeed := 0o10002

/-- On such a port the call succeeds, and a carriage return that arrives is lost. -/
theorem setupPort_losesCarriageReturn :
    ∃ c, setupPort ⟨true, some strayTermios, true, true, true⟩ 3 115200 8 1 0 0 =
        ⟨0, [], some c⟩ ∧ ttyRun c .start [.arrive 0x0d] = ⟨[], []⟩ ∧
      ¬ SetsUpRaw ⟨true, some strayTermios, true, true, true⟩ 3 115200 := by
  have hrun : setupPort ⟨true, some strayTermios, true, true, true⟩ 3 115200 8 1 0 0 =
      ⟨0, [], some { maskConfig strayTermios with ispeed := 0o10002, ospeed := 0o10002 }⟩ := by
    decide
  refine ⟨_, hrun, by decide, fun h => ?_⟩
  obtain ⟨c, hc, hraw, -⟩ := h.raw (by rw [hrun])
  rw [hrun] at hc
  obtain rfl := Option.some.inj hc
  exact absurd (hraw.noInputMapping igncr (by simp [inputMappings])) (by decide)

end GumstixExtras.Mavlink
