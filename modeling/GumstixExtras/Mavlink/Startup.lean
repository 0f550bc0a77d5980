import GumstixExtras.Lib.Atoi
import GumstixExtras.Lib.CString
import GumstixExtras.Mavlink.SetupPort

/-!
# Startup of `mavlink_socket`

`main` up to the start of the two threads: the arguments copied into its arrays, the serial
port opened and set up, and the socket bound. `main_outcome` says for every command line
whether `main` overruns an array, goes on to the relay or gives up, and on what line the relay
then works.
-/

namespace GumstixExtras.Mavlink

open GumstixExtras.Lib

/-! ## §1 The code -/

/-- What `main` meets: the file descriptor of a port that opens, the calls on it, and what
`bind` says. -/
structure Host where
  dm : DataModel
  openFd : List Char → Option ℤ
  tty : TtyCalls
  bindErrno : Option ℤ
  strerror : ℤ → List Char

/-- How `main` ends, or the threads it starts: messages go to the address and the line has the
attributes. -/
inductive Outcome
  | exited (status : ℕ) (out err : List Char)
  | relaying (target_ip : List Char) (attributes : Option Termios)
  deriving DecidableEq, Repr

/-- What `--help` prints. -/
def helpText (prog : List Char) : List Char :=
  "\n\tUsage:\n\n\t".toList ++ prog ++
    (" <ip address of QGroundControl> <serial port of MAV> <baud rate>\n" ++
    "\tDefault for localhost: udp-server 127.0.0.1 /dev/ttyS2 115200\n\n").toList

/-- The default overwritten by the argument, if there is one. -/
def copyArgument {n : ℕ} (default : List Char) (arg : Option (List Char)) :
    Except Fault (Buffer Char n) := do
  let dest ← strcpy (Buffer.uninit n) default
  match arg with
  | some arg => strcpy dest arg
  | none => .ok dest

/-- The rate: an argument behind it brings the default back. -/
def baudRate (dm : DataModel) (args : List (List Char)) : ℤ :=
  match args with
  | [_, _, baud] => atoi dm baud
  | _ => 115200

/-- `main`; `args` are the arguments behind the name of the program, and `debug` is off. -/
def main (host : Host) (prog : List Char) (args : List (List Char)) : Except Fault Outcome :=
  if args = ["--help".toList] then .ok (.exited 1 (helpText prog) [])
  else do
    let target_ip : Buffer Char 100 ← copyArgument "127.0.0.1".toList args[0]?
    let serial_port : Buffer Char 128 ← copyArgument "/dev/ttyS2".toList args[1]?
    let port ← cString serial_port
    match host.openFd port with
    | none => .ok (.exited 1 [] [])
    | some fd =>
      let setup := setupPort host.tty fd (baudRate host.dm args) 8 1 0 0
      if setup.rc = -1 then .ok (.exited 1 [] setup.stderr)
      else
        match host.bindErrno with
        | some errno =>
          .ok (.exited 1 [] (setup.stderr ++ "error bind failed: ".toList ++ host.strerror errno ++
            "\n".toList))
        | none => do
          let ip ← cString target_ip
          .ok (.relaying ip setup.applied)

/-! ## §2 Arguments -/

/-- The arguments fit the arrays of `main`. -/
def Fits (args : List (List Char)) : Prop :=
  (∀ ip, args[0]? = some ip → ip.length < 100) ∧ ∀ port, args[1]? = some port → port.length < 128

/-- The address. -/
def targetIp (args : List (List Char)) : List Char := args[0]?.getD "127.0.0.1".toList

/-- The name of the port. -/
def serialPort (args : List (List Char)) : List Char := args[1]?.getD "/dev/ttyS2".toList

section Arguments

variable {n : ℕ} {default : List Char} {arg : Option (List Char)}

theorem copyArgument_ok_iff (hdefault : default.length < n) :
    (∃ b : Buffer Char n, copyArgument default arg = .ok b) ↔
      ∀ s, arg = some s → s.length < n := by
  obtain ⟨dest, hdest⟩ := (strcpy_ok_iff (Buffer.uninit n)).mpr hdefault
  rw [copyArgument, hdest, ok_bind]
  cases arg with
  | none =>
    refine iff_of_true ⟨dest, rfl⟩ fun s hs => ?_
    cases hs
  | some s =>
    refine (strcpy_ok_iff dest).trans ⟨fun hlt s' hs' => ?_, fun h => h s rfl⟩
    obtain rfl := Option.some.inj hs'
    exact hlt

/-- What is in the array is the argument, or else the default. -/
theorem cString_copyArgument {b : Buffer Char n} (h : copyArgument default arg = .ok b)
    (hdefault : nul ∉ default) (harg : ∀ s, arg = some s → nul ∉ s) :
    cString b = .ok (arg.getD default) := by
  obtain ⟨dest, hdest, h⟩ := bind_eq_ok_iff.mp h
  cases arg with
  | none =>
    cases h
    exact cString_strcpy hdest hdefault
  | some s => exact cString_strcpy h (harg s rfl)

end Arguments

/-! ## §3 Outcomes -/

section Outcomes

variable {host : Host} {prog : List Char} {args : List (List Char)}

/-- Arguments that do not fit overrun an array before anything is opened. -/
theorem main_of_not_fits (host : Host) (prog : List Char) (hhelp : args ≠ ["--help".toList])
    (hfits : ¬Fits args) :
    ∃ e, main host prog args = .error e := by
  rw [main, if_neg hhelp]
  cases hip : (copyArgument "127.0.0.1".toList args[0]? : Except Fault (Buffer Char 100)) with
  | error e => exact ⟨e, rfl⟩
  | ok target_ip =>
    cases hport : (copyArgument "/dev/ttyS2".toList args[1]? : Except Fault (Buffer Char 128)) with
    | error e => exact ⟨e, rfl⟩
    | ok serial_port =>
      -- both copies stayed in their arrays, so both texts fit
      refine absurd ⟨?_, ?_⟩ hfits
      · exact (copyArgument_ok_iff (by decide)).mp ⟨target_ip, hip⟩
      · exact (copyArgument_ok_iff (by decide)).mp ⟨serial_port, hport⟩

/-- Those that fit are read back from the arrays. -/
theorem main_of_fits (hargs : ∀ s ∈ args, nul ∉ s) (hhelp : args ≠ ["--help".toList])
    (hfits : Fits args) :
    main host prog args =
      match host.openFd (serialPort args) with
      | none => .ok (.exited 1 [] [])
      | some fd =>
        if (setupPort host.tty fd (baudRate host.dm args) 8 1 0 0).rc = -1 then
          .ok (.exited 1 [] (setupPort host.tty fd (baudRate host.dm args) 8 1 0 0).stderr)
        else
          match host.bindErrno with
          | some errno =>
            .ok (.exited 1 [] ((setupPort host.tty fd (baudRate host.dm args) 8 1 0 0).stderr ++
              "error bind failed: ".toList ++ host.strerror errno ++ "\n".toList))
          | none =>
            .ok (.relaying (targetIp args)
              (setupPort host.tty fd (baudRate host.dm args) 8 1 0 0).applied) := by
  obtain ⟨target_ip, hip⟩ : ∃ b : Buffer Char 100,
      copyArgument "127.0.0.1".toList args[0]? = .ok b :=
    (copyArgument_ok_iff (by decide)).mpr hfits.1
  obtain ⟨serial_port, hport⟩ : ∃ b : Buffer Char 128,
      copyArgument "/dev/ttyS2".toList args[1]? = .ok b :=
    (copyArgument_ok_iff (by decide)).mpr hfits.2
  -- each array holds its argument up to the terminator
  have hipString := cString_copyArgument hip (by decide) fun s hs =>
    hargs s (List.mem_of_getElem? hs)
  have hportString := cString_copyArgument hport (by decide) fun s hs =>
    hargs s (List.mem_of_getElem? hs)
  rw [main, if_neg hhelp, hip, ok_bind, hport, ok_bind, hportString, ok_bind, hipString]
  rfl

/-- Everything `main` needs to start its threads: the port opens and can be set up with the
rate, and the socket can be bound. -/
structure Starts (host : Host) (args : List (List Char)) : Prop where
  port : ∃ fd, host.openFd (serialPort args) = some fd
  line : ∃ initial, host.tty.tcgetattr = some initial ∧ host.tty.Succeeds (baudRate host.dm args)
  socket : host.bindErrno = none

/-- Then they are started, on the masked attributes. -/
theorem main_of_starts (hargs : ∀ s ∈ args, nul ∉ s) (hhelp : args ≠ ["--help".toList])
    (hfits : Fits args) (hstarts : Starts host args) {initial : Termios}
    (hget : host.tty.tcgetattr = some initial) :
    ∃ ispeed ospeed, main host prog args = .ok (.relaying (targetIp args)
      (some { maskConfig initial with ispeed := ispeed, ospeed := ospeed })) := by
  obtain ⟨fd, hfd⟩ := hstarts.port
  obtain ⟨_, _, hsucceeds⟩ := hstarts.line
  obtain ⟨ispeed, ospeed, hsetup⟩ :=
    setupPort_succeeded host.tty fd (baudRate host.dm args) 8 1 0 0 hget hsucceeds
  refine ⟨ispeed, ospeed, ?_⟩
  rw [main_of_fits hargs hhelp hfits, hfd]
  dsimp only
  rw [hsetup, hstarts.socket]
  rfl

/-- Without one of these `main` gives up. -/
theorem main_of_not_starts (prog : List Char) (hargs : ∀ s ∈ args, nul ∉ s)
    (hhelp : args ≠ ["--help".toList]) (hfits : Fits args) (hstarts : ¬Starts host args) :
    ∃ out err, main host prog args = .ok (.exited 1 out err) := by
  rw [main_of_fits hargs hhelp hfits]
  cases hfd : host.openFd (serialPort args) with
  | none => exact ⟨_, _, rfl⟩
  | some fd =>
    dsimp only
    by_cases hline : ∃ initial, host.tty.tcgetattr = some initial ∧
        host.tty.Succeeds (baudRate host.dm args)
    · -- the line is set up, so the socket is what is missing
      obtain ⟨initial, hget, hsucceeds⟩ := hline
      obtain ⟨ispeed, ospeed, hsetup⟩ :=
        setupPort_succeeded host.tty fd (baudRate host.dm args) 8 1 0 0 hget hsucceeds
      rw [hsetup]
      cases hbind : host.bindErrno with
      | none => exact absurd ⟨⟨fd, hfd⟩, ⟨initial, hget, hsucceeds⟩, hbind⟩ hstarts
      | some errno => exact ⟨_, _, rfl⟩
    · -- the line cannot be set up
      obtain ⟨message, hsetup⟩ := setupPort_failed host.tty fd (baudRate host.dm args) 8 1 0 0
        fun initial hget hsucceeds => hline ⟨initial, hget, hsucceeds⟩
      rw [hsetup]
      exact ⟨_, _, rfl⟩

end Outcomes

end GumstixExtras.Mavlink
