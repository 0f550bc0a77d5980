import Mathlib.Data.List.Basic
import Mathlib.Tactic.Common

/-!
# Terminal Attributes and the Line Discipline

`struct termios` with the flag words of Linux, and what the general terminal interface makes of
the bytes a program writes and of the bytes that arrive on the line: character size, mapping of
characters, special characters, echo, canonical input and flow control.

`transparent_of_raw` is the rule for raw lines: with the right flags clear, every byte passes
unchanged in both directions, whatever happens in whatever order.
-/

namespace GumstixExtras.Lib

/-! ## §1 Attributes -/

/-- The special characters of `c_cc` and the two values of non-canonical reads. -/
structure ControlChars where
  vintr : UInt8
  vquit : UInt8
  vsusp : UInt8
  verase : UInt8
  vkill : UInt8
  veof : UInt8
  veol : UInt8
  vstart : UInt8
  vstop : UInt8
  vmin : UInt8
  vtime : UInt8
  deriving DecidableEq, Repr

/-- `struct termios`. The rates are kept in fields of their own. -/
structure Termios where
  iflag : UInt32
  oflag : UInt32
  cflag : UInt32
  lflag : UInt32
  cc : ControlChars
  ispeed : ℕ
  ospeed : ℕ
  deriving DecidableEq, Repr

namespace Termios

-- `c_iflag`
def ignbrk : UInt32 := 0x1
def brkint : UInt32 := 0x2
def parmrk : UInt32 := 0x8
def inpck : UInt32 := 0x10
def istrip : UInt32 := 0x20
def inlcr : UInt32 := 0x40
def igncr : UInt32 := 0x80
def icrnl : UInt32 := 0x100
def iuclc : UInt32 := 0x200
def ixon : UInt32 := 0x400
def ixany : UInt32 := 0x800
def ixoff : UInt32 := 0x1000

-- `c_oflag`
def opost : UInt32 := 0x1
def olcuc : UInt32 := 0x2
def onlcr : UInt32 := 0x4
def ocrnl : UInt32 := 0x8
def onocr : UInt32 := 0x10
def onlret : UInt32 := 0x20
def ofill : UInt32 := 0x40
def tabdly : UInt32 := 0x1800

-- `c_cflag`
def csize : UInt32 := 0x30
def cs6 : UInt32 := 0x10
def cs7 : UInt32 := 0x20
def cs8 : UInt32 := 0x30
def cstopb : UInt32 := 0x40
def cread : UInt32 := 0x80
def parenb : UInt32 := 0x100
def crtscts : UInt32 := 0x80000000

-- `c_lflag`
def isig : UInt32 := 0x1
def icanon : UInt32 := 0x2
def echo : UInt32 := 0x8
def echonl : UInt32 := 0x40
def iexten : UInt32 := 0x8000

end Termios

/-- A flag is set in a word. -/
def hasFlag (word flag : UInt32) : Bool := decide (word &&& flag ≠ 0)

/-! ## §2 Flags under masks -/

section Masks

variable {word mask bits flag : UInt32}

theorem hasFlag_eq_false_iff : hasFlag word flag = false ↔ word &&& flag = 0 := by
  rw [hasFlag, decide_eq_false_iff_not, not_not]

/-- A flag that is masked out is clear. -/
theorem hasFlag_mask_out (h : ~~~mask &&& flag = 0) : hasFlag (word &&& ~~~mask) flag = false := by
  rw [hasFlag_eq_false_iff, UInt32.and_assoc, h, UInt32.and_zero]

/-- A flag outside the mask stays. -/
theorem hasFlag_mask_keep (h : ~~~mask &&& flag = flag) :
    hasFlag (word &&& ~~~mask) flag = hasFlag word flag := by
  rw [hasFlag, hasFlag, UInt32.and_assoc, h]

theorem or_and_distrib (a b c : UInt32) : (a ||| b) &&& c = a &&& c ||| b &&& c := by
  apply UInt32.toBitVec_inj.mp
  ext i
  simp [Bool.and_or_distrib_right]

/-- A field under a mask that is written anew has the new value. -/
theorem mask_or_and (h : ~~~mask &&& flag = 0) :
    (word &&& ~~~mask ||| bits) &&& flag = bits &&& flag := by
  rw [or_and_distrib, UInt32.and_assoc, h, UInt32.and_zero, UInt32.zero_or]

/-- A flag beside the mask and the new bits stays. -/
theorem hasFlag_mask_or_keep (h : ~~~mask &&& flag = flag) (hbits : bits &&& flag = 0) :
    hasFlag (word &&& ~~~mask ||| bits) flag = hasFlag word flag := by
  rw [hasFlag, hasFlag, or_and_distrib, UInt32.and_assoc, h, hbits, UInt32.or_zero]

end Masks

/-! ## §3 The line discipline -/

open Termios

/-- What the line discipline remembers: a STOP it has received, the column of the output, the
line that is being edited, and the output held back. -/
structure LineState where
  stopped : Bool
  column : ℕ
  editing : List UInt8
  held : List UInt8
  deriving DecidableEq, Repr

/-- Nothing received and nothing written. -/
def LineState.start : LineState := ⟨false, 0, [], []⟩

/-- What can happen at a terminal: the program writes a byte, a byte arrives, the input queue
is nearly full, or it has room again. -/
inductive TtyEvent
  | write (b : UInt8)
  | arrive (b : UInt8)
  | inputFull
  | inputDrained
  deriving DecidableEq, Repr

/-- What goes out on the line, and what a reader gets. -/
structure Traffic where
  line : List UInt8
  reader : List UInt8
  deriving DecidableEq, Repr

/-- The data bits of a character. -/
def charMask (c : Termios) : UInt8 :=
  if c.cflag &&& csize = cs8 then 0xff
  else if c.cflag &&& csize = cs7 then 0x7f
  else if c.cflag &&& csize = cs6 then 0x3f
  else 0x1f

/-- A character is a special one that is not disabled. -/
def isSpecial (special b : UInt8) : Bool := decide (special ≠ 0 ∧ b = special)

def isUpper (b : UInt8) : Bool := decide (0x41 ≤ b ∧ b ≤ 0x5a)

def isLower (b : UInt8) : Bool := decide (0x61 ≤ b ∧ b ≤ 0x7a)

/-- What a byte becomes on its way out, and the column behind it. -/
def outputByte (c : Termios) (column : ℕ) (b : UInt8) : List UInt8 × ℕ :=
  if !hasFlag c.oflag opost then
    ([b], column)
  else if b = 0x0a then
    if hasFlag c.oflag onlcr then ([0x0d, 0x0a], 0)
    else ([0x0a], if hasFlag c.oflag onlret then 0 else column)
  else if b = 0x0d then
    if hasFlag c.oflag onocr && column == 0 then ([], 0)
    else if hasFlag c.oflag ocrnl then ([0x0a], if hasFlag c.oflag onlret then 0 else column)
    else ([0x0d], 0)
  else if b = 0x09 ∧ c.oflag &&& tabdly = tabdly then
    (List.replicate (8 - column % 8) 0x20, column + (8 - column % 8))
  else if hasFlag c.oflag olcuc && isLower b then
    ([b - 0x20], column + 1)
  else
    ([b], column + 1)

/-- Output goes to the line, unless a STOP holds it back. -/
def sendBytes (st : LineState) (bs : List UInt8) : LineState × List UInt8 :=
  if st.stopped then ({ st with held := st.held ++ bs }, []) else (st, bs)

/-- A byte on its way out. -/
def writeByte (c : Termios) (st : LineState) (b : UInt8) : LineState × List UInt8 :=
  let (bs, column) := outputByte c st.column b
  sendBytes { st with column := column } (bs.map (· &&& charMask c))

/-- What a byte becomes on its way in. Upper case is mapped only with extended processing on. -/
def inputByte (c : Termios) (b : UInt8) : List UInt8 :=
  if b = 0x0d then
    if hasFlag c.iflag igncr then [] else if hasFlag c.iflag icrnl then [0x0a] else [0x0d]
  else if b = 0x0a then
    if hasFlag c.iflag inlcr then [0x0d] else [0x0a]
  else if hasFlag c.iflag iuclc && hasFlag c.lflag iexten && isUpper b then
    [b + 0x20]
  else if hasFlag c.iflag parmrk && !hasFlag c.iflag istrip && b == 0xff then
    [0xff, 0xff]
  else
    [b]

/-- A mapped byte is echoed, and goes to the reader at once or, in canonical mode, with the
line it ends. -/
def acceptByte (c : Termios) (st : LineState) (b : UInt8) : LineState × Traffic :=
  let (st, echoed) :=
    if hasFlag c.lflag echo || (hasFlag c.lflag echonl && hasFlag c.lflag icanon && b == 0x0a)
    then writeByte c st b else (st, [])
  if !hasFlag c.lflag icanon then
    (st, ⟨echoed, [b]⟩)
  else if isSpecial c.cc.verase b then
    ({ st with editing := st.editing.dropLast }, ⟨echoed, []⟩)
  else if isSpecial c.cc.vkill b then
    ({ st with editing := [] }, ⟨echoed, []⟩)
  else if isSpecial c.cc.veof b then
    ({ st with editing := [] }, ⟨echoed, st.editing⟩)
  else if b = 0x0a ∨ isSpecial c.cc.veol b then
    ({ st with editing := [] }, ⟨echoed, st.editing ++ [b]⟩)
  else
    ({ st with editing := st.editing ++ [b] }, ⟨echoed, []⟩)

/-- Mapped bytes, one after the other. -/
def acceptBytes (c : Termios) (st : LineState) : List UInt8 → LineState × Traffic
  | [] => (st, ⟨[], []⟩)
  | b :: bs =>
    let (st, first) := acceptByte c st b
    let (st, rest) := acceptBytes c st bs
    (st, ⟨first.line ++ rest.line, first.reader ++ rest.reader⟩)

/-- A byte arrives on the line. -/
def arriveByte (c : Termios) (st : LineState) (b : UInt8) : LineState × Traffic :=
  if !hasFlag c.cflag cread then
    -- the receiver is off
    (st, ⟨[], []⟩)
  else
    let b := b &&& charMask c
    let b := if hasFlag c.iflag istrip then b &&& 0x7f else b
    if hasFlag c.iflag ixon && isSpecial c.cc.vstop b then
      ({ st with stopped := true }, ⟨[], []⟩)
    else if hasFlag c.iflag ixon && isSpecial c.cc.vstart b then
      ({ st with stopped := false, held := [] }, ⟨st.held, []⟩)
    else if hasFlag c.lflag isig &&
        (isSpecial c.cc.vintr b || isSpecial c.cc.vquit b || isSpecial c.cc.vsusp b) then
      -- a signal, and the queues are flushed
      ({ st with editing := [], held := [] }, ⟨[], []⟩)
    else if hasFlag c.iflag ixon && hasFlag c.iflag ixany && st.stopped then
      let (st', t) := acceptBytes c { st with stopped := false, held := [] } (inputByte c b)
      (st', ⟨st.held ++ t.line, t.reader⟩)
    else
      acceptBytes c st (inputByte c b)

/-- One event at a terminal with the attributes `c`. -/
def ttyStep (c : Termios) (st : LineState) : TtyEvent → LineState × Traffic
  | .write b =>
    let (st, line) := writeByte c st b
    (st, ⟨line, []⟩)
  | .arrive b => arriveByte c st b
  -- the host asks the device to stop, and to go on
  | .inputFull => (st, ⟨if hasFlag c.iflag ixoff then [c.cc.vstop] else [], []⟩)
  | .inputDrained => (st, ⟨if hasFlag c.iflag ixoff then [c.cc.vstart] else [], []⟩)

/-- The traffic of a list of events. -/
def ttyRun (c : Termios) (st : LineState) : List TtyEvent → Traffic
  | [] => ⟨[], []⟩
  | e :: es =>
    let (st, first) := ttyStep c st e
    let rest := ttyRun c st es
    ⟨first.line ++ rest.line, first.reader ++ rest.reader⟩

/-! ## §4 Raw lines -/

/-- What an event writes. -/
def TtyEvent.written : TtyEvent → List UInt8
  | .write b => [b]
  | .arrive _ | .inputFull | .inputDrained => []

/-- What an event brings in. -/
def TtyEvent.arrived : TtyEvent → List UInt8
  | .arrive b => [b]
  | .write _ | .inputFull | .inputDrained => []

/-- Whatever happens, the line carries what was written and the reader gets what arrived. -/
def Transparent (c : Termios) : Prop :=
  ∀ es, ttyRun c .start es = ⟨es.flatMap TtyEvent.written, es.flatMap TtyEvent.arrived⟩

/-- The flags that change what is received. -/
def inputMappings : List UInt32 := [istrip, inlcr, igncr, icrnl, iuclc, parmrk]

/-- The flags that change what is sent. `opost` is the switch of all output processing. -/
def outputMappings : List UInt32 := [opost, olcuc, onlcr, ocrnl, onocr, onlret]

/-- Eight data bits, no parity, one stop bit, no flow control and no mapping. -/
structure Raw8N1 (c : Termios) : Prop where
  eightBits : c.cflag &&& csize = cs8
  noParity : hasFlag c.cflag parenb = false
  oneStopBit : hasFlag c.cflag cstopb = false
  noHardwareFlow : hasFlag c.cflag crtscts = false
  noSoftwareFlow : hasFlag c.iflag ixon = false ∧ hasFlag c.iflag ixoff = false
  noInputMapping : ∀ f ∈ inputMappings, hasFlag c.iflag f = false
  noOutputMapping : ∀ f ∈ outputMappings, hasFlag c.oflag f = false

/-- No echo, no line editing and no signals. -/
structure NoLocal (c : Termios) : Prop where
  echo : hasFlag c.lflag echo = false
  icanon : hasFlag c.lflag icanon = false
  isig : hasFlag c.lflag isig = false

section Raw

variable {c : Termios} (hraw : Raw8N1 c)

/-- Eight data bits are all of a byte. -/
theorem and_allBits (b : UInt8) : b &&& 0xff = b := UInt8.and_neg_one

include hraw in
theorem writeByte_raw (b : UInt8) : writeByte c .start b = (.start, [b]) := by
  have hmask : charMask c = 0xff := if_pos hraw.eightBits
  have hpost : hasFlag c.oflag opost = false :=
    hraw.noOutputMapping opost (by simp [outputMappings])
  simp [writeByte, outputByte, hpost, hmask, and_allBits, sendBytes, LineState.start]

include hraw in
theorem inputByte_raw (b : UInt8) : inputByte c b = [b] := by
  have hclear := hraw.noInputMapping
  simp only [inputMappings, List.forall_mem_cons] at hclear
  obtain ⟨histrip, hinlcr, higncr, hicrnl, hiuclc, hparmrk, -⟩ := hclear
  unfold inputByte
  split
  · next h => simp [higncr, hicrnl, h]
  · split
    · next h => simp [hinlcr, h]
    · simp [hiuclc, hparmrk]

variable (hlocal : NoLocal c) (hread : hasFlag c.cflag cread = true)

include hraw hlocal hread in
theorem arriveByte_raw (b : UInt8) : arriveByte c .start b = (.start, ⟨[], [b]⟩) := by
  have hmask : charMask c = 0xff := if_pos hraw.eightBits
  have hstrip : hasFlag c.iflag istrip = false :=
    hraw.noInputMapping istrip (by simp [inputMappings])
  simp [arriveByte, hread, hmask, and_allBits, hstrip, hraw.noSoftwareFlow.1, hlocal.isig,
    inputByte_raw hraw, acceptBytes, acceptByte, hlocal.echo, hlocal.icanon]

include hraw hlocal hread in
/-- **Raw lines**: with eight bits, no flow control, no mapping and no local processing, a line
whose receiver is on is transparent. -/
theorem transparent_of_raw : Transparent c := by
  have hstep : ∀ e, ttyStep c .start e = (.start, ⟨e.written, e.arrived⟩) := by
    intro e
    cases e with
    | write b => simp [ttyStep, writeByte_raw hraw, TtyEvent.written, TtyEvent.arrived]
    | arrive b => exact arriveByte_raw hraw hlocal hread b
    | inputFull => simp [ttyStep, hraw.noSoftwareFlow.2, TtyEvent.written, TtyEvent.arrived]
    | inputDrained => simp [ttyStep, hraw.noSoftwareFlow.2, TtyEvent.written, TtyEvent.arrived]
  -- no event leaves the starting state
  intro es
  induction es with
  | nil => rfl
  | cons e es ih => simp only [ttyRun, hstep, ih, List.flatMap_cons]

end Raw

/-- A line whose receiver is off is not transparent. -/
theorem Transparent.cread {c : Termios} (h : Transparent c) : hasFlag c.cflag cread = true := by
  by_contra hoff
  rw [Bool.not_eq_true] at hoff
  have hlost := congrArg Traffic.reader (h [.arrive 0])
  simp [ttyRun, ttyStep, arriveByte, hoff, TtyEvent.arrived] at hlost

end GumstixExtras.Lib
