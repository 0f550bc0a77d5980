import GumstixExtras.Lib.Atoi
import GumstixExtras.Lib.Getopt
import GumstixExtras.Lib.Termios

/-!
# The `uart_loopback` Program (`uart_loopback.c`)

The test writes the characters from `A` on, one at a time, and expects each of them back before
it writes the next. Its counter is a `char`, whose sign is that of the target; the loop need not
end, so a run is looked at after a number of passes.

- `loop_passed_iff`: the test passes on exactly the lines that echo every character.
- `loop_running_iff`: it makes passes for ever exactly when its counter cannot reach the count
  and the line never fails it.
- `main_wired`: the program passes on a terminal whose output is wired to its input.
-/

namespace GumstixExtras.Uart

open GumstixExtras.Lib

/-! ## §1 Characters -/

/-- Whether `char` is signed on the target. -/
inductive CharSign
  | unsigned
  | signed
  deriving DecidableEq, Repr

/-- The value of a `char` as an `int`. -/
def charInt : CharSign → UInt8 → ℤ
  | .unsigned, c => c.toNat
  | .signed, c => if c.toNat < 128 then c.toNat else c.toNat - 256

/-- `CHAR_MAX`. -/
def charMax : CharSign → ℤ
  | .unsigned => 255
  | .signed => 127

/-- `%c`. -/
def fmtChar (c : UInt8) : Char := Char.ofNat c.toNat

/-- `0x%x` of a `char`. -/
def fmtCharHex (sign : CharSign) (c : UInt8) : List Char :=
  fmtHex (charInt sign c % 0x100000000).toNat

variable {sign : CharSign} {i : UInt8}

theorem charInt_le_charMax (sign : CharSign) (i : UInt8) : charInt sign i ≤ charMax sign := by
  have hlt := i.toNat_lt
  cases sign with
  | unsigned => exact Int.ofNat_le.mpr (Nat.le_of_lt_succ hlt)
  | signed =>
    simp only [charInt, charMax]
    split <;> omega

/-- Below its greatest value a `char` is incremented as an `int` is. -/
theorem charInt_succ (h : charInt sign i < charMax sign) :
    charInt sign (i + 1) = charInt sign i + 1 := by
  have hlt := i.toNat_lt
  have hsucc : (i + 1).toNat = (i.toNat + 1) % 256 := UInt8.toNat_add i 1
  cases sign with
  | unsigned =>
    simp only [charInt, charMax] at h ⊢
    omega
  | signed =>
    simp only [charInt, charMax] at h ⊢
    split at h <;> split <;> omega

/-! ## §2 The loop -/

/-- What comes of a call that may wait: one byte was moved, or the call returns anything else,
or it does not return. -/
inductive Transferred (α : Type)
  | byte (a : α)
  | failed
  | waits
  deriving DecidableEq, Repr

/-- The calls on the open port. `select` returns 0, or anything else: an error counts as
something to read, and so does another descriptor, since `readfs` is never cleared and holds
what was on the stack. `read` may then wait. -/
structure Line (σ : Type) where
  write : σ → UInt8 → Transferred σ
  select : σ → Option σ
  read : σ → Transferred (UInt8 × σ)

/-- What comes of a pass. -/
inductive Pass (σ : Type)
  | next (st : σ)
  | exits (text : List Char)
  | waits
  deriving DecidableEq, Repr

/-- How the loop looks after a number of passes: there is another one to make, or it is in a call
that does not return, or it has ended with a status and a text. -/
inductive Progress
  | running
  | waiting
  | ended (status : ℕ) (text : List Char)
  deriving DecidableEq, Repr

/-- The progress behind a character that was printed. -/
def Progress.behind (c : Char) : Progress → Progress
  | .running => .running
  | .waiting => .waiting
  | .ended status text => .ended status (c :: text)

theorem Progress.behind_eq_running_iff {c : Char} {p : Progress} :
    p.behind c = .running ↔ p = .running := by
  cases p <;> simp [Progress.behind]

theorem Progress.behind_eq_ended_iff {c : Char} {p : Progress} {status : ℕ} {text : List Char} :
    p.behind c = .ended status text ↔ ∃ rest, p = .ended status rest ∧ text = c :: rest := by
  cases p with
  | running => simp [Progress.behind]
  | waiting => simp [Progress.behind]
  | ended status' rest =>
    simp only [Progress.behind, Progress.ended.injEq]
    constructor
    · rintro ⟨rfl, rfl⟩
      exact ⟨rest, ⟨rfl, rfl⟩, rfl⟩
    · rintro ⟨rest', ⟨rfl, rfl⟩, rfl⟩
      exact ⟨rfl, rfl⟩

section Loop

variable {σ : Type} (L : Line σ) (sign : CharSign)

/-- One pass: a message, or the line behind it. -/
def pass (st : σ) (i : UInt8) : Pass σ :=
  match L.write st i with
  | .waits => .waits
  | .failed => .exits "write error!\n".toList
  | .byte st =>
    match L.select st with
    | none => .exits "read timeout error!\n".toList
    | some st =>
      match L.read st with
      | .waits => .waits
      | .failed => .exits "read error!\n".toList
      | .byte (j, st) =>
        if i ≠ j then
          .exits ("read data error: wrote ".toList ++ fmtCharHex sign i ++ " read ".toList ++
            fmtCharHex sign j ++ "\n".toList)
        else .next st

/-- `count + 65`, a sum of `int`s; `none` where it overflows, which has no meaning. -/
def loopLimit (count : ℤ) : Option ℤ := if 2147483647 < count + 65 then none else some (count + 65)

/-- `for (i; i < limit; i++)`, at most `k` passes. -/
def loop (limit : ℤ) : ℕ → σ → UInt8 → Progress
  | 0, _, i => if charInt sign i < limit then .running else .ended 0 ['\n']
  | k + 1, st, i =>
    if charInt sign i < limit then
      match pass L sign st i with
      | .waits => .waiting
      | .exits text => .ended 1 text
      | .next st => (loop limit k st (i + 1)).behind (fmtChar i)
    else .ended 0 ['\n']

/-- The line gives every byte back before the next is written. -/
inductive Line.Echoes : σ → List UInt8 → Prop
  | nil (st : σ) : Echoes st []
  | cons {st st₁ st₂ st₃ : σ} {b : UInt8} {bs : List UInt8} : L.write st b = .byte st₁ →
      L.select st₁ = some st₂ → L.read st₂ = .byte (b, st₃) → Echoes st₃ bs →
      Echoes st (b :: bs)

/-- Successive values of the counter. -/
def bytesFrom : ℕ → UInt8 → List UInt8
  | 0, _ => []
  | n + 1, i => i :: bytesFrom n (i + 1)

variable {L sign} {st st' : σ} {i : UInt8} {limit : ℤ} {bs : List UInt8}

/-- A pass goes on to the next one when the line echoes its byte. -/
theorem pass_eq_next_iff : pass L sign st i = .next st' ↔
    ∃ st₁ st₂,
      L.write st i = .byte st₁ ∧ L.select st₁ = some st₂ ∧ L.read st₂ = .byte (i, st') := by
  unfold pass
  -- a pass goes on in one way only: every call does its part and the byte is the one sent
  cases hwrite : L.write st i with
  | waits => simp
  | failed => simp
  | byte st₁ =>
    cases hselect : L.select st₁ with
    | none => simp [hselect]
    | some st₂ =>
      rcases hread : L.read st₂ with ⟨j, st₃⟩ | - | -
      · by_cases hij : i = j
        · simp [hselect, hread, hij]
        · simp [hselect, hread, hij, Ne.symm hij]
      · simp [hselect, hread]
      · simp [hselect, hread]

/-- A first byte is echoed when its pass goes on. -/
theorem echoes_cons_iff : L.Echoes st (i :: bs) ↔
    ∃ st', pass L sign st i = .next st' ∧ L.Echoes st' bs := by
  constructor
  · intro h
    cases h with
    | cons hwrite hselect hread hrest =>
      exact ⟨_, pass_eq_next_iff.mpr ⟨_, _, hwrite, hselect, hread⟩, hrest⟩
  · intro ⟨st', hpass, hrest⟩
    obtain ⟨st₁, st₂, hwrite, hselect, hread⟩ := pass_eq_next_iff.mp hpass
    exact .cons hwrite hselect hread hrest

theorem loop_of_le (h : limit ≤ charInt sign i) (k : ℕ) :
    loop L sign limit k st i = .ended 0 ['\n'] := by
  cases k <;> exact if_neg (Int.not_lt.mpr h)

theorem loop_of_next (h : charInt sign i < limit) (hpass : pass L sign st i = .next st') (k : ℕ) :
    loop L sign limit (k + 1) st i =
      (loop L sign limit k st' (i + 1)).behind (fmtChar i) := by
  rw [loop, if_pos h, hpass]

/-- A pass that does not go on is the last one, and not a good one. -/
theorem loop_of_not_next (h : charInt sign i < limit)
    (hpass : ∀ st', pass L sign st i ≠ .next st') (k : ℕ) :
    loop L sign limit (k + 1) st i ≠ .running ∧
      ∀ text, loop L sign limit (k + 1) st i ≠ .ended 0 text := by
  rw [loop, if_pos h]
  -- what is left ends the program with an error or makes it wait
  cases hresult : pass L sign st i with
  | next st' => exact absurd hresult (hpass st')
  | exits text =>
    dsimp only
    refine ⟨?_, fun text' heq => ?_⟩
    · intro heq
      cases heq
    · cases heq
  | waits =>
    dsimp only
    refine ⟨?_, fun text' heq => ?_⟩
    · intro heq
      cases heq
    · cases heq

/-- A pass goes on or not. -/
theorem pass_cases (L : Line σ) (sign : CharSign) (st : σ) (i : UInt8) :
    (∃ st', pass L sign st i = .next st') ∨ ∀ st', pass L sign st i ≠ .next st' := by
  by_cases h : ∃ st', pass L sign st i = .next st'
  · exact .inl h
  · exact .inr (not_exists.mp h)

/-- A loop whose counter can reach the limit is over after as many passes as there are values
up to it. -/
theorem loop_ends (hlimit : limit ≤ charMax sign) {n : ℕ}
    (hn : (limit - charInt sign i).toNat = n) (st : σ) :
    loop L sign limit n st i ≠ .running := by
  induction n generalizing st i with
  | zero =>
    rw [loop_of_le (by omega)]
    intro h
    cases h
  | succ n ih =>
    -- a good pass brings the counter one step nearer to the limit
    have hlt : charInt sign i < limit := by omega
    have hsucc := charInt_succ (Int.lt_of_lt_of_le hlt hlimit)
    rcases pass_cases L sign st i with ⟨st', hpass⟩ | hpass
    · rw [loop_of_next hlt hpass]
      have hrest := ih (i := i + 1) (by omega) st'
      exact fun h => hrest (Progress.behind_eq_running_iff.mp h)
    · exact (loop_of_not_next hlt hpass n).1

/-- It passes when the line echoes these values. -/
theorem loop_passed_of_le (hlimit : limit ≤ charMax sign) {n : ℕ}
    (hn : (limit - charInt sign i).toNat = n) (st : σ) {out : List Char} :
    (∃ k, loop L sign limit k st i = .ended 0 out) ↔
      L.Echoes st (bytesFrom n i) ∧ out = (bytesFrom n i).map fmtChar ++ ['\n'] := by
  -- induction on the values that are left
  induction n generalizing st i out with
  | zero =>
    have hle : limit ≤ charInt sign i := by omega
    constructor
    · intro ⟨k, hk⟩
      rw [loop_of_le hle] at hk
      cases hk
      exact ⟨.nil st, rfl⟩
    · intro ⟨_, hout⟩
      exact ⟨0, by rw [loop_of_le hle, hout]; rfl⟩
  | succ n ih =>
    have hlt : charInt sign i < limit := by omega
    have hsucc := charInt_succ (Int.lt_of_lt_of_le hlt hlimit)
    have hrest : (limit - charInt sign (i + 1)).toNat = n := by omega
    rw [bytesFrom, @echoes_cons_iff _ L sign]
    constructor
    · intro ⟨k, hk⟩
      cases k with
      | zero =>
        rw [loop, if_pos hlt] at hk
        cases hk
      | succ k =>
        rcases pass_cases L sign st i with ⟨st', hpass⟩ | hpass
        · rw [loop_of_next hlt hpass] at hk
          obtain ⟨text, hbehind, rfl⟩ := Progress.behind_eq_ended_iff.mp hk
          -- the rest of the loop has passed too
          obtain ⟨hechoes, rfl⟩ := (ih hrest st').mp ⟨k, hbehind⟩
          exact ⟨⟨st', hpass, hechoes⟩, rfl⟩
        · exact absurd hk ((loop_of_not_next hlt hpass k).2 out)
    · intro ⟨⟨st', hpass, hechoes⟩, hout⟩
      obtain ⟨k, hk⟩ := (ih hrest st').mpr ⟨hechoes, rfl⟩
      refine ⟨k + 1, ?_⟩
      rw [loop_of_next hlt hpass, hk, hout]
      rfl

/-- A loop whose counter cannot reach the limit never passes. -/
theorem loop_never_passed (hlimit : charMax sign < limit) (k : ℕ) (st : σ) (i : UInt8)
    (out : List Char) : loop L sign limit k st i ≠ .ended 0 out := by
  induction k generalizing st i out with
  | zero =>
    rw [loop, if_pos (Int.lt_of_le_of_lt (charInt_le_charMax sign i) hlimit)]
    intro h
    cases h
  | succ k ih =>
    have hlt := Int.lt_of_le_of_lt (charInt_le_charMax sign i) hlimit
    rcases pass_cases L sign st i with ⟨st', hpass⟩ | hpass
    · rw [loop_of_next hlt hpass]
      intro h
      obtain ⟨text, hk, -⟩ := Progress.behind_eq_ended_iff.mp h
      exact ih st' (i + 1) text hk
    · exact (loop_of_not_next hlt hpass k).2 out

/-- It makes passes as long as the line echoes. -/
theorem loop_running_of_lt (hlimit : charMax sign < limit) (k : ℕ) (st : σ) (i : UInt8) :
    loop L sign limit k st i = .running ↔ L.Echoes st (bytesFrom k i) := by
  induction k generalizing st i with
  | zero =>
    exact iff_of_true (if_pos (Int.lt_of_le_of_lt (charInt_le_charMax sign i) hlimit)) (.nil st)
  | succ k ih =>
    have hlt := Int.lt_of_le_of_lt (charInt_le_charMax sign i) hlimit
    rw [bytesFrom, @echoes_cons_iff _ L sign]
    rcases pass_cases L sign st i with ⟨st', hpass⟩ | hpass
    · rw [loop_of_next hlt hpass, Progress.behind_eq_running_iff, ih]
      constructor
      · exact fun h => ⟨st', hpass, h⟩
      · intro ⟨st'', heq, h⟩
        cases hpass.symm.trans heq
        exact h
    · -- the byte was not echoed, and this pass is the last one
      refine iff_of_false (loop_of_not_next hlt hpass k).1 ?_
      intro ⟨st', heq, _⟩
      exact hpass st' heq

/-- The passes from `A` on. -/
theorem passes_from_A (sign : CharSign) (count : ℤ) :
    (count + 65 - charInt sign 65).toNat = count.toNat := by
  have hstart : charInt sign 65 = 65 := by cases sign <;> rfl
  rw [hstart, Int.add_sub_cancel]

theorem loopLimit_eq_some {count : ℤ} (h : loopLimit count = some limit) :
    limit = count + 65 := by
  unfold loopLimit at h
  split at h
  · cases h
  · exact (Option.some.inj h).symm

/-- **Passing**: where its limit does not overflow, the test of `count` characters ends with 0
exactly when the counter can reach the limit and the calls echo each character from `A` on; its
text is these characters. -/
theorem loop_passed_iff (count limit : ℤ) (hint : loopLimit count = some limit) (st : σ)
    (out : List Char) :
    (∃ k, loop L sign limit k st 65 = .ended 0 out) ↔
      count + 65 ≤ charMax sign ∧ L.Echoes st (bytesFrom count.toNat 65) ∧
        out = (bytesFrom count.toNat 65).map fmtChar ++ ['\n'] := by
  obtain rfl := loopLimit_eq_some hint
  by_cases hlimit : count + 65 ≤ charMax sign
  · rw [loop_passed_of_le hlimit (passes_from_A sign count) st]
    exact (and_iff_right hlimit).symm
  · -- a counter that cannot reach the limit never passes
    refine iff_of_false ?_ fun h => hlimit h.1
    intro ⟨k, hk⟩
    exact loop_never_passed (Int.not_le.mp hlimit) k st 65 out hk

/-- Two characters on a line that gives back the last byte. -/
theorem loop_passed_two :
    ∃ k, loop ⟨fun _ b => .byte b, some, fun b => .byte (b, b)⟩ .signed (2 + 65) k (0 : UInt8) 65 =
      .ended 0 "AB\n".toList :=
  (loop_passed_iff 2 (2 + 65) (by decide) 0 "AB\n".toList).mpr
    ⟨by decide, .cons rfl rfl rfl (.cons rfl rfl rfl (.nil _)), by decide⟩

/-- **Passes for ever**: where the limit does not overflow, there is always another pass to make
exactly when the counter cannot reach it and the calls echo whatever the counter runs
through. -/
theorem loop_running_iff (count limit : ℤ) (hint : loopLimit count = some limit) (st : σ) :
    (∀ k, loop L sign limit k st 65 = .running) ↔
      charMax sign < count + 65 ∧ ∀ k, L.Echoes st (bytesFrom k 65) := by
  obtain rfl := loopLimit_eq_some hint
  constructor
  · intro h
    by_cases hlimit : count + 65 ≤ charMax sign
    · exact absurd (h _) (loop_ends hlimit rfl st)
    · have hlt := Int.not_le.mp hlimit
      exact ⟨hlt, fun k => (loop_running_of_lt hlt k st 65).mp (h k)⟩
  · intro ⟨hlimit, hechoes⟩ k
    exact (loop_running_of_lt hlimit k st 65).mpr (hechoes k)

/-- A hundred characters are too many for a signed `char`. -/
theorem loop_running_hundred :
    loopLimit 100 = some (100 + 65) ∧
      ∀ k, loop ⟨fun _ b => .byte b, some, fun b => .byte (b, b)⟩ .signed (100 + 65) k
        (0 : UInt8) 65 = .running := by
  have hint : loopLimit 100 = some (100 + 65) := by decide
  refine ⟨hint, (loop_running_iff 100 (100 + 65) hint 0).mpr ⟨by decide, fun k => ?_⟩⟩
  -- whatever byte is next, the line gives it back
  generalize (65 : UInt8) = i
  generalize (0 : UInt8) = b
  induction k generalizing i b with
  | zero => exact .nil b
  | succ k ih => exact .cons rfl rfl rfl (ih (i + 1) i)

end Loop

/-! ## §3 `main` -/

section Main

open Termios

/-- `CLOCAL`. -/
def clocal : UInt32 := 0x800

/-- `cfmakeraw`. -/
def cfmakeraw (term : Termios) : Termios :=
  { term with
    iflag := term.iflag &&&
      ~~~(ignbrk ||| brkint ||| parmrk ||| istrip ||| inlcr ||| igncr ||| icrnl ||| ixon)
    oflag := term.oflag &&& ~~~opost
    lflag := term.lflag &&& ~~~(echo ||| echonl ||| icanon ||| isig ||| iexten)
    cflag := term.cflag &&& ~~~(csize ||| parenb) ||| cs8
    cc := { term.cc with vmin := 1, vtime := 0 } }

/-- The attributes `main` applies. -/
def portSettings (term : Termios) : Termios :=
  { cfmakeraw term with cflag := ((cfmakeraw term).cflag ||| clocal) &&& ~~~crtscts }

/-- What `print_usage` prints to the standard error. -/
def usageText (prg : List Char) : List Char :=
  "\nUsage: ".toList ++ prg ++ (" [options] tty\n\n" ++
    "Options: -c <count>  (ascii count)\n" ++
    "         -?         (show this help)\n" ++
    "\nExample:\n" ++
    "uart-loopback /dev/ttyS1\n" ++
    "\n").toList

/-- What a run meets. -/
structure UartEnv (σ : Type) where
  dm : DataModel
  posixlyCorrect : Bool
  sign : CharSign
  openErrno : List Char → Option ℤ
  tcgetattr : Except ℤ Termios
  tcsetattr : Termios → Option ℤ
  line : Termios → Line σ
  start : σ
  strerror : ℤ → List Char

/-- How a run looks after a number of passes of its loop. The end of the loop is computed in
`int`, where a sum that is too large has no meaning. -/
inductive Outcome
  | running
  | waiting
  | ended (status : ℕ) (out err : List Char)
  | overflow
  deriving DecidableEq, Repr

/-- `getopt` with `"c:?"`. Of long options it knows none, so that one is as wrong as a cluster
that starts with a dash. -/
def arguments (posixlyCorrect : Bool) (argv : List (List Char)) :
    List OptEvent × List (List Char) :=
  getoptLong posixlyCorrect [('c', true), ('?', false)] [] argv

/-- The option loop; `none` is `print_usage`. -/
def countOption (dm : DataModel) (opts : List OptEvent) : Option ℤ :=
  opts.foldlM (fun _ opt =>
    if opt.ret = 'c'.toNat then some (atoi dm (opt.optarg.getD [])) else none) 26

/-- `perror`. -/
def perror {σ : Type} (env : UartEnv σ) (s : List Char) (errno : ℤ) : List Char :=
  s ++ ": ".toList ++ env.strerror errno ++ "\n".toList

/-- `main`, with at most `k` passes of its loop. -/
def main {σ : Type} (env : UartEnv σ) (prg : List Char) (k : ℕ) (argv : List (List Char)) :
    Outcome :=
  match countOption env.dm (arguments env.posixlyCorrect argv).1,
    (arguments env.posixlyCorrect argv).2 with
  | some count, [tty] =>
    let out := "count=".toList ++ fmtInt count ++ "\n".toList
    match env.openErrno tty with
    | some errno => .ended 1 out (perror env tty errno)
    | none =>
      let out := out ++ "uart port used: ".toList ++ tty ++ "\n".toList
      match env.tcgetattr with
      | .error errno => .ended 255 out (perror env "can't get port settings".toList errno)
      | .ok term =>
        match env.tcsetattr (portSettings term) with
        | some errno => .ended 255 out (perror env "can't set port settings".toList errno)
        | none =>
          match loopLimit count with
          | none => .overflow
          | some limit =>
            match loop (env.line (portSettings term)) env.sign limit k env.start 65 with
            | .running => .running
            | .waiting => .waiting
            | .ended status text => .ended status (out ++ text) []
  | _, _ => .ended 1 [] (usageText prg)

/-! ## §4 A terminal wired to itself -/

/-- A terminal, the bytes that are on the wire from its output to its input, and those that
wait for a reader. -/
structure Wire where
  tty : LineState
  wire : List UInt8
  queue : List UInt8
  deriving DecidableEq, Repr

/-- The first byte on the wire arrives. -/
def Wire.arrive (c : Termios) (w : Wire) : Wire :=
  match w.wire with
  | [] => w
  | b :: wire =>
    let (tty, t) := arriveByte c w.tty b
    ⟨tty, wire ++ t.line, w.queue ++ t.reader⟩

/-- Up to `n` bytes arrive. -/
def Wire.settle (c : Termios) : ℕ → Wire → Wire
  | 0, w => w
  | n + 1, w => Wire.settle c n (w.arrive c)

/-- The calls on such a terminal, when up to `n` bytes arrive before the time is over. -/
def wired (n : ℕ) (c : Termios) : Line Wire where
  write w b :=
    let (tty, line) := writeByte c w.tty b
    .byte { w with tty := tty, wire := w.wire ++ line }
  select w := if (w.settle c n).queue = [] then none else some (w.settle c n)
  read w :=
    match w.queue with
    | [] => .waits
    | b :: queue => .byte (b, { w with queue := queue })

section Wired

variable {term : Termios}

/-- The control flags beside `CLOCAL` and `CRTSCTS` are those of `cfmakeraw`. -/
theorem portSettings_cflag (term : Termios) {flag : UInt32} (hcrtscts : ~~~crtscts &&& flag = flag)
    (hclocal : clocal &&& flag = 0) :
    (portSettings term).cflag &&& flag =
      (term.cflag &&& ~~~(csize ||| parenb) ||| cs8) &&& flag := by
  show (((cfmakeraw term).cflag ||| clocal) &&& ~~~crtscts) &&& flag = _
  rw [UInt32.and_assoc, hcrtscts, or_and_distrib, hclocal, UInt32.or_zero]
  rfl

theorem charMask_portSettings (term : Termios) : charMask (portSettings term) = 0xff := by
  apply if_pos
  rw [portSettings_cflag term (by decide) (by decide)]
  exact (mask_or_and (by decide)).trans (by decide)

/-- What is written goes out as it is. -/
theorem writeByte_portSettings (term : Termios) (b : UInt8) :
    writeByte (portSettings term) .start b = (.start, [b]) := by
  have hpost : hasFlag (portSettings term).oflag opost = false := hasFlag_mask_out (by decide)
  simp [writeByte, outputByte, hpost, charMask_portSettings, and_allBits, sendBytes,
    LineState.start]

/-- What arrives is received as it is, when the receiver is on: without extended processing upper
case is not mapped. -/
theorem arriveByte_portSettings (hread : hasFlag term.cflag cread = true) (b : UInt8) :
    arriveByte (portSettings term) .start b = (.start, ⟨[], [b]⟩) := by
  have hcread : hasFlag (portSettings term).cflag cread = true := by
    rw [hasFlag, portSettings_cflag term (by decide) (by decide)]
    exact (hasFlag_mask_or_keep (by decide) (by decide)).trans hread
  -- the mask of `cfmakeraw` covers the other flags of the input
  have hiflag : ∀ f ∈ [istrip, ixon, igncr, icrnl, inlcr, parmrk],
      hasFlag (portSettings term).iflag f = false := by
    simp only [List.forall_mem_cons]
    refine ⟨?_, ?_, ?_, ?_, ?_, ?_, by simp⟩
    all_goals exact hasFlag_mask_out (by decide)
  simp only [List.forall_mem_cons] at hiflag
  obtain ⟨histrip, hixon, higncr, hicrnl, hinlcr, hparmrk, -⟩ := hiflag
  have hlflag : ∀ f ∈ [isig, echo, icanon, iexten],
      hasFlag (portSettings term).lflag f = false := by
    simp only [List.forall_mem_cons]
    refine ⟨?_, ?_, ?_, ?_, by simp⟩
    all_goals exact hasFlag_mask_out (by decide)
  simp only [List.forall_mem_cons] at hlflag
  obtain ⟨hisig, hecho, hicanon, hiexten, -⟩ := hlflag
  -- of all mappings of a byte none is left
  have hinput : inputByte (portSettings term) b = [b] := by
    unfold inputByte
    split
    · next h => simp [higncr, hicrnl, h]
    · split
      · next h => simp [hinlcr, h]
      · simp [hiexten, hparmrk]
  simp [arriveByte, hcread, charMask_portSettings, and_allBits, histrip, hixon, hisig, hinput,
    acceptBytes, acceptByte, hecho, hicanon]

theorem settle_nil (c : Termios) (n : ℕ) (tty : LineState) (queue : List UInt8) :
    Wire.settle c n ⟨tty, [], queue⟩ = ⟨tty, [], queue⟩ := by
  induction n with
  | zero => rfl
  | succ n ih => exact ih

/-- The wire brings every byte back. -/
theorem wired_echoes (hread : hasFlag term.cflag cread = true) (n : ℕ) (bs : List UInt8) :
    (wired (n + 1) (portSettings term)).Echoes ⟨.start, [], []⟩ bs := by
  induction bs with
  | nil => exact .nil _
  | cons b bs ih =>
    -- the byte goes out, arrives within the time, and is read; the wire is empty again
    have hwrite : (wired (n + 1) (portSettings term)).write ⟨.start, [], []⟩ b =
        .byte ⟨.start, [b], []⟩ := by
      simp only [wired, writeByte_portSettings]
      rfl
    have hsettle : Wire.settle (portSettings term) (n + 1) ⟨.start, [b], []⟩ =
        ⟨.start, [], [b]⟩ := by
      have harrive : Wire.arrive (portSettings term) ⟨.start, [b], []⟩ =
          ⟨.start, [], [b]⟩ := by
        simp only [Wire.arrive, arriveByte_portSettings hread]
        rfl
      rw [Wire.settle, harrive]
      exact settle_nil _ n .start [b]
    have hselect : (wired (n + 1) (portSettings term)).select ⟨.start, [b], []⟩ =
        some ⟨.start, [], [b]⟩ := by
      simp only [wired, hsettle]
      rfl
    exact .cons hwrite hselect rfl ih

/-- **A wired terminal**: on a terminal whose output leads back to its input the program passes
for every count its counter can reach, and never ends for any other count it can compute the
end of, provided the receiver was on. -/
theorem main_wired {env : UartEnv Wire} {argv : List (List Char)} {count : ℤ} {tty : List Char}
    {n : ℕ} (hcount : countOption env.dm (arguments env.posixlyCorrect argv).1 = some count)
    (htty : (arguments env.posixlyCorrect argv).2 = [tty]) (hopen : env.openErrno tty = none)
    (hget : env.tcgetattr = .ok term) (hset : env.tcsetattr (portSettings term) = none)
    (hline : env.line = wired (n + 1)) (hstart : env.start = ⟨.start, [], []⟩)
    (hread : hasFlag term.cflag cread = true) (hint : count + 65 ≤ 2147483647)
    (prg : List Char) :
    (count + 65 ≤ charMax env.sign → ∃ k, main env prg k argv = .ended 0
      ("count=".toList ++ fmtInt count ++ "\n".toList ++ "uart port used: ".toList ++ tty ++
        "\n".toList ++ ((bytesFrom count.toNat 65).map fmtChar ++ "\n".toList)) []) ∧
      (charMax env.sign < count + 65 → ∀ k, main env prg k argv = .running) := by
  -- the program gets as far as the loop, whatever the number of passes
  have hrun : ∀ k, main env prg k argv =
      match loop (wired (n + 1) (portSettings term)) env.sign (count + 65) k
        ⟨.start, [], []⟩ 65 with
      | .running => .running
      | .waiting => .waiting
      | .ended status text => .ended status ("count=".toList ++ fmtInt count ++ "\n".toList ++
          "uart port used: ".toList ++ tty ++ "\n".toList ++ text) [] := by
    intro k
    simp only [main, loopLimit, hcount, htty, hopen, hget, hset, hline, hstart,
      if_neg (Int.not_lt.mpr hint), List.append_assoc]
  have hechoes := wired_echoes hread n
  constructor
  · intro hlimit
    obtain ⟨k, hk⟩ := (loop_passed_of_le hlimit (passes_from_A env.sign count) _).mpr
      ⟨hechoes _, rfl⟩
    refine ⟨k, ?_⟩
    rw [hrun, hk]
    rfl
  · intro hlimit k
    rw [hrun, (loop_running_of_lt hlimit k _ 65).mpr (hechoes _)]

/-- A 32 bit host whose `char` is unsigned, with such a terminal. -/
def wiredEnv : UartEnv Wire where
  dm := .ilp32
  posixlyCorrect := false
  sign := .unsigned
  openErrno _ := none
  tcgetattr := .ok ⟨icrnl ||| ixon, opost, cread, echo ||| icanon,
    ⟨3, 28, 26, 127, 21, 4, 0, 17, 19, 1, 0⟩, 9600, 9600⟩
  tcsetattr _ := none
  line := wired 1
  start := ⟨.start, [], []⟩
  strerror _ := []

theorem main_wired_two :
    ∃ k, main wiredEnv "uart_loopback".toList k ["-c".toList, "2".toList, "/dev/ttyS1".toList] =
      .ended 0 "count=2\nuart port used: /dev/ttyS1\nAB\n".toList [] := by
  have hcount : countOption wiredEnv.dm (arguments wiredEnv.posixlyCorrect
      ["-c".toList, "2".toList, "/dev/ttyS1".toList]).1 = some 2 := by decide
  have htty : (arguments wiredEnv.posixlyCorrect
      ["-c".toList, "2".toList, "/dev/ttyS1".toList]).2 = ["/dev/ttyS1".toList] := by decide
  exact (main_wired hcount htty rfl rfl rfl rfl rfl rfl (by decide)
    "uart_loopback".toList).1 (by decide)

end Wired

end Main

end GumstixExtras.Uart
