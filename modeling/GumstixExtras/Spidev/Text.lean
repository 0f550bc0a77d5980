import GumstixExtras.Lib.Buffer
import GumstixExtras.Lib.HexDump
import GumstixExtras.Lib.Strtol

/-!
# Texts of `spidev_test`

The two functions of `spidev_test.c` between bytes and text: `hex_dump` shows a block, and
`unescape` reads the argument of `-p`. A character of an argument stands for one byte.

- `readDump_hexDump`: the bytes a dump shows can be read from it.
- `unescape_ok_iff`: which arguments `main` unescapes inside the buffer it allocates.
- `unescape_escape`: escaped bytes are unescaped to themselves.
-/

namespace GumstixExtras.Spidev

open GumstixExtras.Lib

/-! ## §1 `hex_dump` -/

section HexDump

/-- The character a byte is shown as. -/
def dumpChar (c : UInt8) : Char := if c < 33 ∨ c = 255 then '.' else Char.ofNat c.toNat

/-- The bytes a line lacks behind the `i`-th. -/
def missing (line_size i : ℕ) : ℕ := (line_size - i % line_size) % line_size

section Missing

variable {line_size i : ℕ}

theorem succ_mod_of_eq (h : i % line_size + 1 = line_size) : (i + 1) % line_size = 0 := by
  rw [← Nat.mod_add_mod, h, Nat.mod_self]

theorem succ_mod_of_lt (h : i % line_size + 1 < line_size) :
    (i + 1) % line_size = i % line_size + 1 := by
  rw [← Nat.mod_add_mod, Nat.mod_eq_of_lt h]

theorem missing_eq_zero (h : i % line_size = 0) : missing line_size i = 0 := by
  rw [missing, h, Nat.sub_zero, Nat.mod_self]

theorem missing_eq_sub (hpos : 0 < line_size) (h : i % line_size ≠ 0) :
    missing line_size i = line_size - i % line_size := by
  have hlt := Nat.mod_lt i hpos
  exact Nat.mod_eq_of_lt (by omega)

theorem missing_eq_succ (hpos : 0 < line_size) (h : i % line_size ≠ 0) :
    missing line_size i = missing line_size (i + 1) + 1 := by
  rw [missing_eq_sub hpos h]
  rcases Nat.lt_or_eq_of_le (Nat.succ_le_of_lt (Nat.mod_lt i hpos)) with hlt | heq
  · have hsucc := succ_mod_of_lt hlt
    rw [missing_eq_sub hpos (by omega), hsucc]
    omega
  · rw [missing_eq_zero (succ_mod_of_eq heq)]
    omega

end Missing

variable {line_size : ℕ} (hpos : 0 < line_size)

/-- `while (i++ % line_size) printf("__ ")`. -/
def hexPadding (i : ℕ) : List Char :=
  if h : i % line_size = 0 then []
  else
    have : missing line_size (i + 1) < missing line_size i := by
      rw [missing_eq_succ hpos h]
      exact Nat.lt_succ_self _
    emptyCell '_' ++ hexPadding (i + 1)
termination_by missing line_size i

variable (prefix_ : List Char)

/-- The loop of `hex_dump`; `line` holds the bytes from the pointer `line` up to `address`. -/
def hexDumpLoop (i : ℕ) (line : List UInt8) : List UInt8 → List Char
  | [] => []
  | c :: address =>
    byteCell c ++
      if (i + 1) % line_size = 0 ∨ (address = [] ∧ (i + 1) % line_size ≠ 0) then
        (if address = [] then hexPadding hpos (i + 1) else []) ++ " | ".toList ++
          (line ++ [c]).map dumpChar ++ ['\n'] ++
          (if address = [] then [] else prefix_ ++ " | ".toList) ++
          hexDumpLoop (i + 1) [] address
      else
        hexDumpLoop (i + 1) (line ++ [c]) address

/-- `hex_dump`. -/
def hexDump (src : List UInt8) : List Char :=
  prefix_ ++ " | ".toList ++ hexDumpLoop hpos prefix_ 0 [] src

/-- The looks of the dump. -/
def hexDumpFormat : DumpFormat where
  width := line_size
  width_pos := hpos
  head _ := prefix_ ++ " | ".toList
  filler := '_'
  digitValue_filler := rfl
  middle := " | ".toList
  shown := dumpChar

theorem hexPadding_eq (i : ℕ) :
    hexPadding hpos i = (List.replicate (missing line_size i) (emptyCell '_')).flatten := by
  induction i using hexPadding.induct hpos with
  | case1 i h =>
    rw [hexPadding, dif_pos h, missing_eq_zero h, List.replicate_zero, List.flatten_nil]
  | case2 i h _ ih =>
    rw [hexPadding, dif_neg h, ih]
    show emptyCell '_' ++ _ = _
    rw [missing_eq_succ hpos h, List.replicate_succ, List.flatten_cons]

/-- The loop up to the end of the line. -/
theorem hexDumpLoop_line {i : ℕ} {line address : List UInt8} (hline : line.length = i % line_size)
    (hne : address ≠ []) :
    hexDumpLoop hpos prefix_ i line address =
      (address.take (line_size - line.length)).flatMap byteCell ++
        (List.replicate (line_size - line.length - address.length) (emptyCell '_')).flatten ++
        " | ".toList ++ (line ++ address.take (line_size - line.length)).map dumpChar ++ ['\n'] ++
        if address.drop (line_size - line.length) = [] then []
        else prefix_ ++ " | ".toList ++
          hexDumpLoop hpos prefix_ (i + (line_size - line.length)) []
            (address.drop (line_size - line.length)) := by
  -- induction on the bytes in front of the end of the line
  induction address generalizing i line with
  | nil => exact absurd rfl hne
  | cons c address ih =>
    rcases Nat.lt_or_eq_of_le (Nat.succ_le_of_lt (Nat.mod_lt i hpos)) with hlt | heq
    · -- the line goes on
      have hsucc := succ_mod_of_lt hlt
      obtain ⟨k, hk⟩ : ∃ k, line_size - line.length = k + 2 :=
        ⟨line_size - line.length - 2, by omega⟩
      by_cases hnil : address = []
      · subst hnil
        have hmissing : missing line_size (i + 1) = k + 1 := by
          rw [missing_eq_sub hpos (by omega)]
          omega
        rw [hexDumpLoop, if_pos (Or.inr ⟨rfl, by omega⟩), if_pos rfl, if_pos rfl, hexPadding_eq,
          hmissing, hk]
        simp [hexDumpLoop]
      · have hnot :
            ¬((i + 1) % line_size = 0 ∨ (address = [] ∧ (i + 1) % line_size ≠ 0)) := by
          rintro (h | h)
          · omega
          · exact hnil h.1
        have hlength : (line ++ [c]).length = (i + 1) % line_size := by
          rw [List.length_append, List.length_singleton]
          omega
        have hk' : line_size - (line ++ [c]).length = k + 1 := by omega
        rw [hexDumpLoop, if_neg hnot, ih hlength hnil, hk, hk']
        simp [Nat.add_assoc, Nat.add_comm 1]
    · -- the line is full
      have hk : line_size - line.length = 1 := by omega
      have hzero := succ_mod_of_eq heq
      rw [hexDumpLoop, if_pos (Or.inl hzero), hk]
      by_cases hnil : address = []
      · subst hnil
        rw [if_pos rfl, if_pos rfl, hexPadding_eq, missing_eq_zero hzero]
        simp [hexDumpLoop]
      · simp [hnil]

/-- The dump of a block that is not empty is a dump in lines. -/
theorem hexDump_eq_dumpLines {src : List UInt8} (hne : src ≠ []) :
    hexDump hpos prefix_ src = dumpLines (hexDumpFormat hpos prefix_) 0 src := by
  have hlines : ∀ (n : ℕ) (off i : ℕ) (src : List UInt8), src.length ≤ n → src ≠ [] →
      i % line_size = 0 →
      prefix_ ++ " | ".toList ++ hexDumpLoop hpos prefix_ i [] src =
        dumpLines (hexDumpFormat hpos prefix_) off src := by
    intro n
    induction n with
    | zero =>
      intro off i src hlen hne _
      exact absurd (List.length_eq_zero_iff.mp (Nat.le_zero.mp hlen)) hne
    | succ n ih =>
      intro off i src hlen hne hi
      have hline : ([] : List UInt8).length = i % line_size := hi.symm
      have hsrc := List.length_pos_iff.mpr hne
      rw [hexDumpLoop_line hpos prefix_ hline hne, dumpLines_of_ne_nil off hne]
      show _ = prefix_ ++ " | ".toList ++ ((src.take line_size).flatMap byteCell ++
        (List.replicate (line_size - (src.take line_size).length) (emptyCell '_')).flatten) ++
        " | ".toList ++ (src.take line_size).map dumpChar ++ ['\n'] ++
        dumpLines (hexDumpFormat hpos prefix_) (off + line_size) (src.drop line_size)
      -- a line that is not full is filled up behind its bytes
      have hmissing : line_size - (src.take line_size).length = line_size - src.length := by
        rw [List.length_take]
        omega
      rw [hmissing]
      -- the last line, or one with a new prefix behind it
      by_cases hrest : src.drop line_size = []
      · simp [hrest]
      · have hshort : (src.drop line_size).length ≤ n := by
          rw [List.length_drop]
          omega
        have hnext : (i + line_size) % line_size = 0 := by rw [Nat.add_mod_right, hi]
        rw [← ih (off + line_size) _ _ hshort hrest hnext]
        simp [hrest]
  exact hlines src.length 0 0 src (Nat.le_refl _) hne (Nat.zero_mod line_size)

/-- **Dumps**: the bytes a dump shows can be read from it, whatever the width of its lines and
the text in front of them. -/
theorem readDump_hexDump (src : List UInt8) :
    readDump (hexDumpFormat hpos prefix_) 0 src.length (hexDump hpos prefix_ src) =
      src := by
  by_cases hne : src = []
  · subst hne
    rfl
  · rw [hexDump_eq_dumpLines hpos prefix_ hne]
    exact readDump_dumpLines 0 src (Nat.le_refl _)

theorem readDump_hexDump_three :
    readDump (hexDumpFormat (Nat.succ_pos 31) "RX".toList) 0 3
        (hexDump (Nat.succ_pos 31) "RX".toList [0x00, 0x41, 0xFF]) = [0x00, 0x41, 0xFF] :=
  readDump_hexDump (Nat.succ_pos 31) "RX".toList [0x00, 0x41, 0xFF]

end HexDump

/-! ## §2 `unescape` -/

/-- The byte a character of an argument stands for. -/
def charByte (c : Char) : UInt8 := UInt8.ofNat c.toNat

/-- `sscanf(s, "%2x", &ch)`: white space is skipped, and of the two characters behind it an
optional sign and the digits are converted; `0x` is the start of a numeral that lacks its
digits, which the glibc before 2.42 converts to 0 all the same. Without a conversion the
variable keeps its value. -/
def scanHex2 (s : List Char) : Option UInt32 :=
  match s.dropWhile isSpace with
  | [] => none
  | [a] => (digitValue a).map UInt32.ofNat
  | a :: b :: _ =>
    match digitValue a, digitValue b with
    | some hi, some lo => some (UInt32.ofNat (16 * hi + lo))
    | some hi, none => if a = '0' ∧ (b = 'x' ∨ b = 'X') then none else some (UInt32.ofNat hi)
    | none, some lo =>
      if a = '+' then some (UInt32.ofNat lo)
      else if a = '-' then some (-UInt32.ofNat lo)
      else none
    | none, none => none

/-- The loop of `unescape`. Up to the first conversion `ch` has no value; a step by four
characters can lead past the end of the text. -/
def unescapeLoop {cap : ℕ} (ch : Option UInt32) (dst : Buffer UInt8 cap) (ret : ℕ) :
    List Char → Except Fault (Buffer UInt8 cap × ℕ)
  | [] => .ok (dst, ret)
  | c :: src =>
    if c = '\\' ∧ src.head? = some 'x' then
      match (scanHex2 src.tail).or ch with
      | none => .error (.indeterminate 0)
      | some v => do
        let dst ← dst.store ret v.toUInt8
        match src with
        | _ :: _ :: _ :: src => unescapeLoop (some v) dst (ret + 1) src
        | src => .error (.outOfBounds 4 (src.length + 2))
    else do
      let dst ← dst.store ret (charByte c)
      unescapeLoop ch dst (ret + 1) src

/-- `unescape`. -/
def unescape {cap : ℕ} (dst : Buffer UInt8 cap) (src : List Char) :
    Except Fault (Buffer UInt8 cap × ℕ) :=
  unescapeLoop none dst 0 src

/-- The bytes a text stands for, behind a conversion that left `ch`. -/
inductive Unescapes : Option UInt32 → List Char → List UInt8 → Prop
  | nil (ch : Option UInt32) : Unescapes ch [] []
  | literal {ch : Option UInt32} {c : Char} {src : List Char} {bs : List UInt8} :
      ¬(c = '\\' ∧ src.head? = some 'x') → Unescapes ch src bs →
      Unescapes ch (c :: src) (charByte c :: bs)
  | escape {ch : Option UInt32} {a b : Char} {src : List Char} {v : UInt32} {bs : List UInt8} :
      (scanHex2 (a :: b :: src)).or ch = some v → Unescapes (some v) src bs →
      Unescapes ch ('\\' :: 'x' :: a :: b :: src) (v.toUInt8 :: bs)

section Unescape

variable {cap : ℕ} {ch : Option UInt32} {src : List Char} {bs : List UInt8}

theorem unescapeLoop_literal {c : Char} (h : ¬(c = '\\' ∧ src.head? = some 'x'))
    (dst : Buffer UInt8 cap) (ret : ℕ) :
    unescapeLoop ch dst ret (c :: src) =
      (dst.store ret (charByte c) >>= fun dst => unescapeLoop ch dst (ret + 1) src) := by
  rw [unescapeLoop, if_neg h]

theorem unescapeLoop_escape {a b : Char} {v : UInt32}
    (h : (scanHex2 (a :: b :: src)).or ch = some v) (dst : Buffer UInt8 cap) (ret : ℕ) :
    unescapeLoop ch dst ret ('\\' :: 'x' :: a :: b :: src) =
      (dst.store ret v.toUInt8 >>= fun dst => unescapeLoop (some v) dst (ret + 1) src) := by
  rw [unescapeLoop, if_pos ⟨rfl, rfl⟩, List.tail_cons, h]

/-- A text that stands for bytes has them stored one after the other. -/
theorem unescapeLoop_eq_write (h : Unescapes ch src bs) (dst : Buffer UInt8 cap) (ret : ℕ) :
    unescapeLoop ch dst ret src = (dst.write ret bs).map fun dst => (dst, ret + bs.length) := by
  induction h generalizing dst ret with
  | nil ch => rfl
  | literal hc _ ih =>
    rw [unescapeLoop_literal hc, Buffer.write]
    -- both sides store the byte and go on, or leave the buffer
    cases dst.store ret _ with
    | error e => rfl
    | ok next =>
      show unescapeLoop _ next (ret + 1) _ = Except.map _ (next.write (ret + 1) _)
      rw [ih, List.length_cons, Nat.add_assoc, Nat.add_comm 1]
  | escape hv _ ih =>
    rw [unescapeLoop_escape hv, Buffer.write]
    cases dst.store ret _ with
    | error e => rfl
    | ok next =>
      show unescapeLoop _ next (ret + 1) _ = Except.map _ (next.write (ret + 1) _)
      rw [ih, List.length_cons, Nat.add_assoc, Nat.add_comm 1]

/-- A text that is read to its end stands for bytes. -/
theorem unescapes_of_unescapeLoop {dst : Buffer UInt8 cap} {ret : ℕ} {r : Buffer UInt8 cap × ℕ}
    (h : unescapeLoop ch dst ret src = .ok r) : ∃ bs, Unescapes ch src bs := by
  -- induction on the passes of the loop
  induction ch, dst, ret, src using unescapeLoop.induct with
  | case1 ch dst ret => exact ⟨[], .nil ch⟩
  | case2 ch dst ret c src hc hnone =>
    -- nothing was converted yet
    rw [unescapeLoop, if_pos hc, hnone] at h
    cases h
  | case3 ch dst ret c src hc v hv ih =>
    obtain ⟨rfl, hx⟩ := hc
    rw [unescapeLoop, if_pos ⟨rfl, hx⟩, hv] at h
    obtain ⟨next, -, h⟩ := bind_eq_ok_iff.mp h
    rcases src with _ | ⟨x, _ | ⟨a, _ | ⟨b, src⟩⟩⟩
    · cases h
    · cases h
    · cases h
    · obtain rfl := Option.some.inj hx
      obtain ⟨bs, hbs⟩ := ih next h
      exact ⟨_, .escape hv hbs⟩
  | case4 ch dst ret c src hc ih =>
    rw [unescapeLoop, if_neg hc] at h
    obtain ⟨next, -, h⟩ := bind_eq_ok_iff.mp h
    obtain ⟨bs, hbs⟩ := ih next h
    exact ⟨_, .literal hc hbs⟩

theorem Unescapes.length_le (h : Unescapes ch src bs) : bs.length ≤ src.length := by
  induction h with
  | nil ch => exact Nat.le_refl _
  | literal _ _ ih => exact Nat.succ_le_succ ih
  | escape _ _ ih => exact Nat.succ_le_succ (ih.trans (Nat.le_add_right _ 3))

/-- A text that is not empty stands for some byte. -/
theorem Unescapes.length_pos (h : Unescapes ch src bs) (hne : src ≠ []) : 0 < bs.length := by
  cases h with
  | nil ch => exact absurd rfl hne
  | literal _ _ => exact Nat.succ_pos _
  | escape _ _ => exact Nat.succ_pos _

/-- The bytes are fewer than the characters when there is an escape. -/
theorem Unescapes.length_lt_iff (h : Unescapes ch src bs) :
    bs.length < src.length ↔ "\\x".toList <:+: src := by
  induction h with
  | nil ch =>
    refine iff_of_false (Nat.lt_irrefl 0) fun h => ?_
    have hle := h.length_le
    exact absurd hle (by decide)
  | @literal ch c src bs hc _ ih =>
    rw [List.length_cons, List.length_cons, Nat.succ_lt_succ_iff, ih, List.infix_cons_iff]
    -- a literal is no start of an escape, so there is one further on or none
    refine (or_iff_right fun hprefix => hc ?_).symm
    obtain ⟨rest, hrest⟩ := hprefix
    cases hrest
    exact ⟨rfl, rfl⟩
  | @escape ch a b src v bs _ hbs _ =>
    refine iff_of_true ?_ ⟨[], a :: b :: src, rfl⟩
    exact Nat.succ_lt_succ (Nat.lt_add_right 2 (Nat.lt_succ_of_le hbs.length_le))

end Unescape

/-! ## §3 The argument of `-p` -/

/-- The argument unescaped into `malloc(strlen(input_tx+1))`: the buffer and the bytes stored.
Behind an empty argument there is nothing to measure. -/
def unescapeInput (input_tx : List Char) :
    Except Fault (Buffer UInt8 (input_tx.length - 1) × ℕ) :=
  match input_tx with
  | [] => .error (.outOfBounds 1 1)
  | c :: text => unescape (Buffer.uninit _) (c :: text)

section Input

variable {input_tx : List Char} {bs : List UInt8}

/-- The bytes of an argument with an escape stand at the front of the buffer. -/
theorem exists_unescapeInput (h : Unescapes none input_tx bs)
    (hescape : "\\x".toList <:+: input_tx) :
    ∃ tx, unescapeInput input_tx = .ok (tx, bs.length) ∧ tx.Filled bs := by
  have hlt := h.length_lt_iff.mpr hescape
  cases input_tx with
  | nil => exact absurd hlt (Nat.not_lt_zero _)
  | cons c text =>
    obtain ⟨tx, htx, hfilled⟩ :=
      (Buffer.uninit ((c :: text).length - 1)).exists_write_zero (Nat.le_of_lt_succ hlt)
    refine ⟨tx, ?_, hfilled⟩
    show unescapeLoop none (Buffer.uninit _) 0 (c :: text) = _
    rw [unescapeLoop_eq_write h, htx]
    show Except.ok (tx, 0 + bs.length) = _
    rw [Nat.zero_add]

/-- **Bounds**: `main` unescapes an argument inside its buffer exactly when the argument has an
escape, every escape has its two characters, and the first one is a number. -/
theorem unescapeInput_ok_iff :
    (∃ r, unescapeInput input_tx = .ok r) ↔
      (∃ bs, Unescapes none input_tx bs) ∧ "\\x".toList <:+: input_tx := by
  constructor
  · intro ⟨r, hr⟩
    cases input_tx with
    | nil => cases hr
    | cons c text =>
      obtain ⟨bs, hbs⟩ := unescapes_of_unescapeLoop hr
      refine ⟨⟨bs, hbs⟩, hbs.length_lt_iff.mp ?_⟩
      -- what was stored is in the buffer, which is shorter than the text
      have hwrite : unescapeLoop none (Buffer.uninit _) 0 (c :: text) = Except.ok r := hr
      rw [unescapeLoop_eq_write hbs, map_eq_ok_iff] at hwrite
      obtain ⟨tx, htx, -⟩ := hwrite
      have hle := Buffer.le_of_write (Nat.zero_le _) htx
      rw [Nat.zero_add] at hle
      exact Nat.lt_succ_of_le hle
  · intro ⟨⟨bs, hbs⟩, hescape⟩
    obtain ⟨tx, htx, -⟩ := exists_unescapeInput hbs hescape
    exact ⟨_, htx⟩

/-- An argument for some bytes: those of `verbatim` stand for themselves. -/
def escape (verbatim : UInt8 → Bool) (bs : List UInt8) : List Char :=
  bs.flatMap fun b =>
    if verbatim b then [Char.ofNat b.toNat] else '\\' :: 'x' :: fmtByte b

theorem toNat_charOfNat (b : UInt8) : (Char.ofNat b.toNat).toNat = b.toNat := by
  have hlt := b.toNat_lt
  have hvalid : b.toNat.isValidChar := Or.inl (by omega)
  rw [Char.ofNat, dif_pos hvalid]
  rfl

theorem charByte_ofNat (b : UInt8) : charByte (Char.ofNat b.toNat) = b := by
  rw [charByte, toNat_charOfNat, UInt8.ofNat_toNat]

theorem scanHex2_fmtByte (b : UInt8) (s : List Char) :
    scanHex2 (fmtByte b ++ s) = some (UInt32.ofNat b.toNat) := by
  have hdigit : ∀ n : Fin 16, isSpace (Nat.digitChar n) = false := by decide
  have hhi : b.toNat / 16 < 16 := by
    have hlt := b.toNat_lt
    omega
  have hlo : b.toNat % 16 < 16 := Nat.mod_lt _ (by decide)
  -- a digit is no space, so nothing is skipped
  have hspace : isSpace (Nat.digitChar (b.toNat / 16)) = false := hdigit ⟨_, hhi⟩
  have hdrop : (fmtByte b ++ s).dropWhile isSpace = fmtByte b ++ s :=
    List.dropWhile_cons_of_neg (by rw [hspace]; exact Bool.false_ne_true)
  have hvalue : 16 * (b.toNat / 16) + b.toNat % 16 = b.toNat := Nat.div_add_mod _ _
  rw [scanHex2, hdrop]
  simp only [fmtByte, List.cons_append, digitValue_digitChar hhi, digitValue_digitChar hlo, hvalue]

theorem unescapes_escape {verbatim : UInt8 → Bool} (hverbatim : verbatim 0x5C = false)
    (ch : Option UInt32) (bs : List UInt8) : Unescapes ch (escape verbatim bs) bs := by
  induction bs generalizing ch with
  | nil => exact .nil ch
  | cons b bs ih =>
    rw [escape, List.flatMap_cons]
    by_cases hb : verbatim b = true
    · -- a backslash never stands for itself
      have hne : ¬(Char.ofNat b.toNat = '\\' ∧ (escape verbatim bs).head? = some 'x') := by
        intro ⟨hc, _⟩
        have hbyte := charByte_ofNat b
        rw [hc] at hbyte
        rw [← hbyte] at hb
        exact Bool.false_ne_true (hverbatim.symm.trans hb)
      have hliteral := Unescapes.literal hne (ih ch)
      rw [charByte_ofNat] at hliteral
      rw [if_pos hb]
      exact hliteral
    · -- the two digits of the byte are read back
      have hscan : (scanHex2 (fmtByte b ++ escape verbatim bs)).or ch =
          some (UInt32.ofNat b.toNat) := by rw [scanHex2_fmtByte, Option.some_or]
      have hescape := Unescapes.escape hscan (ih _)
      have hbyte : (UInt32.ofNat b.toNat).toUInt8 = b := by simp
      rw [hbyte] at hescape
      rw [if_neg hb]
      exact hescape

/-- A text in which no zero byte stands for itself is one an argument can be. -/
theorem nul_not_mem_escape {verbatim : UInt8 → Bool} (hzero : verbatim 0 = false)
    (bs : List UInt8) : '\x00' ∉ escape verbatim bs := by
  rw [escape, List.mem_flatMap]
  rintro ⟨b, -, hmem⟩
  by_cases hb : verbatim b = true
  · rw [if_pos hb, List.mem_singleton] at hmem
    -- the character is that of the byte 0
    have hbyte := charByte_ofNat b
    rw [← hmem] at hbyte
    rw [← hbyte] at hb
    exact Bool.false_ne_true (hzero.symm.trans hb)
  · have hdigit : ∀ n : Fin 16, '\x00' ≠ Nat.digitChar n := by decide
    have hhi : b.toNat / 16 < 16 := by
      have hlt := b.toNat_lt
      omega
    rw [if_neg hb, fmtByte] at hmem
    simp only [List.mem_cons, List.not_mem_nil, or_false] at hmem
    rcases hmem with hmem | hmem | hmem | hmem
    · exact absurd hmem (by decide)
    · exact absurd hmem (by decide)
    · exact hdigit ⟨_, hhi⟩ hmem
    · exact hdigit ⟨_, Nat.mod_lt _ (by decide)⟩ hmem

/-- **Round trip**: whichever bytes stand for themselves, other than zeros and backslashes,
escaped bytes are a possible argument and are unescaped to themselves. -/
theorem unescape_escape {verbatim : UInt8 → Bool} (hverbatim : verbatim 0x5C = false)
    (hzero : verbatim 0 = false) (hbs : ∃ b ∈ bs, verbatim b = false) :
    '\x00' ∉ escape verbatim bs ∧
      ∃ tx, unescapeInput (escape verbatim bs) = .ok (tx, bs.length) ∧ tx.Filled bs := by
  refine ⟨nul_not_mem_escape hzero bs, ?_⟩
  apply exists_unescapeInput (unescapes_escape hverbatim none bs)
  obtain ⟨b, hmem, hb⟩ := hbs
  obtain ⟨front, rest, rfl⟩ := List.append_of_mem hmem
  refine ⟨escape verbatim front, fmtByte b ++ escape verbatim rest, ?_⟩
  simp [escape, hb]

theorem unescape_escape_zero :
    '\x00' ∉ escape (fun b => b == 0x61) [0x61, 0x00, 0x61] ∧
      ∃ tx, unescapeInput (escape (fun b => b == 0x61) [0x61, 0x00, 0x61]) = .ok (tx, 3) ∧
        tx.Filled [0x61, 0x00, 0x61] :=
  unescape_escape rfl rfl ⟨0x00, by decide, rfl⟩

end Input

end GumstixExtras.Spidev
