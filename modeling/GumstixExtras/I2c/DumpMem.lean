import GumstixExtras.Lib.Buffer
import GumstixExtras.Lib.HexDump
import Mathlib.Algebra.Group.Nat.Defs

/-!
# Memory Dumps (`DumpMem.c`)

`DumpMem` logs a block of memory in lines of sixteen bytes. Its counters are `unsigned`, so the
outer loop comes to an end only if the last line starts in front of the end of that type.

`readDump_dumpMem` says for which blocks the call returns, and that the bytes of the block can
then be read from the text.
-/

namespace GumstixExtras.I2c

open GumstixExtras.Lib

/-! ## §1 The code -/

/-- What a call can come to instead of its end. -/
inductive Stop
  | fault (f : Fault)
  | endless
  deriving DecidableEq, Repr

/-- `LINE_WIDTH`. -/
def lineWidth : UInt32 := 16

/-- The character a byte is shown as. -/
def dumpMemChar (ch : UInt8) : Char :=
  if ch < 0x20 ∨ 0x7e < ch then '.' else Char.ofNat ch.toNat

section Code

variable {n : ℕ} (prefix_ : List Char) (address : UInt32) (data : Buffer UInt8 n)
  (numBytes byteOffset : UInt32)

/-- A pass of the first inner loop. -/
def dumpMemCell (i : UInt32) : Except Fault (List Char) :=
  if byteOffset + i < numBytes then do
    let b ← data.load (byteOffset + i).toNat
    pure (byteCell b)
  else
    pure (emptyCell ' ')

/-- The first inner loop, with `k` passes to go. -/
def dumpMemHex : ℕ → UInt32 → Except Fault (List Char)
  | 0, _ => .ok []
  | k + 1, i => do
    let cell ← dumpMemCell data numBytes byteOffset i
    let rest ← dumpMemHex k (i + 1)
    pure (cell ++ rest)

/-- The second inner loop, with at most `k` passes to go. -/
def dumpMemChars : ℕ → UInt32 → Except Fault (List Char)
  | 0, _ => .ok []
  | k + 1, i =>
    if byteOffset + i < numBytes then do
      let ch ← data.load (byteOffset + i).toNat
      let rest ← dumpMemChars k (i + 1)
      pure (dumpMemChar ch :: rest)
    else
      .ok []

/-- What stands in front of a line. -/
def dumpMemHead : List Char :=
  prefix_ ++ ": ".toList ++ fmtHexPad 4 (address + byteOffset).toNat ++ ": ".toList

/-- One pass of the outer loop. -/
def dumpMemLine : Except Fault (List Char) := do
  let hex ← dumpMemHex data numBytes byteOffset lineWidth.toNat 0
  let chars ← dumpMemChars data numBytes byteOffset lineWidth.toNat 0
  pure (dumpMemHead prefix_ address byteOffset ++ hex ++ chars ++ ['\n'])

/-- At most `passes` passes of the outer loop. -/
def dumpMemLoop : ℕ → UInt32 → Except Stop (List Char)
  | 0, byteOffset => if byteOffset < numBytes then .error .endless else .ok []
  | passes + 1, byteOffset =>
    if byteOffset < numBytes then do
      let line ← (dumpMemLine prefix_ address data numBytes byteOffset).mapError .fault
      let rest ← dumpMemLoop passes (byteOffset + lineWidth)
      pure (line ++ rest)
    else
      .ok []

/-- `DumpMem`. A loop with more passes than lines does not end. -/
def dumpMem : Except Stop (List Char) :=
  if numBytes = 0 then
    .ok (prefix_ ++ ": No data\n".toList)
  else
    dumpMemLoop prefix_ address data numBytes (numBytes.toNat / lineWidth.toNat + 1) 0

end Code

/-- The looks of the dump. -/
def dumpMemFormat (prefix_ : List Char) (address : UInt32) : DumpFormat where
  width := lineWidth.toNat
  width_pos := by decide
  head off := dumpMemHead prefix_ address (UInt32.ofNat off)
  filler := ' '
  digitValue_filler := rfl
  middle := []
  shown := dumpMemChar

/-! ## §2 A line -/

section Line

variable {n : ℕ} {prefix_ : List Char} {address : UInt32} {data : Buffer UInt8 n}
  {bs : List UInt8} {numBytes byteOffset i : UInt32}

/-- The test of both inner loops. -/
theorem lt_numBytes_iff (hnum : numBytes.toNat = bs.length) {p : ℕ} (hp : p < 2 ^ 32)
    (hi : byteOffset + i = UInt32.ofNat p) : byteOffset + i < numBytes ↔ p < bs.length := by
  rw [UInt32.lt_iff_toNat_lt, hi, UInt32.toNat_ofNat_of_lt' hp, hnum]

theorem load_numBytes (hdata : data.Filled bs) {p : ℕ} (hp : p < 2 ^ 32)
    (hi : byteOffset + i = UInt32.ofNat p) (hlt : p < bs.length) :
    data.load (byteOffset + i).toNat = .ok bs[p] := by
  rw [hi, UInt32.toNat_ofNat_of_lt' hp]
  exact hdata.load hlt

theorem ofNat_succ {p : ℕ} (hi : byteOffset + i = UInt32.ofNat p) :
    byteOffset + (i + 1) = UInt32.ofNat (p + 1) := by
  rw [← UInt32.add_assoc, hi, UInt32.ofNat_add]
  rfl

/-- The first inner loop from the byte at `p` on. -/
theorem dumpMemHex_eq (hdata : data.Filled bs) (hnum : numBytes.toNat = bs.length) {k p : ℕ}
    (hi : byteOffset + i = UInt32.ofNat p) (hk : p + k ≤ 2 ^ 32) :
    dumpMemHex data numBytes byteOffset k i =
      .ok (((bs.drop p).take k).flatMap byteCell ++
        (List.replicate (k - (bs.drop p).length) (emptyCell ' ')).flatten) := by
  induction k generalizing i p with
  | zero => rw [dumpMemHex, Nat.zero_sub, List.take_zero]; rfl
  | succ k ih =>
    have hp : p < 2 ^ 32 := by omega
    have hrest := ih (ofNat_succ hi) (by omega)
    by_cases hlt : p < bs.length
    · -- a byte of the block is shown
      have hlen : k + 1 - (bs.drop p).length = k - (bs.drop (p + 1)).length := by
        rw [List.length_drop, List.length_drop]
        omega
      rw [dumpMemHex, dumpMemCell, if_pos ((lt_numBytes_iff hnum hp hi).mpr hlt),
        load_numBytes hdata hp hi hlt, hrest, hlen, List.drop_eq_getElem_cons hlt,
        List.take_succ_cons, List.flatMap_cons, List.append_assoc]
      rfl
    · -- behind the block the cells stay empty
      have hnil : ∀ q, p ≤ q → bs.drop q = [] := fun q hq =>
        List.drop_of_length_le (Nat.le_trans (Nat.le_of_not_lt hlt) hq)
      rw [hnil _ (Nat.le_succ p)] at hrest
      rw [dumpMemHex, dumpMemCell, if_neg (mt (lt_numBytes_iff hnum hp hi).mp hlt), hrest,
        hnil p (Nat.le_refl p)]
      simp [List.replicate_succ]

/-- The second inner loop from the byte at `p` on. -/
theorem dumpMemChars_eq (hdata : data.Filled bs) (hnum : numBytes.toNat = bs.length) {k p : ℕ}
    (hi : byteOffset + i = UInt32.ofNat p) (hk : p + k ≤ 2 ^ 32) :
    dumpMemChars data numBytes byteOffset k i =
      .ok (((bs.drop p).take k).map dumpMemChar) := by
  induction k generalizing i p with
  | zero => rw [dumpMemChars, List.take_zero]; rfl
  | succ k ih =>
    have hp : p < 2 ^ 32 := by omega
    by_cases hlt : p < bs.length
    · rw [dumpMemChars, if_pos ((lt_numBytes_iff hnum hp hi).mpr hlt),
        load_numBytes hdata hp hi hlt, ih (ofNat_succ hi) (by omega),
        List.drop_eq_getElem_cons hlt, List.take_succ_cons, List.map_cons]
      rfl
    · rw [dumpMemChars, if_neg (mt (lt_numBytes_iff hnum hp hi).mp hlt),
        List.drop_of_length_le (Nat.le_of_not_lt hlt), List.take_nil]
      rfl

theorem dumpMemLine_eq (prefix_ : List Char) (address : UInt32) (hdata : data.Filled bs)
    (hnum : numBytes.toNat = bs.length) {off : ℕ} (hoff : off + lineWidth.toNat ≤ 2 ^ 32) :
    dumpMemLine prefix_ address data numBytes (UInt32.ofNat off) =
      .ok ((dumpMemFormat prefix_ address).line off
        ((bs.drop off).take (dumpMemFormat prefix_ address).width)) := by
  have hi : UInt32.ofNat off + 0 = UInt32.ofNat off := UInt32.add_zero _
  have hmissing : lineWidth.toNat - (bs.drop off).length =
      lineWidth.toNat - ((bs.drop off).take lineWidth.toNat).length := by
    rw [List.length_take]
    omega
  rw [dumpMemLine, dumpMemHex_eq hdata hnum hi hoff, dumpMemChars_eq hdata hnum hi hoff, hmissing]
  show Except.ok _ = Except.ok _
  rw [DumpFormat.line, DumpFormat.cells]
  simp only [dumpMemFormat, List.append_nil]

theorem mapError_eq_ok_iff {α : Type} {x : Except Fault α} {a : α} :
    x.mapError Stop.fault = .ok a ↔ x = .ok a := by
  cases x <;> simp [Except.mapError]

/-- Every byte the first inner loop is about to show is loaded. -/
theorem load_of_dumpMemHex {k p q : ℕ} {hex : List Char}
    (h : dumpMemHex data numBytes byteOffset k i = .ok hex) (hi : byteOffset + i = UInt32.ofNat p)
    (hk : p + k ≤ 2 ^ 32) (hpq : p ≤ q) (hq : q < p + k) (hlt : q < numBytes.toNat) :
    ∃ b, data.load q = .ok b := by
  induction k generalizing i p hex with
  | zero => exact absurd hq (Nat.not_lt.mpr hpq)
  | succ k ih =>
    have hp : p < 2 ^ 32 := by omega
    rw [dumpMemHex] at h
    obtain ⟨cell, hcell, h⟩ := bind_eq_ok_iff.mp h
    obtain ⟨rest, hrest, -⟩ := bind_eq_ok_iff.mp h
    rcases Nat.eq_or_lt_of_le hpq with rfl | hnext
    · -- the byte is the next one, and the cell it goes to was printed
      have htest : byteOffset + i < numBytes := by
        rw [UInt32.lt_iff_toNat_lt, hi, UInt32.toNat_ofNat_of_lt' hp]
        exact hlt
      rw [dumpMemCell, if_pos htest, hi, UInt32.toNat_ofNat_of_lt' hp] at hcell
      obtain ⟨b, hb, -⟩ := bind_eq_ok_iff.mp hcell
      exact ⟨b, hb⟩
    · exact ih hrest (ofNat_succ hi) (by omega) hnext (by omega)

theorem load_of_dumpMemLine {off q : ℕ} {line : List Char}
    (h : dumpMemLine prefix_ address data numBytes (UInt32.ofNat off) = .ok line)
    (hoff : off + 16 ≤ 2 ^ 32) (hle : off ≤ q) (hq : q < off + 16) (hlt : q < numBytes.toNat) :
    ∃ b, data.load q = .ok b := by
  rw [dumpMemLine] at h
  obtain ⟨hex, hhex, -⟩ := bind_eq_ok_iff.mp h
  exact load_of_dumpMemHex hhex (UInt32.add_zero _) hoff hle hq hlt

end Line

/-! ## §3 The block -/

/-- The largest block `DumpMem` returns from. -/
def dumpMemMax : ℕ := 0xfffffff0

section Block

variable {n : ℕ} {prefix_ : List Char} {address : UInt32} {data : Buffer UInt8 n}
  {bs : List UInt8} {numBytes : UInt32}

/-- The test of the outer loop. -/
theorem ofNat_lt_numBytes_iff (hnum : numBytes.toNat = bs.length) {off : ℕ}
    (hoff : off < 2 ^ 32) : UInt32.ofNat off < numBytes ↔ off < bs.length := by
  rw [UInt32.lt_iff_toNat_lt, UInt32.toNat_ofNat_of_lt' hoff, hnum]

/-- The offset of the next line. -/
theorem ofNat_nextLine (off : ℕ) :
    UInt32.ofNat off + lineWidth = UInt32.ofNat (off + lineWidth.toNat) := by
  rw [UInt32.ofNat_add, UInt32.ofNat_toNat]

/-- Up to the largest block the offsets stay inside their type, and the loop writes the lines. -/
theorem dumpMemLoop_eq (hdata : data.Filled bs) (hnum : numBytes.toNat = bs.length)
    (hmax : bs.length ≤ dumpMemMax) {passes off : ℕ} (haligned : off % 16 = 0)
    (hoff : off < 2 ^ 32) (hpasses : bs.length ≤ off + passes * 16) :
    dumpMemLoop prefix_ address data numBytes passes (UInt32.ofNat off) =
      .ok (dumpLines (dumpMemFormat prefix_ address) off (bs.drop off)) := by
  have hwidth : lineWidth.toNat = 16 := rfl
  have hmaxeq : dumpMemMax = 4294967280 := rfl
  -- induction on the passes, with the offset of the line general
  induction passes generalizing off with
  | zero =>
    have hge : ¬off < bs.length := by omega
    rw [dumpMemLoop, if_neg (mt (ofNat_lt_numBytes_iff hnum hoff).mp hge),
      List.drop_of_length_le (Nat.le_of_not_lt hge), dumpLines_nil]
  | succ passes ih =>
    by_cases hlt : off < bs.length
    · have hne : bs.drop off ≠ [] := by
        rw [Ne, List.drop_eq_nil_iff]
        exact Nat.not_le.mpr hlt
      have hline := dumpMemLine_eq prefix_ address hdata hnum
        (by omega : off + lineWidth.toNat ≤ 2 ^ 32)
      rw [dumpMemLoop, if_pos ((ofNat_lt_numBytes_iff hnum hoff).mpr hlt), hline, ofNat_nextLine,
        ih (by omega) (by omega) (by omega),
        dumpLines_of_ne_nil off hne, List.drop_drop]
      rfl
    · rw [dumpMemLoop, if_neg (mt (ofNat_lt_numBytes_iff hnum hoff).mp hlt),
        List.drop_of_length_le (Nat.le_of_not_lt hlt), dumpLines_nil]

/-- Beyond it the offset of the last line is followed by zero. -/
theorem dumpMemLoop_endless (hdata : data.Filled bs) (hnum : numBytes.toNat = bs.length)
    (hmax : dumpMemMax < bs.length) {off : ℕ} (haligned : off % 16 = 0)
    (hoff : off < 2 ^ 32) (passes : ℕ) :
    dumpMemLoop prefix_ address data numBytes passes (UInt32.ofNat off) = .error .endless := by
  have hwidth : lineWidth.toNat = 16 := rfl
  have hmaxeq : dumpMemMax = 4294967280 := rfl
  have hlt : off < bs.length := by omega
  induction passes generalizing off with
  | zero => rw [dumpMemLoop, if_pos ((ofNat_lt_numBytes_iff hnum hoff).mpr hlt)]
  | succ passes ih =>
    -- every offset the loop comes to is inside the block
    have hline := dumpMemLine_eq prefix_ address hdata hnum
      (by omega : off + lineWidth.toNat ≤ 2 ^ 32)
    have hrest : dumpMemLoop prefix_ address data numBytes passes
        (UInt32.ofNat (off + lineWidth.toNat)) = .error .endless := by
      by_cases hwrap : off + lineWidth.toNat < 2 ^ 32
      · exact ih (by omega) hwrap (by omega)
      · -- the offset wraps round, and the dump starts again
        have hzero : UInt32.ofNat (off + lineWidth.toNat) = UInt32.ofNat 0 := by
          have heq : off + lineWidth.toNat = 2 ^ 32 := by omega
          rw [heq]
          rfl
        rw [hzero]
        exact ih (Nat.zero_mod _) (by omega) (by omega)
    rw [dumpMemLoop, if_pos ((ofNat_lt_numBytes_iff hnum hoff).mpr hlt), hline, ofNat_nextLine,
      hrest]
    rfl

/-- The loop returns only if it could load every byte from its offset on. -/
theorem load_of_dumpMemLoop {passes off q : ℕ} {text : List Char}
    (h : dumpMemLoop prefix_ address data numBytes passes (UInt32.ofNat off) = .ok text)
    (haligned : off % 16 = 0) (hoff : off < 2 ^ 32) (hle : off ≤ q) (hlt : q < numBytes.toNat) :
    ∃ b, data.load q = .ok b := by
  have hnum := numBytes.toNat_lt
  have htest : UInt32.ofNat off < numBytes := by
    rw [UInt32.lt_iff_toNat_lt, UInt32.toNat_ofNat_of_lt' hoff]
    exact Nat.lt_of_le_of_lt hle hlt
  induction passes generalizing off text with
  | zero =>
    rw [dumpMemLoop, if_pos htest] at h
    cases h
  | succ passes ih =>
    rw [dumpMemLoop, if_pos htest] at h
    obtain ⟨line, hline, h⟩ := bind_eq_ok_iff.mp h
    obtain ⟨rest, hrest, -⟩ := bind_eq_ok_iff.mp h
    by_cases hq : q < off + 16
    · exact load_of_dumpMemLine (mapError_eq_ok_iff.mp hline) (by omega) hle hq hlt
    · -- the byte is in a later line
      have hwidth : lineWidth.toNat = 16 := rfl
      have hnext : off + 16 < 2 ^ 32 := by omega
      rw [ofNat_nextLine, hwidth] at hrest
      apply ih hrest (by omega) hnext (Nat.le_of_not_lt hq)
      rw [UInt32.lt_iff_toNat_lt, UInt32.toNat_ofNat_of_lt' hnext]
      omega

theorem dumpMem_of_pos (hpos : 0 < numBytes.toNat) :
    dumpMem prefix_ address data numBytes =
      dumpMemLoop prefix_ address data numBytes (numBytes.toNat / lineWidth.toNat + 1)
        (UInt32.ofNat 0) := by
  rw [dumpMem, if_neg]
  · rfl
  · intro hzero
    rw [hzero] at hpos
    exact Nat.lt_irrefl _ hpos

/-- An empty block is a message. -/
theorem dumpMem_nil (hnum : numBytes.toNat = 0) :
    dumpMem prefix_ address data numBytes = .ok (prefix_ ++ ": No data\n".toList) :=
  if_pos (UInt32.toNat_inj.mp hnum)

/-- A block that is not too large is dumped in lines. -/
theorem dumpMem_lines (hdata : data.Filled bs) (hnum : numBytes.toNat = bs.length)
    (hmax : bs.length ≤ dumpMemMax) (hne : bs ≠ []) :
    dumpMem prefix_ address data numBytes =
      .ok (dumpLines (dumpMemFormat prefix_ address) 0 bs) := by
  have hwidth : lineWidth.toNat = 16 := rfl
  have hpos := List.length_pos_iff.mpr hne
  rw [dumpMem_of_pos (by rw [hnum]; exact hpos)]
  exact dumpMemLoop_eq hdata hnum hmax (Nat.zero_mod _) (by omega) (by rw [hnum, hwidth]; omega)

/-- The text of a block has its bytes. -/
theorem exists_dumpMem (hdata : data.Filled bs) (hnum : numBytes.toNat = bs.length)
    (hmax : bs.length ≤ dumpMemMax) :
    ∃ text, dumpMem prefix_ address data numBytes = .ok text ∧
      readDump (dumpMemFormat prefix_ address) 0 bs.length text = bs := by
  rcases eq_or_ne bs [] with rfl | hne
  · exact ⟨_, dumpMem_nil hnum, rfl⟩
  · exact ⟨_, dumpMem_lines hdata hnum hmax hne, readDump_dumpLines 0 bs (Nat.le_refl _)⟩

/-- A call returns only from a block whose bytes are all assigned. -/
theorem filled_of_dumpMem {text : List Char}
    (h : dumpMem prefix_ address data numBytes = .ok text) :
    ∃ bs, bs.length = numBytes.toNat ∧ data.Filled bs := by
  apply Buffer.exists_filled
  intro q hq
  rw [dumpMem_of_pos (Nat.lt_of_le_of_lt (Nat.zero_le q) hq)] at h
  exact load_of_dumpMemLoop h (Nat.zero_mod _) (by omega) (Nat.zero_le q) hq

/-- A call returns from the blocks that are assigned and not too large. -/
theorem dumpMem_ok_iff :
    (∃ text, dumpMem prefix_ address data numBytes = .ok text) ↔
      (∃ bs, bs.length = numBytes.toNat ∧ data.Filled bs) ∧ numBytes.toNat ≤ dumpMemMax := by
  refine ⟨fun ⟨text, htext⟩ => ⟨filled_of_dumpMem htext, ?_⟩, ?_⟩
  · by_contra hmax
    obtain ⟨bs, hlen, hbs⟩ := filled_of_dumpMem htext
    have hpos : 0 < numBytes.toNat := Nat.lt_of_le_of_lt (Nat.zero_le _) (Nat.lt_of_not_le hmax)
    rw [dumpMem_of_pos hpos, dumpMemLoop_endless hbs hlen.symm (hlen ▸ Nat.lt_of_not_le hmax)
      (Nat.zero_mod _) (by omega)] at htext
    cases htext
  · rintro ⟨⟨bs, hlen, hbs⟩, hmax⟩
    obtain ⟨text, htext, -⟩ := exists_dumpMem hbs hlen.symm (hlen ▸ hmax)
    exact ⟨text, htext⟩

theorem readDump_of_dumpMem {text : List Char}
    (h : dumpMem prefix_ address data numBytes = .ok text) (hdata : data.Filled bs)
    (hnum : numBytes.toNat = bs.length) :
    readDump (dumpMemFormat prefix_ address) 0 bs.length text = bs := by
  have hmax : bs.length ≤ dumpMemMax := hnum ▸ (dumpMem_ok_iff.mp ⟨text, h⟩).2
  obtain ⟨text', htext', hread⟩ := exists_dumpMem hdata hnum hmax
  rw [h, Except.ok.injEq] at htext'
  rw [htext', hread]

/-- **Memory dumps**: `DumpMem` returns exactly from the blocks whose bytes are all assigned and
that have at most `dumpMemMax` bytes, the bytes can then be read from the text, and from a
larger block it never returns. -/
theorem readDump_dumpMem (prefix_ : List Char) (address : UInt32) (data : Buffer UInt8 n)
    (numBytes : UInt32) :
    ((∃ text, dumpMem prefix_ address data numBytes = .ok text) ↔
      (∃ bs, bs.length = numBytes.toNat ∧ data.Filled bs) ∧ numBytes.toNat ≤ dumpMemMax) ∧
      ∀ bs, bs.length = numBytes.toNat → data.Filled bs →
        (∀ text, dumpMem prefix_ address data numBytes = .ok text →
          readDump (dumpMemFormat prefix_ address) 0 bs.length text = bs) ∧
        (dumpMemMax < bs.length →
          ∀ passes, dumpMemLoop prefix_ address data numBytes passes 0 = .error .endless) := by
  refine ⟨dumpMem_ok_iff, fun bs hlen hbs => ⟨fun text htext => ?_, fun hmax passes => ?_⟩⟩
  · exact readDump_of_dumpMem htext hbs hlen.symm
  · exact dumpMemLoop_endless hbs hlen.symm hmax (Nat.zero_mod _) (by omega) passes

example : dumpMem "W".toList 0xfffc (Buffer.ofList [0x41, 0x7f]) 2 =
    .ok "W: fffc: 41 7F                                           A.\n".toList := by rfl

end Block

end GumstixExtras.I2c
