import GumstixExtras.Lib.Numeral
import Mathlib.Data.List.TakeDrop

/-!
# Hex Dumps

A dump shows a block of bytes in lines of one width: something in front of the line, the bytes
in hexadecimal, blanks for those a short last line lacks, and the bytes once more as
characters. A format says what the parts look like. Whatever they are, the columns of the
hexadecimal part stand at known places, so the bytes can be read from the text again
(`readDump_dumpLines`).
-/

namespace GumstixExtras.Lib

/-! ## §1 Cells -/

/-- `%02X` of a byte. -/
def fmtByteUpper (b : UInt8) : List Char := (fmtByte b).map Char.toUpper

/-- The cell of a byte. -/
def byteCell (b : UInt8) : List Char := fmtByteUpper b ++ [' ']

/-- A cell without a byte. -/
def emptyCell (filler : Char) : List Char := [filler, filler, ' ']

/-- The bytes of the cells. -/
def readCells : List Char → List UInt8
  | hi :: lo :: _ :: rest =>
    match digitValue hi, digitValue lo with
    | some h, some l => UInt8.ofNat (16 * h + l) :: readCells rest
    | _, _ => readCells rest
  | _ => []

@[simp] theorem length_byteCell (b : UInt8) : (byteCell b).length = 3 := rfl

theorem digitValue_toUpper {d : ℕ} (h : d < 16) :
    digitValue (Nat.digitChar d).toUpper = some d := by
  have hall : ∀ n : Fin 16, digitValue (Nat.digitChar n).toUpper = some n.val := by decide
  exact hall ⟨d, h⟩

theorem readCells_byteCell (b : UInt8) (rest : List Char) :
    readCells (byteCell b ++ rest) = b :: readCells rest := by
  have hhi : b.toNat / 16 < 16 := by
    have := b.toNat_lt
    omega
  have hlo : b.toNat % 16 < 16 := Nat.mod_lt _ (by decide)
  have hvalue : 16 * (b.toNat / 16) + b.toNat % 16 = b.toNat := Nat.div_add_mod _ _
  show readCells ((Nat.digitChar (b.toNat / 16)).toUpper ::
    (Nat.digitChar (b.toNat % 16)).toUpper :: ' ' :: rest) = _
  simp only [readCells, digitValue_toUpper hhi, digitValue_toUpper hlo, hvalue, UInt8.ofNat_toNat]

theorem readCells_emptyCells {filler : Char} (h : digitValue filler = none) (n : ℕ) :
    readCells (List.replicate n (emptyCell filler)).flatten = [] := by
  induction n with
  | zero => rfl
  | succ n ih =>
    rw [List.replicate_succ, List.flatten_cons]
    show readCells (filler :: filler :: ' ' :: (List.replicate n (emptyCell filler)).flatten) = []
    simp only [readCells, h, ih]

/-! ## §2 Formats -/

/-- The looks of a dump: bytes in a line, the text in front of the line that starts at an
offset, what stands for a missing byte and between the two parts, and how a byte is shown. -/
structure DumpFormat where
  width : ℕ
  width_pos : 0 < width
  head : ℕ → List Char
  filler : Char
  digitValue_filler : digitValue filler = none
  middle : List Char
  shown : UInt8 → Char

variable (F : DumpFormat)

/-- The hexadecimal part of a line. -/
def DumpFormat.cells (bs : List UInt8) : List Char :=
  bs.flatMap byteCell ++ (List.replicate (F.width - bs.length) (emptyCell F.filler)).flatten

/-- A line. -/
def DumpFormat.line (off : ℕ) (bs : List UInt8) : List Char :=
  F.head off ++ F.cells bs ++ F.middle ++ bs.map F.shown ++ ['\n']

/-- The lines of a block from an offset on. -/
def dumpLines (off : ℕ) (bs : List UInt8) : List Char :=
  if bs = [] then []
  else F.line off (bs.take F.width) ++ dumpLines (off + F.width) (bs.drop F.width)
termination_by bs.length
decreasing_by
  have hpos := F.width_pos
  have hlen : 0 < bs.length := List.length_pos_iff.mpr ‹_›
  rw [List.length_drop]
  omega

/-- Read the bytes of a dump, line by line; `fuel` bounds the lines. -/
def readDump (off : ℕ) : ℕ → List Char → List UInt8
  | 0, _ => []
  | fuel + 1, text =>
    if text = [] then []
    else
      let body := text.drop (F.head off).length
      let bs := readCells (body.take (3 * F.width))
      bs ++ readDump (off + F.width) fuel
        (body.drop (3 * F.width + (F.middle.length + (bs.length + 1))))

/-! ## §3 Reading back -/

variable {F}

@[simp] theorem dumpLines_nil (off : ℕ) : dumpLines F off [] = [] := by
  rw [dumpLines, if_pos rfl]

theorem dumpLines_of_ne_nil (off : ℕ) {bs : List UInt8} (h : bs ≠ []) :
    dumpLines F off bs =
      F.line off (bs.take F.width) ++ dumpLines F (off + F.width) (bs.drop F.width) := by
  rw [dumpLines, if_neg h]

theorem DumpFormat.length_cells {bs : List UInt8} (h : bs.length ≤ F.width) :
    (F.cells bs).length = 3 * F.width := by
  have hbytes : (bs.flatMap byteCell).length = 3 * bs.length := by
    induction bs with
    | nil => rfl
    | cons b bs ih =>
      rw [List.flatMap_cons, List.length_append, length_byteCell, List.length_cons,
        ih (by simp at h; omega)]
      omega
  -- a cell has three characters, with a byte in it or without
  have hempty : ∀ n, (List.replicate n (emptyCell F.filler)).flatten.length = 3 * n := by
    intro n
    induction n with
    | zero => rfl
    | succ n ih =>
      rw [List.replicate_succ, List.flatten_cons, List.length_append, ih, Nat.mul_succ]
      exact Nat.add_comm _ _
  rw [cells, List.length_append, hbytes, hempty]
  omega

theorem DumpFormat.readCells_cells (bs : List UInt8) : readCells (F.cells bs) = bs := by
  unfold cells
  generalize F.width - bs.length = n
  induction bs with
  | nil => exact readCells_emptyCells F.digitValue_filler n
  | cons b bs ih => rw [List.flatMap_cons, List.append_assoc, readCells_byteCell, ih]

/-- **Reading back**: the bytes of a dump are in its text. -/
theorem readDump_dumpLines (off : ℕ) (bs : List UInt8) {fuel : ℕ} (h : bs.length ≤ fuel) :
    readDump F off fuel (dumpLines F off bs) = bs := by
  -- induction on the lines
  induction fuel generalizing off bs with
  | zero =>
    obtain rfl := List.length_eq_zero_iff.mp (Nat.le_zero.mp h)
    rfl
  | succ fuel ih =>
    by_cases hnil : bs = []
    · subst hnil
      rw [dumpLines_nil, readDump, if_pos rfl]
    · have hpos := F.width_pos
      have hlen : 0 < bs.length := List.length_pos_iff.mpr hnil
      have htake : (bs.take F.width).length ≤ F.width := List.length_take_le _ _
      have hcells := DumpFormat.length_cells htake
      have hne : dumpLines F off bs ≠ [] := by
        rw [dumpLines_of_ne_nil off hnil]
        simp [DumpFormat.line]
      -- behind its head the line has its cells, and behind them a known number of characters
      have hbody : (dumpLines F off bs).drop (F.head off).length =
          F.cells (bs.take F.width) ++ ((F.middle ++ (bs.take F.width).map F.shown ++ ['\n']) ++
            dumpLines F (off + F.width) (bs.drop F.width)) := by
        rw [dumpLines_of_ne_nil off hnil, DumpFormat.line]
        simp only [List.append_assoc, List.drop_left]
      have hfuel : (bs.drop F.width).length ≤ fuel := by
        rw [List.length_drop]
        omega
      have htail : (F.middle ++ (bs.take F.width).map F.shown ++ ['\n']).length =
          F.middle.length + ((bs.take F.width).length + 1) := by
        simp only [List.length_append, List.length_map, List.length_singleton, Nat.add_assoc]
      rw [readDump, if_neg hne, hbody]
      dsimp only
      rw [← hcells, List.take_left, DumpFormat.readCells_cells, ← htail, ← List.drop_drop,
        List.drop_left, List.drop_left, ih _ _ hfuel, List.take_append_drop]

end GumstixExtras.Lib
