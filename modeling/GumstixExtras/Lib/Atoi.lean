import GumstixExtras.Lib.Strtol

/-!
# `atoi`

The conversion of the C library in base ten, as the GNU C library does it: that of `strtol`,
cut to `int`. Text without a number is zero, and text behind the number is ignored.
-/

namespace GumstixExtras.Lib

/-- `atoi(s)`. -/
def atoi (dm : DataModel) (s : List Char) : ℤ :=
  let signed := splitSign (s.dropWhile isSpace)
  let magnitude : ℤ := numeralValue 10 (signed.2.takeWhile (isBaseDigit 10))
  toCInt (dm.clamp (if signed.1 then -magnitude else magnitude))

example : atoi .ilp32 " -115200 baud".toList = -115200 := by decide
example : atoi .ilp32 "0x10".toList = 0 := by decide

end GumstixExtras.Lib
