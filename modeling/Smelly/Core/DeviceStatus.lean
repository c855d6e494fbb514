/-
Module: Smelly.Core.DeviceStatus
Purpose: The answer of `screen.c` to a device status request: the position of the cursor, as a
  program reads it.
Trusted boundary: human-reviewed model of smelly/screen.c; the private codes, which are not
  implemented there, make no answer
-/
import Smelly.Core.Screen
import Smelly.Core.Sgr

namespace Smelly

/-- The row and the column of `report_device_status(6)`, in unsigned arithmetic.  Under DECOM the
source subtracts the larger of the row and the top margin. -/
def cursorReport (self : Screen) : Nat × Nat :=
  let (x, y) : Nat × Nat :=
    if self.columns ≤ self.cursor.x then
      if self.cursor.y + 1 < self.lines then (0, self.cursor.y + 1)
      else (self.cursor.x - 1, self.cursor.y)
    else (self.cursor.x, self.cursor.y)
  let y := if self.mDECOM then (y + 2 ^ 32 - max y self.marginTop) % 2 ^ 32 else y
  ((y + 1) % 2 ^ 32, (x + 1) % 2 ^ 32)

/-- `report_device_status`: what is written to the child behind the CSI. -/
def reportDeviceStatus (self : Screen) (which : Nat) (private_ : Bool) : Option Text :=
  if which = 5 then some (chars "0n")
  else if which = 6 then
    let (row, column) := cursorReport self
    some ((if private_ then chars "?" else []) ++ decimalText row ++ chars ";" ++
      decimalText column ++ chars "R")
  else none

end Smelly
