/-
Module: Smelly.Proofs.CursorReport
Purpose: A reported cursor position sent back as a CUP command: when the cursor stays where it
  is.
Trusted boundary: none
-/
import Smelly.Core.DeviceStatus

namespace Smelly

/-- The margins lie on the screen, one above the other, and so does the cursor; the sizes are
`unsigned int`. -/
structure Screen.CursorOnScreen (screen : Screen) : Prop where
  margins : screen.marginTop ≤ screen.marginBottom
  bottom : screen.marginBottom < screen.lines
  row : screen.cursor.y < screen.lines
  column : screen.cursor.x < screen.columns
  lines_lt : screen.lines < 2 ^ 32
  columns_lt : screen.columns < 2 ^ 32

namespace Screen.CursorOnScreen

variable {screen : Screen}

theorem cursorReport_column (placed : screen.CursorOnScreen) :
    (cursorReport screen).2 = screen.cursor.x + 1 := by
  have inside : ¬ screen.columns ≤ screen.cursor.x := by
    have := placed.column
    omega
  have fits : screen.cursor.x + 1 < 2 ^ 32 := by
    have := placed.column
    have := placed.columns_lt
    omega
  simp only [cursorReport, inside, if_false]
  exact Nat.mod_eq_of_lt fits

/-- Without origin mode the row is counted from the top of the screen. -/
theorem cursorReport_row (placed : screen.CursorOnScreen) (origin : screen.mDECOM = false) :
    (cursorReport screen).1 = screen.cursor.y + 1 := by
  have inside : ¬ screen.columns ≤ screen.cursor.x := by
    have := placed.column
    omega
  have fits : screen.cursor.y + 1 < 2 ^ 32 := by
    have := placed.row
    have := placed.lines_lt
    omega
  simp only [cursorReport, inside, origin, if_false, Bool.false_eq_true]
  exact Nat.mod_eq_of_lt fits

/-- A position on the screen that is asked for without origin mode is taken. -/
theorem screenCursorPosition_cursor (placed : screen.CursorOnScreen) (origin : screen.mDECOM = false) :
    (screenCursorPosition screen (screen.cursor.y + 1) (screen.cursor.x + 1)).cursor = screen.cursor := by
  have row : min screen.cursor.y (screen.lines - 1) = screen.cursor.y := by
    have := placed.row
    omega
  have column : min screen.cursor.x (screen.columns - 1) = screen.cursor.x := by
    have := placed.column
    omega
  simp [screenCursorPosition, screenEnsureBounds, origin, row, column]

/-- In origin mode the row is reported as the first one, or, above the top margin, as one counted
back from it. -/
theorem cursorReport_row_origin (placed : screen.CursorOnScreen) (origin : screen.mDECOM = true) :
    (cursorReport screen).1 =
      if screen.marginTop ≤ screen.cursor.y then 1
      else (screen.cursor.y + 1 + 2 ^ 32 - screen.marginTop) % 2 ^ 32 := by
  have inside : ¬ screen.columns ≤ screen.cursor.x := by
    have := placed.column
    omega
  have bottom := placed.bottom
  have margins := placed.margins
  have fits := placed.lines_lt
  simp only [cursorReport, inside, origin, if_false, if_true]
  by_cases below : screen.marginTop ≤ screen.cursor.y
  · rw [if_pos below]
    have larger : max screen.cursor.y screen.marginTop = screen.cursor.y := by omega
    rw [larger]
    omega
  · rw [if_neg below]
    have larger : max screen.cursor.y screen.marginTop = screen.marginTop := by omega
    rw [larger]
    omega

/-- A cursor position in origin mode that leads to the first row of the region. -/
theorem screenCursorPosition_top (placed : screen.CursorOnScreen) (origin : screen.mDECOM = true)
    {line column : Nat}
    (top : ((if line = 0 then 1 else line) - 1 + screen.marginTop) % 2 ^ 32 ≤ screen.marginTop) :
    (screenCursorPosition screen line column).cursor.y = screen.marginTop := by
  have margins := placed.margins
  have bottom := placed.bottom
  have row : max screen.marginTop
      (min (((if line = 0 then 1 else line) - 1 + screen.marginTop) % 2 ^ 32) screen.marginBottom) =
      screen.marginTop := by omega
  simp only [screenCursorPosition, origin, if_true, row, screenEnsureBounds]
  cases cursorWithinMargins screen
  · simp only [Bool.false_eq_true, false_and, if_false]
    omega
  · simp only [Bool.false_eq_true, false_or, and_self, if_true]
    omega

/-- In origin mode the reported position leads to the top margin, whatever the row. -/
theorem cursor_y_of_report (placed : screen.CursorOnScreen) (origin : screen.mDECOM = true) :
    (screenCursorPosition screen (cursorReport screen).1 (cursorReport screen).2).cursor.y =
      screen.marginTop := by
  have margins := placed.margins
  have bottom := placed.bottom
  have fits := placed.lines_lt
  apply placed.screenCursorPosition_top origin
  rw [placed.cursorReport_row_origin origin]
  by_cases below : screen.marginTop ≤ screen.cursor.y
  · rw [if_pos below]
    have first : (if (1 : Nat) = 0 then 1 else 1) - 1 + screen.marginTop = screen.marginTop := by
      simp
    rw [first]
    exact Nat.mod_le _ _
  · rw [if_neg below]
    have wrapped : (screen.cursor.y + 1 + 2 ^ 32 - screen.marginTop) % 2 ^ 32 =
        if screen.cursor.y + 1 = screen.marginTop then 0
        else screen.cursor.y + 1 + 2 ^ 32 - screen.marginTop := by
      split <;> omega
    rw [wrapped]
    by_cases just : screen.cursor.y + 1 = screen.marginTop
    · rw [if_pos just]
      have first : (if (0 : Nat) = 0 then 1 else 0) - 1 + screen.marginTop = screen.marginTop := by
        simp
      rw [first]
      exact Nat.mod_le _ _
    · have positive : screen.cursor.y + 1 + 2 ^ 32 - screen.marginTop ≠ 0 := by omega
      rw [if_neg just, if_neg positive]
      omega

/-- In origin mode the column survives the trip. -/
theorem cursor_of_report (placed : screen.CursorOnScreen) (top : screen.cursor.y = screen.marginTop)
    (origin : screen.mDECOM = true) :
    (screenCursorPosition screen (cursorReport screen).1 (cursorReport screen).2).cursor =
      screen.cursor := by
  have row := placed.cursor_y_of_report origin
  have column : min screen.cursor.x (screen.columns - 1) = screen.cursor.x := by
    have := placed.column
    omega
  rw [placed.cursorReport_column] at row ⊢
  generalize (cursorReport screen).1 = line at row ⊢
  have x : (screenCursorPosition screen line (screen.cursor.x + 1)).cursor.x = screen.cursor.x := by
    simp [screenCursorPosition, screenEnsureBounds, column]
  have others : (screenCursorPosition screen line (screen.cursor.x + 1)).cursor =
      { screen.cursor with
        x := (screenCursorPosition screen line (screen.cursor.x + 1)).cursor.x
        y := (screenCursorPosition screen line (screen.cursor.x + 1)).cursor.y } := rfl
  rw [others, x, row, ← top]

end Screen.CursorOnScreen

/-- The reported position sent back as a CUP command leaves the cursor where it was if and only if
origin mode is off or the cursor is in the row of the top margin. -/
theorem cursorReport_roundTrip (screen : Screen) (placed : screen.CursorOnScreen) :
    (screenCursorPosition screen (cursorReport screen).1 (cursorReport screen).2).cursor = screen.cursor ↔
      screen.mDECOM = false ∨ screen.cursor.y = screen.marginTop := by
  constructor
  · intro kept
    cases origin : screen.mDECOM with
    | false => exact .inl rfl
    | true =>
      have row := placed.cursor_y_of_report origin
      rw [kept] at row
      exact .inr row
  · rintro (origin | top)
    · rw [placed.cursorReport_row origin, placed.cursorReport_column]
      exact placed.screenCursorPosition_cursor origin
    · cases origin : screen.mDECOM with
      | false =>
        rw [placed.cursorReport_row origin, placed.cursorReport_column]
        exact placed.screenCursorPosition_cursor origin
      | true => exact placed.cursor_of_report top origin

/-- A screen of three lines and two columns, all of it between the margins, in origin mode. -/
def originScreen (y : Nat) : Screen :=
  { newScreen 3 2 1 0 with mDECOM := true, cursor := { x := 1, y := y } }

/-- In the first row the report brings the cursor back. -/
theorem cursorReport_roundTrip_top :
    (screenCursorPosition (originScreen 0) (cursorReport (originScreen 0)).1
      (cursorReport (originScreen 0)).2).cursor = (originScreen 0).cursor :=
  (cursorReport_roundTrip (originScreen 0) (by constructor <;> decide)).2 (.inr rfl)

/-- In the second row it is reported as the first one. -/
theorem cursorReport_roundTrip_second :
    cursorReport (originScreen 1) = (1, 2) ∧
      (screenCursorPosition (originScreen 1) 1 2).cursor ≠ (originScreen 1).cursor := by
  decide

end Smelly
