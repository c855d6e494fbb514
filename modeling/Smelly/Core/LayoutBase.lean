/-
Module: Smelly.Core.LayoutBase
Purpose: How the layouts divide a length among windows: the biases, the cells of every window and
  the segments with their decorations.
Trusted boundary: human-reviewed model of smelly/layout/base.py. A float is the rational number
  that is meant, so that products and quotients are exact; `none` is an exception, or that a loop
  has used up the rounds it is given
-/
import Mathlib.Data.List.MinMax
import Mathlib.Data.Rat.Floor

namespace Smelly

/-- `LayoutData`. -/
structure LayoutData where
  contentPos : Int := 0
  cellsPerWindow : Int := 0
  spaceBefore : Int := 0
  spaceAfter : Int := 0
  contentSize : Int := 0
deriving DecidableEq, Repr

/-! ### Biases -/

/-- What is passed as `bias`: nothing, a weight for every window, or what is added to the weights of
some windows, in the order of the dictionary. -/
inductive Bias where
  | none
  | list (weights : List Rat)
  | map (increments : List (Nat × Rat))
deriving DecidableEq

/-- `safe_increment_bias`. -/
def safeIncrementBias (oldVal increment : Rat) : Rat :=
  max (1 / 10) (min (oldVal + increment) (9 / 10))

/-- `normalize_biases`. -/
def normalizeBiases (biases : List Rat) : Option (List Rat) :=
  let s := biases.sum
  if s = 1 then some biases else if s = 0 then none else some (biases.map (· / s))

/-- One round of the loop of `distribute_indexed_bias`. -/
def distributeIncrement (limit : Nat) (ans : List Rat) (entry : Nat × Rat) : Option (List Rat) :=
  if limit ≤ entry.1 ∨ entry.2 = 0 then some ans
  else if limit = 1 then none
  else
    let otherIncrement := -entry.2 / (limit - 1 : Rat)
    some (ans.mapIdx fun i b =>
      safeIncrementBias b (if i = entry.1 then entry.2 else otherIncrement))

/-- `distribute_indexed_bias`. -/
def distributeIndexedBias (baseBias : List Rat) (indexBiasMap : List (Nat × Rat)) :
    Option (List Rat) :=
  if indexBiasMap = [] then some baseBias
  else (indexBiasMap.foldlM (distributeIncrement baseBias.length) baseBias).bind normalizeBiases

/-- `convert_bias_map`. -/
def convertBiasMap (bias : List (Nat × Rat)) (numberOfWindows : Nat) (numberOfCells : Int) :
    Option (List Rat) :=
  if numberOfWindows = 0 ∨ numberOfCells = 0 then none
  else
    let cellsPerWindow := numberOfCells / numberOfWindows
    let extra := numberOfCells % numberOfWindows
    let cellMap := (List.replicate numberOfWindows cellsPerWindow).modify (numberOfWindows - 1)
      (· + extra)
    distributeIndexedBias (cellMap.map fun x : Int => (x : Rat) / numberOfCells) bias

/-! ### Cells -/

/-- `int(x)`: what is behind the point is dropped. -/
def truncate (x : Rat) : Int := x.num.tdiv x.den

/-- One round of the loop that gives every window its minimum of cells; `none` where the loop is
left. -/
def stealStep (cellsMap : List Int) : Option (List Int) :=
  let least := cellsMap.min?.getD 0
  let most := cellsMap.max?.getD 0
  if least < 5 then
    let maxi := cellsMap.idxOf most
    let mini := cellsMap.idxOf least
    if maxi = mini then none
    else some ((cellsMap.modify mini (· + 1)).modify maxi (· - 1))
  else none

/-- The loop, for so many rounds at most. -/
def stealLoop : (rounds : Nat) → List Int → Option (List Int)
  | 0, _ => none
  | rounds + 1, cellsMap =>
    match stealStep cellsMap with
    | none => some cellsMap
    | some next => stealLoop rounds next

/-- The bias is used: there is a weight for each of several windows, and room for their minimum. -/
def UsesBias (weights : List Rat) (numberOfWindows : Nat) (numberOfCells : Int) : Prop :=
  1 < numberOfWindows ∧ numberOfWindows = weights.length ∧ 5 < numberOfCells / numberOfWindows

instance (weights : List Rat) (numberOfWindows : Nat) (numberOfCells : Int) :
    Decidable (UsesBias weights numberOfWindows numberOfCells) := by
  unfold UsesBias
  infer_instance

/-- The weights that `calculate_cells_map` works with. -/
def biasWeights (bias : Bias) (numberOfWindows : Nat) (numberOfCells : Int) :
    Option (Option (List Rat)) :=
  match bias with
  | .none => some none
  | .list weights => some (some weights)
  | .map increments => (convertBiasMap increments numberOfWindows numberOfCells).map some

/-- `calculate_cells_map`. -/
def calculateCellsMap (rounds : Nat) (bias : Bias) (numberOfWindows : Nat) (numberOfCells : Int) :
    Option (List Int) := do
  let bias ← biasWeights bias numberOfWindows numberOfCells
  if numberOfWindows = 0 then none
  else
    let cellsPerWindow := numberOfCells / numberOfWindows
    let cellsMap ← match bias with
      | some weights =>
        if UsesBias weights numberOfWindows numberOfCells then
          stealLoop rounds (weights.map fun b => truncate (b * numberOfCells))
        else some (List.replicate numberOfWindows cellsPerWindow)
      | none => some (List.replicate numberOfWindows cellsPerWindow)
    let extra := numberOfCells - cellsMap.sum
    some (if extra > 0 then cellsMap.modify (cellsMap.length - 1) (· + extra) else cellsMap)

/-! ### Segments -/

/-- The loop of `layout_dimension` that makes room for the decorations. -/
def fitDecorations (length cellLength spaceNeeded : Int) : (rounds : Nat) → Int → Option Int
  | 0, _ => none
  | rounds + 1, numberOfCells =>
    if length - numberOfCells * cellLength < spaceNeeded then
      fitDecorations length cellLength spaceNeeded rounds (numberOfCells - 1)
    else some numberOfCells

/-- What the decorations need. -/
def decorationSpace (decorationPairs : List (Int × Int)) : Int :=
  (decorationPairs.map fun pair => pair.1 + pair.2).sum

/-- The loop of `layout_dimension` over the cells and the decorations of the windows. -/
def layoutSegments (startAt length cellLength : Int) :
    (first : Bool) → (pos : Int) → List (Int × Int × Int) → List LayoutData
  | _, _, [] => []
  | first, pos, (cellsPerWindow, beforeDec, afterDec) :: rest =>
    let pos := pos + beforeDec
    let beforeSpace := if first then pos - startAt else beforeDec
    let contentSize := cellsPerWindow * cellLength
    let afterSpace :=
      if rest = [] then startAt + length - (pos + contentSize) else afterDec
    { contentPos := pos, cellsPerWindow, spaceBefore := beforeSpace, spaceAfter := afterSpace,
      contentSize } ::
      layoutSegments startAt length cellLength false (pos + (contentSize + afterSpace)) rest

/-- `layout_dimension`. -/
def layoutDimension (rounds : Nat) (startAt length cellLength : Int)
    (decorationPairs : List (Int × Int)) (leftAlign : Bool) (bias : Bias) :
    Option (List LayoutData) := do
  let numberOfWindows := decorationPairs.length
  if cellLength = 0 then none
  else
    let spaceNeeded := decorationSpace decorationPairs
    let numberOfCells ← fitDecorations length cellLength spaceNeeded rounds (length.fdiv cellLength)
    let cellsMap ← calculateCellsMap rounds bias numberOfWindows numberOfCells
    if cellsMap.sum ≠ numberOfCells then none
    else
      let extra := length - numberOfCells * cellLength - spaceNeeded
      let pos := if leftAlign then startAt else startAt + extra / 2
      some (layoutSegments startAt length cellLength true pos (cellsMap.zip decorationPairs))

end Smelly
