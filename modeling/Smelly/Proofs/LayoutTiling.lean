/-
Module: Smelly.Proofs.LayoutTiling
Purpose: When the windows of a layout get as many cells as there are, and their segments fill the
  space from one end to the other.
Trusted boundary: none
-/
import Smelly.Core.LayoutBase
import Smelly.Lib.Sums
import Mathlib.Algebra.Order.BigOperators.Group.List
import Mathlib.Tactic.Linarith
import Mathlib.Tactic.Ring
import Mathlib.Data.Rat.Cast.Order

namespace Smelly

/-! ### Room for the decorations -/

/-- The number of cells that fit beside the decorations. -/
def cellsThatFit (length cellLength spaceNeeded : Int) : Int := (length - spaceNeeded) / cellLength

/-- Whether the decorations fit is a comparison with that number. -/
theorem fits_iff {length cellLength spaceNeeded : Int} (positive : 0 < cellLength)
    (numberOfCells : Int) :
    length - numberOfCells * cellLength < spaceNeeded ↔
      cellsThatFit length cellLength spaceNeeded < numberOfCells := by
  unfold cellsThatFit
  rw [Int.ediv_lt_iff_lt_mul positive]
  omega

/-- The loop ends at that number, if it is given the rounds. -/
theorem fitDecorations_ends {length cellLength spaceNeeded : Int} (positive : 0 < cellLength)
    {rounds : Nat} {numberOfCells : Int}
    (above : cellsThatFit length cellLength spaceNeeded ≤ numberOfCells)
    (enough : numberOfCells - cellsThatFit length cellLength spaceNeeded < rounds) :
    fitDecorations length cellLength spaceNeeded rounds numberOfCells =
      some (cellsThatFit length cellLength spaceNeeded) := by
  induction rounds generalizing numberOfCells with
  | zero => omega
  | succ rounds ih =>
    unfold fitDecorations
    by_cases more : length - numberOfCells * cellLength < spaceNeeded
    · have over_ := (fits_iff positive numberOfCells).1 more
      rw [if_pos more]
      exact ih (by omega) (by omega)
    · have below := mt (fits_iff positive numberOfCells).2 more
      rw [if_neg more]
      exact congrArg some (by omega)

/-- If it ends, then there. -/
theorem fitDecorations_eq_some {length cellLength spaceNeeded : Int} (positive : 0 < cellLength)
    {rounds : Nat} {numberOfCells result : Int}
    (above : cellsThatFit length cellLength spaceNeeded ≤ numberOfCells)
    (h : fitDecorations length cellLength spaceNeeded rounds numberOfCells = some result) :
    result = cellsThatFit length cellLength spaceNeeded := by
  induction rounds generalizing numberOfCells with
  | zero => cases h
  | succ rounds ih =>
    unfold fitDecorations at h
    by_cases more : length - numberOfCells * cellLength < spaceNeeded
    · have over_ := (fits_iff positive numberOfCells).1 more
      rw [if_pos more] at h
      exact ih (by omega) h
    · have below := mt (fits_iff positive numberOfCells).2 more
      rw [if_neg more] at h
      have same := Option.some.inj h
      omega

/-- Without decorations more cells fit. -/
theorem cellsThatFit_le {length cellLength spaceNeeded : Int} (positive : 0 < cellLength)
    (needed : 0 ≤ spaceNeeded) :
    cellsThatFit length cellLength spaceNeeded ≤ length.fdiv cellLength := by
  rw [Int.fdiv_eq_ediv_of_nonneg _ (Int.le_of_lt positive)]
  exact Int.ediv_le_ediv positive (by omega)

/-! ### The loop that steals cells -/

/-- What the windows lack of their minimum. -/
def deficit (cellsMap : List Int) : Nat := (cellsMap.map fun c => (5 - c).toNat).sum

/-- The least and the most cells of a window. -/
theorem least_most {cellsMap : List Int} (some_ : cellsMap ≠ []) :
    (cellsMap.min?.getD 0 ∈ cellsMap ∧ ∀ c ∈ cellsMap, cellsMap.min?.getD 0 ≤ c) ∧
      cellsMap.max?.getD 0 ∈ cellsMap ∧ ∀ c ∈ cellsMap, c ≤ cellsMap.max?.getD 0 := by
  constructor
  · cases least : cellsMap.min? with
    | none => exact absurd (List.min?_eq_none_iff.1 least) some_
    | some c => exact List.min?_eq_some_iff.1 least
  · cases most : cellsMap.max? with
    | none => exact absurd (List.max?_eq_none_iff.1 most) some_
    | some c => exact List.max?_eq_some_iff.1 most

/-- A round moves one cell from the window with the most to the window with the fewest. -/
theorem stealStep_eq_some {cellsMap next : List Int} (h : stealStep cellsMap = some next) :
    next.length = cellsMap.length ∧ next.sum = cellsMap.sum ∧
      ∃ least most : Int, least < 5 ∧ (∀ c ∈ cellsMap, c ≤ most) ∧
        deficit next + (5 - least).toNat + (5 - most).toNat =
          deficit cellsMap + (5 - (least + 1)).toNat + (5 - (most - 1)).toNat := by
  unfold stealStep at h
  by_cases few : cellsMap.min?.getD 0 < 5
  · rw [if_pos few] at h
    by_cases same : cellsMap.idxOf (cellsMap.max?.getD 0) = cellsMap.idxOf (cellsMap.min?.getD 0)
    · rw [if_pos same] at h
      cases h
    · rw [if_neg same] at h
      have some_ : cellsMap ≠ [] := by
        rintro rfl
        exact same rfl
      obtain ⟨⟨leastIn, -⟩, mostIn, atMost⟩ := least_most some_
      have mini := List.idxOf_lt_length_iff.2 leastIn
      have maxi := List.idxOf_lt_length_iff.2 mostIn
      have maxi' : cellsMap.idxOf (cellsMap.max?.getD 0) <
          (cellsMap.modify (cellsMap.idxOf (cellsMap.min?.getD 0)) (· + 1)).length := by
        rw [List.length_modify]
        exact maxi
      have leastAt : cellsMap[cellsMap.idxOf (cellsMap.min?.getD 0)] = cellsMap.min?.getD 0 :=
        List.getElem_idxOf mini
      have mostAt : (cellsMap.modify (cellsMap.idxOf (cellsMap.min?.getD 0)) (· + 1))[
          cellsMap.idxOf (cellsMap.max?.getD 0)] = cellsMap.max?.getD 0 := by
        rw [List.getElem_modify, if_neg (Ne.symm same)]
        exact List.getElem_idxOf maxi
      have sums := Sums.sum_map_modify id (· - 1) (List.getElem?_eq_getElem maxi')
      have sums' := Sums.sum_map_modify id (· + 1) (List.getElem?_eq_getElem mini)
      have lacks := Sums.sum_map_modify (fun c : Int => (5 - c).toNat) (· - 1)
        (List.getElem?_eq_getElem maxi')
      have lacks' := Sums.sum_map_modify (fun c : Int => (5 - c).toNat) (· + 1)
        (List.getElem?_eq_getElem mini)
      rw [mostAt] at sums lacks
      simp only [List.map_id, id_eq] at sums sums'
      rw [← Option.some.inj h]
      refine ⟨by simp, by omega, cellsMap.min?.getD 0, cellsMap.max?.getD 0, few, atMost, ?_⟩
      unfold deficit
      omega
  · rw [if_neg few] at h
    cases h

/-- Where the loop is left with more cells than the minimums need, every window has its minimum. -/
theorem stealStep_eq_none {cellsMap : List Int} (room : 5 * cellsMap.length < cellsMap.sum)
    (h : stealStep cellsMap = none) : ∀ c ∈ cellsMap, 5 ≤ c := by
  have some_ : cellsMap ≠ [] := by
    rintro rfl
    exact absurd room (by decide)
  obtain ⟨⟨leastIn, atLeast⟩, mostIn, atMost⟩ := least_most some_
  intro c mem
  by_contra few
  have less := atLeast c mem
  have bound := List.sum_le_card_nsmul cellsMap (cellsMap.max?.getD 0) atMost
  have many : 5 < cellsMap.max?.getD 0 := by
    by_contra small
    have product : (cellsMap.length : Int) * cellsMap.max?.getD 0 ≤ cellsMap.length * 5 :=
      Int.mul_le_mul_of_nonneg_left (by omega) (by omega)
    rw [nsmul_eq_mul] at bound
    omega
  unfold stealStep at h
  rw [if_pos (by omega)] at h
  dsimp only at h
  split at h
  · rename_i same
    have values := congrArg (fun i => cellsMap[i]?) same
    simp only [List.getElem?_eq_getElem (List.idxOf_lt_length_iff.2 leastIn),
      List.getElem?_eq_getElem (List.idxOf_lt_length_iff.2 mostIn), List.getElem_idxOf] at values
    have equal := Option.some.inj values
    omega
  · cases h

/-- The loop keeps the number of windows and the number of cells. -/
theorem stealLoop_sum {rounds : Nat} {cellsMap result : List Int}
    (h : stealLoop rounds cellsMap = some result) :
    result.length = cellsMap.length ∧ result.sum = cellsMap.sum := by
  induction rounds generalizing cellsMap with
  | zero => cases h
  | succ rounds ih =>
    unfold stealLoop at h
    cases step : stealStep cellsMap with
    | none =>
      rw [step] at h
      rw [Option.some.inj h]
      exact ⟨rfl, rfl⟩
    | some next =>
      rw [step] at h
      obtain ⟨length, sum, -⟩ := stealStep_eq_some step
      obtain ⟨length', sum'⟩ := ih h
      exact ⟨length'.trans length, sum'.trans sum⟩

/-- The loop ends, with the minimum for every window, where there is room for it: every round makes
the deficit smaller. -/
theorem stealLoop_ends {cellsMap : List Int} (room : 5 * cellsMap.length < cellsMap.sum)
    {rounds : Nat} (enough : deficit cellsMap < rounds) :
    ∃ result, stealLoop rounds cellsMap = some result ∧ ∀ c ∈ result, 5 ≤ c := by
  induction rounds generalizing cellsMap with
  | zero => exact absurd enough (Nat.not_lt_zero _)
  | succ rounds ih =>
    unfold stealLoop
    cases step : stealStep cellsMap with
    | none => exact ⟨cellsMap, rfl, stealStep_eq_none room step⟩
    | some next =>
      obtain ⟨length, sum, least, most, few, atMost, lacks⟩ := stealStep_eq_some step
      have bound := List.sum_le_card_nsmul cellsMap most atMost
      have many : 5 < most := by
        by_contra small
        have product : (cellsMap.length : Int) * most ≤ cellsMap.length * 5 :=
          Int.mul_le_mul_of_nonneg_left (by omega) (by omega)
        rw [nsmul_eq_mul] at bound
        omega
      apply ih
      · rw [length, sum]
        exact room
      · omega

/-! ### What truncation cuts off -/

/-- What is not negative is rounded down. -/
theorem truncate_eq_floor {x : Rat} (nonneg : 0 ≤ x.num) : truncate x = ⌊x⌋ := by
  rw [truncate, Int.tdiv_eq_ediv_of_nonneg nonneg, Rat.floor_def']

/-- Truncation takes less than one off. -/
theorem lt_truncate (x : Rat) : x - 1 < (truncate x : Rat) := by
  rcases Int.le_total 0 x.num with nonneg | nonpos
  · rw [truncate_eq_floor nonneg]
    exact Int.sub_one_lt_floor x
  · have mirrored : truncate x = -⌊-x⌋ := by
      rw [← truncate_eq_floor (by rw [Rat.neg_num]; omega), truncate, truncate, Rat.neg_num,
        Rat.neg_den, Int.neg_tdiv, Int.neg_neg]
    have below := Int.floor_le (-x)
    rw [mirrored, Int.cast_neg]
    linarith

/-- The cells that the weights stand for, truncated. -/
def truncatedCells (weights : List Rat) (numberOfCells : Int) : List Int :=
  weights.map fun b => truncate (b * numberOfCells)

/-- What truncation cuts off in all; it adds something where a weight is negative. -/
def cutOff (weights : List Rat) (numberOfCells : Int) : Rat :=
  (weights.map fun b => b * numberOfCells - truncate (b * numberOfCells)).sum

theorem cutOff_eq (weights : List Rat) (numberOfCells : Int) :
    cutOff weights numberOfCells =
      weights.sum * numberOfCells - ((truncatedCells weights numberOfCells).sum : Int) := by
  unfold cutOff truncatedCells
  induction weights with
  | nil => simp
  | cons b weights ih =>
    simp only [List.map_cons, List.sum_cons, ih, Int.cast_add]
    ring

/-- It is less than one cell for every window. -/
theorem cutOff_lt {weights : List Rat} (some_ : weights ≠ []) (numberOfCells : Int) :
    cutOff weights numberOfCells < weights.length := by
  unfold cutOff
  induction weights with
  | nil => exact absurd rfl some_
  | cons b weights ih =>
    have first := lt_truncate (b * numberOfCells)
    rw [List.map_cons, List.sum_cons, List.length_cons, Nat.cast_succ]
    by_cases more : weights = []
    · rw [more]
      simp only [List.map_nil, List.sum_nil]
      linarith
    · have rest := ih more
      linarith

/-- Weights that are not negative lose by truncation. -/
theorem cutOff_nonneg {weights : List Rat} {numberOfCells : Int} (cells : 0 ≤ numberOfCells)
    (nonneg : ∀ b ∈ weights, 0 ≤ b) : 0 ≤ cutOff weights numberOfCells := by
  apply List.sum_nonneg
  intro x mem
  obtain ⟨b, inWeights, rfl⟩ := List.mem_map.1 mem
  have product : 0 ≤ b * (numberOfCells : Rat) :=
    mul_nonneg (nonneg b inWeights) (Int.cast_nonneg cells)
  have below := Int.floor_le (b * (numberOfCells : Rat))
  rw [truncate_eq_floor (Rat.num_nonneg.2 product)]
  linarith

/-- Where the bias is used, the truncated cells leave room for the minimum of every window. -/
theorem truncatedCells_room {weights : List Rat} {numberOfWindows : Nat} {numberOfCells : Int}
    (one : weights.sum = 1) (uses : UsesBias weights numberOfWindows numberOfCells) :
    5 * ((truncatedCells weights numberOfCells).length : Int) <
      (truncatedCells weights numberOfCells).sum := by
  obtain ⟨several, same, wide⟩ := uses
  have some_ : weights ≠ [] := by
    rintro rfl
    simp at same
    omega
  have lost := cutOff_lt some_ numberOfCells
  rw [cutOff_eq, one, one_mul] at lost
  have cells : 6 * (numberOfWindows : Int) ≤ numberOfCells :=
    (Int.le_ediv_iff_mul_le (by omega)).1 wide
  have lost' : numberOfCells - (truncatedCells weights numberOfCells).sum <
      (weights.length : Int) := by
    exact_mod_cast lost
  have length : (truncatedCells weights numberOfCells).length = weights.length := by
    simp [truncatedCells]
  omega

/-! ### The cells of the windows -/

/-- The end of `calculate_cells_map`: the last window gets the cells that are left. -/
def giveRest (cellsMap : List Int) (numberOfCells : Int) : List Int :=
  if numberOfCells - cellsMap.sum > 0 then
    cellsMap.modify (cellsMap.length - 1) (· + (numberOfCells - cellsMap.sum))
  else cellsMap

theorem giveRest_spec {cellsMap : List Int} {numberOfCells : Int} (some_ : cellsMap ≠ [])
    (atMost : cellsMap.sum ≤ numberOfCells) :
    (giveRest cellsMap numberOfCells).length = cellsMap.length ∧
      (giveRest cellsMap numberOfCells).sum = numberOfCells ∧
      ∀ bound, (∀ c ∈ cellsMap, bound ≤ c) → ∀ c ∈ giveRest cellsMap numberOfCells, bound ≤ c := by
  unfold giveRest
  by_cases left : numberOfCells - cellsMap.sum > 0
  · have last : cellsMap.length - 1 < cellsMap.length :=
      Nat.sub_lt (List.length_pos_iff.2 some_) Nat.one_pos
    have sum := Sums.sum_map_modify id (· + (numberOfCells - cellsMap.sum))
      (List.getElem?_eq_getElem last)
    simp only [List.map_id, id_eq] at sum
    rw [if_pos left]
    refine ⟨List.length_modify .., by omega, ?_⟩
    intro bound all c mem
    obtain ⟨i, inside, rfl⟩ := List.mem_iff_getElem.1 mem
    rw [List.length_modify] at inside
    have least := all _ (List.getElem_mem inside)
    rw [List.getElem_modify]
    split
    · omega
    · exact least
  · rw [if_neg left]
    exact ⟨rfl, by omega, fun _ all => all⟩

/-- Without a bias that is used, all windows get the same, and the last one the rest. -/
theorem calculateCellsMap_even {bias : Bias} (noMap : ∀ increments, bias ≠ .map increments)
    {numberOfWindows : Nat} (some_ : numberOfWindows ≠ 0) {numberOfCells : Int}
    (unused : ∀ weights, bias = .list weights → ¬ UsesBias weights numberOfWindows numberOfCells)
    (rounds : Nat) :
    calculateCellsMap rounds bias numberOfWindows numberOfCells =
      some (giveRest (List.replicate numberOfWindows (numberOfCells / numberOfWindows))
        numberOfCells) := by
  unfold calculateCellsMap
  cases bias with
  | none =>
    simp only [if_neg some_]
    rfl
  | list weights =>
    simp only [biasWeights, Option.bind_eq_bind, Option.bind_some, if_neg some_,
      if_neg (unused weights rfl)]
    rfl
  | map increments => exact absurd rfl (noMap increments)

/-- Where the bias is used, the loop repairs the truncated cells. -/
theorem calculateCellsMap_biased {weights : List Rat} {numberOfWindows : Nat}
    {numberOfCells : Int} (uses : UsesBias weights numberOfWindows numberOfCells) (rounds : Nat) :
    calculateCellsMap rounds (.list weights) numberOfWindows numberOfCells =
      (stealLoop rounds (truncatedCells weights numberOfCells)).map (giveRest · numberOfCells) := by
  have some_ : numberOfWindows ≠ 0 := by
    have several := uses.1
    omega
  unfold calculateCellsMap
  simp only [biasWeights, Option.bind_eq_bind, Option.bind_some, if_neg some_, if_pos uses]
  unfold truncatedCells
  cases stealLoop rounds (weights.map fun b => truncate (b * numberOfCells)) with
  | none => rfl
  | some result => rfl

/-- What the cells of the windows are to be. -/
structure CellsMapWell (bias : Bias) (numberOfWindows : Nat) (numberOfCells : Int)
    (cellsMap : List Int) : Prop where
  length : cellsMap.length = numberOfWindows
  nonneg : ∀ c ∈ cellsMap, 0 ≤ c
  sum : cellsMap.sum = numberOfCells
  minimum : ∀ weights, bias = .list weights → UsesBias weights numberOfWindows numberOfCells →
    ∀ c ∈ cellsMap, 5 ≤ c

/-- The weights of a bias list that is used lose by truncation. -/
def LosesByTruncation (bias : Bias) (numberOfWindows : Nat) (numberOfCells : Int) : Prop :=
  ∀ weights, bias = .list weights → UsesBias weights numberOfWindows numberOfCells →
    0 ≤ cutOff weights numberOfCells

/-- The rounds that the loop of `calculate_cells_map` needs. -/
def stealRounds (bias : Bias) (numberOfCells : Int) : Nat :=
  match bias with
  | .list weights => deficit (truncatedCells weights numberOfCells)
  | _ => 0

/-- The bias is none or a list of weights that sum to one. -/
structure Bias.Weighted (bias : Bias) : Prop where
  noMap : ∀ increments, bias ≠ .map increments
  one : ∀ weights, bias = .list weights → weights.sum = 1

theorem truncatedCells_sum {weights : List Rat} (one : weights.sum = 1) (numberOfCells : Int) :
    0 ≤ cutOff weights numberOfCells ↔
      (truncatedCells weights numberOfCells).sum ≤ numberOfCells := by
  rw [cutOff_eq, one, one_mul, sub_nonneg]
  exact Int.cast_le

/-- The windows get their cells, whatever number of rounds from some on the loop is given. -/
theorem calculateCellsMap_counts {bias : Bias} (weighted : bias.Weighted) {numberOfWindows : Nat}
    (some_ : numberOfWindows ≠ 0) {numberOfCells : Int} (nonneg : 0 ≤ numberOfCells)
    (loses : LosesByTruncation bias numberOfWindows numberOfCells) {rounds : Nat}
    (enough : stealRounds bias numberOfCells < rounds) :
    ∃ cellsMap, calculateCellsMap rounds bias numberOfWindows numberOfCells = some cellsMap ∧
      CellsMapWell bias numberOfWindows numberOfCells cellsMap := by
  by_cases used : ∃ weights, bias = .list weights ∧
      UsesBias weights numberOfWindows numberOfCells
  · obtain ⟨weights, rfl, uses⟩ := used
    have one := weighted.one weights rfl
    obtain ⟨result, loop, least⟩ := stealLoop_ends (truncatedCells_room one uses) enough
    obtain ⟨length, sum⟩ := stealLoop_sum loop
    have length' : result.length = numberOfWindows := by
      rw [length, truncatedCells, List.length_map]
      exact uses.2.1.symm
    have atMost := (truncatedCells_sum one numberOfCells).1 (loses weights rfl uses)
    obtain ⟨restLength, restSum, restLeast⟩ := @giveRest_spec result numberOfCells
      (by rintro rfl; exact some_ length'.symm) (by rw [sum]; exact atMost)
    refine ⟨giveRest result numberOfCells, ?_, ?_⟩
    · rw [calculateCellsMap_biased uses, loop]
      rfl
    · exact
        { length := restLength.trans length'
          nonneg := fun c mem => Int.le_trans (by decide) (restLeast 5 least c mem)
          sum := restSum
          minimum := fun _ _ _ => restLeast 5 least }
  · have unused : ∀ weights, bias = .list weights →
        ¬ UsesBias weights numberOfWindows numberOfCells :=
      fun weights same uses => used ⟨weights, same, uses⟩
    have positive : (0 : Int) < numberOfWindows := by omega
    have sum : (List.replicate numberOfWindows (numberOfCells / (numberOfWindows : Int))).sum =
        numberOfWindows * (numberOfCells / numberOfWindows) := by
      rw [List.sum_replicate, nsmul_eq_mul]
    obtain ⟨restLength, restSum, restLeast⟩ :=
      @giveRest_spec (List.replicate numberOfWindows (numberOfCells / numberOfWindows))
        numberOfCells (by simpa using some_) (by
          rw [sum]
          exact Int.mul_ediv_self_le (by omega))
    refine ⟨_, calculateCellsMap_even weighted.noMap some_ unused rounds, ?_⟩
    exact
      { length := restLength.trans List.length_replicate
        nonneg := restLeast 0 fun c mem => by
          rw [List.eq_of_mem_replicate mem]
          exact Int.ediv_nonneg nonneg (Int.le_of_lt positive)
        sum := restSum
        minimum := fun weights same uses => absurd uses (unused weights same) }

/-- The cells sum to their number only if truncation does not add any. -/
theorem losesByTruncation_of_sum {bias : Bias} (weighted : bias.Weighted) {rounds : Nat}
    {numberOfWindows : Nat} {numberOfCells : Int} {cellsMap : List Int}
    (h : calculateCellsMap rounds bias numberOfWindows numberOfCells = some cellsMap)
    (sum : cellsMap.sum = numberOfCells) :
    LosesByTruncation bias numberOfWindows numberOfCells := by
  rintro weights rfl uses
  rw [truncatedCells_sum (weighted.one weights rfl)]
  rw [calculateCellsMap_biased uses] at h
  obtain ⟨result, loop, rest⟩ := Option.map_eq_some_iff.1 h
  obtain ⟨-, same⟩ := stealLoop_sum loop
  by_contra more
  have none_ : ¬ numberOfCells - result.sum > 0 := by omega
  rw [giveRest, if_neg none_] at rest
  rw [← rest] at sum
  omega

/-! ### Segments -/

/-- The segments lie one behind the other from one position to another, each with its spaces and its
content in order. -/
def Tiles : (start stop : Int) → List LayoutData → Prop
  | start, stop, [] => start = stop
  | start, stop, segment :: rest =>
    segment.contentPos - segment.spaceBefore = start ∧ 0 ≤ segment.spaceBefore ∧
      0 ≤ segment.contentSize ∧ 0 ≤ segment.spaceAfter ∧
      Tiles (segment.contentPos + segment.contentSize + segment.spaceAfter) stop rest

/-- What the windows need in all. -/
def neededSpace (cellLength : Int) (windows : List (Int × Int × Int)) : Int :=
  (windows.map fun window => window.1 * cellLength + window.2.1 + window.2.2).sum

/-- The segments fill the space if it is as large as the windows need. -/
theorem layoutSegments_tiles {startAt length cellLength : Int} (positive : 0 ≤ cellLength)
    {windows : List (Int × Int × Int)} (some_ : windows ≠ [])
    (nonneg : ∀ window ∈ windows, 0 ≤ window.1 ∧ 0 ≤ window.2.1 ∧ 0 ≤ window.2.2) {first : Bool}
    {start pos : Int} (begins : start = if first then startAt else pos) (inside : start ≤ pos)
    (room : pos + neededSpace cellLength windows ≤ startAt + length) :
    Tiles start (startAt + length)
      (layoutSegments startAt length cellLength first pos windows) := by
  induction windows generalizing first start pos with
  | nil => exact absurd rfl some_
  | cons window rest ih =>
    obtain ⟨cells, before, after⟩ := window
    have here := nonneg _ List.mem_cons_self
    have beforeNonneg : 0 ≤ before := here.2.1
    have afterNonneg : 0 ≤ after := here.2.2
    have content : 0 ≤ cells * cellLength := Int.mul_nonneg here.1 positive
    have needed : neededSpace cellLength ((cells, before, after) :: rest) =
        cells * cellLength + before + after + neededSpace cellLength rest := rfl
    rw [needed] at room
    have spaceBefore : (if first then pos + before - startAt else before) =
        pos + before - start := by
      cases first with
      | false =>
        simp only [Bool.false_eq_true, if_false] at begins ⊢
        omega
      | true =>
        simp only [if_true] at begins ⊢
        omega
    unfold layoutSegments Tiles
    simp only [spaceBefore]
    refine ⟨by omega, by omega, content, ?_, ?_⟩
    · split
      · rename_i last
        rw [last] at room
        have none_ : neededSpace cellLength [] = 0 := rfl
        omega
      · exact afterNonneg
    · by_cases last : rest = []
      · rw [if_pos last, last]
        unfold layoutSegments Tiles
        omega
      · rw [if_neg last]
        apply ih last (fun window mem => nonneg window (List.mem_cons_of_mem _ mem))
        · simp only [Bool.false_eq_true, if_false]
          omega
        · omega
        · omega

/-- The segments hold the cells of the windows. -/
theorem layoutSegments_cells (startAt length cellLength : Int) (first : Bool) (pos : Int)
    (windows : List (Int × Int × Int)) :
    (layoutSegments startAt length cellLength first pos windows).map LayoutData.cellsPerWindow =
        windows.map Prod.fst ∧
      ∀ segment ∈ layoutSegments startAt length cellLength first pos windows,
        segment.contentSize = segment.cellsPerWindow * cellLength := by
  induction windows generalizing first pos with
  | nil => exact ⟨rfl, fun segment mem => absurd mem List.not_mem_nil⟩
  | cons window rest ih =>
    unfold layoutSegments
    simp only [List.map_cons, (ih _ _).1, List.forall_mem_cons, true_and]
    exact (ih _ _).2

theorem neededSpace_zip (cellLength : Int) {cellsMap : List Int}
    {decorationPairs : List (Int × Int)} (same : cellsMap.length = decorationPairs.length) :
    neededSpace cellLength (cellsMap.zip decorationPairs) =
      cellsMap.sum * cellLength + decorationSpace decorationPairs := by
  unfold neededSpace decorationSpace
  induction cellsMap generalizing decorationPairs with
  | nil =>
    cases decorationPairs with
    | nil => simp
    | cons pair pairs => cases same
  | cons cells cellsMap ih =>
    cases decorationPairs with
    | nil => cases same
    | cons pair pairs =>
      have rest := ih (Nat.succ.inj same)
      simp only [List.zip_cons_cons, List.map_cons, List.sum_cons, rest]
      ring

theorem decorationSpace_nonneg {decorationPairs : List (Int × Int)}
    (nonneg : ∀ pair ∈ decorationPairs, 0 ≤ pair.1 ∧ 0 ≤ pair.2) :
    0 ≤ decorationSpace decorationPairs := by
  apply List.sum_nonneg
  intro x mem
  obtain ⟨pair, inPairs, rfl⟩ := List.mem_map.1 mem
  exact Int.add_nonneg (nonneg pair inPairs).1 (nonneg pair inPairs).2

/-! ### The whole dimension -/

/-- With so many rounds the loops end, every window gets its cells, and the segments fill the
space. -/
def DividesIn (rounds : Nat) (startAt length cellLength : Int) (decorationPairs : List (Int × Int))
    (leftAlign : Bool) (bias : Bias) : Prop :=
  ∃ numberOfCells cellsMap segments,
    fitDecorations length cellLength (decorationSpace decorationPairs) rounds
        (length.fdiv cellLength) = some numberOfCells ∧
      calculateCellsMap rounds bias decorationPairs.length numberOfCells = some cellsMap ∧
      CellsMapWell bias decorationPairs.length numberOfCells cellsMap ∧
      layoutDimension rounds startAt length cellLength decorationPairs leftAlign bias =
        some segments ∧
      segments.map LayoutData.cellsPerWindow = cellsMap ∧
      (∀ segment ∈ segments, segment.contentSize = segment.cellsPerWindow * cellLength) ∧
      Tiles startAt (startAt + length) segments

/-- It is so with some number of rounds. -/
def DividesWell (startAt length cellLength : Int) (decorationPairs : List (Int × Int))
    (leftAlign : Bool) (bias : Bias) : Prop :=
  ∃ rounds, DividesIn rounds startAt length cellLength decorationPairs leftAlign bias

/-- The rounds that the loops need. -/
def layoutRounds (length cellLength spaceNeeded : Int) (bias : Bias) : Nat :=
  (length.fdiv cellLength - cellsThatFit length cellLength spaceNeeded).toNat +
    stealRounds bias (cellsThatFit length cellLength spaceNeeded)

/-- A dimension with room for the decorations is divided well. -/
theorem layoutDimension_divides (startAt : Int) {length cellLength : Int}
    (positive : 0 < cellLength) {decorationPairs : List (Int × Int)} (some_ : decorationPairs ≠ [])
    (nonneg : ∀ pair ∈ decorationPairs, 0 ≤ pair.1 ∧ 0 ≤ pair.2) (leftAlign : Bool) {bias : Bias}
    (weighted : bias.Weighted) (fits : decorationSpace decorationPairs ≤ length)
    (loses : LosesByTruncation bias decorationPairs.length
      (cellsThatFit length cellLength (decorationSpace decorationPairs))) {rounds : Nat}
    (enough : layoutRounds length cellLength (decorationSpace decorationPairs) bias < rounds) :
    DividesIn rounds startAt length cellLength decorationPairs leftAlign bias := by
  have needed := decorationSpace_nonneg nonneg
  have above := @cellsThatFit_le length _ _ positive needed
  have fit : cellsThatFit length cellLength (decorationSpace decorationPairs) * cellLength ≤
      length - decorationSpace decorationPairs :=
    Int.ediv_mul_le _ (Int.ne_of_gt positive)
  unfold layoutRounds at enough
  have cells : 0 ≤ cellsThatFit length cellLength (decorationSpace decorationPairs) :=
    Int.ediv_nonneg (by omega) (Int.le_of_lt positive)
  have ends := @fitDecorations_ends length _ _ positive rounds _ above (by omega)
  obtain ⟨cellsMap, counts, well⟩ := @calculateCellsMap_counts bias weighted
    decorationPairs.length (by simpa using some_) _ cells loses rounds (by omega)
  have zipped : cellsMap.zip decorationPairs ≠ [] := by
    intro none_
    have count := congrArg List.length none_
    rw [List.length_zip, well.length, Nat.min_self] at count
    exact some_ (List.length_eq_zero_iff.1 count)
  let extra := length - cellsThatFit length cellLength (decorationSpace decorationPairs) *
    cellLength - decorationSpace decorationPairs
  let pos := if leftAlign then startAt else startAt + extra / 2
  have shifted : startAt ≤ pos ∧ pos ≤ startAt + extra := by
    unfold pos
    split
    · omega
    · omega
  have contents := layoutSegments_cells startAt length cellLength true pos
    (cellsMap.zip decorationPairs)
  refine ⟨_, cellsMap, layoutSegments startAt length cellLength true pos
    (cellsMap.zip decorationPairs), ends, counts, well, ?_, ?_, contents.2, ?_⟩
  · unfold layoutDimension
    rw [if_neg (Int.ne_of_gt positive)]
    simp only [ends, Option.bind_eq_bind, Option.bind_some, counts, well.sum]
    exact if_neg fun other => other rfl
  · rw [contents.1]
    exact List.map_fst_zip (Nat.le_of_eq well.length)
  · apply layoutSegments_tiles (Int.le_of_lt positive) zipped
    · intro window mem
      obtain ⟨inCells, inPairs⟩ := List.of_mem_zip mem
      exact ⟨well.nonneg _ inCells, nonneg _ inPairs⟩
    · rfl
    · exact shifted.1
    · rw [neededSpace_zip cellLength well.length, well.sum]
      omega

/-- A dimension is divided well exactly where the decorations fit and the weights of a bias list
that is used lose by truncation. -/
theorem layoutTiling (startAt : Int) {length cellLength : Int} (positive : 0 < cellLength)
    {decorationPairs : List (Int × Int)} (some_ : decorationPairs ≠ [])
    (nonneg : ∀ pair ∈ decorationPairs, 0 ≤ pair.1 ∧ 0 ≤ pair.2) (leftAlign : Bool) {bias : Bias}
    (weighted : bias.Weighted) :
    DividesWell startAt length cellLength decorationPairs leftAlign bias ↔
      decorationSpace decorationPairs ≤ length ∧
        LosesByTruncation bias decorationPairs.length
          (cellsThatFit length cellLength (decorationSpace decorationPairs)) := by
  have needed := decorationSpace_nonneg nonneg
  have above := @cellsThatFit_le length _ _ positive needed
  have fit : cellsThatFit length cellLength (decorationSpace decorationPairs) * cellLength ≤
      length - decorationSpace decorationPairs :=
    Int.ediv_mul_le _ (Int.ne_of_gt positive)
  constructor
  · rintro ⟨rounds, numberOfCells, cellsMap, segments, ends, counts, well, -⟩
    obtain rfl := fitDecorations_eq_some positive above ends
    refine ⟨?_, losesByTruncation_of_sum weighted counts well.sum⟩
    have cells : 0 ≤ cellsThatFit length cellLength (decorationSpace decorationPairs) := by
      rw [← well.sum]
      exact List.sum_nonneg well.nonneg
    have product := Int.mul_nonneg cells (Int.le_of_lt positive)
    omega
  · rintro ⟨fits, loses⟩
    exact ⟨_, layoutDimension_divides startAt positive some_ nonneg leftAlign weighted fits loses
      (Nat.lt_succ_self _)⟩

/-- Three windows side by side, the second of which has no weight. -/
theorem layoutTiling_three :
    DividesWell 0 200 10 [(1, 1), (1, 1), (2, 2)] false (.list [1 / 10, 0, 9 / 10]) := by
  have nonneg : ∀ pair ∈ [((1 : Int), (1 : Int)), (1, 1), (2, 2)], 0 ≤ pair.1 ∧ 0 ≤ pair.2 := by
    decide
  have weighted : (Bias.list [1 / 10, 0, 9 / 10]).Weighted := by
    refine ⟨fun increments => Bias.noConfusion, ?_⟩
    rintro weights same
    rw [← Bias.list.inj same]
    norm_num
  apply (layoutTiling 0 (by decide) (List.cons_ne_nil _ _) nonneg false weighted).2
  refine ⟨by decide, ?_⟩
  rintro weights same -
  rw [← Bias.list.inj same]
  apply cutOff_nonneg (by decide)
  intro b mem
  simp only [List.mem_cons, List.not_mem_nil, or_false] at mem
  rcases mem with rfl | rfl | rfl
  · norm_num
  · norm_num
  · norm_num

/-- A window whose decorations are wider than the space gets a negative number of cells. -/
theorem layoutTiling_narrow :
    layoutDimension 5 0 10 5 [(6, 6)] false .none =
        some [{ contentPos := 7, cellsPerWindow := -1, spaceBefore := 7, spaceAfter := 8,
                contentSize := -5 }] ∧
      ¬ DividesWell 0 10 5 [(6, 6)] false .none := by
  refine ⟨by decide, ?_⟩
  rintro ⟨rounds, numberOfCells, cellsMap, segments, ends, -, well, -⟩
  obtain rfl := fitDecorations_eq_some (by decide) (by decide) ends
  have cells : (0 : Int) ≤ cellsThatFit 10 5 (decorationSpace [(6, 6)]) := by
    rw [← well.sum]
    exact List.sum_nonneg well.nonneg
  exact absurd cells (by decide)

end Smelly
