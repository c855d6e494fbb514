/-
Module: Smelly.Proofs.SpriteAllocation
Purpose: The positions that sprites are given: the three counters are the digits of the number of
  sprites, so that the positions are distinct and inside the limits as long as there is space; the
  error is reported at a carry only, and what is allocated behind it is outside the limits.
Trusted boundary: none
-/
import Smelly.Core.SpriteTracker
import Mathlib.Tactic.SplitIfs
import Mathlib.Data.List.Basic

namespace Smelly

/-! ### Runs -/

/-- The request makes a new position. -/
def SpriteRequest.Allocates (self : SpriteRequest) (fg : FontGroup) : Prop :=
  self.scratch ∧ self.item ∧ fg.spritePosition? self.key = none

instance (request : SpriteRequest) (fg : FontGroup) : Decidable (request.Allocates fg) :=
  inferInstanceAs (Decidable (_ ∧ _ ∧ _))

/-- The new positions of a run of `sprite_position_for`, each with its error. -/
def allocations (limits : SpriteLimits) : FontGroup → List SpriteRequest →
    List (Option SpritePosition × Nat)
  | _, [] => []
  | fg, request :: rest =>
    let (next, result) := spritePositionFor limits fg request
    if request.Allocates fg then result :: allocations limits next rest
    else allocations limits next rest

/-- The keys of the requests that memory is there for and that were not seen before. -/
def newKeys (seen : List SpriteKey) : List SpriteRequest → List SpriteKey
  | [] => []
  | request :: rest =>
    if request.scratch ∧ request.item ∧ request.key ∉ seen then
      request.key :: newKeys (request.key :: seen) rest
    else newKeys seen rest

/-- As long as no error was reported, a new position is inside the limits and not that of an earlier
sprite; when all positions are taken, the error is reported for every later sprite. -/
structure Allocates (xnum maxY layers : Nat) (allocated : List (Option SpritePosition × Nat)) :
    Prop where
  inside : ∀ (i : Nat) (s : Option SpritePosition) (error : Nat), allocated[i]? = some (s, error) →
    (∀ j < i, ∀ earlier : Option SpritePosition × Nat, allocated[j]? = some earlier →
      earlier.2 = 0) →
      ∃ position : SpritePosition, s = some position ∧ position.x < xnum ∧ position.y < maxY ∧
        position.z < layers ∧
        ∀ j < i, ∀ earlier : Option SpritePosition × Nat, allocated[j]? = some earlier →
          earlier.1 ≠ s
  exhausted : ∀ (i : Nat) (s : Option SpritePosition) (error : Nat),
    allocated[i]? = some (s, error) → xnum * maxY * layers ≤ i →
      error ≠ 0 ∧ spriteMapSetError error = .runtimeError "Out of texture space for sprites"

/-! ### The counters -/

/-- The tracker after a number of increments. -/
structure CountsAt (xnum maxY : Nat) (count : Nat) (tracker : SpriteTracker) : Prop where
  columns : tracker.xnum = xnum
  rows : tracker.maxY = maxY
  x : tracker.x = count % xnum
  y : tracker.y = count / xnum % maxY
  z : tracker.z = count / xnum / maxY % 2 ^ 32

/-- The error that the sprite after `count` others reports. -/
def errorAt (xnum maxY layers count : Nat) : Nat :=
  if (count + 1) % xnum = 0 ∧ (count + 1) / xnum % maxY = 0 ∧
      layers ≤ (count + 1) / xnum / maxY % 2 ^ 32 then 2 else 0

/-- The position of the sprite after `count` others. -/
def positionAt (xnum maxY count : Nat) : SpritePosition :=
  { x := count % xnum % 2 ^ 16
    y := count / xnum % maxY % 2 ^ 16
    z := count / xnum / maxY % 2 ^ 32 % 2 ^ 16 }

/-- A digit below its base is counted up. -/
theorem digit_next {count base : Nat} (room : count % base + 1 < base) :
    (count + 1) % base = count % base + 1 ∧ (count + 1) / base = count / base := by
  have shape : count + 1 = base * (count / base) + (count % base + 1) := by
    rw [← Nat.add_assoc, Nat.div_add_mod]
  constructor
  · rw [shape, Nat.mul_add_mod, Nat.mod_eq_of_lt room]
  · rw [shape, Nat.mul_add_div (Nat.lt_of_le_of_lt (Nat.zero_le _) room), Nat.div_eq_of_lt room,
      Nat.add_zero]

/-- A digit at its base is carried. -/
theorem digit_carry {count base : Nat} (positive : 0 < base) (full : base ≤ count % base + 1) :
    (count + 1) % base = 0 ∧ (count + 1) / base = count / base + 1 := by
  have last : count % base + 1 = base := Nat.le_antisymm (Nat.mod_lt _ positive) full
  have shape : count + 1 = base * (count / base + 1) := by
    rw [Nat.mul_add, Nat.mul_one, ← last, ← Nat.add_assoc, last, Nat.div_add_mod]
  constructor
  · rw [shape, Nat.mul_mod_right]
  · rw [shape, Nat.mul_div_cancel_left _ positive]

/-- An increment counts one sprite, and the error is that of the last carry. -/
theorem doIncrement_counts (limits : SpriteLimits) {xnum maxY count : Nat} (columns : 0 < xnum)
    (rows : 0 < maxY) (fewColumns : xnum ≤ 0xffff) (fewRows : maxY ≤ 0xffff)
    {tracker : SpriteTracker} (counts : CountsAt xnum maxY count tracker) :
    CountsAt xnum maxY (count + 1) (doIncrement limits tracker).1 ∧
      (doIncrement limits tracker).2 = errorAt xnum maxY limits.layers count := by
  have xBound := Nat.mod_lt count columns
  have yBound := Nat.mod_lt (count / xnum) rows
  have xSmall : (tracker.x + 1) % 2 ^ 32 = count % xnum + 1 := by
    rw [counts.x, Nat.mod_eq_of_lt (by omega)]
  have ySmall : (tracker.y + 1) % 2 ^ 32 = count / xnum % maxY + 1 := by
    rw [counts.y, Nat.mod_eq_of_lt (by omega)]
  unfold doIncrement errorAt
  dsimp only
  rw [xSmall, ySmall, counts.columns, counts.rows]
  by_cases wide : xnum ≤ count % xnum + 1
  · obtain ⟨xZero, carried⟩ := digit_carry columns wide
    rw [if_pos wide]
    by_cases high : maxY ≤ count / xnum % maxY + 1
    · obtain ⟨yZero, layer⟩ := digit_carry rows high
      have zNext : (tracker.z + 1) % 2 ^ 32 = (count / xnum / maxY + 1) % 2 ^ 32 := by
        rw [counts.z, Nat.mod_add_mod]
      rw [if_pos high]
      refine ⟨⟨rfl, rfl, xZero.symm, ?_, ?_⟩, ?_⟩
      · rw [carried]
        exact yZero.symm
      · rw [carried, layer]
        exact zNext
      · rw [carried, layer, zNext]
        simp only [xZero, yZero, true_and]
    · obtain ⟨yNext, layer⟩ := digit_next (Nat.lt_of_not_le high)
      rw [if_neg high]
      refine ⟨⟨rfl, rfl, xZero.symm, ?_, ?_⟩, ?_⟩
      · rw [carried]
        exact yNext.symm
      · rw [carried, layer]
        exact counts.z
      · rw [carried, if_neg]
        rintro ⟨-, yZero, -⟩
        rw [yNext] at yZero
        cases yZero
  · obtain ⟨xNext, same⟩ := digit_next (Nat.lt_of_not_le wide)
    rw [if_neg wide]
    refine ⟨⟨rfl, rfl, xNext.symm, ?_, ?_⟩, ?_⟩
    · rw [same]
      exact counts.y
    · rw [same]
      exact counts.z
    · rw [if_neg]
      rintro ⟨xZero, -⟩
      rw [xNext] at xZero
      cases xZero

/-! ### The new positions of a run -/

theorem spritePosition?_eq_none {fg : FontGroup} {key : SpriteKey} :
    fg.spritePosition? key = none ↔ key ∉ fg.spritePositions.map Prod.fst := by
  unfold FontGroup.spritePosition?
  rw [Option.map_eq_none_iff, List.find?_eq_none, List.mem_map]
  constructor
  · rintro unseen ⟨entry, mem, rfl⟩
    exact unseen entry mem (decide_eq_true rfl)
  · intro unseen entry mem found
    exact unseen ⟨entry, mem, of_decide_eq_true found⟩

/-- A request that makes a new position takes the place of the tracker. -/
theorem spritePositionFor_new {fg : FontGroup} {request : SpriteRequest}
    (fresh : request.Allocates fg) (limits : SpriteLimits) :
    spritePositionFor limits fg request =
      ({ spriteTracker := (doIncrement limits fg.spriteTracker).1
         spritePositions := (request.key,
           { x := fg.spriteTracker.x % 2 ^ 16
             y := fg.spriteTracker.y % 2 ^ 16
             z := fg.spriteTracker.z % 2 ^ 16 }) :: fg.spritePositions },
        some { x := fg.spriteTracker.x % 2 ^ 16
               y := fg.spriteTracker.y % 2 ^ 16
               z := fg.spriteTracker.z % 2 ^ 16 },
        (doIncrement limits fg.spriteTracker).2) := by
  obtain ⟨scratch, item, unseen⟩ := fresh
  rw [spritePositionFor, if_pos scratch, unseen]
  dsimp only
  rw [if_pos item]

/-- Any other request changes nothing. -/
theorem spritePositionFor_other {fg : FontGroup} {request : SpriteRequest}
    (known : ¬request.Allocates fg) (limits : SpriteLimits) :
    (spritePositionFor limits fg request).1 = fg := by
  rw [spritePositionFor]
  by_cases scratch : request.scratch
  · rw [if_pos scratch]
    cases found : fg.spritePosition? request.key with
    | some s => rfl
    | none =>
      have noItem : ¬request.item := fun item => known ⟨scratch, item, found⟩
      dsimp only
      rw [if_neg noItem]
  · rw [if_neg scratch]

/-- The new positions of a run are those of the numbers that are counted. -/
theorem allocations_eq (limits : SpriteLimits) {xnum maxY : Nat} (columns : 0 < xnum)
    (rows : 0 < maxY) (fewColumns : xnum ≤ 0xffff) (fewRows : maxY ≤ 0xffff)
    (requests : List SpriteRequest) :
    ∀ (fg : FontGroup) (count : Nat), CountsAt xnum maxY count fg.spriteTracker →
      allocations limits fg requests =
        (List.range' count (newKeys (fg.spritePositions.map Prod.fst) requests).length).map
          fun n => (some (positionAt xnum maxY n), errorAt xnum maxY limits.layers n) := by
  induction requests with
  | nil => exact fun _ _ _ => rfl
  | cons request rest ih =>
    intro fg count counts
    have same : request.Allocates fg ↔ request.scratch ∧ request.item ∧
        request.key ∉ fg.spritePositions.map Prod.fst := by
      rw [SpriteRequest.Allocates, spritePosition?_eq_none]
    rw [allocations, newKeys]
    dsimp only
    by_cases fresh : request.Allocates fg
    · obtain ⟨next, error⟩ := doIncrement_counts limits columns rows fewColumns fewRows counts
      rw [if_pos fresh, if_pos (same.1 fresh), spritePositionFor_new fresh limits,
        List.length_cons, List.range'_succ, List.map_cons]
      dsimp only
      rw [ih _ (count + 1) next, error, counts.x, counts.y, counts.z]
      rfl
    · rw [if_neg fresh, if_neg fun new => fresh (same.2 new), spritePositionFor_other fresh limits]
      exact ih fg count counts

/-! ### Where the positions lie -/

theorem positionAt_inside {xnum maxY layers count : Nat} (columns : 0 < xnum) (rows : 0 < maxY)
    (fewColumns : xnum ≤ 0xffff) (fewRows : maxY ≤ 0xffff) (fewLayers : layers ≤ 0xffff)
    (space : count < xnum * maxY * layers) :
    (positionAt xnum maxY count).x = count % xnum ∧
      (positionAt xnum maxY count).y = count / xnum % maxY ∧
      (positionAt xnum maxY count).z = count / xnum / maxY ∧ count / xnum / maxY < layers := by
  have xBound := Nat.mod_lt count columns
  have yBound := Nat.mod_lt (count / xnum) rows
  have zBound : count / xnum / maxY < layers := by
    rw [Nat.div_div_eq_div_mul, Nat.div_lt_iff_lt_mul (Nat.mul_pos columns rows), Nat.mul_comm]
    exact space
  refine ⟨Nat.mod_eq_of_lt (by omega), Nat.mod_eq_of_lt (by omega), ?_, zBound⟩
  show count / xnum / maxY % 2 ^ 32 % 2 ^ 16 = _
  rw [Nat.mod_eq_of_lt (show count / xnum / maxY < 2 ^ 32 by omega), Nat.mod_eq_of_lt (by omega)]

/-- The digits of a number are different from those of any other one. -/
theorem positionAt_injective {xnum maxY layers first second : Nat} (columns : 0 < xnum)
    (rows : 0 < maxY) (fewColumns : xnum ≤ 0xffff) (fewRows : maxY ≤ 0xffff)
    (fewLayers : layers ≤ 0xffff) (space : first < xnum * maxY * layers)
    (room : second < xnum * maxY * layers)
    (same : positionAt xnum maxY first = positionAt xnum maxY second) : first = second := by
  obtain ⟨x₁, y₁, z₁, -⟩ :=
    positionAt_inside columns rows fewColumns fewRows fewLayers space
  obtain ⟨x₂, y₂, z₂, -⟩ :=
    positionAt_inside columns rows fewColumns fewRows fewLayers room
  rw [same] at x₁ y₁ z₁
  have rowsSame : first / xnum = second / xnum := by
    rw [← Nat.div_add_mod (first / xnum) maxY, ← Nat.div_add_mod (second / xnum) maxY, ← y₁, ← z₁,
      y₂, z₂]
  rw [← Nat.div_add_mod first xnum, ← Nat.div_add_mod second xnum, rowsSame, ← x₁, x₂]

/-- Behind the last position the error is reported for every sprite only if each is a layer of its
own. -/
theorem errorAt_exhausted {xnum maxY layers : Nat} (columns : 0 < xnum) (rows : 0 < maxY)
    (error : errorAt xnum maxY layers (xnum * maxY * layers) ≠ 0) : xnum = 1 ∧ maxY = 1 := by
  unfold errorAt at error
  split_ifs at error with carry
  · obtain ⟨xZero, yZero, -⟩ := carry
    rw [Nat.mul_assoc, Nat.mul_add_mod] at xZero
    have one : xnum = 1 := by
      rcases Nat.lt_or_ge 1 xnum with several | single
      · rw [Nat.mod_eq_of_lt several] at xZero
        cases xZero
      · omega
    subst one
    rw [Nat.one_mul, Nat.div_one, Nat.mul_add_mod] at yZero
    rcases Nat.lt_or_ge 1 maxY with several | single
    · rw [Nat.mod_eq_of_lt several] at yZero
      cases yZero
    · exact ⟨rfl, by omega⟩
  · exact absurd rfl error

theorem errorAt_layers {layers count : Nat} (behind : layers ≤ count + 1)
    (few : count + 1 < 2 ^ 32) : errorAt 1 1 layers count = 2 := by
  rw [errorAt, if_pos]
  refine ⟨Nat.mod_one _, Nat.mod_one _, ?_⟩
  rw [Nat.div_one, Nat.div_one, Nat.mod_eq_of_lt few]
  exact behind

/-- What a run allocates, by its number. -/
theorem getElem?_counted {n i : Nat} {f : Nat → Option SpritePosition × Nat}
    {found : Option SpritePosition × Nat}
    (at_ : ((List.range' 0 n).map f)[i]? = some found) : i < n ∧ f i = found := by
  obtain ⟨bound, value⟩ := List.getElem?_eq_some_iff.1 at_
  rw [List.length_map, List.length_range'] at bound
  rw [List.getElem_map, List.getElem_range', Nat.zero_add, Nat.one_mul] at value
  exact ⟨bound, value⟩

theorem counted_getElem? {n i : Nat} (f : Nat → Option SpritePosition × Nat) (inside : i < n) :
    ((List.range' 0 n).map f)[i]? = some (f i) := by
  rw [List.getElem?_map, List.getElem?_range' inside, Nat.zero_add, Nat.one_mul]
  rfl

/-- The claim about the new positions holds of a run as long as it makes no more than there is space
for, and in the texture of one sprite, where every sprite carries into a new layer. -/
theorem allocates_counted {xnum maxY layers : Nat} (columns : 0 < xnum) (rows : 0 < maxY)
    (fewColumns : xnum ≤ 0xffff) (fewRows : maxY ≤ 0xffff) (fewLayers : layers ≤ 0xffff) (n : Nat) :
    Allocates xnum maxY layers ((List.range' 0 n).map fun i =>
        (some (positionAt xnum maxY i), errorAt xnum maxY layers i)) ↔
      n ≤ xnum * maxY * layers ∨ (xnum = 1 ∧ maxY = 1 ∧ 0 < layers ∧ n < 2 ^ 32) := by
  let place := fun i => (some (positionAt xnum maxY i), errorAt xnum maxY layers i)
  have spaced : ∀ i < n, i < xnum * maxY * layers → ∃ position, (place i).1 = some position ∧
      position.x < xnum ∧ position.y < maxY ∧ position.z < layers ∧
      ∀ j < i, ∀ earlier, ((List.range' 0 n).map place)[j]? = some earlier →
        earlier.1 ≠ (place i).1 := by
    intro i _ space
    obtain ⟨x, y, z, bound⟩ :=
      positionAt_inside columns rows fewColumns fewRows fewLayers space
    refine ⟨_, rfl, ?_, ?_, ?_, ?_⟩
    · rw [x]
      exact Nat.mod_lt _ columns
    · rw [y]
      exact Nat.mod_lt _ rows
    · rw [z]
      exact bound
    · intro j before earlier at_ same
      obtain ⟨-, rfl⟩ := getElem?_counted at_
      have equal := positionAt_injective columns rows fewColumns fewRows fewLayers
        (Nat.lt_trans before space) space (Option.some.inj same)
      exact absurd before (by rw [equal]; exact Nat.lt_irrefl _)
  constructor
  · intro allocates
    by_contra neither
    obtain ⟨many, notSingle⟩ := not_or.1 neither
    have more := Nat.lt_of_not_le many
    rcases Nat.eq_zero_or_pos layers with none_ | some_
    · have first := counted_getElem? place (Nat.lt_of_le_of_lt (Nat.zero_le _) more)
      obtain ⟨position, -, -, -, low, -⟩ :=
        allocates.inside 0 _ _ first fun j before => absurd before (Nat.not_lt_zero j)
      rw [none_] at low
      exact Nat.not_lt_zero _ low
    · have next := counted_getElem? place more
      obtain ⟨single, row⟩ := errorAt_exhausted columns rows
        (allocates.exhausted _ _ _ next (Nat.le_refl _)).1
      have wraps : 2 ^ 32 ≤ n := by
        apply Nat.le_of_not_lt
        exact fun few => notSingle ⟨single, row, some_, few⟩
      have wrapped := counted_getElem? place (show 2 ^ 32 - 1 < n by omega)
      apply (allocates.exhausted _ _ _ wrapped ?_).1
      · show errorAt xnum maxY layers (2 ^ 32 - 1) = 0
        rw [single, row, errorAt, if_neg]
        rintro ⟨-, -, late⟩
        rw [Nat.div_one, Nat.div_one, show (2 ^ 32 - 1 + 1) % 2 ^ 32 = 0 from rfl] at late
        omega
      · rw [single, row]
        omega
  · intro condition
    constructor
    · intro i s error at_ unreported
      obtain ⟨inside, value⟩ := getElem?_counted at_
      cases value
      by_cases space : i < xnum * maxY * layers
      · exact spaced i inside space
      · rcases condition with enough | ⟨rfl, rfl, some_, few⟩
        · exact absurd (Nat.lt_of_lt_of_le inside enough) space
        · rw [Nat.one_mul] at space
          have last := counted_getElem? place (show layers - 1 < n by omega)
          have reported : errorAt 1 1 layers (layers - 1) = 2 :=
            errorAt_layers (by omega) (by omega)
          have silent := unreported (layers - 1) (by omega) _ last
          exact absurd (reported.symm.trans silent) (by decide)
    · intro i s error at_ taken
      obtain ⟨inside, value⟩ := getElem?_counted at_
      cases value
      rcases condition with enough | ⟨rfl, rfl, some_, few⟩
      · exact absurd (Nat.lt_of_lt_of_le inside enough) (Nat.not_lt.2 taken)
      · have reported : errorAt 1 1 layers i = 2 := errorAt_layers (by omega) (by omega)
        rw [reported]
        exact ⟨by decide, rfl⟩

/-- Exactly the runs that make no more new positions than there is space for keep their positions
inside the limits and apart, and report that space has run out; in a texture of a single sprite
longer runs do too, as long as the counter of the layers does not wrap. -/
theorem allocates_iff (maxTextureSize maxArrayLen cellWidth cellHeight : Nat)
    (requests : List SpriteRequest) :
    let limits := spriteTrackerSetLimits maxTextureSize maxArrayLen
    let tracker := spriteTrackerSetLayout limits cellWidth cellHeight
    let count := (newKeys [] requests).length
    Allocates tracker.xnum tracker.maxY limits.layers
        (allocations limits { spriteTracker := tracker } requests) ↔
      count ≤ tracker.xnum * tracker.maxY * limits.layers ∨
        (tracker.xnum = 1 ∧ tracker.maxY = 1 ∧ 0 < limits.layers ∧ count < 2 ^ 32) := by
  intro limits tracker count
  have columns : 0 < tracker.xnum := Nat.lt_min.2 ⟨Nat.lt_of_lt_of_le Nat.one_pos
    (Nat.le_max_left _ _), by decide⟩
  have rows : 0 < tracker.maxY := Nat.lt_min.2 ⟨Nat.lt_of_lt_of_le Nat.one_pos
    (Nat.le_max_left _ _), by decide⟩
  have fewColumns : tracker.xnum ≤ 0xffff := Nat.min_le_right _ _
  have fewRows : tracker.maxY ≤ 0xffff := Nat.min_le_right _ _
  have start : CountsAt tracker.xnum tracker.maxY 0 tracker := by
    refine ⟨rfl, rfl, (Nat.zero_mod _).symm, ?_, ?_⟩
    · rw [Nat.zero_div, Nat.zero_mod]
      rfl
    · rw [Nat.zero_div, Nat.zero_div]
      rfl
  rw [allocations_eq limits columns rows fewColumns fewRows requests
    { spriteTracker := tracker } 0 start]
  exact allocates_counted columns rows fewColumns fewRows (Nat.min_le_left _ _) _

/-- Two columns, two rows and two layers: the ninth sprite is given a place in a third layer without
an error. -/
theorem allocates_ninth_sprite :
    ¬ Allocates 2 2 2 (allocations (spriteTrackerSetLimits 10 2)
      { spriteTracker := spriteTrackerSetLayout (spriteTrackerSetLimits 10 2) 5 5 }
      ((List.range 9).map fun glyph =>
        { key := { font := 0, glyphs := [UInt16.ofNat glyph] } })) := by
  intro allocates
  have ninth := allocates.exhausted 8 (some { x := 0, y := 0, z := 2 }) 0 (by decide) (by decide)
  exact ninth.1 rfl

end Smelly
