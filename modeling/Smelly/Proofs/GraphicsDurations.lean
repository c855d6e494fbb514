/-
Module: Smelly.Proofs.GraphicsDurations
Purpose: The duration of an animation is the sum of the gaps of its frames, and the loop that looks
  for the next frame with a gap ends, in every run that replaces no root frame with a gap.
Trusted boundary: none
-/
import Smelly.Proofs.GraphicsFrames
import Smelly.Proofs.GraphicsStorage

namespace Smelly

open Run

/-! ### The loop over frames -/

/-- How many rounds it takes from one index to another, going around. -/
def roundsTo (count target index : Nat) : Nat :=
  if index ≤ target then target - index else count - index + target

theorem advanceFrame_spec (img : Image) :
    (advanceFrame img).2 = true →
      (advanceFrame img).1.frames = img.frames ∧
      (advanceFrame img).1.currentFrameIndex =
        (img.currentFrameIndex + 1) % (img.extraFrames.length + 1) := by
  unfold advanceFrame
  dsimp only
  split
  · exact fun _ => ⟨rfl, rfl⟩
  · split
    · exact fun h => nomatch h
    · split
      · exact fun h => nomatch h
      · exact fun _ => ⟨rfl, rfl⟩

/-- A frame with a gap is found before the rounds run out. -/
theorem skipFrames_of_gap {img : Image} {target : Nat} {f : Frame}
    (found : img.frames[target]? = some f) (gap : f.gap ≠ 0) {rounds : Nat}
    (enough : roundsTo (img.extraFrames.length + 1) target
      ((img.currentFrameIndex + 1) % (img.extraFrames.length + 1)) < rounds) :
    (skipFrames rounds img).isSome := by
  induction rounds generalizing img with
  | zero => exact absurd enough (Nat.not_lt_zero _)
  | succ rounds ih =>
    have spec := advanceFrame_spec img
    unfold skipFrames
    split
    · rfl
    · rename_i next advanceEq
      rw [advanceEq] at spec
      obtain ⟨frames, index⟩ := spec rfl
      split
      · rename_i noGap
        have lengthEq : next.extraFrames.length = img.extraFrames.length := by
          simpa [Image.frames] using congrArg List.length frames
        have inside : (img.currentFrameIndex + 1) % (img.extraFrames.length + 1) <
            img.extraFrames.length + 1 := Nat.mod_lt _ (Nat.succ_pos _)
        have targetInside : target < img.extraFrames.length + 1 := by
          simpa [Image.frames] using (List.getElem?_eq_some_iff.1 found).1
        have elsewhere : (img.currentFrameIndex + 1) % (img.extraFrames.length + 1) ≠ target := by
          intro same
          have current : currentFrame next = some f := by
            rw [currentFrame, frames, index, same]
            exact found
          rw [current] at noGap
          exact gap noGap
        refine ih (frames ▸ found) ?_
        rw [lengthEq, index]
        generalize (img.currentFrameIndex + 1) % (img.extraFrames.length + 1) = here
          at enough inside elsewhere
        generalize img.extraFrames.length = last at enough inside targetInside
        unfold roundsTo at enough ⊢
        rcases Nat.lt_or_ge here last with more | final
        · rw [Nat.mod_eq_of_lt (Nat.succ_lt_succ more)]
          split at enough <;> split <;> omega
        · obtain rfl : here = last := by omega
          rw [Nat.mod_self]
          split at enough <;> split <;> omega
      · rfl

theorem exists_of_sum_pos {frames : List Frame} (pos : (frames.map Frame.gap).sum ≠ 0) :
    ∃ (i : Nat) (f : Frame), frames[i]? = some f ∧ f.gap ≠ 0 := by
  induction frames with
  | nil => exact absurd rfl pos
  | cons f rest ih =>
    by_cases here : f.gap = 0
    · have later : (rest.map Frame.gap).sum ≠ 0 := by simpa [here] using pos
      obtain ⟨i, g, found, gap⟩ := ih later
      exact ⟨i + 1, g, found, gap⟩
    · exact ⟨0, f, rfl, here⟩

/-- The loop ends, after no more rounds than there are frames and one more, when the gaps do not
all vanish. -/
theorem skipFrames_isSome {img : Image} (pos : (img.frames.map Frame.gap).sum ≠ 0) :
    (skipFrames (img.extraFrames.length + 1) img).isSome := by
  obtain ⟨target, f, found, gap⟩ := exists_of_sum_pos pos
  refine skipFrames_of_gap found gap ?_
  have inside : (img.currentFrameIndex + 1) % (img.extraFrames.length + 1) <
      img.extraFrames.length + 1 := Nat.mod_lt _ (Nat.succ_pos _)
  have targetInside : target < img.extraFrames.length + 1 := by
    simpa [Image.frames] using (List.getElem?_eq_some_iff.1 found).1
  unfold roundsTo
  split <;> omega

/-- Without a gap the loop of an animation that runs for ever does not end. -/
theorem skipFrames_none {img : Image} (gaps : ∀ f ∈ img.frames, f.gap = 0)
    (runs : img.animationState ≠ .loading) (endless : img.maxLoops = 0) (rounds : Nat) :
    skipFrames rounds img = none := by
  induction rounds generalizing img with
  | zero => rfl
  | succ rounds ih =>
    have advances : ∃ next, advanceFrame img = (next, true) ∧ next.frames = img.frames ∧
        next.animationState = img.animationState ∧ next.maxLoops = img.maxLoops := by
      unfold advanceFrame
      dsimp only
      split
      · exact ⟨_, rfl, rfl, rfl, rfl⟩
      · rw [if_neg fun h => h.2 endless]
        exact ⟨_, rfl, rfl, rfl, rfl⟩
    obtain ⟨next, advanceEq, frames, state, loops⟩ := advances
    have noGap : ((currentFrame next).getD {}).gap = 0 := by
      unfold currentFrame
      cases found : next.frames[next.currentFrameIndex]? with
      | none => rfl
      | some f => exact gaps f (frames ▸ List.mem_of_getElem? found)
    unfold skipFrames
    rw [advanceEq]
    dsimp only
    rw [if_pos noGap]
    exact ih (frames ▸ gaps) (state ▸ runs) (loops ▸ endless)

/-! ### The duration -/

/-- The duration is the sum of the gaps. -/
def Image.DurationRight (img : Image) : Prop :=
  img.animationDuration = (img.frames.map Frame.gap).sum

theorem changeGap_duration {img : Image} {frameNumber : Nat} {f : Frame} (gap : Int)
    (found : frameForNumber img frameNumber = some f) (right : img.DurationRight) :
    (changeGap img frameNumber gap).DurationRight := by
  obtain ⟨positive, atIndex⟩ := frameForNumber_eq_some.1 found
  have balance := Sums.sum_map_modify Frame.gap (fun f => { f with gap := gap.toNat }) atIndex
  have without := Sums.sum_map_eraseIdx Frame.gap atIndex
  have frames : (changeGap img frameNumber gap).frames =
      img.frames.modify (frameNumber - 1) fun f => { f with gap := gap.toNat } :=
    modifyFrame_frames img positive _
  have duration : (changeGap img frameNumber gap).animationDuration =
      (if f.gap < img.animationDuration then img.animationDuration - f.gap else 0) + gap.toNat := by
    unfold changeGap
    rw [found]
    rfl
  unfold Image.DurationRight at right ⊢
  rw [frames, duration]
  dsimp only at balance
  by_cases smaller : f.gap < img.animationDuration
  · rw [if_pos smaller]
    omega
  · rw [if_neg smaller]
    omega

/-- The gap of a frame that is only drawn otherwise stays. -/
theorem modifyFrame_duration {img : Image} {frameNumber : Nat} (positive : frameNumber ≠ 0)
    {change : Frame → Frame} (keeps : ∀ f, (change f).gap = f.gap) (right : img.DurationRight) :
    (img.modifyFrame frameNumber change).DurationRight := by
  have duration : (img.modifyFrame frameNumber change).animationDuration = img.animationDuration := by
    unfold Image.modifyFrame
    split <;> rfl
  have gaps (frames : List Frame) (i : Nat) :
      (frames.modify i change).map Frame.gap = frames.map Frame.gap := by
    induction frames generalizing i with
    | nil => cases i <;> rfl
    | cons f rest ih =>
      cases i with
      | zero => simp [keeps]
      | succ i => simp [ih]
  unfold Image.DurationRight at right ⊢
  rw [modifyFrame_frames img positive, duration, gaps]
  exact right

theorem withoutFrame_duration {img : Image} {frameNumber : Nat} {f : Frame}
    (found : frameForNumber img frameNumber = some f) (more : img.extraFrames ≠ [])
    (right : img.DurationRight) : (withoutFrame img frameNumber).DurationRight := by
  obtain ⟨positive, atIndex⟩ := frameForNumber_eq_some.1 found
  have balance := Sums.sum_map_eraseIdx Frame.gap atIndex
  have duration : (withoutFrame img frameNumber).animationDuration =
      if f.gap < img.animationDuration then img.animationDuration - f.gap else 0 := by
    unfold withoutFrame
    rw [found]
    rfl
  unfold Image.DurationRight at right ⊢
  rw [withoutFrame_frames (Nat.pos_of_ne_zero positive) more, duration]
  split <;> omega

/-- A root frame with a gap is not replaced, and a new frame fits. -/
def KeepsDurations (libs : GraphicsLibraries) (answers : Answers) : FrameChange → Prop
  | .replaceRoot self idx => (self.img idx).rootFrame.gap = 0
  | .addFrame self g idx slot => NewFrameFits libs answers self g idx slot
  | _ => True

theorem durationRules (libs : GraphicsLibraries) (answers : Answers) :
    FrameRules libs answers (KeepsDurations libs answers) fun _ img => img.DurationRight where
  keeps := by
    intro _ img after kept right
    unfold Image.DurationRight Image.frames at right ⊢
    rw [kept.animationDuration, kept.rootFrame, kept.extraFrames]
    exact right
  blank := by
    intro img blank
    simp [Image.DurationRight, Image.frames, blank.rootFrame, blank.extraFrames,
      blank.animationDuration]
  changeGap := fun gap found right => changeGap_duration gap found right
  storage := fun _ right => right
  replaceRoot := by
    intro self idx _ frameId noGap _ _ _ right
    unfold Image.DurationRight Image.frames at right ⊢
    rw [List.map_cons, List.sum_cons] at right ⊢
    have noGap : (self.img idx).rootFrame.gap = 0 := noGap
    show (self.img idx).animationDuration = 0 + ((self.img idx).extraFrames.map Frame.gap).sum
    omega
  countFrame := fun _ right => right
  addFrame := by
    intro self g idx slot frame ld _ _ _ _ right
    unfold Image.DurationRight Image.frames at right ⊢
    simp only [List.map_cons, List.sum_cons, List.map_append, List.sum_append, List.map_nil,
      List.sum_nil] at right ⊢
    omega
  editFrame := by
    intro self gapped g idx frameNumber f cfd bytes _ _ found _ _ right
    exact modifyFrame_duration (frameForNumber_eq_some.1 found).1 (fun _ => rfl) right
  deleteFrame := fun _ more found right => withoutFrame_duration found more right
  compose := by
    intro self g idx d srcData destData dest bytes _ found _ _ right
    exact modifyFrame_duration (frameForNumber_eq_some.1 found).1 (fun _ => rfl) right

/-- Animations: in every run that replaces no root frame with a gap and in which every new frame
fits, the duration of every image is the sum of the gaps of its frames in every state, and the
loop that looks for the next frame with a gap ends for every image that is animated. -/
theorem graphicsDurations (libs : GraphicsLibraries) (storageLimit takenIds : Nat)
    (inputs : List (GraphicsStep × Answers))
    (taken : ∀ self input, Takes (GraphicsManager.step libs) (grmanAlloc storageLimit takenIds)
      inputs self input → ∀ c ∈ stepChanges libs self input, KeepsDurations libs input.2 c)
    (self : GraphicsManager)
    (visited : Visits (GraphicsManager.step libs) (grmanAlloc storageLimit takenIds) inputs self)
    (img : Image) (mem : img ∈ self.images) :
    img.animationDuration = (img.frames.map Frame.gap).sum ∧
      (imageIsAnimatable img = true → ∃ rounds, (skipFrames rounds img).isSome) := by
  have right : img.DurationRight := (FrameRules.run (durationRules libs) (fun _ _ _ _ _ fits => fits)
    taken visited).everywhere img mem
  refine ⟨right, fun animated => ⟨_, skipFrames_isSome ?_⟩⟩
  unfold imageIsAnimatable at animated
  simp only [decide_eq_true_eq] at animated
  rw [← right]
  exact animated.2.2.2.1

/-- A graphics command without a payload, and one with the data of an opaque pixel. -/
def commandStep (g : GraphicsCommand) : GraphicsStep × Answers := (.command g [] {} ⟨10, 20⟩, {})

def pixelStep (g : GraphicsCommand) : GraphicsStep × Answers :=
  (.command { g with format := 24, dataWidth := 1, dataHeight := 1 } [1, 2, 3] {} ⟨10, 20⟩, {})

/-- An animation whose only gap is that of the root frame, which is then transmitted anew. -/
def gapLost : List (GraphicsStep × Answers) :=
  [pixelStep { action := 't'.toUInt8, id := 1 },
    pixelStep { action := 'f'.toUInt8, id := 1, zIndex := -1 },
    commandStep { action := 'a'.toUInt8, id := 1, numLines := 1, zIndex := 100 },
    commandStep { action := 'a'.toUInt8, id := 1, dataWidth := 3, dataHeight := 1 },
    pixelStep { action := 't'.toUInt8, id := 1 },
    commandStep { action := 'a'.toUInt8, id := 1, dataWidth := 1 },
    commandStep { action := 'a'.toUInt8, id := 1, dataWidth := 3 }]

/-- The duration stays 100 when all gaps are gone, and the loop goes on for ever. -/
theorem graphicsDurations_endless :
    ∃ self img, Visits (GraphicsManager.step plainLibraries) (grmanAlloc 1000 0) gapLost self ∧
      img ∈ self.images ∧ img.animationDuration = 100 ∧ (img.frames.map Frame.gap).sum = 0 ∧
      imageIsAnimatable img = true ∧ ∀ rounds, skipFrames rounds img = none := by
  refine ⟨_, _, ⟨gapLost, List.prefix_rfl, rfl⟩, List.mem_cons_self .., rfl, rfl, rfl, ?_⟩
  intro rounds
  exact skipFrames_none (by decide) (by decide) rfl rounds

/-- An image with a second frame. -/
theorem graphicsDurations_twoFrames :
    ∃ self img, run (GraphicsManager.step plainLibraries) (grmanAlloc 1000 0)
        [pixelStep { action := 't'.toUInt8, id := 1 },
          pixelStep { action := 'f'.toUInt8, id := 1 }] = some self ∧
      img ∈ self.images ∧ img.animationDuration = (img.frames.map Frame.gap).sum ∧
        (imageIsAnimatable img = true → ∃ rounds, (skipFrames rounds img).isSome) := by
  refine ⟨_, _, rfl, List.mem_cons_self .., graphicsDurations plainLibraries 1000 0
    [pixelStep { action := 't'.toUInt8, id := 1 }, pixelStep { action := 'f'.toUInt8, id := 1 }] ?_ _
    ⟨_, List.prefix_rfl, rfl⟩ _ (List.mem_cons_self ..)⟩
  intro self input taken c mem
  rcases takes_cons taken with ⟨rfl, rfl⟩ | ⟨first, firstEq, taken⟩
  · obtain rfl := List.mem_singleton.1 mem
    rfl
  · rcases takes_cons taken with ⟨rfl, rfl⟩ | ⟨second, -, taken⟩
    · obtain rfl := Option.some.inj firstEq
      obtain rfl := List.mem_singleton.1 mem
      exact ⟨rfl, fun _ based => absurd rfl based⟩
    · exact absurd taken (not_takes_nil _ _ _ _)

end Smelly
