/-
Module: Smelly.Proofs.GraphicsFrameIds
Purpose: The ids of the frames of an image are distinct and were given out by its counter, as long as
  the counter does not wrap.
Trusted boundary: none
-/
import Smelly.Proofs.GraphicsFrames

namespace Smelly

/-- Frames have ids of their own that the counter has given out, and only such ids have data. -/
structure Identified (data : Nat → Option Bytes) (img : Image) : Prop where
  distinct : (img.frames.map Frame.id).Nodup
  given : ∀ f ∈ img.frames, f.id ≤ img.frameIdCounter
  cached : ∀ id, img.frameIdCounter < id → data id = none

theorem u32_succ {n : Nat} (fits : n + 1 < 2 ^ 32) : u32 (n + 1) = n + 1 := Nat.mod_eq_of_lt fits

/-- Frames change otherwise, and keep their ids. -/
theorem Identified.of_ids {data data' : Nat → Option Bytes} {img after : Image}
    (h : Identified data img)
    (ids : after.frames.map Frame.id = img.frames.map Frame.id)
    (counter : after.frameIdCounter = img.frameIdCounter)
    (cached : ∀ id, img.frameIdCounter < id → data' id = none) : Identified data' after := by
  refine ⟨ids ▸ h.distinct, fun f mem => ?_, counter.symm ▸ cached⟩
  obtain ⟨g, memG, idEq⟩ := List.mem_map.1 (ids ▸ List.mem_map_of_mem mem)
  rw [counter, ← idEq]
  exact h.given g memG

theorem modifyFrame_ids {img : Image} {frameNumber : Nat} (positive : frameNumber ≠ 0)
    {change : Frame → Frame} (keeps : ∀ f, (change f).id = f.id) :
    (img.modifyFrame frameNumber change).frames.map Frame.id = img.frames.map Frame.id := by
  rw [modifyFrame_frames img positive]
  generalize frameNumber - 1 = i
  generalize img.frames = frames
  induction frames generalizing i with
  | nil => cases i <;> rfl
  | cons f rest ih =>
    cases i with
    | zero => simp [keeps]
    | succ i => simp [ih]

theorem modifyFrame_counter (img : Image) (frameNumber : Nat) (change : Frame → Frame) :
    (img.modifyFrame frameNumber change).frameIdCounter = img.frameIdCounter := by
  unfold Image.modifyFrame
  split <;> rfl

theorem mem_of_frameForNumber {img : Image} {frameNumber : Nat} {f : Frame}
    (found : frameForNumber img frameNumber = some f) : f ∈ img.frames :=
  List.mem_of_getElem? (frameForNumber_eq_some.1 found).2

theorem frame_index_eq {frames : List Frame} (distinct : (frames.map Frame.id).Nodup) {i j : Nat}
    {f g : Frame} (foundI : frames[i]? = some f) (foundJ : frames[j]? = some g)
    (same : f.id = g.id) : i = j := by
  obtain ⟨insideI, -⟩ := List.getElem?_eq_some_iff.1 foundI
  refine (List.getElem?_inj (by rwa [List.length_map]) distinct).1 ?_
  rw [List.getElem?_map, List.getElem?_map, foundI, foundJ]
  exact congrArg some same

/-- With distinct ids, the frame at an index is changed by changing the frames with its id. -/
theorem modify_eq_map {frames : List Frame} (distinct : (frames.map Frame.id).Nodup) {i : Nat}
    {f : Frame} (found : frames[i]? = some f) (change : Frame → Frame) :
    frames.modify i change = frames.map fun f' => if f'.id = f.id then change f' else f' := by
  refine List.ext_getElem? fun j => ?_
  rw [List.getElem?_modify, List.getElem?_map]
  cases foundJ : frames[j]? with
  | none => rfl
  | some f' =>
    simp only [Option.map_eq_map, Option.map_some, Option.some.injEq]
    by_cases same : f'.id = f.id
    · rw [if_pos same, if_pos (frame_index_eq distinct found foundJ same.symm)]
    · rw [if_neg same, if_neg]
      rintro rfl
      exact same (congrArg Frame.id (Option.some.inj (foundJ.symm.trans found)))

/-- With distinct ids, the frame at an index is removed by removing the frames with its id. -/
theorem eraseIdx_eq_filter {frames : List Frame} (distinct : (frames.map Frame.id).Nodup) {i : Nat}
    {f : Frame} (found : frames[i]? = some f) :
    frames.eraseIdx i = frames.filter fun f' => decide (f'.id ≠ f.id) := by
  induction frames generalizing i with
  | nil => exact nomatch found
  | cons first rest ih =>
    obtain ⟨fresh, distinctRest⟩ := List.nodup_cons.1 distinct
    cases i with
    | zero =>
      obtain rfl : first = f := Option.some.inj found
      rw [List.eraseIdx_cons_zero, List.filter_cons_of_neg (by simp)]
      refine (List.filter_eq_self.2 fun f' mem => ?_).symm
      exact decide_eq_true fun same => fresh (same ▸ List.mem_map_of_mem mem)
    | succ i =>
      have other : first.id ≠ f.id := fun same =>
        fresh (same ▸ List.mem_map_of_mem (List.mem_of_getElem? found))
      rw [List.eraseIdx_cons_succ, List.filter_cons_of_pos (by simpa using other),
        ih distinctRest found]

/-- Data for a frame that is there. -/
theorem Identified.set_cached {data : Nat → Option Bytes} {img : Image} (h : Identified data img)
    {f : Frame} (mem : f ∈ img.frames) (accepts : Bool) (bytes : Bytes) {id : Nat}
    (beyond : img.frameIdCounter < id) :
    (if accepts then setData data f.id bytes else data) id = none := by
  have given := h.given f mem
  have other : id ≠ f.id := by omega
  split
  · rw [setData, if_neg other]
    exact h.cached id beyond
  · exact h.cached id beyond

/-- A frame with the next id goes in front of others. -/
theorem nodup_next {ids : List Nat} {counter : Nat} (distinct : ids.Nodup)
    (given : ∀ id ∈ ids, id ≤ counter) : ((counter + 1) :: ids).Nodup :=
  List.nodup_cons.2 ⟨fun mem => absurd (given _ mem) (Nat.not_succ_le_self counter), distinct⟩

/-- The counter goes on. -/
def CountsFrames (libs : GraphicsLibraries) (answers : Answers) : FrameChange → Prop
  | .replaceRoot self idx => (self.img idx).frameIdCounter + 1 < 2 ^ 32
  | .addFrame self g idx slot =>
    (self.img idx).frameIdCounter + 1 < 2 ^ 32 ∧ NewFrameFits libs answers self g idx slot
  | _ => True

theorem makesFrame_id {libs : GraphicsLibraries} {answers : Answers} {self : GraphicsManager}
    {g : GraphicsCommand} {idx : Nat} {frame : Frame} {ld : LoadData}
    (made : MakesFrame libs answers self g idx frame ld) :
    frame.id = u32 ((self.img idx).frameIdCounter + 1) := by
  rcases made with ⟨-, rfl, -⟩ | ⟨other, -, based⟩
  · rfl
  · unfold baseOn at based
    split at based
    · obtain ⟨cfd, -, based⟩ := Option.bind_eq_some_iff.1 based
      exact (Prod.mk.inj (Option.some.inj based)).1 ▸ rfl
    · exact (Prod.mk.inj (Option.some.inj based)).1 ▸ rfl

theorem changeGap_identified {data : Nat → Option Bytes} {img : Image} {frameNumber : Nat}
    (gap : Int) (positive : frameNumber ≠ 0) (h : Identified data img) :
    Identified data (changeGap img frameNumber gap) :=
  h.of_ids (modifyFrame_ids positive fun _ => rfl) (modifyFrame_counter img frameNumber _) h.cached

theorem identifiedRules (libs : GraphicsLibraries) (answers : Answers) :
    FrameRules libs answers (CountsFrames libs answers) Identified where
  keeps := by
    intro data img after kept h
    refine h.of_ids ?_ kept.frameIdCounter h.cached
    rw [Image.frames, Image.frames, kept.rootFrame, kept.extraFrames]
  blank := by
    intro img blank
    refine ⟨?_, ?_, fun _ _ => rfl⟩
    · simp [Image.frames, blank.extraFrames]
    · intro f mem
      simp only [Image.frames, blank.extraFrames, blank.rootFrame, List.mem_singleton] at mem
      exact mem ▸ Nat.zero_le _
  changeGap := fun gap found h => changeGap_identified gap (frameForNumber_eq_some.1 found).1 h
  storage := fun _ h => ⟨h.distinct, h.given, h.cached⟩
  replaceRoot := by
    intro self idx data frameId counts _ frameIdEq dataEq h
    rw [u32_succ counts] at frameIdEq
    subst frameIdEq
    obtain ⟨-, distinct⟩ := List.nodup_cons.1 h.distinct
    have given : ∀ id ∈ (self.img idx).extraFrames.map Frame.id,
        id ≤ (self.img idx).frameIdCounter := by
      intro id mem
      obtain ⟨f, memF, rfl⟩ := List.mem_map.1 mem
      exact h.given f (List.mem_cons_of_mem _ memF)
    refine ⟨nodup_next distinct given, ?_, ?_⟩
    · intro f mem
      show f.id ≤ (self.img idx).frameIdCounter + 1
      rcases List.mem_cons.1 mem with rfl | mem
      · exact Nat.le_refl _
      · exact Nat.le_succ_of_le (given f.id (List.mem_map_of_mem mem))
    · intro id beyond
      have beyond : (self.img idx).frameIdCounter + 1 < id := beyond
      have none : data id = none := by
        rw [dataEq]
        split
        · unfold forgetData
          split
          · rfl
          · exact h.cached id (by omega)
        · exact h.cached id (by omega)
      split
      · rw [setData, if_neg (by omega)]
        exact none
      · exact none
  countFrame := by
    intro self g idx slot counts h
    refine ⟨h.distinct, fun f mem => ?_, fun id beyond => h.cached id ?_⟩
    · show f.id ≤ u32 ((self.img idx).frameIdCounter + 1)
      rw [u32_succ counts.1]
      exact Nat.le_succ_of_le (h.given f mem)
    · have beyond : u32 ((self.img idx).frameIdCounter + 1) < id := beyond
      rw [u32_succ counts.1] at beyond
      omega
  addFrame := by
    intro self g idx slot frame ld _ counts _ made h
    have idEq := makesFrame_id made
    rw [u32_succ counts.1] at idEq ⊢
    have frames : ∀ img : Image, (Image.frames { img with
        frameIdCounter := (self.img idx).frameIdCounter + 1
        extraFrames := img.extraFrames ++ [frame]
        animationDuration := img.animationDuration + frame.gap }) = img.frames ++ [frame] :=
      fun _ => rfl
    have given : ∀ id ∈ (self.img idx).frames.map Frame.id,
        id ≤ (self.img idx).frameIdCounter := by
      intro id mem
      obtain ⟨f, memF, rfl⟩ := List.mem_map.1 mem
      exact h.given f memF
    refine ⟨?_, ?_, ?_⟩
    · rw [frames, List.map_append, List.map_singleton, idEq]
      exact List.nodup_append_comm.1 (nodup_next h.distinct given)
    · intro f mem
      show f.id ≤ (self.img idx).frameIdCounter + 1
      rw [frames] at mem
      rcases List.mem_append.1 mem with mem | mem
      · exact Nat.le_succ_of_le (h.given f mem)
      · rw [List.mem_singleton.1 mem, idEq]
    · intro id beyond
      have beyond : (self.img idx).frameIdCounter + 1 < id := beyond
      rw [setData, if_neg (by omega)]
      exact h.cached id (by omega)
  editFrame := by
    intro self gapped g idx frameNumber f cfd bytes _ _ found _ _ h
    exact h.of_ids (modifyFrame_ids (frameForNumber_eq_some.1 found).1 fun _ => rfl)
      (modifyFrame_counter _ _ _)
      fun id beyond => h.set_cached (mem_of_frameForNumber found) answers.cacheAccepts bytes beyond
  deleteFrame := by
    intro self idx frameNumber f _ more found h
    have frames := withoutFrame_frames (Nat.pos_of_ne_zero (frameForNumber_eq_some.1 found).1) more
    have sub := List.eraseIdx_sublist (self.img idx).frames (frameNumber - 1)
    refine ⟨frames ▸ h.distinct.sublist (sub.map _), ?_, ?_⟩
    · exact fun f mem => h.given f (sub.subset (frames ▸ mem))
    · intro id beyond
      unfold forgetData
      split
      · rfl
      · exact h.cached id beyond
  compose := by
    intro self g idx d srcData destData dest bytes _ found _ _ h
    exact h.of_ids (modifyFrame_ids (frameForNumber_eq_some.1 found).1 fun _ => rfl)
      (modifyFrame_counter _ _ _)
      fun id beyond => h.set_cached (mem_of_frameForNumber found) answers.cacheAccepts bytes beyond

end Smelly
