/-
Module: Smelly.Proofs.GraphicsReferences
Purpose: The frames a frame is based on are there, end at a frame without a base, and have data if it
  has, in every run that keeps the frames others are based on.
Trusted boundary: none
-/
import Smelly.Proofs.GraphicsSizes

namespace Smelly

open Run

/-! ### Chains of bases -/

/-- The chain of bases of a frame ends after at most so many steps, and the frames along it have
data if the frame has. -/
def Based (lookup : Nat → Option Frame) (data : Nat → Option Bytes) : Nat → Frame → Prop
  | 0, f => f.baseFrameId = 0
  | n + 1, f => f.baseFrameId = 0 ∨ ∃ base, lookup f.baseFrameId = some base ∧
      ((data f.id).isSome → (data base.id).isSome) ∧ Based lookup data n base

theorem Based.of_root {lookup : Nat → Option Frame} {data : Nat → Option Bytes} {f : Frame}
    (root : f.baseFrameId = 0) (n : Nat) : Based lookup data n f := by
  cases n with
  | zero => exact root
  | succ n => exact .inl root

theorem Based.succ {lookup : Nat → Option Frame} {data : Nat → Option Bytes} {n : Nat} {f : Frame}
    (h : Based lookup data n f) : Based lookup data (n + 1) f := by
  induction n generalizing f with
  | zero => exact .inl h
  | succ n ih =>
    rcases h with root | ⟨base, found, cached, rest⟩
    · exact .inl root
    · exact .inr ⟨base, found, cached, ih rest⟩

theorem Based.mono {lookup : Nat → Option Frame} {data : Nat → Option Bytes} {n m : Nat} {f : Frame}
    (h : Based lookup data n f) (le : n ≤ m) : Based lookup data m f := by
  induction le with
  | refl => exact h
  | step _ ih => exact ih.succ

/-- Chains survive a change of frames under which bases are kept or dropped, and data is neither lost
nor made. -/
theorem Based.transfer {lookup lookup' : Nat → Option Frame} {data data' : Nat → Option Bytes}
    (kept : Frame → Prop) (change : Frame → Frame)
    (follows : ∀ f, kept f → (change f).baseFrameId ≠ 0 →
      (change f).baseFrameId = f.baseFrameId ∧
      ∀ base, lookup f.baseFrameId = some base → kept base ∧
        lookup' f.baseFrameId = some (change base) ∧
        ((data' (change f).id).isSome → (data f.id).isSome) ∧
        ((data base.id).isSome → (data' (change base).id).isSome))
    {n : Nat} {f : Frame} (keptF : kept f) (h : Based lookup data n f) :
    Based lookup' data' n (change f) := by
  induction n generalizing f with
  | zero =>
    by_cases root : (change f).baseFrameId = 0
    · exact root
    · exact absurd ((follows f keptF root).1.trans h) root
  | succ n ih =>
    by_cases root : (change f).baseFrameId = 0
    · exact .inl root
    · obtain ⟨same, bases⟩ := follows f keptF root
      rcases h with noBase | ⟨base, found, cached, rest⟩
      · exact absurd (same.trans noBase) root
      · obtain ⟨keptBase, found', forward, backward⟩ := bases base found
        exact .inr ⟨change base, same ▸ found', fun has => backward (cached (forward has)),
          ih keptBase rest⟩

/-- The data of a frame with a short chain can be drawn together. -/
theorem coalesced_of_based {b : Blending} {self : GraphicsManager} {img : Image} {n depth : Nat}
    {f : Frame} (h : Based (frameForId img) (self.frameData img) n f) (enough : n < depth)
    (cached : (self.frameData img f.id).isSome) :
    (getCoalescedFrameDataImpl b self img depth f).isSome := by
  induction n generalizing f depth with
  | zero =>
    obtain ⟨depth, rfl⟩ : ∃ d, depth = d + 1 := ⟨depth - 1, by omega⟩
    obtain ⟨bytes, cachedEq⟩ := Option.isSome_iff_exists.1 cached
    have cachedEq : readFromCache self { imageId := img.internalId, frameId := f.id } =
      some bytes := cachedEq
    have root : f.baseFrameId = 0 := h
    unfold getCoalescedFrameDataImpl
    rw [cachedEq, Option.bind_eq_bind, Option.bind_some, if_pos root]
    rfl
  | succ n ih =>
    obtain ⟨depth, rfl⟩ : ∃ d, depth = d + 1 := ⟨depth - 1, by omega⟩
    obtain ⟨bytes, cachedEq⟩ := Option.isSome_iff_exists.1 cached
    have cachedEq : readFromCache self { imageId := img.internalId, frameId := f.id } =
      some bytes := cachedEq
    unfold getCoalescedFrameDataImpl
    rw [cachedEq, Option.bind_eq_bind, Option.bind_some]
    by_cases root : f.baseFrameId = 0
    · rw [if_pos root]
      rfl
    · rw [if_neg root]
      rcases h with noBase | ⟨base, found, has, rest⟩
      · exact absurd noBase root
      · have baseData := ih rest (Nat.lt_of_succ_lt_succ enough) (has cached)
        obtain ⟨cfd, cfdEq⟩ := Option.isSome_iff_exists.1 baseData
        rw [found, Option.bind_eq_bind, Option.bind_some, cfdEq]
        rfl

/-- When `reference_chain_too_large` stops early, the chain is as short as what it counted. -/
theorem based_of_drawnArea {img : Image} {data : Nat → Option Bytes} {limit rounds drawn num n : Nat}
    {frame : Frame} {lookup : Nat → Option Frame}
    (finds : ∀ id base, lookup id = some base → frameForId img id = some base)
    (h : Based lookup data n frame) (start : num + rounds = 6)
    (area : (drawnArea img limit rounds drawn num frame).1 < limit)
    (count : (drawnArea img limit rounds drawn num frame).2 < 5) :
    num ≤ (drawnArea img limit rounds drawn num frame).2 ∧
      Based lookup data ((drawnArea img limit rounds drawn num frame).2 - num) frame := by
  induction rounds generalizing drawn num n frame with
  | zero =>
    have count : num < 5 := count
    omega
  | succ rounds ih =>
    unfold drawnArea at area count ⊢
    by_cases goesOn : drawn < limit ∧ num < 5 ∧ frame.baseFrameId ≠ 0
    · rw [if_pos goesOn] at area count ⊢
      cases n with
      | zero => exact absurd h goesOn.2.2
      | succ n =>
        rcases h with root | ⟨base, found, has, rest⟩
        · exact absurd root goesOn.2.2
        · rw [finds _ _ found] at area count ⊢
          dsimp only at area count ⊢
          obtain ⟨le, chain⟩ := ih rest (by omega) area count
          refine ⟨by omega, ?_⟩
          have split : (drawnArea img limit rounds
              (u32 (drawn + u32 (base.width * base.height))) (num + 1) base).2 - num =
            ((drawnArea img limit rounds
              (u32 (drawn + u32 (base.width * base.height))) (num + 1) base).2 - (num + 1)) + 1 := by
            omega
          rw [split]
          exact .inr ⟨base, found, has, chain⟩
    · rw [if_neg goesOn] at area count ⊢
      dsimp only at area count ⊢
      have root : frame.baseFrameId = 0 := by
        by_contra based
        exact goesOn ⟨area, count, based⟩
      exact ⟨Nat.le_refl _, .of_root root _⟩

/-! ### Changes to frames -/

/-- All frames are based on frames of the image. -/
def AllBased (data : Nat → Option Bytes) (img : Image) : Prop :=
  ∀ f ∈ img.frames, Based (frameForId img) data 4 f

theorem frameForId_mem {img : Image} {id : Nat} {f : Frame} (found : frameForId img id = some f) :
    f ∈ img.frames ∧ f.id = id := by
  unfold frameForId at found
  have sameId := List.find?_some found
  exact ⟨List.mem_of_find?_eq_some found, of_decide_eq_true sameId⟩

theorem frameForId_of_mem {img : Image} {f : Frame} (distinct : (img.frames.map Frame.id).Nodup)
    (mem : f ∈ img.frames) : frameForId img f.id = some f := by
  cases found : frameForId img f.id with
  | none => exact absurd (decide_eq_true rfl) (List.find?_eq_none.1 found f mem)
  | some f' =>
    obtain ⟨mem', sameId⟩ := frameForId_mem found
    obtain ⟨i, atI⟩ := List.mem_iff_getElem?.1 mem
    obtain ⟨j, atJ⟩ := List.mem_iff_getElem?.1 mem'
    obtain rfl := frame_index_eq distinct atI atJ sameId.symm
    exact atJ.symm.trans atI

/-- A frame that changes but for its id, and keeps its base or loses it. -/
theorem allBased_modify {data data' : Nat → Option Bytes} {img : Image} {frameNumber : Nat}
    {f : Frame} (distinct : (img.frames.map Frame.id).Nodup) (h : AllBased data img)
    (found : frameForNumber img frameNumber = some f) {change : Frame → Frame}
    (keepsId : ∀ f, (change f).id = f.id)
    (base : ((∀ f, (change f).baseFrameId = f.baseFrameId) ∧ data' = data) ∨
      ∀ f, (change f).baseFrameId = 0)
    (stays : (data f.id).isSome → (data' f.id).isSome)
    (others : ∀ id, id ≠ f.id → data' id = data id) :
    AllBased data' (img.modifyFrame frameNumber change) := by
  obtain ⟨positive, atIndex⟩ := frameForNumber_eq_some.1 found
  let changed (f' : Frame) : Frame := if f'.id = f.id then change f' else f'
  have frames : (img.modifyFrame frameNumber change).frames = img.frames.map changed := by
    rw [modifyFrame_frames img positive, modify_eq_map distinct atIndex]
  have sameId (f' : Frame) : (changed f').id = f'.id := by
    show (if f'.id = f.id then change f' else f').id = f'.id
    split
    · exact keepsId f'
    · rfl
  have lookup (id : Nat) : frameForId (img.modifyFrame frameNumber change) id =
      (frameForId img id).map changed := by
    unfold frameForId
    rw [frames, List.find?_map]
    congr 2
    funext f'
    simp [sameId]
  intro f' mem
  rw [frames] at mem
  obtain ⟨old, memOld, rfl⟩ := List.mem_map.1 mem
  refine @Based.transfer (frameForId img) _ data _ (fun f => f ∈ img.frames) changed
    ?_ _ _ memOld (h old memOld)
  intro g memG based
  have keptBase : (changed g).baseFrameId = g.baseFrameId := by
    show (if g.id = f.id then change g else g).baseFrameId = g.baseFrameId
    split
    · rename_i here
      rcases base with ⟨keeps, -⟩ | drops
      · exact keeps g
      · refine absurd ?_ based
        show (if g.id = f.id then change g else g).baseFrameId = 0
        rw [if_pos here]
        exact drops g
    · rfl
  refine ⟨keptBase, fun b foundB => ⟨(frameForId_mem foundB).1, ?_, ?_, ?_⟩⟩
  · rw [lookup, foundB]
    rfl
  · rw [sameId]
    intro has
    by_cases here : g.id = f.id
    · rcases base with ⟨-, same⟩ | drops
      · exact same ▸ has
      · refine absurd ?_ based
        show (if g.id = f.id then change g else g).baseFrameId = 0
        rw [if_pos here]
        exact drops g
    · exact others _ here ▸ has
  · rw [sameId]
    intro has
    by_cases here : b.id = f.id
    · exact here ▸ stays (here ▸ has)
    · exact (others _ here).symm ▸ has

/-- No frame others are based on is deleted or replaced, and a new frame is based on an older frame
that has data. -/
def KeepsReferences (libs : GraphicsLibraries) (answers : Answers) : FrameChange → Prop
  | .replaceRoot self idx =>
    (self.img idx).frameIdCounter + 1 < 2 ^ 32 ∧
      ∀ f ∈ (self.img idx).extraFrames, f.baseFrameId ≠ 0 →
        f.baseFrameId ≠ (self.img idx).rootFrame.id
  | .addFrame self g idx slot =>
    CountsFrames libs answers (.addFrame self g idx slot) ∧
      ∀ other, frameForNumber ((grownFrames answers self idx).img idx) g.otherFrameNumber =
          some other →
        g.otherFrameNumber ≤ (self.img idx).extraFrames.length + 1 ∧
          (other.id ≠ 0 → (self.frameData (self.img idx) other.id).isSome)
  | .deleteFrame self idx frameNumber =>
    ∀ removed, frameForNumber (self.img idx) frameNumber = some removed →
      ∀ f ∈ (self.img idx).frames, f.baseFrameId ≠ 0 → f.baseFrameId ≠ removed.id
  | _ => True

theorem allBased_changeGap {data : Nat → Option Bytes} {img : Image} {frameNumber : Nat} {f : Frame}
    (gap : Int) (found : frameForNumber img frameNumber = some f)
    (distinct : (img.frames.map Frame.id).Nodup) (h : AllBased data img) :
    AllBased data (changeGap img frameNumber gap) :=
  allBased_modify distinct h found (fun _ => rfl) (.inl ⟨fun _ => rfl, rfl⟩) id fun _ _ => rfl

/-- Frames that stay where the frame with an id goes and others come. -/
theorem based_of_others {data data' : Nat → Option Bytes} {img : Image} {lookup' : Nat → Option Frame}
    {gone : Nat} {f : Frame} (h : Based (frameForId img) data 4 f)
    (stays : f ∈ img.frames ∧ f.id ≠ gone)
    (bases : ∀ f ∈ img.frames, f.id ≠ gone → f.baseFrameId ≠ 0 → f.baseFrameId ≠ gone)
    (found : ∀ f ∈ img.frames, f.id ≠ gone → frameForId img f.id = some f → lookup' f.id = some f)
    (sameData : ∀ f ∈ img.frames, f.id ≠ gone → data' f.id = data f.id) :
    Based lookup' data' 4 f := by
  refine @Based.transfer (frameForId img) lookup' data data'
    (fun f => f ∈ img.frames ∧ f.id ≠ gone) id ?_ _ _ stays h
  rintro g ⟨memG, staysG⟩ based
  refine ⟨rfl, fun base foundB => ?_⟩
  obtain ⟨memB, idB⟩ := frameForId_mem foundB
  have staysB : base.id ≠ gone := idB ▸ bases g memG staysG based
  refine ⟨⟨memB, staysB⟩, ?_, ?_, ?_⟩
  · exact idB ▸ found base memB staysB (idB.symm ▸ foundB)
  · exact fun has => sameData g memG staysG ▸ has
  · exact fun has => (sameData base memB staysB).symm ▸ has

theorem allBased_replaceRoot {self : GraphicsManager} {answers : Answers} {idx : Nat}
    {data : Nat → Option Bytes} {frameId : Nat}
    (frameIdEq : frameId = (self.img idx).frameIdCounter + 1)
    (bases : ∀ f ∈ (self.img idx).extraFrames, f.baseFrameId ≠ 0 →
      f.baseFrameId ≠ (self.img idx).rootFrame.id)
    (dataEq : data = (if (self.img idx).rootFrame.id ≠ 0 then
      forgetData (self.frameData (self.img idx)) (self.img idx).rootFrame.id
      else self.frameData (self.img idx)))
    (ids : Identified (self.frameData (self.img idx)) (self.img idx))
    (h : AllBased (self.frameData (self.img idx)) (self.img idx)) :
    AllBased
      (if answers.cacheAccepts then setData data frameId self.currentlyLoading.frameData else data)
      ((self.img idx).placeRoot self.currentlyLoading frameId) := by
  obtain ⟨fresh, distinct⟩ := List.nodup_cons.1 ids.distinct
  intro f mem
  rcases List.mem_cons.1 mem with rfl | mem
  · exact Based.of_root rfl _
  · have other (g : Frame) (memG : g ∈ (self.img idx).extraFrames) :
        g.id ≠ (self.img idx).rootFrame.id := fun same =>
      fresh (same ▸ List.mem_map_of_mem memG)
    have extra (g : Frame) (memG : g ∈ (self.img idx).frames)
        (stays : g.id ≠ (self.img idx).rootFrame.id) : g ∈ (self.img idx).extraFrames := by
      rcases List.mem_cons.1 memG with rfl | memG
      · exact absurd rfl stays
      · exact memG
    refine based_of_others (h f (List.mem_cons_of_mem _ mem)) ⟨List.mem_cons_of_mem _ mem, other f mem⟩
      (fun g memG stays => bases g (extra g memG stays)) ?_ ?_
    · intro g memG stays foundG
      have given := ids.given g memG
      have newer : frameId ≠ g.id := by omega
      unfold frameForId Image.frames at foundG ⊢
      rw [List.find?_cons_of_neg (by simpa using Ne.symm stays)] at foundG
      have skip : decide (((self.img idx).placeRoot self.currentlyLoading frameId).rootFrame.id =
        g.id) = false := decide_eq_false newer
      simp only [List.find?_cons, skip]
      exact foundG
    · intro g memG stays
      have given := ids.given g memG
      have kept : data g.id = self.frameData (self.img idx) g.id := by
        rw [dataEq]
        split
        · rw [forgetData, if_neg stays]
        · rfl
      split
      · rw [setData, if_neg (by omega)]
        exact kept
      · exact kept

theorem allBased_withoutFrame {data : Nat → Option Bytes} {img : Image} {frameNumber : Nat}
    {removed : Frame} (found : frameForNumber img frameNumber = some removed)
    (more : img.extraFrames ≠ [])
    (bases : ∀ f ∈ img.frames, f.baseFrameId ≠ 0 → f.baseFrameId ≠ removed.id)
    (distinct : (img.frames.map Frame.id).Nodup) (h : AllBased data img) :
    AllBased (forgetData data removed.id) (withoutFrame img frameNumber) := by
  obtain ⟨positive, atIndex⟩ := frameForNumber_eq_some.1 found
  have frames : (withoutFrame img frameNumber).frames =
      img.frames.filter fun f => decide (f.id ≠ removed.id) := by
    rw [withoutFrame_frames (Nat.pos_of_ne_zero positive) more, eraseIdx_eq_filter distinct atIndex]
  intro f mem
  rw [frames] at mem
  obtain ⟨memOld, stays⟩ := List.mem_filter.1 mem
  refine based_of_others (h f memOld) ⟨memOld, of_decide_eq_true stays⟩
    (fun g memG _ => bases g memG) ?_ ?_
  · intro g memG staysG foundG
    unfold frameForId at foundG ⊢
    rw [frames, List.find?_filter, ← foundG]
    congr 1
    funext f'
    by_cases same : f'.id = g.id
    · simp [same, staysG]
    · simp [same]
  · exact fun g _ staysG => if_neg staysG

theorem allBased_addFrame {libs : GraphicsLibraries} {answers : Answers} {self : GraphicsManager}
    {g : GraphicsCommand} {idx slot : Nat} {frame : Frame} {ld : LoadData}
    (inside : idx < self.images.length)
    (ok : KeepsReferences libs answers (.addFrame self g idx slot))
    (made : MakesFrame libs answers self g idx frame ld)
    (ids : Identified (self.frameData (self.img idx)) (self.img idx))
    (h : AllBased (self.frameData (self.img idx)) (self.img idx)) :
    AllBased (setData (self.frameData (self.img idx)) frame.id ld.frameData)
      { self.img idx with
        frameIdCounter := u32 ((self.img idx).frameIdCounter + 1)
        extraFrames := (self.img idx).extraFrames ++ [frame]
        animationDuration := (self.img idx).animationDuration + frame.gap } := by
  obtain ⟨⟨counts, fits⟩, others⟩ := ok
  have idEq := makesFrame_id made
  rw [u32_succ counts] at idEq
  have lookup (last : Frame) {img' : Image} (frames : img'.frames = (self.img idx).frames ++ [last])
      {id : Nat} {f : Frame} (found : frameForId (self.img idx) id = some f) :
      frameForId img' id = some f := by
    unfold frameForId at found ⊢
    rw [frames, List.find?_append, found]
    rfl
  have sameData (f : Frame) (mem : f ∈ (self.img idx).frames) :
      setData (self.frameData (self.img idx)) frame.id ld.frameData f.id =
        self.frameData (self.img idx) f.id := by
    have given := ids.given f mem
    rw [setData, if_neg (by omega)]
  have carry {img' : Image} (frames : img'.frames = (self.img idx).frames ++ [frame]) {n : Nat}
      {f : Frame} (mem : f ∈ (self.img idx).frames)
      (based : Based (frameForId (self.img idx)) (self.frameData (self.img idx)) n f) :
      Based (frameForId img') (setData (self.frameData (self.img idx)) frame.id ld.frameData) n f := by
    refine @Based.transfer (frameForId (self.img idx)) _ (self.frameData (self.img idx)) _
      (fun f => f ∈ (self.img idx).frames) id ?_ _ _ mem based
    intro f memF based
    refine ⟨rfl, fun base foundB => ?_⟩
    have memB := (frameForId_mem foundB).1
    exact ⟨memB, lookup frame frames foundB, fun has => sameData f memF ▸ has,
      fun has => (sameData base memB).symm ▸ has⟩
  intro f mem
  rcases List.mem_append.1 (show f ∈ (self.img idx).frames ++ [frame] from mem) with mem | mem
  · exact carry rfl mem (h f mem)
  · obtain rfl := List.mem_singleton.1 mem
    rcases made with ⟨-, rfl, -⟩ | ⟨other, found, based⟩
    · exact Based.of_root rfl _
    · have img := @grownFrames_img answers self idx inside
      obtain ⟨older, cached⟩ := others other found
      -- the frame it is based on is an old one
      have memOther : other ∈ (self.img idx).frames := by
        obtain ⟨positive, atIndex⟩ := frameForNumber_eq_some.1 found
        have bound : g.otherFrameNumber - 1 < (self.img idx).frames.length := by
          simp only [Image.frames, List.length_cons]
          omega
        rw [img] at atIndex
        have atIndex : ((self.img idx).frames ++ [answers.fresh])[g.otherFrameNumber - 1]? =
          some other := atIndex
        rw [List.getElem?_append_left bound] at atIndex
        exact List.mem_of_getElem? atIndex
      unfold baseOn at based
      split at based
      · obtain ⟨cfd, -, based⟩ := Option.bind_eq_some_iff.1 based
        rw [← (Prod.mk.inj (Option.some.inj based)).1]
        exact Based.of_root rfl _
      · rename_i short
        obtain ⟨frameEq, -⟩ := Prod.mk.inj (Option.some.inj based)
        have base : f.baseFrameId = other.id := frameEq ▸ rfl
        by_cases rootless : other.id = 0
        · exact Based.of_root (base.trans rootless) _
        · have shortChain : Based (frameForId (self.img idx)) (self.frameData (self.img idx)) 3
              other := by
            by_cases otherRoot : other.baseFrameId = 0
            · exact Based.of_root otherRoot _
            · have notLarge : ¬ referenceChainTooLarge ((grownFrames answers self idx).img idx)
                other = true := fun large => short ⟨otherRoot, large⟩
              unfold referenceChainTooLarge at notLarge
              simp only [decide_eq_true_eq, not_or, Nat.not_le] at notLarge
              obtain ⟨-, chain⟩ := based_of_drawnArea
                (fun id b found => lookup answers.fresh (congrArg Image.frames img) found)
                (h other memOther) rfl notLarge.2 notLarge.1
              exact chain.mono (by omega)
          have foundBase : frameForId (self.img idx) f.baseFrameId = some other :=
            base ▸ frameForId_of_mem ids.distinct memOther
          exact .inr ⟨other, lookup f rfl foundBase, fun _ => (sameData other memOther).symm ▸
            cached rootless, carry rfl memOther shortChain⟩

theorem referenceRules (libs : GraphicsLibraries) (answers : Answers) :
    FrameRules libs answers (KeepsReferences libs answers)
      fun data img => Identified data img ∧ AllBased data img where
  keeps := by
    intro data img after kept h
    refine ⟨(identifiedRules libs answers).keeps kept h.1, ?_⟩
    unfold AllBased frameForId Image.frames
    rw [kept.rootFrame, kept.extraFrames]
    exact h.2
  blank := by
    intro img blank
    refine ⟨(identifiedRules libs answers).blank blank, fun f mem => ?_⟩
    simp only [Image.frames, blank.extraFrames, blank.rootFrame, List.mem_singleton] at mem
    exact Based.of_root (mem ▸ rfl) _
  changeGap := fun gap found h => ⟨(identifiedRules libs answers).changeGap gap found h.1,
    allBased_changeGap gap found h.1.distinct h.2⟩
  storage := fun used h => ⟨(identifiedRules libs answers).storage used h.1, h.2⟩
  replaceRoot := by
    intro self idx data frameId ok size frameIdEq dataEq h
    exact ⟨(identifiedRules libs answers).replaceRoot ok.1 size frameIdEq dataEq h.1,
      allBased_replaceRoot (frameIdEq.trans (u32_succ ok.1)) ok.2 dataEq h.1 h.2⟩
  countFrame := fun ok h => ⟨(identifiedRules libs answers).countFrame ok.1 h.1, h.2⟩
  addFrame := by
    intro self g idx slot frame ld inside ok sized made h
    exact ⟨(identifiedRules libs answers).addFrame inside ok.1 sized made h.1,
      allBased_addFrame inside ok made h.1 h.2⟩
  editFrame := by
    intro self gapped g idx frameNumber f cfd bytes ok gappedEq found coalesced length h
    refine ⟨(identifiedRules libs answers).editFrame trivial gappedEq found coalesced length h.1, ?_⟩
    refine allBased_modify h.1.distinct h.2 found (fun _ => rfl) (.inr fun _ => rfl) ?_ ?_
    · intro has
      split
      · rw [setData, if_pos rfl]
        rfl
      · exact has
    · intro id other
      split
      · rw [setData, if_neg other]
      · rfl
  deleteFrame := by
    intro self idx frameNumber f ok more found h
    exact ⟨(identifiedRules libs answers).deleteFrame trivial more found h.1,
      allBased_withoutFrame found more (ok f found) h.1.distinct h.2⟩
  compose := by
    intro self g idx d srcData destData dest bytes ok found coalesced length h
    have counts : CountsFrames libs answers (.compose self g idx d srcData destData) := trivial
    refine ⟨(identifiedRules libs answers).compose counts found coalesced length h.1, ?_⟩
    refine allBased_modify h.1.distinct h.2 found (fun _ => rfl) (.inr fun _ => rfl) ?_ ?_
    · intro has
      split
      · rw [setData, if_pos rfl]
        rfl
      · exact has
    · intro id other
      split
      · rw [setData, if_neg other]
      · rfl

/-- Following the bases of a frame ends at a frame without one after so many steps. -/
def ReachesRoot (img : Image) : Nat → Frame → Prop
  | 0, f => f.baseFrameId = 0
  | n + 1, f => f.baseFrameId = 0 ∨
      ∃ base, frameForId img f.baseFrameId = some base ∧ ReachesRoot img n base

theorem reachesRoot_of_based {img : Image} {data : Nat → Option Bytes} {n : Nat} {f : Frame}
    (h : Based (frameForId img) data n f) : ReachesRoot img n f := by
  induction n generalizing f with
  | zero => exact h
  | succ n ih =>
    rcases h with root | ⟨base, found, -, rest⟩
    · exact .inl root
    · exact .inr ⟨base, found, ih rest⟩

/-- Frame references: in every run that neither deletes nor replaces a frame others are based on,
and in which every new frame fits and is based on an older frame that has data, every frame is
based on a frame of its image or on none, its bases end after at most four steps, and its data
can be drawn together if it has any. -/
theorem graphicsReferences (libs : GraphicsLibraries) (storageLimit takenIds : Nat)
    (inputs : List (GraphicsStep × Answers))
    (taken : ∀ self input, Takes (GraphicsManager.step libs) (grmanAlloc storageLimit takenIds)
      inputs self input → ∀ c ∈ stepChanges libs self input, KeepsReferences libs input.2 c)
    (self : GraphicsManager)
    (visited : Visits (GraphicsManager.step libs) (grmanAlloc storageLimit takenIds) inputs self)
    (img : Image) (mem : img ∈ self.images) (f : Frame) (memF : f ∈ img.frames) :
    (f.baseFrameId = 0 ∨ ∃ base ∈ img.frames, base.id = f.baseFrameId) ∧ ReachesRoot img 4 f ∧
      ((readFromCache self { imageId := img.internalId, frameId := f.id }).isSome →
        (getCoalescedFrameData libs.toBlending self img f).isSome) := by
  have holds := (FrameRules.run (fun answers => referenceRules libs answers)
    (fun _ _ _ _ _ ok => ok.1.2) taken visited).everywhere img mem
  have based := holds.2 f memF
  refine ⟨?_, reachesRoot_of_based based, coalesced_of_based based (by decide)⟩
  rcases based with root | ⟨base, found, -⟩
  · exact .inl root
  · exact .inr ⟨base, (frameForId_mem found).1, (frameForId_mem found).2⟩

/-- A frame based on the root frame, which is then deleted. -/
def baseDeleted : List (GraphicsStep × Answers) :=
  [pixelStep { action := 't'.toUInt8, id := 1 },
    pixelStep { action := 'f'.toUInt8, id := 1, numCells := 1 },
    commandStep { action := 'd'.toUInt8, deleteAction := 'f'.toUInt8, id := 1, numLines := 1 }]

/-- The frame that is left refers to the one deleted, and cannot be drawn although it has data. -/
theorem graphicsReferences_dangling :
    ∃ self img f, Visits (GraphicsManager.step plainLibraries) (grmanAlloc 1000 0) baseDeleted self ∧
      img ∈ self.images ∧ f ∈ img.frames ∧ f.baseFrameId = 1 ∧ (∀ base ∈ img.frames, base.id ≠ 1) ∧
      (readFromCache self { imageId := img.internalId, frameId := f.id }).isSome ∧
      getCoalescedFrameData plainLibraries.toBlending self img f = none :=
  ⟨_, _, _, ⟨baseDeleted, List.prefix_rfl, rfl⟩, List.mem_cons_self .., List.mem_cons_self .., rfl,
    by decide, rfl, rfl⟩

/-- A frame based on the root frame, which stays. -/
theorem graphicsReferences_twoFrames :
    ∃ self img f, run (GraphicsManager.step plainLibraries) (grmanAlloc 1000 0)
        [pixelStep { action := 't'.toUInt8, id := 1 },
          pixelStep { action := 'f'.toUInt8, id := 1, numCells := 1 }] = some self ∧
      img ∈ self.images ∧ f ∈ img.frames ∧ f.baseFrameId = 1 ∧
        (f.baseFrameId = 0 ∨ ∃ base ∈ img.frames, base.id = f.baseFrameId) ∧ ReachesRoot img 4 f ∧
          ((readFromCache self { imageId := img.internalId, frameId := f.id }).isSome →
            (getCoalescedFrameData plainLibraries.toBlending self img f).isSome) := by
  refine ⟨_, _, _, rfl, List.mem_cons_self .., List.mem_cons_of_mem _ (List.mem_cons_self ..), rfl,
    graphicsReferences plainLibraries 1000 0
      [pixelStep { action := 't'.toUInt8, id := 1 },
        pixelStep { action := 'f'.toUInt8, id := 1, numCells := 1 }] ?_ _
      ⟨_, List.prefix_rfl, rfl⟩ _ (List.mem_cons_self ..) _ (List.mem_cons_of_mem _ (List.mem_cons_self ..))⟩
  intro self input taken c mem
  rcases takes_cons taken with ⟨rfl, rfl⟩ | ⟨first, firstEq, taken⟩
  · obtain rfl := List.mem_singleton.1 mem
    exact ⟨by decide, fun _ none => nomatch none⟩
  · rcases takes_cons taken with ⟨rfl, rfl⟩ | ⟨second, -, taken⟩
    · obtain rfl := Option.some.inj firstEq
      obtain rfl := List.mem_singleton.1 mem
      refine ⟨⟨by decide, rfl, fun other _ found root => ?_⟩, fun other found => ?_⟩
      · exact absurd (Option.some.inj found ▸ rfl) root
      · exact ⟨by decide, fun _ => Option.some.inj found ▸ rfl⟩
    · exact absurd taken (not_takes_nil _ _ _ _)

end Smelly
