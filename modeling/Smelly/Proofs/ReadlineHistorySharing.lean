/-
Module: Smelly.Proofs.ReadlineHistorySharing
Purpose: What a session of a shared history keeps of the items that it merges, and when a write of
  the file keeps those that are in it.
Trusted boundary: none
-/
import Smelly.Core.ReadlineHistory
import Smelly.Lib.Newest
import Smelly.Lib.Run

namespace Smelly.Readline

open Newest Run

/-- A list of the history: each command once, sorted by time and no longer than the maximum. -/
structure Listed (maxItems : Nat) (items : List HistoryItem) : Prop where
  once : (items.map HistoryItem.cmd).Nodup
  sorted : items.Pairwise fun a b => a.timestamp ≤ b.timestamp
  few : items.length ≤ maxItems

theorem Listed.nil (maxItems : Nat) : Listed maxItems [] :=
  ⟨List.nodup_nil, List.Pairwise.nil, Nat.zero_le _⟩

/-! ### The map of indices -/

/-- The map has the index of each command. -/
def Locates (cmdMap : String → Option Nat) (items : List HistoryItem) : Prop :=
  ∀ cmd i, cmdMap cmd = some i ↔ ∃ item, items[i]? = some item ∧ item.cmd = cmd

theorem mapFrom_eq_some {items : List HistoryItem} (once : (items.map HistoryItem.cmd).Nodup)
    (pmap : String → Option Nat) (start : Nat) (cmd : String) (i : Nat) :
    mapFrom pmap start items cmd = some i ↔
      (∃ k item, i = start + k ∧ items[k]? = some item ∧ item.cmd = cmd) ∨
        (cmd ∉ items.map HistoryItem.cmd ∧ pmap cmd = some i) := by
  induction items generalizing pmap start with
  | nil => simp [mapFrom]
  | cons hi rest ih =>
    obtain ⟨fresh, restOnce⟩ := List.nodup_cons.1 once
    rw [mapFrom, ih restOnce]
    by_cases same : cmd = hi.cmd
    · subst same
      simp only [if_true, Option.some.injEq, List.map_cons, List.mem_cons, true_or, not_true,
        false_and, or_false]
      constructor
      · rintro (⟨k, item, rfl, found, sameCmd⟩ | ⟨-, rfl⟩)
        · exact absurd (sameCmd ▸ List.mem_map_of_mem (List.mem_of_getElem? found)) fresh
        · exact ⟨0, hi, rfl, rfl, rfl⟩
      · rintro ⟨k, item, rfl, found, sameCmd⟩
        cases k with
        | zero => exact .inr ⟨fresh, rfl⟩
        | succ k =>
          exact absurd (sameCmd ▸ List.mem_map_of_mem (List.mem_of_getElem? found)) fresh
    · simp only [same, if_false, List.map_cons, List.mem_cons, false_or]
      constructor
      · rintro (⟨k, item, rfl, found, sameCmd⟩ | other)
        · exact .inl ⟨k + 1, item, by omega, found, sameCmd⟩
        · exact .inr other
      · rintro (⟨k, item, rfl, found, sameCmd⟩ | other)
        · cases k with
          | zero =>
            cases found
            exact absurd sameCmd.symm same
          | succ k => exact .inl ⟨k, item, by omega, found, sameCmd⟩
        · exact .inr other

theorem mapFromItems_locates {items : List HistoryItem}
    (once : (items.map HistoryItem.cmd).Nodup) : Locates (mapFromItems items) items := by
  intro cmd i
  rw [mapFromItems, mapFrom_eq_some once]
  simp

/-! ### Merging -/

namespace History

/-- Each command is once among the items, at its index. -/
structure Mapped (h : History) : Prop where
  once : (h.items.map HistoryItem.cmd).Nodup
  located : Locates h.cmdMap h.items

/-- The history of a session between its steps. -/
structure WellFormed (h : History) : Prop where
  listed : Listed h.maxItems h.items
  located : Locates h.cmdMap h.items

/-- Items were merged into a history: nothing is lost and nothing made up. -/
structure Merges (h : History) (items : List HistoryItem) (h' : History) : Prop where
  hasFile : h'.hasFile = h.hasFile
  maxItems : h'.maxItems = h.maxItems
  absorbs : Absorbs HistoryItem.cmd HistoryItem.timestamp h.maxItems h.items h'.items
  kept : ∀ x ∈ items, Kept HistoryItem.cmd HistoryItem.timestamp h.maxItems h'.items x
  given : ∀ y ∈ h'.items, y ∈ h.items ∨ y ∈ items

theorem Merges.nothing (h : History) : Merges h [] h :=
  ⟨rfl, rfl, .refl _, fun _ mem => absurd mem List.not_mem_nil, fun _ mem => .inl mem⟩

theorem Merges.trans {h h' h'' : History} {first second : List HistoryItem}
    (merged : Merges h first h') (then_ : Merges h' second h'') :
    Merges h (first ++ second) h'' := by
  have absorbs := then_.absorbs
  have kept := then_.kept
  rw [merged.maxItems] at absorbs kept
  refine ⟨then_.hasFile.trans merged.hasFile, then_.maxItems.trans merged.maxItems,
    merged.absorbs.trans absorbs, ?_, ?_⟩
  · intro x mem
    rcases List.mem_append.1 mem with before | after
    · exact absorbs.keeps (merged.kept x before)
    · exact kept x after
  · intro y mem
    rcases then_.given y mem with old | new
    · rcases merged.given y old with older | added
      · exact .inl older
      · exact .inr (List.mem_append_left _ added)
    · exact .inr (List.mem_append_right _ new)

/-- An item replaces an older one with its command, or is appended if there is none. -/
theorem addItem_spec {h : History} (mapped : h.Mapped) (x : HistoryItem) :
    ∃ h' changed, h.addItem x = some (h', changed) ∧ h'.Mapped ∧ Merges h [x] h' ∧
      (changed = false → h' = h) := by
  cases found : h.cmdMap x.cmd with
  | none =>
    have fresh : x.cmd ∉ h.items.map HistoryItem.cmd := by
      intro mem
      obtain ⟨item, itemMem, sameCmd⟩ := List.mem_map.1 mem
      obtain ⟨i, place⟩ := List.mem_iff_getElem?.1 itemMem
      have there := (mapped.located x.cmd i).2 ⟨item, place, sameCmd⟩
      exact absurd (found.symm.trans there) (by simp)
    have added : h.addItem x = some ({ h with
        cmdMap := fun cmd => if cmd = x.cmd then some h.items.length else h.cmdMap cmd
        items := h.items ++ [x] }, true) := by
      unfold addItem
      rw [found]
    refine ⟨_, true, added, ⟨?_, ?_⟩, ⟨rfl, rfl, absorbs_concat _ _, ?_, ?_⟩, ?_⟩
    · rw [List.map_append, List.nodup_append]
      refine ⟨mapped.once, by simp, ?_⟩
      rintro cmd old other new rfl
      rw [List.map_singleton, List.mem_singleton] at new
      exact fresh (new ▸ old)
    · intro cmd i
      by_cases same : cmd = x.cmd
      · subst same
        simp only [if_true, Option.some.injEq]
        constructor
        · rintro rfl
          exact ⟨x, by simp, rfl⟩
        · rintro ⟨item, place, sameCmd⟩
          rcases Nat.lt_trichotomy i h.items.length with before | rfl | after
          · rw [List.getElem?_append_left before] at place
            exact absurd (sameCmd ▸ List.mem_map_of_mem (List.mem_of_getElem? place)) fresh
          · rfl
          · rw [List.getElem?_eq_none (by simp; omega)] at place
            exact absurd place (by simp)
      · simp only [same, if_false]
        rw [mapped.located cmd i]
        constructor
        · rintro ⟨item, place, sameCmd⟩
          refine ⟨item, ?_, sameCmd⟩
          rw [List.getElem?_append_left (List.getElem?_eq_some_iff.1 place).1]
          exact place
        · rintro ⟨item, place, rfl⟩
          refine ⟨item, ?_, rfl⟩
          by_cases before : i < h.items.length
          · rwa [List.getElem?_append_left before] at place
          · rw [List.getElem?_append_right (Nat.le_of_not_lt before)] at place
            have last := List.mem_singleton.1 (List.mem_of_getElem? place)
            exact absurd (congrArg HistoryItem.cmd last) same
    · intro y mem
      exact kept_of_mem (List.mem_append_right _ mem)
    · exact fun y mem => List.mem_append.1 mem
    · exact fun unchanged => absurd unchanged (by simp)
  | some existing =>
    obtain ⟨old, place, sameCmd⟩ := (mapped.located x.cmd existing).1 found
    have oldMem := List.mem_of_getElem? place
    by_cases newer : old.timestamp < x.timestamp
    · obtain ⟨front, back, split, length⟩ : ∃ front back, h.items = front ++ old :: back ∧
          front.length = existing := by
        obtain ⟨inside, isOld⟩ := List.getElem?_eq_some_iff.1 place
        refine ⟨h.items.take existing, h.items.drop (existing + 1), ?_,
          List.length_take_of_le (Nat.le_of_lt inside)⟩
        rw [← isOld, List.getElem_cons_drop, List.take_append_drop]
      have replaced : h.items.set existing x = front ++ x :: back := by
        rw [split, ← length, List.set_append_right _ _ (Nat.le_refl _), Nat.sub_self]
        rfl
      refine ⟨{ h with items := front ++ x :: back }, true, ?_, ?_, ⟨rfl, rfl, ?_, ?_, ?_⟩, ?_⟩
      · unfold addItem
        rw [found]
        simp only [place, Option.bind_eq_bind, Option.bind_some, newer, if_true, replaced]
      · have cmds : (front ++ x :: back).map HistoryItem.cmd = h.items.map HistoryItem.cmd := by
          rw [split, List.map_append, List.map_append, List.map_cons, List.map_cons, sameCmd]
        have same : ∀ i : Nat, ((front ++ x :: back)[i]?).map HistoryItem.cmd =
            (h.items[i]?).map HistoryItem.cmd := by
          intro i
          rw [← List.getElem?_map, ← List.getElem?_map, cmds]
        refine ⟨cmds ▸ mapped.once, fun cmd i => ?_⟩
        have here := same i
        rw [show ({ h with items := front ++ x :: back } : History).cmdMap = h.cmdMap from rfl,
          mapped.located cmd i, ← Option.map_eq_some_iff, ← Option.map_eq_some_iff, here]
      · rw [split]
        exact absorbs_replace sameCmd.symm (Int.le_of_lt newer)
      · intro y mem
        rw [List.mem_singleton.1 mem]
        exact kept_of_mem (by simp)
      · intro y mem
        rw [split]
        simp only [List.mem_append, List.mem_cons, List.not_mem_nil, or_false] at mem ⊢
        tauto
      · exact fun unchanged => absurd unchanged (by simp)
    · refine ⟨h, false, ?_, mapped, ⟨rfl, rfl, .refl _, ?_, fun y mem => .inl mem⟩, fun _ => rfl⟩
      · unfold addItem
        rw [found]
        simp only [place, Option.bind_eq_bind, Option.bind_some, newer, if_false]
      · intro y mem
        rw [List.mem_singleton.1 mem]
        exact .inl ⟨old, oldMem, sameCmd, Int.le_of_not_gt newer⟩

/-- `changed` is never reset. -/
theorem addItems_changed (items : List HistoryItem) (h h' : History) :
    h.addItems true items ≠ some (h', false) := by
  induction items generalizing h with
  | nil => simp [addItems]
  | cons x rest ih =>
    intro eq
    obtain ⟨⟨middle, added⟩, -, later⟩ := Option.bind_eq_some_iff.1 eq
    exact ih middle later

theorem addItems_spec {h : History} (mapped : h.Mapped) (changed : Bool)
    (items : List HistoryItem) :
    ∃ h' after, h.addItems changed items = some (h', after) ∧ h'.Mapped ∧ Merges h items h' ∧
      (after = false → h' = h) := by
  induction items generalizing h changed with
  | nil => exact ⟨h, changed, rfl, mapped, .nothing h, fun _ => rfl⟩
  | cons x rest ih =>
    obtain ⟨first, added, addEq, firstMapped, firstMerges, firstSame⟩ := addItem_spec mapped x
    obtain ⟨last, after, restEq, lastMapped, lastMerges, lastSame⟩ :=
      ih firstMapped (changed || added)
    refine ⟨last, after, ?_, lastMapped, firstMerges.trans lastMerges, ?_⟩
    · rw [addItems, addEq]
      exact restEq
    · intro unchanged
      have same := lastSame unchanged
      cases added with
      | false => rw [same, firstSame rfl]
      | true =>
        rw [Bool.or_true, unchanged] at restEq
        exact absurd restEq (addItems_changed rest first last)

theorem sortByTime_sorted (items : List HistoryItem) :
    (sortByTime items).Pairwise fun a b => a.timestamp ≤ b.timestamp := by
  have sorted : (sortByTime items).Pairwise fun a b => !decide (b.timestamp < a.timestamp) :=
    List.pairwise_mergeSort (by grind) (by grind) items
  refine sorted.imp ?_
  intro a b ordered
  simpa using ordered

theorem Merges.of_items {h h' last : History} {items : List HistoryItem} (merged : Merges h items h')
    (hasFile : last.hasFile = h'.hasFile) (maxItems : last.maxItems = h'.maxItems)
    (absorbs : Absorbs HistoryItem.cmd HistoryItem.timestamp h'.maxItems h'.items last.items)
    (given : ∀ y ∈ last.items, y ∈ h'.items) : Merges h items last := by
  have nothing : Merges h' [] last :=
    ⟨hasFile, maxItems, absorbs, fun _ mem => absurd mem List.not_mem_nil,
      fun y mem => .inl (given y mem)⟩
  have both := merged.trans nothing
  rwa [List.append_nil] at both

/-- Merging keeps all items, but the oldest of those that are too many.  Into an empty history the
items go as they are. -/
theorem mergeItems_spec {h : History} (wf : h.WellFormed) {items : List HistoryItem}
    (listed : h.items = [] → Listed h.maxItems items) :
    ∃ h', h.mergeItems items = some h' ∧ h'.WellFormed ∧ Merges h items h' := by
  by_cases empty : h.items = []
  · have itemsListed := listed empty
    refine ⟨{ h with items := items, cmdMap := mapFromItems items }, ?_,
      ⟨itemsListed, mapFromItems_locates itemsListed.once⟩,
      rfl, rfl, ?_, fun _ mem => kept_of_mem mem, fun _ mem => .inr mem⟩
    · rw [mergeItems, if_pos empty]
    rw [empty]
    exact ⟨fun _ mem => absurd mem List.not_mem_nil, fun _ => by simp [notOlder]⟩
  · by_cases none_ : items = []
    · subst none_
      exact ⟨h, by rw [mergeItems, if_neg empty, if_pos rfl], wf, .nothing h⟩
    · obtain ⟨added, changed, addEq, mapped, merges, same⟩ :=
        addItems_spec ⟨wf.listed.once, wf.located⟩ false items
      rw [mergeItems, if_neg empty, if_neg none_, addEq]
      cases changed with
      | false =>
        have unchanged := same rfl
        subst unchanged
        exact ⟨added, rfl, wf, merges⟩
      | true =>
        have perm : (sortByTime added.items).Perm added.items := List.mergeSort_perm _ _
        have sorted := sortByTime_sorted added.items
        -- dropping the oldest items, none where there are not too many
        have capped : (if (sortByTime added.items).length > added.maxItems then
            (sortByTime added.items).drop ((sortByTime added.items).length - added.maxItems)
            else sortByTime added.items) =
            (sortByTime added.items).drop ((sortByTime added.items).length - added.maxItems) := by
          split
          · rfl
          · rw [show (sortByTime added.items).length - added.maxItems = 0 by omega, List.drop_zero]
        have dropped : Absorbs HistoryItem.cmd HistoryItem.timestamp added.maxItems added.items
            ((sortByTime added.items).drop
              ((sortByTime added.items).length - added.maxItems)) :=
          (absorbs_perm perm.symm).trans (absorbs_dropOldest sorted added.maxItems)
        have once : (((sortByTime added.items).drop
            ((sortByTime added.items).length - added.maxItems)).map HistoryItem.cmd).Nodup := by
          refine List.Nodup.sublist ((List.drop_sublist _ _).map _) ?_
          exact (perm.map HistoryItem.cmd).nodup_iff.2 mapped.once
        refine ⟨_, rfl, ⟨⟨?_, ?_, ?_⟩, ?_⟩, ?_⟩
        · simp only [capped]
          exact once
        · simp only [capped]
          exact sorted.drop
        · simp only [capped, List.length_drop]
          omega
        · simp only [capped]
          exact mapFromItems_locates once
        · refine merges.of_items rfl rfl ?_ ?_
          · simp only [capped]
            exact dropped
          · intro y mem
            simp only [capped] at mem
            exact perm.mem_iff.1 (List.mem_of_mem_drop mem)

end History

/-! ### Sessions -/

/-- A session has kept all that was merged into its history, and nothing else. -/
structure HistorySession.Right (maxItems : Nat) (s : HistorySession) : Prop where
  wellFormed : s.history.WellFormed
  maximum : s.history.maxItems = maxItems
  kept : ∀ x ∈ s.merged, Kept HistoryItem.cmd HistoryItem.timestamp maxItems s.history.items x
  given : ∀ y ∈ s.history.items, y ∈ s.merged

theorem HistorySession.Right.merge {maxItems : Nat} {s : HistorySession} (h : s.Right maxItems)
    {history : History} (wf : history.WellFormed) {items : List HistoryItem}
    (merges : s.history.Merges items history) :
    HistorySession.Right maxItems { history := history, merged := s.merged ++ items } := by
  have absorbs := merges.absorbs
  have kept := merges.kept
  rw [h.maximum] at absorbs kept
  refine ⟨wf, merges.maxItems.trans h.maximum, ?_, ?_⟩
  · intro x mem
    rcases List.mem_append.1 mem with before | now
    · exact absorbs.keeps (h.kept x before)
    · exact kept x now
  · intro y mem
    rcases merges.given y mem with old | new
    · exact List.mem_append_left _ (h.given y old)
    · exact List.mem_append_right _ new

/-- A session whose file is closed. -/
theorem HistorySession.Right.close {maxItems : Nat} {s : HistorySession} (h : s.Right maxItems) :
    HistorySession.Right maxItems { s with history := { s.history with hasFile := false } } :=
  ⟨⟨h.wellFormed.listed, h.wellFormed.located⟩, h.maximum, h.kept, h.given⟩

/-- The maximum that `New` passes on. -/
def historyMax (historyCount : Nat) : Nat := if historyCount = 0 then 8192 else historyCount

theorem historyMax_pos (historyCount : Nat) : 0 < historyMax historyCount := by
  unfold historyMax
  split <;> omega

/-- The file holds a list of the history, if anything, and every session is right. -/
structure SharedHistory.Right (maxItems : Nat) (s : SharedHistory) : Prop where
  file : ∀ items, s.file = some items → Listed maxItems items
  sessions : ∀ session ∈ s.sessions, session.Right maxItems

theorem newHistory_right (opened : Bool) (historyCount : Nat) {file : HistoryFile}
    (listed : ∀ items, file = some items → Listed (historyMax historyCount) items) :
    ∃ history, newHistory opened historyCount file = some history ∧
      HistorySession.Right (historyMax historyCount)
        { history := history, merged := if opened then file.getD [] else [] } := by
  have empty : History.WellFormed
      { hasFile := opened, maxItems := historyMax historyCount } :=
    ⟨.nil _, fun cmd i => by simp⟩
  have start : HistorySession.Right (historyMax historyCount)
      { history := { hasFile := opened, maxItems := historyMax historyCount }, merged := [] } :=
    ⟨empty, rfl, fun _ mem => absurd mem List.not_mem_nil, fun _ mem => absurd mem List.not_mem_nil⟩
  cases opened with
  | false => exact ⟨_, rfl, start⟩
  | true =>
    cases file with
    | none => exact ⟨_, rfl, start⟩
    | some items =>
      obtain ⟨history, mergeEq, wf, merges⟩ :=
        History.mergeItems_spec empty fun _ => listed items rfl
      exact ⟨history, mergeEq, start.merge wf merges⟩

/-- A write puts the items of the session into the file, whatever is in the file. -/
theorem write_right {maxItems : Nat} {s : HistorySession} (h : s.Right maxItems)
    (file : HistoryFile) :
    ∃ history, s.history.write file =
        some (history, if s.history.hasFile then some s.history.items else file) ∧
      history.items = s.history.items ∧
      HistorySession.Right maxItems { s with history := history } := by
  cases hasFile : s.history.hasFile with
  | false => exact ⟨s.history, by simp [History.write, hasFile], rfl, h⟩
  | true =>
    cases file with
    | some items => exact ⟨s.history, by simp [History.write, hasFile], rfl, h⟩
    | none =>
      have listed : s.history.items = [] → Listed s.history.maxItems [] := fun _ => .nil _
      obtain ⟨history, mergeEq, wf, merges⟩ := History.mergeItems_spec h.wellFormed listed
      have same : history.items = s.history.items := by
        by_cases empty : s.history.items = []
        · rw [History.mergeItems, if_pos empty] at mergeEq
          cases mergeEq
          exact empty.symm
        · rw [History.mergeItems, if_neg empty, if_pos rfl] at mergeEq
          cases mergeEq
          rfl
      refine ⟨history, ?_, same, ?_⟩
      · simp [History.write, hasFile, mergeEq, same]
      · have right := h.merge wf merges
        rwa [List.append_nil] at right

/-- A session that ends writes its items too, and closes the file. -/
theorem shutdown_right {maxItems : Nat} {s : HistorySession} (h : s.Right maxItems)
    (file : HistoryFile) :
    ∃ history, s.history.shutdown file =
        some (history, if s.history.hasFile then some s.history.items else file) ∧
      HistorySession.Right maxItems { s with history := history } := by
  cases hasFile : s.history.hasFile with
  | false => exact ⟨s.history, by simp [History.shutdown, hasFile], h⟩
  | true =>
    obtain ⟨history, writeEq, -, right⟩ := write_right h file
    rw [hasFile] at writeEq
    refine ⟨{ history with hasFile := false }, ?_, right.close⟩
    simp [History.shutdown, hasFile, writeEq]

/-- The file after a session has written to it. -/
theorem SharedHistory.Right.written {maxItems : Nat} {s : SharedHistory} (h : s.Right maxItems)
    {session : HistorySession} (mem : session ∈ s.sessions) :
    ∀ items, (if session.history.hasFile then some session.history.items else s.file) =
      some items → Listed maxItems items := by
  intro items same
  have right := h.sessions session mem
  cases hasFile : session.history.hasFile with
  | false =>
    rw [hasFile] at same
    exact h.file items same
  | true =>
    rw [hasFile] at same
    cases same
    exact right.maximum ▸ right.wellFormed.listed

theorem SharedHistory.Right.set {maxItems : Nat} {s : SharedHistory} (h : s.Right maxItems)
    {file : HistoryFile} (listed : ∀ items, file = some items → Listed maxItems items)
    (i : Nat) {session : HistorySession} (right : session.Right maxItems) :
    SharedHistory.Right maxItems { file := file, sessions := s.sessions.set i session } := by
  refine ⟨listed, fun other mem => ?_⟩
  rcases List.mem_or_eq_of_mem_set mem with old | rfl
  · exact h.sessions other old
  · exact right

/-- Every step of every session keeps what was merged. -/
theorem historyStep_right {historyCount : Nat} {s next : SharedHistory} {event : HistoryEvent}
    (h : s.Right (historyMax historyCount)) (stepEq : historyStep historyCount s event = some next) :
    next.Right (historyMax historyCount) := by
  cases event with
  | newHistory opened =>
    obtain ⟨history, newEq, right⟩ := newHistory_right opened historyCount h.file
    obtain ⟨found, foundEq, last⟩ := Option.bind_eq_some_iff.1 stepEq
    cases newEq.symm.trans foundEq
    cases last
    refine ⟨h.file, fun session mem => ?_⟩
    rcases List.mem_append.1 mem with old | new
    · exact h.sessions session old
    · exact List.mem_singleton.1 new ▸ right
  | addItem i x =>
    obtain ⟨session, found, rest⟩ := Option.bind_eq_some_iff.1 stepEq
    obtain ⟨history, mergeEq, last⟩ := Option.bind_eq_some_iff.1 rest
    have right := h.sessions session (List.mem_of_getElem? found)
    have single : session.history.items = [] → Listed session.history.maxItems [x] := by
      intro _
      refine ⟨by simp, by simp, ?_⟩
      rw [right.maximum]
      exact historyMax_pos historyCount
    obtain ⟨merged, mergedEq, wf, merges⟩ := History.mergeItems_spec right.wellFormed single
    cases mergedEq.symm.trans mergeEq
    cases last
    exact h.set h.file i (right.merge wf merges)
  | write i =>
    obtain ⟨session, found, rest⟩ := Option.bind_eq_some_iff.1 stepEq
    obtain ⟨⟨history, file⟩, writeEq, last⟩ := Option.bind_eq_some_iff.1 rest
    have mem := List.mem_of_getElem? found
    obtain ⟨written, writtenEq, -, right⟩ := write_right (h.sessions session mem) s.file
    cases writtenEq.symm.trans writeEq
    cases last
    exact h.set (h.written mem) i right
  | shutdown i =>
    obtain ⟨session, found, rest⟩ := Option.bind_eq_some_iff.1 stepEq
    obtain ⟨⟨history, file⟩, writeEq, last⟩ := Option.bind_eq_some_iff.1 rest
    have mem := List.mem_of_getElem? found
    obtain ⟨written, writtenEq, right⟩ := shutdown_right (h.sessions session mem) s.file
    cases writtenEq.symm.trans writeEq
    cases last
    exact h.set (h.written mem) i right

/-! ### Writing the file -/

/-- The session that writes the file in a step. -/
def HistoryEvent.writer : HistoryEvent → Option Nat
  | .write session | .shutdown session => some session
  | _ => none

/-- What is promised of a write: the file then holds a list of the history, with each command of the
session and of the file before, as it was last used, but for those of which there are `maxItems` that
are not older, and nothing else. -/
structure WriteMerges (maxItems : Nat) (merged : List HistoryItem) (before : HistoryFile)
    (items : List HistoryItem) : Prop where
  listed : Listed maxItems items
  kept : ∀ x ∈ merged ++ before.getD [],
    Kept HistoryItem.cmd HistoryItem.timestamp maxItems items x
  newest : ∀ y ∈ items, ∀ x ∈ merged ++ before.getD [], y.cmd = x.cmd → x.timestamp ≤ y.timestamp
  given : ∀ y ∈ items, y ∈ merged ++ before.getD []

/-- The file after a write holds the items of the session. -/
theorem historyStep_writes {historyCount : Nat} {s next : SharedHistory} {event : HistoryEvent}
    (h : s.Right (historyMax historyCount)) (stepEq : historyStep historyCount s event = some next)
    {i : Nat} (writes : event.writer = some i) {session : HistorySession}
    (found : s.sessions[i]? = some session) (hasFile : session.history.hasFile = true) :
    next.file = some session.history.items := by
  have right := h.sessions session (List.mem_of_getElem? found)
  cases event with
  | newHistory opened => cases writes
  | addItem j x => cases writes
  | write j =>
    cases writes
    obtain ⟨written, writtenEq, -⟩ := write_right right s.file
    rw [hasFile] at writtenEq
    simp only [historyStep, found, writtenEq, Option.bind_eq_bind, Option.bind_some] at stepEq
    cases stepEq
    rfl
  | shutdown j =>
    cases writes
    obtain ⟨written, writtenEq, -⟩ := shutdown_right right s.file
    rw [hasFile] at writtenEq
    simp only [historyStep, found, writtenEq, Option.bind_eq_bind, Option.bind_some] at stepEq
    cases stepEq
    rfl

/-- In every interleaving of sessions that share a history file, a write merges the history of its
session into that of the file exactly when each item in the file is one that the session has, with
its command and not older, or is not newer than the maximum number of items of the session. -/
theorem historyWrite (historyCount : Nat) (events : List HistoryEvent) (s next : SharedHistory)
    (event : HistoryEvent) (taken : Takes (historyStep historyCount) {} events s event)
    (stepEq : historyStep historyCount s event = some next) (i : Nat)
    (writes : event.writer = some i) (session : HistorySession)
    (found : s.sessions[i]? = some session) (hasFile : session.history.hasFile = true) :
    ∃ items, next.file = some items ∧
      (WriteMerges (historyMax historyCount) session.merged s.file items ↔
        ∀ x ∈ s.file.getD [], Kept HistoryItem.cmd HistoryItem.timestamp (historyMax historyCount)
          session.history.items x) := by
  have start : SharedHistory.Right (historyMax historyCount) {} :=
    ⟨fun items same => absurd same (by simp), fun _ mem => absurd mem List.not_mem_nil⟩
  obtain ⟨before, -, -, reached, -⟩ := taken
  have right := run_invariant (SharedHistory.Right (historyMax historyCount))
    (fun _ _ _ => historyStep_right) start reached
  have own := right.sessions session (List.mem_of_getElem? found)
  have listed : Listed (historyMax historyCount) session.history.items :=
    own.maximum ▸ own.wellFormed.listed
  refine ⟨session.history.items, historyStep_writes right stepEq writes found hasFile, ?_⟩
  constructor
  · exact fun merges x mem => merges.kept x (List.mem_append_right _ mem)
  · intro covered
    have kept : ∀ x ∈ session.merged ++ s.file.getD [], Kept HistoryItem.cmd
        HistoryItem.timestamp (historyMax historyCount) session.history.items x := by
      intro x mem
      rcases List.mem_append.1 mem with own_ | old
      · exact own.kept x own_
      · exact covered x old
    refine ⟨listed, kept, ?_, fun y mem => List.mem_append_left _ (own.given y mem)⟩
    intro y mem x among same
    exact (kept x among).newest listed.once listed.few mem same

/-- A session reads what another one wrote, and is given the same command with an older time. -/
theorem historyWrite_later :
    ∃ s next, run (historyStep 2) {}
        [.newHistory true, .addItem 0 { cmd := "a", timestamp := 1 }, .shutdown 0,
          .newHistory true, .addItem 1 { cmd := "a", timestamp := 0 }] = some s ∧
      historyStep 2 s (.write 1) = some next ∧
      ∃ items, next.file = some items ∧
        WriteMerges 2 [{ cmd := "a", timestamp := 1 }, { cmd := "a", timestamp := 0 }]
          (some [{ cmd := "a", timestamp := 1 }]) items := by
  refine ⟨_, _, rfl, rfl, ?_⟩
  obtain ⟨items, fileEq, merges⟩ := historyWrite 2
    [.newHistory true, .addItem 0 { cmd := "a", timestamp := 1 }, .shutdown 0,
      .newHistory true, .addItem 1 { cmd := "a", timestamp := 0 }, .write 1] _ _ (.write 1)
    ⟨[.newHistory true, .addItem 0 { cmd := "a", timestamp := 1 }, .shutdown 0,
      .newHistory true, .addItem 1 { cmd := "a", timestamp := 0 }], _, List.prefix_refl _, rfl, rfl⟩
    rfl 1 rfl _ rfl rfl
  refine ⟨items, fileEq, merges.2 ?_⟩
  intro x mem
  rw [List.mem_singleton.1 mem]
  exact kept_of_mem (List.mem_singleton.2 rfl)

/-- Two sessions start with an empty file; the second one to write drops what the first one wrote. -/
theorem historyWrite_overwrites :
    ∃ s next, run (historyStep 0) {}
        [.newHistory true, .newHistory true, .addItem 0 { cmd := "a", timestamp := 1 },
          .addItem 1 { cmd := "b", timestamp := 2 }, .write 0] = some s ∧
      s.file = some [{ cmd := "a", timestamp := 1 }] ∧
      historyStep 0 s (.write 1) = some next ∧
      next.file = some [{ cmd := "b", timestamp := 2 }] ∧
      ¬WriteMerges 8192 [{ cmd := "b", timestamp := 2 }] s.file [{ cmd := "b", timestamp := 2 }] := by
  refine ⟨_, _, rfl, rfl, rfl, rfl, ?_⟩
  intro merges
  rcases merges.kept { cmd := "a", timestamp := 1 } (by decide) with ⟨other, mem, same, -⟩ | full
  · rw [List.mem_singleton.1 mem] at same
    exact absurd same (by decide)
  · exact absurd full (by decide)

end Smelly.Readline
