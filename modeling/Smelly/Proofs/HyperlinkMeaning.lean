/-
Module: Smelly.Proofs.HyperlinkMeaning
Purpose: While a screen shows fewer hyperlinks than there are ids, less one round of additions,
  every cell keeps the hyperlink it was drawn with through changes of cells and garbage collections.
Trusted boundary: none
-/
import Smelly.Core.HyperlinkPool
import Mathlib.Data.List.Perm.Subperm
import Mathlib.Data.List.Induction
import Mathlib.Data.List.Infix
import Mathlib.Data.List.GetD
import Mathlib.Data.List.Dedup
import Mathlib.Data.List.Forall2

namespace Smelly

open List (Forall₂)

/-- What the cells were drawn with, and what is drawn next. -/
structure MeantLinks where
  cells : List (Option Bytes) := []
  active : Option Bytes := none

/-- What an event means for them. -/
def MeantLinks.step (meant : MeantLinks) : LinkEvent → MeantLinks
  | .setActive id url =>
    { meant with active := if url.isEmpty then none else some (hyperlinkKey id url) }
  | .change sources => { meant with cells := changeCells none meant.active meant.cells sources }

/-- An id stands for a hyperlink, or for none. -/
def HyperLinkPool.Shows (pool : HyperLinkPool) (hid : Nat) : Option Bytes → Prop
  | none => hid = 0
  | some key => { key := key, id := hid } ∈ pool.hyperlinks

/-- No id is given twice or is beyond the largest one. -/
structure HyperLinkPool.WellFormed (pool : HyperLinkPool) : Prop where
  ids : (pool.hyperlinks.map HyperLinkEntry.id).Nodup
  range : ∀ s ∈ pool.hyperlinks, s.id ≠ 0 ∧ s.id ≤ pool.maxLinkId
  empty : pool.hyperlinks = [] → pool.maxLinkId = 0

/-- The number of hyperlinks that cells show. -/
def shownLinks (cells : List Nat) : Nat := (cells.filter (· ≠ 0)).dedup.length

/-! ### Numbering anew -/

/-- The new id of an id, when ids are numbered in an order; 0 for an id that is not in it. -/
def numberOf (order : List Nat) (hid : Nat) : Nat :=
  if hid ∈ order then order.idxOf hid + 1 else 0

theorem numberOf_eq_zero_iff {order : List Nat} {hid : Nat} :
    numberOf order hid = 0 ↔ hid ∉ order := by
  simp [numberOf]

theorem numberOf_le (order : List Nat) (hid : Nat) : numberOf order hid ≤ order.length := by
  unfold numberOf
  split
  · next mem => exact List.idxOf_lt_length_of_mem mem
  · exact Nat.zero_le _

theorem numberOf_concat {order : List Nat} {hid : Nat} (fresh : hid ∉ order) :
    numberOf (order ++ [hid]) =
      fun id => if id = hid then order.length + 1 else numberOf order id := by
  funext id
  by_cases same : id = hid
  · simp [numberOf, same, List.idxOf_append_of_notMem fresh]
  · by_cases mem : id ∈ order
    · simp [numberOf, same, mem, List.idxOf_append_of_mem mem]
    · simp [numberOf, same, mem]

theorem numberOf_prefix {order after : List Nat} (grown : order <+: after) {hid : Nat}
    (mem : hid ∈ order) : numberOf after hid = numberOf order hid := by
  obtain ⟨rest, rfl⟩ := grown
  simp [numberOf, mem, List.idxOf_append_of_mem mem]

theorem remapHyperlinkIds_spec (cells : List Nat) : ∀ {order : List Nat}, order.Nodup → 0 ∉ order →
    ∃ after, remapHyperlinkIds (numberOf order) order.length cells =
        (cells.map (numberOf after), numberOf after, after.length) ∧
      after.Nodup ∧ order <+: after ∧ ∀ id, id ∈ after ↔ id ∈ order ∨ id ∈ cells ∧ id ≠ 0 := by
  induction cells with
  | nil => exact fun {order} nodup _ => ⟨order, rfl, nodup, List.prefix_rfl, by simp⟩
  | cons hid rest ih =>
    intro order nodup none
    -- the order after this cell
    obtain ⟨next, nextEq, nodupNext, grown, members⟩ : ∃ next,
        (if hid ≠ 0 ∧ numberOf order hid = 0 then
          (fun id => if id = hid then order.length + 1 else numberOf order id, order.length + 1)
        else (numberOf order, order.length)) = (numberOf next, next.length) ∧
        next.Nodup ∧ order <+: next ∧ ∀ id, id ∈ next ↔ id ∈ order ∨ id = hid ∧ id ≠ 0 := by
      have seen := @numberOf_eq_zero_iff order hid
      by_cases unseen : hid ≠ 0 ∧ numberOf order hid = 0
      · have fresh := seen.1 unseen.2
        refine ⟨order ++ [hid], ?_, ?_, List.prefix_append .., by grind⟩
        · rw [if_pos unseen, numberOf_concat fresh, List.length_append, List.length_singleton]
        · rw [← List.concat_eq_append]
          exact nodup.concat fresh
      · exact ⟨order, if_neg unseen, nodup, List.prefix_rfl, by grind⟩
    have noneNext : 0 ∉ next := by simp [members, none]
    obtain ⟨after, remapped, nodupAfter, more, all⟩ := ih nodupNext noneNext
    refine ⟨after, ?_, nodupAfter, grown.trans more, by grind⟩
    rw [remapHyperlinkIds, nextEq]
    dsimp only
    rw [remapped, List.map_cons]
    by_cases shown : hid ≠ 0
    · rw [if_pos shown, numberOf_prefix more ((members hid).2 (.inr ⟨rfl, shown⟩))]
    · rw [if_neg shown, numberOf_eq_zero_iff.2 (by simp [all, noneNext, not_not.1 shown])]
      rw [not_not.1 shown]

/-! ### Garbage collection -/

section Screen

variable {self : LinkedScreen} {cells : List (Option Bytes)}

theorem HyperLinkPool.Shows.mono {pool later : HyperLinkPool}
    (kept : ∀ s ∈ pool.hyperlinks, s ∈ later.hyperlinks) {hid : Nat} {meant : Option Bytes}
    (shows : pool.Shows hid meant) : later.Shows hid meant := by
  cases meant with
  | none => exact shows
  | some key => exact kept _ shows

theorem foldl_maxLinkId_le_iff {entries : List HyperLinkEntry} {bound : Nat} : ∀ {sofar},
    entries.foldl (fun maxLinkId s => max maxLinkId s.id) sofar ≤ bound ↔
      sofar ≤ bound ∧ ∀ s ∈ entries, s.id ≤ bound := by
  induction entries with
  | nil => simp
  | cons first rest ih =>
    simp only [List.foldl_cons, ih, Nat.max_le, List.forall_mem_cons, and_assoc, implies_true]

/-- The entries that garbage collection keeps, with their new ids. -/
def keptEntries (map : Nat → Nat) (entries : List HyperLinkEntry) : List HyperLinkEntry :=
  entries.filterMap fun s => if map s.id ≠ 0 then some { s with id := map s.id } else none

theorem mem_keptEntries {map : Nat → Nat} {entries : List HyperLinkEntry} {s : HyperLinkEntry} :
    s ∈ keptEntries map entries ↔
      ∃ old ∈ entries, map old.id ≠ 0 ∧ { old with id := map old.id } = s := by
  simp only [keptEntries, List.mem_filterMap, Option.ite_none_right_eq_some, Option.some.injEq]

theorem keptEntries_nodup (order : List Nat) {entries : List HyperLinkEntry}
    (nodup : (entries.map HyperLinkEntry.id).Nodup) :
    ((keptEntries (numberOf order) entries).map HyperLinkEntry.id).Nodup := by
  rw [List.Nodup, List.pairwise_map] at nodup ⊢
  rw [keptEntries, List.pairwise_filterMap]
  refine nodup.imp fun {a b} differ s found t other => ?_
  grind [numberOf, List.idxOf_inj]

/-- The screen after garbage collection: every cell shows what it showed, and there are as many ids
as links. -/
structure Collected (before after : LinkedScreen) (cells : List (Option Bytes)) : Prop where
  wellFormed : after.pool.WellFormed
  shows : Forall₂ after.pool.Shows after.cells cells
  few : after.pool.maxLinkId ≤ shownLinks before.cells
  adds : after.pool.numOfAddsSinceGarbageCollection = 0

theorem garbageCollect_spec (wellFormed : self.pool.WellFormed)
    (shows : Forall₂ self.pool.Shows self.cells cells) :
    Collected self (screenGarbageCollectHyperlinkPool self) cells := by
  unfold screenGarbageCollectHyperlinkPool
  by_cases unused : self.pool.maxLinkId = 0
  · rw [if_pos unused]
    exact ⟨⟨wellFormed.ids, wellFormed.range, wellFormed.empty⟩,
      shows.imp fun _ _ => .mono fun _ mem => mem, Nat.le_trans (Nat.le_of_eq unused)
        (Nat.zero_le _), rfl⟩
  · rw [if_neg unused]
    obtain ⟨order, remapped, nodup, -, members⟩ :=
      remapHyperlinkIds_spec self.cells List.nodup_nil List.not_mem_nil
    rw [show remapHyperlinkIds (fun _ => 0) 0 self.cells = _ from remapped]
    have few : order.length ≤ shownLinks self.cells := by
      refine (List.Nodup.subperm nodup fun hid mem => ?_).length_le
      simpa using (members hid).1 mem
    have collected : Collected self
        { self with
          cells := self.cells.map (numberOf order)
          pool := { self.pool with
            numOfAddsSinceGarbageCollection := 0
            hyperlinks := keptEntries (numberOf order) self.pool.hyperlinks
            maxLinkId := (keptEntries (numberOf order) self.pool.hyperlinks).foldl
              (fun maxLinkId s => max maxLinkId s.id) 0 } } cells := by
      refine ⟨⟨keptEntries_nodup order wellFormed.ids, fun s mem => ⟨?_, ?_⟩, fun none => ?_⟩,
        List.forall₂_map_left_iff.2 ?_, ?_, rfl⟩
      · obtain ⟨old, -, shown, rfl⟩ := mem_keptEntries.1 mem
        exact shown
      · exact (foldl_maxLinkId_le_iff.1 (Nat.le_refl _)).2 s mem
      · dsimp only at none ⊢
        rw [none]
        rfl
      · refine ((List.forall₂_and_left self.cells cells).2 ⟨fun _ mem => mem, shows⟩).imp ?_
        rintro hid (- | key) ⟨listed, showsKey⟩
        · exact numberOf_eq_zero_iff.2 (by simp [members, show hid = 0 from showsKey])
        · have some_ := (wellFormed.range _ showsKey).1
          refine mem_keptEntries.2 ⟨_, showsKey, ?_, rfl⟩
          rw [Ne, numberOf_eq_zero_iff, not_not]
          exact (members hid).2 (.inr ⟨listed, some_⟩)
      · refine Nat.le_trans (foldl_maxLinkId_le_iff.2 ⟨Nat.zero_le _, fun s mem => ?_⟩) few
        obtain ⟨old, -, -, rfl⟩ := mem_keptEntries.1 mem
        exact numberOf_le order old.id
    dsimp only
    by_cases num : order.length ≠ 0
    · rw [if_pos num]
      exact collected
    · -- no cell shows a link, and the pool is cleared
      cases List.length_eq_zero_iff.1 (not_not.1 num)
      have none : keptEntries (numberOf []) self.pool.hyperlinks = [] := by
        simp [keptEntries, numberOf]
      rw [none] at collected
      rw [if_neg num, if_neg fun empty => unused (wellFormed.empty (List.isEmpty_iff.1 empty))]
      exact collected

/-! ### Runs -/

/-- The number of hyperlinks that leaves a round of additions free. -/
def hyperlinkRoom : Nat := 65279

/-- Every cell, and what is drawn next, shows what is meant. -/
structure Linked (screen : LinkedScreen) (meant : MeantLinks) : Prop where
  wellFormed : screen.pool.WellFormed
  shows : Forall₂ screen.pool.Shows screen.cells meant.cells
  active : screen.pool.Shows screen.activeHyperlinkId meant.active
  range : screen.pool.maxLinkId ≤ hyperlinkRoom + screen.pool.numOfAddsSinceGarbageCollection
  adds : screen.pool.numOfAddsSinceGarbageCollection ≤ maxAddsBeforeGc

variable {meant : MeantLinks}

theorem addHyperlink_linked (linked : Linked self meant)
    (few : shownLinks self.cells ≤ hyperlinkRoom) (key : Bytes) :
    Linked { (addHyperlink self key).1 with activeHyperlinkId := (addHyperlink self key).2 }
      { meant with active := some key } := by
  -- the screen to which the link is added
  obtain ⟨ready, readyEq, wellFormed, shows, range, adds⟩ : ∃ ready : LinkedScreen,
      (if maxAddsBeforeGc ≤ self.pool.numOfAddsSinceGarbageCollection then
        screenGarbageCollectHyperlinkPool self else self) = ready ∧ ready.pool.WellFormed ∧
      Forall₂ ready.pool.Shows ready.cells meant.cells ∧
      ready.pool.maxLinkId ≤ hyperlinkRoom + ready.pool.numOfAddsSinceGarbageCollection ∧
      ready.pool.numOfAddsSinceGarbageCollection < maxAddsBeforeGc := by
    by_cases full : maxAddsBeforeGc ≤ self.pool.numOfAddsSinceGarbageCollection
    · have collected := garbageCollect_spec linked.wellFormed linked.shows
      refine ⟨_, if_pos full, collected.wellFormed, collected.shows, ?_, ?_⟩
      · exact Nat.le_trans collected.few (Nat.le_trans few (Nat.le_add_right ..))
      · rw [collected.adds]
        decide
    · exact ⟨self, if_neg full, linked.wellFormed, linked.shows, linked.range, by omega⟩
  have room : ready.pool.maxLinkId + 1 ≤ hyperlinkMaxNumber := by
    unfold hyperlinkRoom maxAddsBeforeGc at *
    unfold hyperlinkMaxNumber
    omega
  have added : addHyperlink self key = ({ ready with pool :=
      { hyperlinks := ready.pool.hyperlinks ++ [⟨key, ready.pool.maxLinkId + 1⟩]
        maxLinkId := ready.pool.maxLinkId + 1
        numOfAddsSinceGarbageCollection := ready.pool.numOfAddsSinceGarbageCollection + 1 } },
      ready.pool.maxLinkId + 1) := by
    have small : ready.pool.maxLinkId + 1 < 65536 := Nat.lt_succ_of_le room
    unfold addHyperlink
    rw [readyEq]
    dsimp only
    rcases ready.pool.hyperlinks with - | ⟨oldest, others⟩
    · simp [small]
    · simp [small, Nat.not_le.2 room]
  rw [added]
  refine ⟨⟨?_, fun s mem => ?_, fun none => ?_⟩, shows.imp fun _ _ =>
    .mono fun _ => List.mem_append_left _, ?_, ?_, ?_⟩
  · rw [List.map_append, List.nodup_append_comm]
    refine List.nodup_cons.2 ⟨fun mem => ?_, wellFormed.ids⟩
    obtain ⟨s, mem, same⟩ := List.mem_map.1 mem
    have within := (wellFormed.range s mem).2
    dsimp only at same
    omega
  · rcases List.mem_append.1 mem with mem | mem
    · exact ⟨(wellFormed.range s mem).1, Nat.le_succ_of_le (wellFormed.range s mem).2⟩
    · rw [List.mem_singleton.1 mem]
      exact ⟨Nat.succ_ne_zero _, Nat.le_refl _⟩
  · exact absurd none (List.append_ne_nil_of_right_ne_nil _ (List.cons_ne_nil _ _))
  · exact List.mem_append_right _ (List.mem_singleton_self _)
  · exact Nat.succ_le_succ range
  · exact adds

theorem setActiveHyperlink_linked (linked : Linked self meant)
    (few : shownLinks self.cells ≤ hyperlinkRoom) (id url : Bytes) :
    Linked (setActiveHyperlink self id url) (meant.step (.setActive id url)) := by
  rw [setActiveHyperlink, MeantLinks.step]
  by_cases none : url.isEmpty
  · rw [if_pos none, if_pos none]
    exact { linked with active := rfl }
  · rw [if_neg none, if_neg none]
    unfold getIdForHyperlink
    dsimp only
    rcases found : self.pool.hyperlinks.find? fun s => s.key = hyperlinkKey id url with - | s
    · rw [found]
      exact addHyperlink_linked linked few _
    · have mem := List.mem_of_find?_eq_some found
      have key : s.key = hyperlinkKey id url := of_decide_eq_true (List.find?_some found :)
      have moved : (self.pool.hyperlinks.erase s ++ [s]).Perm self.pool.hyperlinks :=
        (List.perm_append_singleton ..).trans (List.perm_cons_erase mem).symm
      rw [found]
      refine { linked with
        wellFormed := ⟨(moved.map _).nodup_iff.2 linked.wellFormed.ids,
          fun t mem => linked.wellFormed.range t (moved.mem_iff.1 mem), fun none => ?_⟩
        shows := linked.shows.imp fun _ _ => .mono fun _ => moved.mem_iff.2
        active := ?_ }
      · exact absurd none (List.append_ne_nil_of_right_ne_nil _ (List.cons_ne_nil _ _))
      · rw [← key]
        exact moved.mem_iff.2 mem

theorem changeCells_related {α β : Type} {related : α → β → Prop} {olds : List α} {others : List β}
    (same : Forall₂ related olds others) {blank drawn : α} {blank' drawn' : β}
    (blanks : related blank blank') (drawns : related drawn drawn') (sources : List CellSource) :
    Forall₂ related (changeCells blank drawn olds sources)
      (changeCells blank' drawn' others sources) := by
  rw [changeCells, changeCells, List.forall₂_map_left_iff, List.forall₂_map_right_iff,
    List.forall₂_same]
  rintro (- | - | index) -
  · exact blanks
  · exact drawns
  · have length := same.length_eq
    dsimp only
    by_cases old : index < olds.length
    · rw [List.getD_eq_getElem _ _ old, List.getD_eq_getElem _ _ (length ▸ old)]
      exact same.get old (length ▸ old)
    · rw [List.getD_eq_default _ _ (Nat.le_of_not_lt old),
        List.getD_eq_default _ _ (length ▸ Nat.le_of_not_lt old)]
      exact blanks

theorem linkStep_linked (linked : Linked self meant)
    (few : shownLinks self.cells ≤ hyperlinkRoom) (event : LinkEvent) :
    Linked (linkStep self event) (meant.step event) := by
  cases event with
  | setActive id url => exact setActiveHyperlink_linked linked few id url
  | change sources =>
    have blank : self.pool.Shows 0 none := rfl
    exact { linked with shows := changeCells_related linked.shows blank linked.active sources }

/-- The hyperlink of a cell. -/
def LinkedScreen.linkOf (self : LinkedScreen) (hid : Nat) : Option Bytes :=
  if hid = 0 then none else getHyperlinkForId self.pool hid

theorem Linked.linkOf (linked : Linked self meant) {hid : Nat} {link : Option Bytes}
    (shows : self.pool.Shows hid link) : self.linkOf hid = link := by
  cases link with
  | none => exact if_pos shows
  | some key =>
    rw [LinkedScreen.linkOf, if_neg (linked.wellFormed.range _ shows).1, getHyperlinkForId]
    rcases found : self.pool.hyperlinks.find? fun s => s.id = hid with - | s
    · exact absurd (decide_eq_true rfl) (List.find?_eq_none.1 found _ shows)
    · have mem := List.mem_of_find?_eq_some found
      have same : s.id = hid := of_decide_eq_true (List.find?_some found :)
      rw [found, List.inj_on_of_nodup_map linked.wellFormed.ids mem shows same, Option.map_some]

end Screen

end Smelly
