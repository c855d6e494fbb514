/-
Module: Smelly.Proofs.LoopTimersDispatch
Purpose: What `dispatch_timers` does to a sorted list of timers, and exactly when that is what it is
  meant to do.
Trusted boundary: none
-/
import Smelly.Core.LoopTimers
import Mathlib.Data.List.Nodup
import Mathlib.Data.List.Perm.Basic

namespace Smelly

namespace LoopTimers

/-! ### Lists of timers -/

/-- The timers of a loop: no two have the same id. -/
structure TimerList where
  timers : List Timer
  distinct : (timers.map Timer.id).Nodup

/-- The timers are in the order of their deadlines. -/
def SortedByDeadline (timers : List Timer) : Prop :=
  timers.Pairwise fun a b => a.deadline ≤ b.deadline

theorem sortTimers_perm (timers : List Timer) : (sortTimers timers).Perm timers :=
  List.mergeSort_perm _ _

theorem sortTimers_sorted (timers : List Timer) : SortedByDeadline (sortTimers timers) := by
  have sorted : (sortTimers timers).Pairwise fun a b => decide (¬ b.deadline < a.deadline) = true :=
    List.pairwise_mergeSort (by grind) (by grind) timers
  exact sorted.imp fun later => by simpa using later

/-! ### What dispatching is meant to do -/

/-- What becomes of a timer. -/
def Timer.dispatched (now : Int) (t : Timer) : Option Timer :=
  if t.due now then if t.repeats then some (t.updateDeadline now) else none else some t

/-- Every due timer was called once and no other one; the due one-shot timers are gone, the due
repeating ones are armed again, and the list is sorted. -/
structure Dispatched (now : Int) (timers : List Timer) (s : Dispatch) : Prop where
  error : s.error = none
  calls : s.calls.Perm ((timers.filter (Timer.due now)).map Timer.id)
  timers : s.timers.Perm (timers.filterMap (Timer.dispatched now))
  sorted : SortedByDeadline s.timers

/-- The timers that are removed when they are due. -/
def Timer.expires (now : Int) (t : Timer) : Bool := t.due now && !t.repeats

/-! ### Timers that are armed again -/

/-- The due timers of `dispatched` have been armed again. -/
def rearm (now : Int) (dispatched timers : List Timer) : List Timer :=
  timers.map fun t =>
    if t.id ∈ (dispatched.filter (Timer.due now)).map Timer.id then t.updateDeadline now else t

theorem rearm_nil (now : Int) (timers : List Timer) : rearm now [] timers = timers := by
  simp [rearm]

theorem rearm_append (now : Int) (first second timers : List Timer) :
    rearm now second (rearm now first timers) = rearm now (first ++ second) timers := by
  unfold rearm
  rw [List.map_map]
  apply List.map_congr_left
  intro t _
  simp only [Function.comp_apply, List.filter_append, List.map_append, List.mem_append]
  by_cases before : t.id ∈ (first.filter (Timer.due now)).map Timer.id <;>
    by_cases after : t.id ∈ (second.filter (Timer.due now)).map Timer.id <;>
    simp [before, after, Timer.updateDeadline]

theorem rearm_singleton_due {now : Int} {t : Timer} (due : t.due now = true)
    (timers : List Timer) : rearm now [t] timers = updateDeadlineOf now t.id timers := by
  simp [rearm, updateDeadlineOf, due]

theorem rearm_singleton_later {now : Int} {t : Timer} (later : t.due now = false)
    (timers : List Timer) : rearm now [t] timers = timers := by
  simp [rearm, later]

theorem map_id_rearm (now : Int) (dispatched timers : List Timer) :
    (rearm now dispatched timers).map Timer.id = timers.map Timer.id := by
  unfold rearm
  rw [List.map_map]
  apply List.map_congr_left
  intro t _
  simp only [Function.comp_apply]
  split <;> rfl

variable {callback : Nat → Option String} {now : Int}

/-- Over timers that do not expire, the loop arms the due ones again. -/
theorem dispatchLoop_recurring (quiet : ∀ id, callback id = none) {front : List Timer}
    (recurring : ∀ t ∈ front, t.expires now = false) (i : Nat) (rest : List Timer) (s : Dispatch) :
    dispatchLoop callback now i (front ++ rest) s =
      dispatchLoop callback now (i + front.length) rest
        { s with
          timers := rearm now front s.timers
          updated := s.updated || front.any (Timer.due now)
          calls := s.calls ++ (front.filter (Timer.due now)).map Timer.id } := by
  induction front generalizing i s with
  | nil => simp [rearm_nil]
  | cons t front ih =>
    have later := fun (i : Nat) (s : Dispatch) =>
      ih (fun other mem => recurring other (List.mem_cons_of_mem t mem)) i s
    have expires := recurring t List.mem_cons_self
    have split : ∀ timers, rearm now (t :: front) timers =
        rearm now front (rearm now [t] timers) := fun timers => (rearm_append now [t] front timers).symm
    rw [List.cons_append, dispatchLoop]
    by_cases due : t.due now = true
    · have repeats : t.repeats = true := by simpa [Timer.expires, due] using expires
      rw [if_pos due, quiet t.id]
      simp only [if_pos repeats]
      rw [later, split, rearm_singleton_due due]
      simp [due, Nat.add_assoc, Nat.add_comm 1]
    · have notDue : t.due now = false := by simpa using due
      rw [if_neg due, later, split, rearm_singleton_later notDue]
      simp [notDue, Nat.add_assoc, Nat.add_comm 1]

/-! ### Timers that expire -/

/-- A timer in front of the index stays where it is, whatever the loop removes behind it. -/
theorem dispatchLoop_keeps_front {i p : Nat} {rest : List Timer} {s s' : Dispatch} {id : Nat}
    (front : p < i) (here : (s.timers.map Timer.id)[p]? = some id)
    (h : dispatchLoop callback now i rest s = some s') :
    (s'.timers.map Timer.id)[p]? = some id := by
  induction rest generalizing i s with
  | nil => exact Option.some.inj h ▸ here
  | cons t rest ih =>
    rw [dispatchLoop] at h
    split at h
    · simp only at h
      split at h
      · exact Option.some.inj h ▸ here
      · split at h
        · refine ih (Nat.lt_succ_of_lt front) ?_ h
          have same := map_id_rearm now [t] s.timers
          rw [rearm_singleton_due ‹t.due now = true›] at same
          rw [same]
          exact here
        · split at h
          · rename_i timers removed
            refine ih (Nat.lt_succ_of_lt front) ?_ h
            unfold removeAt at removed
            split at removed
            · rw [← Option.some.inj removed, List.map_append, List.map_take,
                List.getElem?_append_left, List.getElem?_take_of_lt front]
              · exact here
              · rw [List.length_take]
                have inside := (List.getElem?_eq_some_iff.1 here).1
                exact Nat.lt_min.2 ⟨front, inside⟩
            · cases removed
          · cases h
    · exact ih (Nat.lt_succ_of_lt front) here h

/-- Removing the timer at the index of the loop, as long as nothing was removed before it. -/
theorem removeAt_rearm (dispatched front : List Timer) (t : Timer) (back : List Timer) :
    removeAt front.length (rearm now dispatched (front ++ t :: back)) =
      some (rearm now dispatched (front ++ back)) := by
  have length : (rearm now dispatched (front ++ t :: back)).length =
      front.length + 1 + back.length := by
    simp [rearm]
    omega
  rw [removeAt, if_pos (by omega)]
  simp [rearm, List.drop_append]

/-- The timers of a sorted list, dispatched. -/
theorem filterMap_dispatched {timers : List Timer} (distinct : (timers.map Timer.id).Nodup)
    (recurring : ∀ t ∈ timers, t.expires now = false) :
    timers.filterMap (Timer.dispatched now) = rearm now timers timers := by
  have armed : ∀ t ∈ timers, Timer.dispatched now t = some
      (if t.id ∈ (timers.filter (Timer.due now)).map Timer.id then t.updateDeadline now
        else t) := by
    intro t mem
    have expires := recurring t mem
    by_cases due : t.due now = true
    · have listed : t.id ∈ (timers.filter (Timer.due now)).map Timer.id :=
        List.mem_map.2 ⟨t, List.mem_filter.2 ⟨mem, due⟩, rfl⟩
      have repeats : t.repeats = true := by simpa [Timer.expires, due] using expires
      rw [Timer.dispatched, if_pos due, if_pos repeats, if_pos listed]
    · have unlisted : t.id ∉ (timers.filter (Timer.due now)).map Timer.id := by
        intro listed
        obtain ⟨other, otherMem, same⟩ := List.mem_map.1 listed
        have equal := List.inj_on_of_nodup_map distinct (List.mem_filter.1 otherMem).1 mem same
        exact due (equal ▸ (List.mem_filter.1 otherMem).2)
      rw [Timer.dispatched, if_neg due, if_neg unlisted]
  rw [List.filterMap_congr armed, rearm]
  exact congrFun List.filterMap_eq_map timers

/-- The end of `dispatch_timers`, once the loop left the timers that stay, armed again. -/
theorem dispatchTimers_of_loop {timers : List Timer} (staying : List Timer) {s : Dispatch}
    (loop : dispatchLoop callback now 0 timers { timers := timers } = some s)
    (error : s.error = none)
    (calls : s.calls = (timers.filter (Timer.due now)).map Timer.id)
    (left : s.timers = rearm now staying staying)
    (updated : s.updated = staying.any (Timer.due now))
    (dispatched : timers.filterMap (Timer.dispatched now) = rearm now staying staying)
    (sorted : SortedByDeadline staying) :
    ∃ s', dispatchTimers callback now timers = some s' ∧ Dispatched now timers s' := by
  have same : s.timers.Perm (timers.filterMap (Timer.dispatched now)) :=
    List.Perm.of_eq (left.trans dispatched.symm)
  unfold dispatchTimers
  rw [loop]
  simp only [error, Option.isNone_none, true_and]
  by_cases any : s.updated = true
  · rw [if_pos any]
    exact ⟨_, rfl, rfl, List.Perm.of_eq calls, (sortTimers_perm _).trans same,
      sortTimers_sorted _⟩
  · rw [if_neg any]
    refine ⟨_, rfl, error, List.Perm.of_eq calls, same, ?_⟩
    have none_ : staying.filter (Timer.due now) = [] := by
      rw [updated] at any
      simpa using any
    have unchanged : rearm now staying staying = staying := by
      simp [rearm, none_]
    rw [left, unchanged]
    exact sorted

/-- Without two timers that expire, dispatching does what it is meant to do. -/
theorem dispatchTimers_of_single (quiet : ∀ id, callback id = none) (list : TimerList)
    (sorted : SortedByDeadline list.timers)
    (single : (list.timers.filter (Timer.expires now)).length ≤ 1) :
    ∃ s, dispatchTimers callback now list.timers = some s ∧ Dispatched now list.timers s := by
  obtain ⟨timers, distinct⟩ := list
  simp only at sorted single ⊢
  rcases expired : timers.filter (Timer.expires now) with _ | ⟨t, more⟩
  · have recurring : ∀ t ∈ timers, t.expires now = false := by
      simpa using List.filter_eq_nil_iff.1 expired
    have loop := dispatchLoop_recurring quiet recurring 0 [] { timers := timers }
    rw [List.append_nil, dispatchLoop] at loop
    refine dispatchTimers_of_loop timers loop rfl ?_ rfl ?_ (filterMap_dispatched distinct recurring) sorted
    · simp
    · simp
  · obtain ⟨front, back, rfl, frontRecurring, expires, rest⟩ := List.filter_eq_cons_iff.1 expired
    have none_ : more = [] := by
      rw [expired] at single
      simpa using single
    have kept : ∀ other ∈ front ++ back, other.expires now = false := by
      intro other mem
      rcases List.mem_append.1 mem with before | behind
      · simpa using frontRecurring other before
      · rw [none_] at rest
        simpa using List.filter_eq_nil_iff.1 rest other behind
    obtain ⟨due, oneShot⟩ : t.due now = true ∧ t.repeats = false := by
      simpa [Timer.expires] using expires
    have sublist : (front ++ back).Sublist (front ++ t :: back) :=
      List.Sublist.append_left (List.sublist_cons_self t back) front
    have distinctRest := List.Nodup.sublist (sublist.map Timer.id) distinct
    have first := dispatchLoop_recurring quiet
      (fun other mem => kept other (List.mem_append_left _ mem)) 0 (t :: back)
      { timers := front ++ t :: back }
    have second := fun s : Dispatch => dispatchLoop_recurring quiet
      (fun other mem => kept other (List.mem_append_right _ mem)) (front.length + 1) [] s
    have loop : dispatchLoop callback now 0 (front ++ t :: back) { timers := front ++ t :: back } =
        some
          { timers := rearm now back (rearm now front (front ++ back))
            updated := front.any (Timer.due now) || back.any (Timer.due now)
            calls := (front.filter (Timer.due now)).map Timer.id ++ [t.id] ++
              (back.filter (Timer.due now)).map Timer.id } := by
      rw [first, dispatchLoop, if_pos due]
      simp only [quiet, oneShot, Bool.false_eq_true, if_false, Nat.zero_add, removeAt_rearm]
      have appended := second
        { timers := rearm now front (front ++ back)
          updated := false || front.any (Timer.due now)
          calls := [] ++ (front.filter (Timer.due now)).map Timer.id ++ [t.id] }
      rw [List.append_nil, dispatchLoop] at appended
      rw [appended]
      simp
    refine dispatchTimers_of_loop (front ++ back) loop rfl ?_ (rearm_append now _ _ _) ?_
      ?_ ?_
    · simp [due]
    · simp
    · rw [← filterMap_dispatched distinctRest kept]
      simp [Timer.dispatched, due, oneShot]
    · exact sorted.sublist sublist

/-- With two timers that expire, the second one stays, or an index is out of range. -/
theorem dispatchTimers_of_two (quiet : ∀ id, callback id = none) (list : TimerList)
    (two : 2 ≤ (list.timers.filter (Timer.expires now)).length) {s : Dispatch}
    (dispatched : dispatchTimers callback now list.timers = some s) :
    ¬ Dispatched now list.timers s := by
  obtain ⟨timers, distinct⟩ := list
  simp only at two dispatched ⊢
  rcases expired : timers.filter (Timer.expires now) with _ | ⟨t, _ | ⟨u, more⟩⟩
  · simp [expired] at two
  · simp [expired] at two
  · obtain ⟨front, rest, rfl, frontRecurring, expires, expiredRest⟩ :=
      List.filter_eq_cons_iff.1 expired
    obtain ⟨middle, back, rfl, middleRecurring, expires', -⟩ :=
      List.filter_eq_cons_iff.1 expiredRest
    have first := dispatchLoop_recurring quiet (fun other mem => by simpa using frontRecurring other mem)
      0 (t :: (middle ++ u :: back)) { timers := front ++ t :: (middle ++ u :: back) }
    have second := fun s : Dispatch => dispatchLoop_recurring quiet
      (fun other mem => by simpa using middleRecurring other mem) (front.length + 1) (u :: back) s
    obtain ⟨due, oneShot⟩ : t.due now = true ∧ t.repeats = false := by
      simpa [Timer.expires] using expires
    obtain ⟨due', oneShot'⟩ : u.due now = true ∧ u.repeats = false := by
      simpa [Timer.expires] using expires'
    obtain ⟨s', loop, same⟩ : ∃ s', dispatchLoop callback now 0 (front ++ t :: (middle ++ u :: back))
        { timers := front ++ t :: (middle ++ u :: back) } = some s' ∧
          s.timers.Perm s'.timers := by
      unfold dispatchTimers at dispatched
      split at dispatched
      · rename_i s' loop
        refine ⟨s', loop, ?_⟩
        split at dispatched
        · rw [← Option.some.inj dispatched]
          exact sortTimers_perm _
        · rw [← Option.some.inj dispatched]
      · cases dispatched
    rw [first, dispatchLoop, if_pos due] at loop
    simp only [quiet, oneShot, Bool.false_eq_true, if_false, Nat.zero_add, removeAt_rearm] at loop
    rw [second] at loop
    have here : ((rearm now middle (rearm now front (front ++ (middle ++ u :: back)))).map
        Timer.id)[front.length + middle.length]? = some u.id := by
      rw [map_id_rearm, map_id_rearm, ← List.append_assoc, List.map_append,
        List.getElem?_append_right (by simp)]
      simp
    have stays := dispatchLoop_keeps_front (by omega) here loop
    intro meant
    have listed : u.id ∈ s.timers.map Timer.id :=
      (same.map Timer.id).mem_iff.2 (List.mem_of_getElem? stays)
    obtain ⟨left, leftMem, leftId⟩ := List.mem_map.1 ((meant.timers.map Timer.id).mem_iff.1 listed)
    obtain ⟨v, vMem, becomes⟩ := List.mem_filterMap.1 leftMem
    have sameId : v.id = left.id := by
      unfold Timer.dispatched at becomes
      split at becomes
      · split at becomes
        · rw [← Option.some.inj becomes]
          rfl
        · cases becomes
      · rw [← Option.some.inj becomes]
    have uMem : u ∈ front ++ t :: (middle ++ u :: back) := by simp
    have equal := List.inj_on_of_nodup_map distinct vMem uMem (sameId.trans leftId)
    rw [equal, Timer.dispatched, if_pos due', oneShot', if_neg Bool.false_ne_true] at becomes
    cases becomes

/-- Dispatching a sorted list does what it is meant to do exactly when at most one of the due timers
is a one-shot timer. -/
theorem dispatchTimers_iff (quiet : ∀ id, callback id = none) (list : TimerList)
    (sorted : SortedByDeadline list.timers) :
    (∃ s, dispatchTimers callback now list.timers = some s ∧ Dispatched now list.timers s) ↔
      (list.timers.filter (Timer.expires now)).length ≤ 1 := by
  constructor
  · rintro ⟨s, dispatched, meant⟩
    by_contra two
    exact dispatchTimers_of_two quiet list (Nat.not_le.1 two) dispatched meant
  · exact dispatchTimers_of_single quiet list sorted

/-- A due repeating timer, a due one-shot timer and one that is not due. -/
theorem dispatchTimers_mixed :
    ∃ s, dispatchTimers (fun _ => none) 10
        [{ interval := 5, deadline := 1, repeats := true, id := 1 },
          { interval := 5, deadline := 2, repeats := false, id := 2 },
          { interval := 5, deadline := 12, repeats := false, id := 3 }] = some s ∧
      Dispatched 10
        [{ interval := 5, deadline := 1, repeats := true, id := 1 },
          { interval := 5, deadline := 2, repeats := false, id := 2 },
          { interval := 5, deadline := 12, repeats := false, id := 3 }] s :=
  (dispatchTimers_iff (fun _ => rfl)
    ⟨[{ interval := 5, deadline := 1, repeats := true, id := 1 },
      { interval := 5, deadline := 2, repeats := false, id := 2 },
      { interval := 5, deadline := 12, repeats := false, id := 3 }], by decide⟩
    (by unfold SortedByDeadline; decide)).2 (by decide)

/-- Two due one-shot timers: an index is out of range.  With a third timer behind them, which is not
due, that one is removed in place of the second. -/
theorem dispatchTimers_twoDue :
    dispatchTimers (fun _ => none) 10
        [{ interval := 5, deadline := 1, repeats := false, id := 1 },
          { interval := 5, deadline := 2, repeats := false, id := 2 }] = none ∧
      dispatchTimers (fun _ => none) 10
        [{ interval := 5, deadline := 1, repeats := false, id := 1 },
          { interval := 5, deadline := 2, repeats := false, id := 2 },
          { interval := 5, deadline := 12, repeats := false, id := 3 }] =
        some
          { timers := [{ interval := 5, deadline := 2, repeats := false, id := 2 }],
            calls := [1, 2] } := by
  decide

end LoopTimers

end Smelly
