/-
Module: Smelly.Proofs.ReapedChildren
Purpose: The process ids that are reported: behind a line that is taken off the buffer only as many
  bytes are moved as the line has, so that the ids arrive unaltered where no more bytes are behind
  it or these repeat themselves.
Trusted boundary: none
-/
import Smelly.Core.PrewarmedChildren
import Smelly.Lib.Run
import Mathlib.Data.List.TakeWhile
import Mathlib.Algebra.Ring.Nat

namespace Smelly

namespace Prewarm

open Framing

/-- The line for a process id, as the prewarm process writes it. -/
def pidLine (pid : Nat) : Bytes := (Nat.toDigits 10 pid).map (fun c => c.toUInt8) ++ [10]

/-- The line of a positive number that fits into an `int`. -/
def IsPidLine (line : Bytes) : Prop := ∃ pid, line = pidLine pid ∧ 0 < pid ∧ pid < 2 ^ 31

/-- The line at the front of the bytes in use, and what is behind it. -/
def splitLine (used : Bytes) : Option (Bytes × Bytes) :=
  if 1 < used.length then
    (memchrNewline 0 used).map fun nl => (used.take (nl + 1), used.drop (nl + 1))
  else none

/-! ### Lines -/

theorem digit_of_toDigits {pid : Nat} {b : UInt8}
    (mem : b ∈ (Nat.toDigits 10 pid).map fun c => c.toUInt8) : 0x30 ≤ b ∧ b ≤ 0x39 := by
  obtain ⟨c, inside, rfl⟩ := List.mem_map.1 mem
  have digit := Nat.isDigit_of_mem_toDigits (by decide) (by decide) inside
  simp only [Char.isDigit, Bool.and_eq_true, decide_eq_true_eq] at digit
  obtain ⟨low, high⟩ := digit
  have lower : 48 ≤ c.val.toNat := low
  have upper : c.val.toNat ≤ 57 := high
  have value : c.toUInt8.toNat = c.val.toNat := by
    rw [Char.toUInt8, UInt32.toNat_toUInt8, Nat.mod_eq_of_lt (by omega)]
  constructor
  · rw [UInt8.le_iff_toNat_le, value]
    exact lower
  · rw [UInt8.le_iff_toNat_le, value]
    exact upper

theorem memchrNewline_line {line : Bytes} (noNewline : (10 : UInt8) ∉ line) (behind : Bytes) :
    ∀ i, memchrNewline i (line ++ 10 :: behind) = some (i + line.length) := by
  induction line with
  | nil => exact fun i => if_pos rfl
  | cons b line ih =>
    intro i
    have other : b ≠ 10 := fun same => noNewline (same ▸ List.mem_cons_self)
    rw [List.cons_append, memchrNewline, if_neg other,
      ih (fun mem => noNewline (List.mem_cons_of_mem _ mem)), List.length_cons]
    congr 1
    omega

theorem memchrNewline_none {bytes : Bytes} (noNewline : (10 : UInt8) ∉ bytes) :
    ∀ i, memchrNewline i bytes = none := by
  induction bytes with
  | nil => exact fun _ => rfl
  | cons b bytes ih =>
    intro i
    have other : b ≠ 10 := fun same => noNewline (same ▸ List.mem_cons_self)
    rw [memchrNewline, if_neg other]
    exact ih (fun mem => noNewline (List.mem_cons_of_mem _ mem)) _

theorem newline_not_mem_digits (pid : Nat) :
    (10 : UInt8) ∉ (Nat.toDigits 10 pid).map fun c => c.toUInt8 := by
  intro mem
  exact absurd (digit_of_toDigits mem).1 (by decide)

theorem digits_positive (pid : Nat) :
    0 < ((Nat.toDigits 10 pid).map fun c => c.toUInt8).length := by
  rw [List.length_map]
  exact List.length_pos_of_ne_nil Nat.toDigits_ne_nil

/-- The lines are the frames of the stream. -/
theorem splitLine_delimits : Delimits splitLine IsPidLine where
  positive := by
    rintro line ⟨pid, rfl, -, -⟩
    rw [pidLine, List.length_append]
    exact Nat.succ_pos _
  whole := by
    rintro line behind ⟨pid, rfl, -, -⟩
    have positive := digits_positive pid
    have size : (pidLine pid).length =
        ((Nat.toDigits 10 pid).map fun c => c.toUInt8).length + 1 := by
      rw [pidLine, List.length_append, List.length_singleton]
    have found : memchrNewline 0 (pidLine pid ++ behind) =
        some ((Nat.toDigits 10 pid).map fun c => c.toUInt8).length := by
      rw [pidLine, List.append_assoc, List.singleton_append,
        memchrNewline_line (newline_not_mem_digits pid), Nat.zero_add]
    rw [splitLine, if_pos, found, Option.map_some, ← size, List.take_left, List.drop_left]
    rw [List.length_append, size]
    omega
  part := by
    rintro part ⟨line, ⟨pid, rfl, -, -⟩, ⟨rest, whole⟩, short⟩
    have inside : part <+: (Nat.toDigits 10 pid).map fun c => c.toUInt8 := by
      rw [pidLine, List.length_append, List.length_singleton] at short
      exact List.prefix_of_prefix_length_le ⟨rest, whole⟩ ⟨[10], rfl⟩ (Nat.le_of_lt_succ short)
    rw [splitLine, memchrNewline_none fun mem => newline_not_mem_digits pid (inside.subset mem)]
    split <;> rfl

/-- The line of an `int` is short. -/
theorem pidLine_length {line : Bytes} (isLine : IsPidLine line) : line.length ≤ 11 := by
  obtain ⟨pid, rfl, -, small⟩ := isLine
  rw [pidLine, List.length_append, List.length_map, List.length_singleton]
  have few : (Nat.toDigits 10 pid).length ≤ 10 := by
    rw [Nat.length_toDigits_le_iff (by decide) (by decide)]
    omega
  omega

/-- The digits of a number are read back. -/
theorem atoi_digits (pid : Nat) : atoi ((Nat.toDigits 10 pid).map fun c => c.toUInt8) = pid := by
  have digits (b : UInt8) (mem : b ∈ (Nat.toDigits 10 pid).map fun c => c.toUInt8) :
      0x30 ≤ b ∧ b ≤ 0x39 := digit_of_toDigits mem
  have folds : ∀ (number : List Char) (sofar : Nat), (∀ c ∈ number, c.isDigit = true) →
      (number.map fun c => c.toUInt8).foldl (fun n b => n * 10 + (b.toNat - 48)) sofar =
        Nat.ofDigitChars 10 number sofar := by
    intro number
    induction number with
    | nil => exact fun _ _ => (Nat.ofDigitChars_nil ..).symm
    | cons c number ih =>
      intro sofar all
      have digit := all c List.mem_cons_self
      simp only [Char.isDigit, Bool.and_eq_true, decide_eq_true_eq] at digit
      have upper : c.val.toNat ≤ 57 := digit.2
      have value : c.toUInt8.toNat = c.toNat := by
        show c.val.toUInt8.toNat = c.val.toNat
        rw [UInt32.toNat_toUInt8, Nat.mod_eq_of_lt (by omega)]
      rw [List.map_cons, List.foldl_cons, Nat.ofDigitChars_cons, value, Nat.mul_comm sofar 10]
      exact ih _ fun d mem => all d (List.mem_cons_of_mem c mem)
  obtain ⟨b, rest, shape⟩ := List.exists_cons_of_length_pos (digits_positive pid)
  have first := digits b (shape ▸ List.mem_cons_self)
  have whole : atoiDigits ((Nat.toDigits 10 pid).map fun c => c.toUInt8) = pid := by
    rw [atoiDigits, List.takeWhile_eq_self_iff.2 fun b mem => decide_eq_true (digits b mem),
      folds _ 0 fun c mem => Nat.isDigit_of_mem_toDigits (by decide) (by decide) mem]
    exact Nat.ofDigitChars_ten_toDigits
  have noSpace : ¬(b = 0x20 ∨ (0x09 ≤ b ∧ b ≤ 0x0d)) := by
    simp only [UInt8.le_iff_toNat_le, ← UInt8.toNat_inj, UInt8.reduceToNat] at first ⊢
    omega
  have noMinus : b ≠ 0x2d := fun same => absurd (same ▸ first.1) (by decide)
  have noPlus : b ≠ 0x2b := fun same => absurd (same ▸ first.1) (by decide)
  rw [atoi, shape, List.dropWhile_cons_of_neg (by simpa using noSpace), List.head?_cons,
    if_neg fun minus => noMinus (Option.some.inj minus),
    if_neg fun plus => noPlus (Option.some.inj plus), ← shape, whole]

/-! ### The buffer -/

/-- Whenever a line is taken off, there are not more bytes behind it than the line has, or they
repeat with its length. -/
def KeepsTail : Nat → Bytes → Prop
  | 0, _ => True
  | rounds + 1, used =>
    match splitLine used with
    | none => True
    | some (line, behind) =>
      behind.drop line.length = behind.take (behind.length - line.length) ∧ KeepsTail rounds behind

instance decidableKeepsTail : ∀ (rounds : Nat) (used : Bytes), Decidable (KeepsTail rounds used)
  | 0, _ => isTrue trivial
  | rounds + 1, used =>
    match found : splitLine used with
    | none => isTrue (by rw [KeepsTail, found]; trivial)
    | some (line, behind) =>
      have := decidableKeepsTail rounds behind
      decidable_of_iff
        (behind.drop line.length = behind.take (behind.length - line.length) ∧
          KeepsTail rounds behind) (by rw [KeepsTail, found])

/-- As many bytes are moved as the line has; then the bytes behind the line are at the front. -/
theorem moveTail_keeps {line behind : Bytes} (stale : Bytes)
    (room : line.length + line.length ≤ (line ++ (behind ++ stale)).length)
    (repeats : behind.drop line.length = behind.take (behind.length - line.length)) :
    ∃ stale', moveTail (line ++ (behind ++ stale)) line.length = some (behind ++ stale') ∧
      (behind ++ stale').length = (line ++ (behind ++ stale)).length := by
  have size : (line ++ (behind ++ stale)).length = line.length + (behind ++ stale).length :=
    List.length_append
  have moved : moveTail (line ++ (behind ++ stale)) line.length =
      some ((behind ++ stale).take line.length ++ (behind ++ stale)) := by
    rw [moveTail, if_pos room, List.drop_left]
  have full : ((behind ++ stale).take line.length).length = line.length := by
    rw [List.length_take]
    omega
  have front : behind <+: (behind ++ stale).take line.length ++ (behind ++ stale) := by
    by_cases few : behind.length ≤ line.length
    · rw [List.take_append, List.take_of_length_le few, List.append_assoc]
      exact List.prefix_append _ _
    · have many := Nat.le_of_not_le few
      rw [List.take_append_of_le_length many]
      have again :
          behind = behind.take line.length ++ behind.take (behind.length - line.length) := by
        rw [← repeats, List.take_append_drop]
      obtain ⟨rest, whole⟩ := List.take_prefix (behind.length - line.length) behind
      refine ⟨rest ++ stale, ?_⟩
      conv_lhs => rw [again]
      rw [List.append_assoc, ← List.append_assoc _ rest, whole]
  obtain ⟨stale', shape⟩ := front
  refine ⟨stale', by rw [moved, shape], ?_⟩
  rw [shape, List.length_append, full, size]

/-- The inner loop takes the lines off the front of the bytes in use and reports each. -/
theorem reapLines_frames (enable : Bool) (rounds : Nat) :
    ∀ (self : ReapBuffer) (used stale : Bytes) (pids : List Nat) (wait : Bytes),
      self.buf = used ++ stale → self.bufPos = used.length → 22 ≤ self.buf.length →
      KeepsTail rounds used → takeAll splitLine rounds used = (pids.map pidLine, wait) →
      (∀ pid ∈ pids, 0 < pid ∧ pid < 2 ^ 31) →
        ∃ stale', reapLines enable rounds self =
          some { buf := wait ++ stale'
                 bufPos := wait.length
                 removed := self.removed ++ if enable then pids.map Int.ofNat else [] } ∧
          (wait ++ stale').length = self.buf.length := by
  induction rounds with
  | zero =>
    intro self used stale pids wait buf bufPos _ _ taken _
    obtain ⟨lines, rfl⟩ := Prod.mk.inj taken
    rw [List.map_eq_nil_iff.1 lines.symm, reapLines]
    refine ⟨stale, ?_, by rw [buf]⟩
    rw [← buf, ← bufPos]
    simp
  | succ rounds ih =>
    intro self used stale pids wait buf bufPos room keeps taken all
    rw [takeAll] at taken
    rw [KeepsTail] at keeps
    have front : self.buf.take self.bufPos = used := by
      rw [buf, bufPos, List.take_left]
    cases split : splitLine used with
    | none =>
      rw [split] at taken
      obtain ⟨lines, rfl⟩ := Prod.mk.inj taken
      rw [List.map_eq_nil_iff.1 lines.symm]
      refine ⟨stale, ?_, by rw [buf]⟩
      have idle : reapLines enable (rounds + 1) self = some self := by
        unfold splitLine at split
        rw [reapLines, front, bufPos]
        split_ifs at split ⊢ with several
        · rw [Option.map_eq_none_iff.1 split]
        · rfl
      rw [idle, ← buf, ← bufPos]
      simp
    | some found =>
      obtain ⟨line, behind⟩ := found
      rw [split] at taken keeps
      obtain ⟨repeats, keeps⟩ := keeps
      obtain ⟨lines, rfl⟩ := Prod.mk.inj taken
      cases pids with
      | nil => cases lines
      | cons pid pids =>
        obtain ⟨rfl, later⟩ := List.cons.inj lines
        obtain ⟨positive, small⟩ := all pid List.mem_cons_self
        have isLine : IsPidLine (pidLine pid) := ⟨pid, rfl, positive, small⟩
        have short := pidLine_length isLine
        unfold splitLine at split
        split_ifs at split with several
        obtain ⟨nl, newline, parts⟩ := Option.map_eq_some_iff.1 split
        obtain ⟨first, second⟩ := Prod.mk.inj parts
        have whole : used = pidLine pid ++ behind := by
          rw [← first, ← second, List.take_append_drop]
        have number : nl = ((Nat.toDigits 10 pid).map fun c => c.toUInt8).length := by
          rw [whole, pidLine, List.append_assoc, List.singleton_append,
            memchrNewline_line (newline_not_mem_digits pid), Nat.zero_add] at newline
          exact (Option.some.inj newline).symm
        have size : nl + 1 = (pidLine pid).length := by
          rw [number, pidLine, List.length_append, List.length_singleton]
        have digits : self.buf.take nl = (Nat.toDigits 10 pid).map fun c => c.toUInt8 := by
          rw [buf, whole, pidLine, number, List.append_assoc, List.append_assoc, List.take_left]
        have laid : self.buf = pidLine pid ++ (behind ++ stale) := by
          rw [buf, whole, List.append_assoc]
        obtain ⟨stale', moved, kept⟩ := moveTail_keeps stale
          (by rw [← laid]; exact Nat.le_trans (Nat.add_le_add short short) room) repeats
        rw [← laid] at moved kept
        have left : self.bufPos - (nl + 1) = behind.length := by
          rw [bufPos, whole, size, List.length_append, Nat.add_sub_cancel_left]
        have pidNonzero : (pid : Int) ≠ 0 := Int.natCast_ne_zero.2 (Nat.ne_of_gt positive)
        obtain ⟨stale'', run, same⟩ := ih
          { buf := behind ++ stale'
            bufPos := behind.length
            removed := if enable then self.removed ++ [(pid : Int)] else self.removed }
          behind stale' pids _ rfl rfl (by rw [kept]; exact room) keeps
          (Prod.ext later rfl) fun other mem => all other (List.mem_cons_of_mem _ mem)
        refine ⟨stale'', ?_, same.trans kept⟩
        rw [reapLines, front, bufPos, if_pos several, newline]
        dsimp only
        rw [digits, atoi_digits, size, moved, ← size, ← bufPos, left]
        simp only [pidNonzero, ne_eq, not_false_eq_true, and_true, Option.bind_eq_bind,
          Option.bind_some]
        rw [run]
        cases enable <;> simp

/-! ### Runs -/

/-- The answer fits into the buffer, and when its lines are taken off, every tail is kept. -/
def StepKeeps (self : ReapBuffer) : ReadAnswer → Prop
  | .data bytes => self.bufPos + bytes.length ≤ self.buf.length ∧
      KeepsTail (self.bufPos + bytes.length) (self.buf.take self.bufPos ++ bytes)
  | _ => True

/-- Every step of a run does so. -/
def RunKeeps (enable : Bool) : ReapBuffer → List ReadAnswer → Prop
  | _, [] => True
  | self, answer :: rest =>
    StepKeeps self answer ∧ ∀ next ∈ reapStep enable self answer, RunKeeps enable next rest

instance (self : ReapBuffer) : ∀ answer, Decidable (StepKeeps self answer)
  | .data _ => inferInstanceAs (Decidable (_ ∧ _))
  | .interrupted => isTrue trivial
  | .failed => isTrue trivial

instance decidableRunKeeps (enable : Bool) : ∀ (self : ReapBuffer) (answers : List ReadAnswer),
    Decidable (RunKeeps enable self answers)
  | _, [] => isTrue trivial
  | self, answer :: rest =>
    have := fun next => decidableRunKeeps enable next rest
    inferInstanceAs (Decidable
      (StepKeeps self answer ∧ ∀ next ∈ reapStep enable self answer, RunKeeps enable next rest))

/-- The bytes that were read. -/
def received (answers : List ReadAnswer) : Bytes :=
  answers.flatMap fun
    | .data bytes => bytes
    | _ => []

/-- The buffer between two answers: the bytes in use wait for the end of their line. -/
structure Waits (state : ReapBuffer) (wait : Bytes) : Prop where
  buf : ∃ stale, state.buf = wait ++ stale
  bufPos : state.bufPos = wait.length
  size : state.buf.length = 256
  unfinished : Unfinished IsPidLine wait

/-- One answer: the ids that are complete with it are reported, and the rest waits. -/
theorem reapStep_data (enable : Bool) {self : ReapBuffer} {wait bytes more rest : Bytes}
    {pids : List Nat} (waits : Waits self wait) (keeps : StepKeeps self (.data bytes))
    (all : ∀ pid ∈ pids, 0 < pid ∧ pid < 2 ^ 31) (unfinished : Unfinished IsPidLine rest)
    (stream : wait ++ (bytes ++ more) = (pids.map pidLine).flatten ++ rest) :
    ∃ done left wait' next, pids = done ++ left ∧
      reapStep enable self (.data bytes) = some next ∧ Waits next wait' ∧
      next.removed = self.removed ++ (if enable then done.map Int.ofNat else []) ∧
      wait' ++ more = (left.map pidLine).flatten ++ rest := by
  obtain ⟨room, tails⟩ := keeps
  obtain ⟨stale, laid⟩ := waits.buf
  have front : self.buf.take self.bufPos = wait := by
    rw [laid, waits.bufPos, List.take_left]
  have lines : ∀ line ∈ pids.map pidLine, IsPidLine line := by
    intro line mem
    obtain ⟨pid, inside, rfl⟩ := List.mem_map.1 mem
    exact ⟨pid, rfl, all pid inside⟩
  rw [← List.append_assoc] at stream
  obtain ⟨doneLines, leftLines, wait', split, taken, still, later⟩ :=
    takeAll_cut splitLine_delimits unfinished (pids.map pidLine) _ (self.bufPos + bytes.length)
      lines (by rw [List.length_append, waits.bufPos]) stream
  obtain ⟨done, left, rfl, rfl, rfl⟩ := List.map_eq_append_iff.1 split
  have used : self.buf.take self.bufPos ++ bytes ++ self.buf.drop (self.bufPos + bytes.length) =
      wait ++ bytes ++ self.buf.drop (self.bufPos + bytes.length) := by
    rw [front]
  have size : (wait ++ bytes ++ self.buf.drop (self.bufPos + bytes.length)).length = 256 := by
    rw [List.length_append, List.length_append, List.length_drop, ← waits.bufPos, waits.size]
    rw [waits.size] at room
    omega
  rw [front] at tails
  obtain ⟨stale', run, same⟩ := reapLines_frames enable (self.bufPos + bytes.length)
    { self with
      buf := wait ++ bytes ++ self.buf.drop (self.bufPos + bytes.length)
      bufPos := self.bufPos + bytes.length }
    (wait ++ bytes) (self.buf.drop (self.bufPos + bytes.length)) done wait' rfl
    (by rw [List.length_append, waits.bufPos]) (by rw [size]; decide) tails taken
    fun pid mem => all pid (List.mem_append_left _ mem)
  refine ⟨done, left, wait', ⟨wait' ++ stale', wait'.length,
    self.removed ++ if enable then done.map Int.ofNat else []⟩, rfl, ?_,
    ⟨⟨stale', rfl⟩, rfl, same.trans size, still⟩, rfl, later⟩
  rw [reapStep, if_pos room]
  dsimp only
  rw [used, run]

/-- As long as every tail is kept: however the stream of ids is cut, each complete id is reported
once, in order and unaltered, the incomplete tail stays in the buffer, and nothing outside it is
copied. -/
theorem reapStep_run (enable : Bool) (answers : List ReadAnswer) {rest : Bytes}
    (unfinished : Unfinished IsPidLine rest) :
    ∀ (self : ReapBuffer) (wait : Bytes) (pids : List Nat), Waits self wait →
      RunKeeps enable self answers → (∀ pid ∈ pids, 0 < pid ∧ pid < 2 ^ 31) →
      wait ++ received answers = (pids.map pidLine).flatten ++ rest →
        ∃ final, Run.run (reapStep enable) self answers = some final ∧
          final.removed = self.removed ++ (if enable then pids.map Int.ofNat else []) ∧
          final.buf.take final.bufPos = rest := by
  induction answers with
  | nil =>
    intro self wait pids waits _ all stream
    rw [received, List.flatMap_nil, List.append_nil] at stream
    obtain ⟨stale, laid⟩ := waits.buf
    cases pids with
    | nil =>
      refine ⟨self, rfl, by simp, ?_⟩
      rw [laid, waits.bufPos, List.take_left, stream]
      rfl
    | cons pid pids =>
      have part := splitLine_delimits.part _ waits.unfinished
      rw [stream, List.map_cons, List.flatten_cons, List.append_assoc,
        splitLine_delimits.whole _ _ ⟨pid, rfl, all pid List.mem_cons_self⟩] at part
      cases part
  | cons answer answers ih =>
    intro self wait pids waits keeps all stream
    obtain ⟨here, later⟩ := keeps
    rw [Run.run_cons]
    cases answer with
    | data bytes =>
      obtain ⟨done, left, wait', next, rfl, step, still, removed, behind⟩ :=
        reapStep_data enable waits here all unfinished stream
      obtain ⟨final, run, reports, tail⟩ := ih next wait' left still (later next step)
        (fun pid mem => all pid (List.mem_append_right _ mem)) behind
      refine ⟨final, by rw [step]; exact run, ?_, tail⟩
      rw [reports, removed]
      cases enable <;> simp
    | interrupted => exact ih self wait pids waits (later self rfl) all stream
    | failed => exact ih self wait pids waits (later self rfl) all stream

/-- The ids that are reported from the start, with removal of the children enabled or not. -/
theorem reapPrewarmedChildren_reports (enable : Bool) (pids : List Nat) (rest : Bytes)
    (answers : List ReadAnswer) (all : ∀ pid ∈ pids, 0 < pid ∧ pid < 2 ^ 31)
    (unfinished : Unfinished IsPidLine rest)
    (stream : received answers = (pids.map pidLine).flatten ++ rest)
    (keeps : RunKeeps enable {} answers) :
    ∃ final, Run.run (reapStep enable) {} answers = some final ∧
      final.removed = (if enable then pids.map Int.ofNat else []) ∧
      final.buf.take final.bufPos = rest :=
  reapStep_run enable answers unfinished {} [] pids
    ⟨⟨_, (List.nil_append _).symm⟩, rfl, List.length_replicate,
      unfinished.shorter List.nil_prefix⟩ keeps all stream

/-- Two ids of one length, the second of them cut. -/
theorem reapPrewarmedChildren_reports_cut :
    ∃ final, Run.run (reapStep true) {}
        [.data [0x31, 0x32, 0x0a, 0x33], .interrupted, .data [0x34, 0x0a, 0x35]] = some final ∧
      final.removed = (if true then [12, 34].map Int.ofNat else []) ∧
      final.buf.take final.bufPos = [0x35] := by
  apply reapPrewarmedChildren_reports true [12, 34] [0x35]
  · decide
  · exact ⟨pidLine 5, ⟨5, rfl, by decide, by decide⟩, ⟨[0x0a], by decide +kernel⟩,
      by decide +kernel⟩
  · decide +kernel
  · decide +kernel

/-- Three children that exit at once: the tail is longer than the line in front of it. -/
theorem reapPrewarmedChildren_alters :
    received [.data [0x31, 0x0a, 0x32, 0x32, 0x0a, 0x33, 0x33, 0x33, 0x0a]] =
        ([1, 22, 333].map pidLine).flatten ∧
      (Run.run (reapStep true) {}
          [.data [0x31, 0x0a, 0x32, 0x32, 0x0a, 0x33, 0x33, 0x33, 0x0a]]).map ReapBuffer.removed =
        some [1, 2222] := by
  constructor
  · decide +kernel
  · decide +kernel

end Prewarm

end Smelly
