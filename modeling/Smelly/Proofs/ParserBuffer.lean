/-
Module: Smelly.Proofs.ParserBuffer
Purpose: The accesses to `parser_buf` for one character.  Every write is inside the array and every
  read is of a written cell, except that the final character of a CSI sequence whose parameters
  fill the buffer is written behind it.
Trusted boundary: none
-/
import Smelly.Proofs.ParserDriver

namespace Smelly

open ParseScreen Checked

/-- The cells in front of `parser_buf_pos` have been written, and the array has room for all
that were. -/
structure ParseScreen.BufOk (p : ParseScreen) : Prop where
  pos : p.parserBufPos ≤ p.parserBuf.length
  size : p.parserBuf.length ≤ parserBufSz

theorem parserBufSz_eq : parserBufSz = 8192 := rfl

variable {s : ParseScreen}

theorem newScreen_bufOk : ({} : ParseScreen).BufOk := ⟨Nat.le_refl 0, Nat.zero_le _⟩

theorem ParseScreen.BufOk.setState (_ : s.BufOk) (state : ParserState) : (s.setState state).BufOk :=
  ⟨Nat.le_refl 0, Nat.zero_le _⟩

theorem ParseScreen.BufOk.setPos (h : s.BufOk) {pos : Nat} (hpos : pos ≤ s.parserBufPos) :
    BufOk { s with parserBufPos := pos } :=
  ⟨Nat.le_trans hpos h.pos, h.size⟩

/-- No call touches the buffer, and the position only goes back to the start. -/
theorem perform_buffer (s : ParseScreen) (command : Command) :
    (s.perform command).parserBuf = s.parserBuf ∧
      (s.perform command).parserBufPos ≤ s.parserBufPos := by
  have modes : ∀ mode val, (s.setModeFromConst mode val).parserBuf = s.parserBuf ∧
      (s.setModeFromConst mode val).parserBufPos ≤ s.parserBufPos := by
    intro mode val
    simp only [setModeFromConst, saveCursor, toggleScreenBuffer, restoreCursor, activatePending,
      deactivatePending]
    repeat' split
    all_goals exact ⟨rfl, Nat.le_refl _⟩
  unfold perform
  split
  · exact ⟨rfl, Nat.le_refl _⟩
  · simp only [saveCursor]
    split <;> exact ⟨rfl, Nat.le_refl _⟩
  · exact ⟨rfl, Nat.le_refl _⟩
  · simp only [reset, toggleScreenBuffer, restoreCursor]
    repeat' split
    all_goals exact ⟨rfl, Nat.zero_le _⟩
  · exact modes _ _
  · exact modes _ _
  · exact ⟨rfl, Nat.le_refl _⟩
  · exact ⟨rfl, Nat.le_refl _⟩

theorem ParseScreen.BufOk.emit (h : s.BufOk) (command : Command) : (s.emit command).BufOk := by
  obtain ⟨buf, pos⟩ := perform_buffer { s with dispatched := s.dispatched ++ [command] } command
  constructor
  · change _ ≤ (perform _ command).parserBuf.length
    rw [buf]
    exact Nat.le_trans pos h.pos
  · change (perform _ command).parserBuf.length ≤ _
    rw [buf]
    exact h.size

theorem ParseScreen.BufOk.emitAll (h : s.BufOk) (commands : List Command) :
    (s.emitAll commands).BufOk := by
  induction commands generalizing s with
  | nil => exact h
  | cons command rest ih => exact ih (h.emit command)

theorem ParseScreen.BufOk.writePendingChars (h : s.BufOk) (text : Text) :
    (writePendingChars s text).BufOk := by
  obtain ⟨pending, heq⟩ := writePendingChars_eq s text
  rw [heq]
  exact ⟨h.pos, h.size⟩

/-! ### Single accesses -/

theorem read_succeeds {i : Nat} (h : i < s.parserBuf.length) :
    Succeeds (fun ch => s.parserBuf[i]? = some ch) (s.read i) := by
  unfold ParseScreen.read
  rw [List.getElem?_eq_getElem h]
  rfl

theorem readFrom_succeeds (h : s.BufOk) {lo : Nat} (hlo : lo ≤ s.parserBufPos) :
    Succeeds (fun _ => True) (s.readFrom lo) := by
  unfold ParseScreen.readFrom
  rw [if_pos ⟨hlo, h.pos⟩]
  trivial

/-- What a write leaves as it is. -/
structure Written (s t : ParseScreen) : Prop where
  ok : t.BufOk
  pos : t.parserBufPos = s.parserBufPos
  state : t.parserState = s.parserState
  grows : s.parserBuf.length ≤ t.parserBuf.length

theorem write_succeeds (h : s.BufOk) {i : Nat} (ch : UInt32) (hsize : i < parserBufSz)
    (hi : i ≤ s.parserBuf.length) :
    Succeeds (fun t => Written s t ∧ i < t.parserBuf.length) (s.write i ch) := by
  unfold write
  rw [if_pos ⟨hsize, hi⟩]
  have front : (s.parserBuf.take i).length = i := List.length_take_of_le hi
  have len : (s.parserBuf.take i ++ ch :: s.parserBuf.drop (i + 1)).length =
      max s.parserBuf.length (i + 1) := by
    rw [List.length_append, front, List.length_cons, List.length_drop]
    omega
  have hpos := h.pos
  have hbuf := h.size
  refine ⟨⟨⟨?_, ?_⟩, rfl, rfl, ?_⟩, ?_⟩
  · simp only [len]; omega
  · simp only [len]; omega
  · simp only [len]; omega
  · simp only [len]; omega

theorem push_succeeds (h : s.BufOk) (ch : UInt32) (hsize : s.parserBufPos < parserBufSz) :
    Succeeds BufOk (s.push ch) := by
  unfold push
  refine (write_succeeds h ch hsize h.pos).bind fun t ⟨written, behind⟩ => ?_
  refine ⟨?_, written.ok.size⟩
  rw [written.pos]
  exact behind

theorem afterEsc_succeeds (h : s.BufOk) : Succeeds (fun _ => True) (afterEsc s) := by
  unfold afterEsc
  split
  · trivial
  · have hpos := h.pos
    exact (read_succeeds (by omega)).bind fun _ _ => trivial

theorem closesString_succeeds (h : s.BufOk) (ch : UInt32) :
    Succeeds (fun _ => True) (closesString s ch) := by
  unfold closesString
  split
  · exact afterEsc_succeeds h
  · trivial

theorem dropEsc_bufOk (h : s.BufOk) : (dropEsc s).BufOk := h.setPos (Nat.sub_le _ _)

/-! ### The accumulators -/

theorem handleExtendedOscCode_succeeds (h : s.BufOk) (full : parserBufSz - 1 ≤ s.parserBufPos) :
    Succeeds (fun result => result.1.BufOk) (handleExtendedOscCode s) := by
  have hpos := h.pos
  rw [parserBufSz_eq] at full
  unfold handleExtendedOscCode
  refine (read_succeeds (by omega)).bind fun b0 _ => ?_
  split
  · exact h
  · refine (read_succeeds (by omega)).bind fun b1 _ => ?_
    split
    · exact h
    · refine (read_succeeds (by omega)).bind fun b2 _ => ?_
      split
      · exact h
      · refine (write_succeeds h _ (by decide) (Nat.zero_le _)).bind fun t1 ⟨first, _⟩ => ?_
        refine (write_succeeds first.ok _ (by decide) ?_).bind fun t2 ⟨second, _⟩ => second.ok
        exact Nat.le_trans (by omega) first.grows

theorem accumulateOsc_succeeds (h : s.BufOk) (ch : UInt32) :
    Succeeds (fun result => result.1.BufOk) (accumulateOsc s ch) := by
  unfold accumulateOsc
  split
  · exact h
  · split
    · exact h
    · refine (closesString_succeeds h ch).bind fun closes _ => ?_
      split
      · exact dropEsc_bufOk h
      · split
        · rename_i full
          exact (handleExtendedOscCode_succeeds h full).bind fun result ok => ok
        · rename_i room
          rw [parserBufSz_eq] at room
          exact (push_succeeds h ch (by rw [parserBufSz_eq]; omega)).bind fun t ok => ok

theorem accumulateDcs_succeeds (h : s.BufOk) (ch : UInt32) :
    Succeeds (fun result => result.1.BufOk) (accumulateDcs s ch) := by
  unfold accumulateDcs
  split
  · exact h
  · split
    · exact h
    · split
      · refine (afterEsc_succeeds h).bind fun escaped _ => ?_
        split
        · split
          · exact dropEsc_bufOk h
          · exact h.setState _
        · split
          · exact h
          · rename_i room
            rw [parserBufSz_eq] at room
            exact (push_succeeds h ch (by rw [parserBufSz_eq]; omega)).bind fun t ok => ok
      · exact h

theorem accumulateOth_succeeds (h : s.BufOk) (ch : UInt32) :
    Succeeds (fun result => result.1.BufOk) (accumulateOth s ch) := by
  unfold accumulateOth
  split
  · exact h
  · split
    · exact h
    · refine (closesString_succeeds h ch).bind fun closes _ => ?_
      split
      · exact dropEsc_bufOk h
      · split
        · exact h
        · rename_i room
          rw [parserBufSz_eq] at room
          exact (push_succeeds h ch (by rw [parserBufSz_eq]; omega)).bind fun t ok => ok

theorem csiPush_succeeds (h : s.BufOk) (ch : UInt32) : Succeeds BufOk (csiPush s ch) := by
  unfold csiPush
  split
  · exact h.setState _
  · rename_i room
    rw [parserBufSz_eq] at room
    exact push_succeeds h ch (by rw [parserBufSz_eq]; omega)

theorem dispatchNormalModeChar_bufOk (h : s.BufOk) (ch : UInt32) :
    (dispatchNormalModeChar s ch).BufOk := by
  unfold dispatchNormalModeChar
  split
  · exact h.setState _
  · exact h.emitAll _

/-- A character that would be written behind `parser_buf`. -/
def Overflows (s : ParseScreen) (ch : UInt32) : Prop :=
  s.parserState = .csi ∧ s.parserBufPos = parserBufSz ∧ isCsiFinal ch = true

instance (s : ParseScreen) (ch : UInt32) : Decidable (Overflows s ch) :=
  inferInstanceAs (Decidable (_ ∧ _ ∧ _))

/-- The final character is stored only where the parameters have left room for it. -/
theorem accumulateCsi_succeeds (h : s.BufOk) (state : s.parserState = .csi) {ch : UInt32}
    (fits : ¬ Overflows s ch) :
    Succeeds (fun result => result.1.BufOk ∧
      (result.2 = true → result.1.parserBufPos < result.1.parserBuf.length))
      (accumulateCsi s ch) := by
  unfold accumulateCsi
  split
  · exact (csiPush_succeeds h ch).bind fun t ok => ⟨ok, fun done => by cases done⟩
  · split
    · split
      · exact ⟨h.setState _, fun done => by cases done⟩
      · exact (csiPush_succeeds h ch).bind fun t ok => ⟨ok, fun done => by cases done⟩
    · split
      · rename_i final
        have room : s.parserBufPos < parserBufSz := by
          have hpos := h.pos
          have hbuf := h.size
          refine Nat.lt_of_le_of_ne (Nat.le_trans hpos hbuf) fun full => ?_
          exact fits ⟨state, full, final⟩
        refine (write_succeeds h ch room h.pos).bind fun t ⟨written, behind⟩ => ?_
        exact ⟨written.ok, fun _ => written.pos ▸ behind⟩
      · split
        · exact ⟨dispatchNormalModeChar_bufOk h ch, fun done => by cases done⟩
        · exact ⟨h.setState _, fun done => by cases done⟩

/-- The final characters are those from `@` on, the parameters are in front of it. -/
theorem isCsiFinal_ge {ch : UInt32} (final : isCsiFinal ch = true) : 64 ≤ ch := by
  have listed : ∀ c ∈ chars "@\x60\x7b|\x7d~", 64 ≤ c :=
    forall_mem_chars (by decide)
  simp only [isCsiFinal, decide_eq_true_eq] at final
  rcases final with ⟨low, -⟩ | ⟨low, -⟩ | final
  · exact UInt32.le_trans (by decide) low
  · exact UInt32.le_trans (by decide) low
  · exact listed ch final

theorem isCsiParam_lt {ch : UInt32} (param : isCsiParam ch = true) : ch < 64 := by
  have secondary : ∀ c ∈ chars " !\"#$%&'()*+,-./", c < 64 :=
    forall_mem_chars (by decide)
  simp only [isCsiParam, isDigit, isCsiSecondary, decide_eq_true_eq] at param
  rcases param with ⟨-, high⟩ | param | rfl | rfl
  · exact UInt32.lt_of_le_of_lt high (by decide)
  · exact secondary ch param
  · decide
  · decide

theorem accumulateCsi_overflows {ch : UInt32} (overruns : Overflows s ch) :
    accumulateCsi s ch = none := by
  obtain ⟨-, full, final⟩ := overruns
  have high := isCsiFinal_ge final
  have param : ¬ isCsiParam ch = true := fun param =>
    absurd (UInt32.lt_of_le_of_lt high (isCsiParam_lt param)) (UInt32.lt_irrefl 64)
  have private_ : ch ∉ chars "?><=" := by
    have listed : ∀ c ∈ chars "?><=", c < 64 :=
      forall_mem_chars (by decide)
    exact fun mem => absurd (UInt32.lt_of_le_of_lt high (listed ch mem)) (UInt32.lt_irrefl 64)
  unfold accumulateCsi
  rw [if_neg param, if_neg private_, if_pos final]
  have refused : s.write s.parserBufPos ch = none := by
    unfold write
    rw [if_neg (by omega)]
  rw [refused]
  rfl

/-! ### The dispatchers -/

/-- The handlers read and write cells they may access only. -/
structure Handlers.Safe (h : Handlers) : Prop where
  normal : ∀ {s : ParseScreen} (ch : UInt32), s.BufOk → (h.normal s ch).BufOk
  esc : ∀ {s : ParseScreen} (ch : UInt32), s.BufOk → Succeeds BufOk (h.esc s ch)
  csi : ∀ {s : ParseScreen}, s.BufOk → s.parserBufPos < s.parserBuf.length →
    Succeeds BufOk (h.csi s)
  osc : ∀ {s : ParseScreen}, s.BufOk → Succeeds BufOk (h.osc s)
  dcs : ∀ {s : ParseScreen}, s.BufOk → Succeeds BufOk (h.dcs s)
  apc : ∀ {s : ParseScreen}, s.BufOk → Succeeds BufOk (h.apc s)
  pm : ∀ {s : ParseScreen}, s.BufOk → Succeeds BufOk (h.pm s)

theorem dispatchEscModeChar_succeeds (h : s.BufOk) (ch : UInt32) :
    Succeeds BufOk (dispatchEscModeChar s ch) := by
  unfold dispatchEscModeChar
  split
  · rename_i start
    split
    · exact h.setState _
    · split
      · exact push_succeeds h ch (by rw [start]; decide)
      · exact (h.emitAll _).setState _
  · have hpos := h.pos
    exact (read_succeeds (by omega)).bind fun first _ => (h.emitAll _).setState _

theorem dispatchCsi_succeeds (h : s.BufOk) (final : s.parserBufPos < s.parserBuf.length) :
    Succeeds BufOk (dispatchCsi s) :=
  (read_succeeds final).bind fun _ _ =>
    (readFrom_succeeds h (Nat.zero_le _)).bind fun _ _ => h.emitAll _

theorem continueOsc52_succeeds (h : s.BufOk) : Succeeds BufOk (continueOsc52 s) := by
  refine (write_succeeds h _ (by decide) (Nat.zero_le _)).bind fun t1 ⟨w1, l1⟩ => ?_
  refine (write_succeeds w1.ok _ (by decide) l1).bind fun t2 ⟨w2, l2⟩ => ?_
  refine (write_succeeds w2.ok _ (by decide) l2).bind fun t3 ⟨w3, l3⟩ => ?_
  refine (write_succeeds w3.ok _ (by decide) l3).bind fun t4 ⟨w4, l4⟩ => ?_
  exact ⟨l4, w4.ok.size⟩

theorem dispatchOsc_succeeds (h : s.BufOk) : Succeeds BufOk (dispatchOsc s) := by
  refine (readFrom_succeeds h (Nat.zero_le _)).bind fun payload _ => ?_
  have emitted := h.emitAll (oscCommands (oscParts payload).1 (oscParts payload).2)
  dsimp only
  split
  · exact continueOsc52_succeeds emitted
  · exact emitted

/-- A comparison with a prefix that fits reads written cells only. -/
theorem startsWith_compare_succeeds (h : s.BufOk) (pfx : Text) {lo : Nat}
    (fits : lo + pfx.length ≤ s.parserBufPos) :
    Succeeds (fun found => found = true → ∀ i < pfx.length, s.parserBuf[lo + i]? = pfx[i]?)
      (startsWith.compare s lo pfx) := by
  induction pfx generalizing lo with
  | nil => exact fun _ i hi => absurd hi (Nat.not_lt_zero i)
  | cons ch rest ih =>
    have hpos := h.pos
    rw [List.length_cons] at fits
    refine (read_succeeds (by omega)).bind fun cell hcell => ?_
    split
    · exact fun found => by cases found
    · rename_i same
      refine (ih (by omega)).mono fun found hfound htrue i hi => ?_
      cases i with
      | zero => simpa [not_not.1 same] using hcell
      | succ i =>
        have := hfound htrue i (Nat.lt_of_succ_lt_succ hi)
        rw [show lo + (i + 1) = lo + 1 + i by omega]
        simpa using this

/-- The comparisons behind the dash of `smelly-` start at the dash, so that they stop there. -/
theorem startsWith_dash (dash : s.parserBuf[7]? = some (ord '-')) (sz : Int) {pfx : Text}
    (other : pfx.head? ≠ some (ord '-')) (nonempty : pfx ≠ []) :
    startsWith s 7 sz pfx = some false := by
  unfold startsWith
  split
  · rfl
  · cases pfx with
    | nil => exact absurd rfl nonempty
    | cons ch rest =>
      have mismatch : ord '-' ≠ ch := fun heq => other (congrArg some heq.symm)
      unfold startsWith.compare ParseScreen.read
      rw [dash]
      exact if_pos mismatch

theorem simplePrefixCommand_dash (dash : s.parserBuf[7]? = some (ord '-'))
    (prefixes : List (String × String))
    (other : ∀ entry ∈ prefixes,
      (chars entry.1).head? ≠ some (ord '-') ∧ chars entry.1 ≠ []) :
    simplePrefixCommand s prefixes = some [] := by
  induction prefixes with
  | nil => rfl
  | cons entry rest ih =>
    obtain ⟨head, nonempty⟩ := other entry List.mem_cons_self
    unfold simplePrefixCommand
    rw [startsWith_dash dash _ head nonempty]
    exact ih fun entry mem => other entry (List.mem_cons_of_mem _ mem)

theorem dcsCommands_succeeds (h : s.BufOk) : Succeeds (fun _ => True) (dcsCommands s) := by
  have hpos := h.pos
  unfold dcsCommands
  split
  · trivial
  · rename_i long
    refine (read_succeeds (by omega)).bind fun first _ => ?_
    refine (read_succeeds (by omega)).bind fun second _ => ?_
    split
    · split
      · exact (readFrom_succeeds h (by omega)).bind fun _ _ => trivial
      · trivial
    · split
      · split
        · rename_i pending
          exact (read_succeeds (by omega)).bind fun _ _ => trivial
        · trivial
      · split
        · have tested : Succeeds (fun found => found = true → s.parserBuf[7]? = some (ord '-'))
              (startsWith s 1 ((s.parserBufPos : Int) - 2) (chars "smelly-")) := by
            unfold startsWith
            split
            · exact fun found => by cases found
            · rename_i fits
              have len : (chars "smelly-").length = 7 := rfl
              rw [len] at fits
              refine (startsWith_compare_succeeds h _ (by rw [len]; omega)).mono
                fun found same htrue => same htrue 6 (by decide)
          refine tested.bind fun found same => ?_
          split
          · rename_i htrue
            have dash := same htrue
            rw [startsWith_dash dash _ (by decide) (by decide),
              simplePrefixCommand_dash dash simplePrefixes (by decide)]
            trivial
          · trivial
        · trivial

theorem dispatchDcs_succeeds (h : s.BufOk) : Succeeds BufOk (dispatchDcs s) :=
  (dcsCommands_succeeds h).bind fun _ _ => h.emitAll _

theorem dispatchApc_succeeds (h : s.BufOk) : Succeeds BufOk (dispatchApc s) := by
  have hpos := h.pos
  unfold dispatchApc
  split
  · exact h
  · refine (read_succeeds (by omega)).bind fun first _ => ?_
    split
    · exact (readFrom_succeeds h (by omega)).bind fun _ _ => h.emitAll _
    · exact h

theorem dispatchPm_succeeds (h : s.BufOk) : Succeeds BufOk (dispatchPm s) := by
  have hpos := h.pos
  unfold dispatchPm
  split
  · exact h
  · exact (read_succeeds (by omega)).bind fun _ _ => h

theorem dispatchHandlers_safe (watch : ParseScreen → Bool) :
    { dispatchHandlers with watch := watch }.Safe where
  normal ch h := dispatchNormalModeChar_bufOk h ch
  esc ch h := dispatchEscModeChar_succeeds h ch
  csi h final := dispatchCsi_succeeds h final
  osc h := dispatchOsc_succeeds h
  dcs h := dispatchDcs_succeeds h
  apc h := dispatchApc_succeeds h
  pm h := dispatchPm_succeeds h

/-! ### The scanner of pending mode -/

theorem pendingNormalModeChar_bufOk (h : s.BufOk) (ch : UInt32) :
    (pendingNormalModeChar s ch).BufOk := by
  unfold pendingNormalModeChar
  split
  · exact h.setState _
  · exact ⟨h.pos, h.size⟩

theorem pendingEscModeChar_succeeds (h : s.BufOk) (ch : UInt32) :
    Succeeds BufOk (pendingEscModeChar s ch) := by
  have hpos := h.pos
  unfold pendingEscModeChar
  split
  · exact (read_succeeds (by omega)).bind fun _ _ => (h.writePendingChars _).setState _
  · rename_i start
    split
    · exact h.setState _
    · split
      · exact push_succeeds h ch (by rw [parserBufSz_eq]; omega)
      · exact (h.writePendingChars _).setState _

theorem pendingEscapeCode_succeeds (h : s.BufOk) (startCh endCh : UInt32) :
    Succeeds BufOk (pendingEscapeCode s startCh endCh) :=
  (readFrom_succeeds h (Nat.zero_le _)).bind fun _ _ => h.writePendingChars _

theorem pendingOsc_succeeds (h : s.BufOk) : Succeeds BufOk (pendingOsc s) := by
  refine (readFrom_succeeds h (Nat.zero_le _)).bind fun cells _ => ?_
  refine (pendingEscapeCode_succeeds h _ _).bind fun t ok => ?_
  split
  · exact continueOsc52_succeeds ok
  · exact ok

theorem pendingDcs_succeeds (h : s.BufOk) : Succeeds BufOk (pendingDcs s) := by
  refine (readFrom_succeeds h (Nat.zero_le _)).bind fun cells _ => ?_
  split
  · exact ⟨h.pos, h.size⟩
  · split
    · exact ⟨h.pos, h.size⟩
    · exact pendingEscapeCode_succeeds h _ _

theorem pendingCsi_succeeds (h : s.BufOk) (final : s.parserBufPos < s.parserBuf.length) :
    Succeeds BufOk (pendingCsi s) := by
  refine (read_succeeds final).bind fun code _ => ?_
  refine (readFrom_succeeds h (Nat.zero_le _)).bind fun cells _ => ?_
  split
  · exact ⟨h.pos, h.size⟩
  · split
    · exact ⟨h.pos, h.size⟩
    · exact pendingEscapeCode_succeeds h _ _

theorem pendingHandlers_safe : pendingHandlers.Safe where
  normal ch h := pendingNormalModeChar_bufOk h ch
  esc ch h := pendingEscModeChar_succeeds h ch
  csi h final := pendingCsi_succeeds h final
  osc h := pendingOsc_succeeds h
  dcs h := pendingDcs_succeeds h
  apc h := pendingEscapeCode_succeeds h _ _
  pm h := pendingEscapeCode_succeeds h _ _

/-! ### One character -/

theorem dispatchString_succeeds {handler : ParseScreen → Option ParseScreen}
    (h : Succeeds BufOk (handler s)) : Succeeds BufOk (dispatchString handler s) :=
  h.bind fun _ ok => ok.setState _

theorem dispatchCsiChar_succeeds {h : Handlers} (safe : h.Safe) (hs : s.BufOk)
    (state : s.parserState = .csi) {ch : UInt32} (fits : ¬ Overflows s ch) :
    Succeeds (fun result => result.1.BufOk) (dispatchCsiChar h s ch) := by
  refine (accumulateCsi_succeeds hs state fits).bind fun ⟨t, done⟩ ⟨ok, final⟩ => ?_
  cases done with
  | true => exact (dispatchString_succeeds (safe.csi ok (final rfl))).bind fun _ ok => ok
  | false => exact ok

theorem dispatchOscChar_succeeds {h : Handlers} (safe : h.Safe) (hs : s.BufOk) (ch : UInt32) :
    Succeeds BufOk (dispatchOscChar h s ch) := by
  refine (accumulateOsc_succeeds hs ch).bind fun ⟨t, done, extended⟩ ok => ?_
  cases done with
  | false => exact ok
  | true =>
    cases extended with
    | false => exact dispatchString_succeeds (safe.osc ok)
    | true =>
      refine (safe.osc ok).bind fun u ok => ?_
      refine (accumulateOsc_succeeds ok ch).bind fun ⟨v, done, _⟩ ok => ?_
      cases done with
      | true => exact dispatchString_succeeds (safe.osc ok)
      | false => exact ok

theorem dispatchOthChar_succeeds {handler : ParseScreen → Option ParseScreen}
    (safe : ∀ {s : ParseScreen}, s.BufOk → Succeeds BufOk (handler s)) (hs : s.BufOk)
    (ch : UInt32) : Succeeds BufOk (dispatchOthChar handler s ch) := by
  refine (accumulateOth_succeeds hs ch).bind fun ⟨t, done⟩ ok => ?_
  cases done with
  | true => exact dispatchString_succeeds (safe ok)
  | false => exact ok

theorem dispatchDcsChar_succeeds {h : Handlers} (safe : h.Safe) (hs : s.BufOk) (ch : UInt32) :
    Succeeds (fun result => result.1.BufOk) (dispatchDcsChar h s ch) := by
  refine (accumulateDcs_succeeds hs ch).bind fun ⟨t, done⟩ ok => ?_
  cases done with
  | true => exact (dispatchString_succeeds (safe.dcs ok)).bind fun _ ok => ok
  | false =>
    dsimp only
    rw [if_neg (by decide)]
    split
    · exact (safe.esc ch ok).bind fun _ ok => ok
    · exact ok

theorem dispatchUnicodeChar_succeeds {h : Handlers} (safe : h.Safe) (hs : s.BufOk) {ch : UInt32}
    (fits : ¬ Overflows s ch) :
    Succeeds (fun result => result.1.BufOk) (dispatchUnicodeChar h s ch) := by
  unfold dispatchUnicodeChar
  cases state : s.parserState with
  | normal => exact safe.normal ch hs
  | esc => exact (safe.esc ch hs).map fun _ ok => ok
  | csi => exact dispatchCsiChar_succeeds safe hs state fits
  | osc => exact (dispatchOscChar_succeeds safe hs ch).map fun _ ok => ok
  | dcs => exact dispatchDcsChar_succeeds safe hs ch
  | apc => exact (dispatchOthChar_succeeds safe.apc hs ch).map fun _ ok => ok
  | pm => exact (dispatchOthChar_succeeds safe.pm hs ch).map fun _ ok => ok

theorem dispatchUnicodeChar_overflows {h : Handlers} {ch : UInt32} (overruns : Overflows s ch) :
    dispatchUnicodeChar h s ch = none := by
  unfold dispatchUnicodeChar dispatchCsiChar
  rw [overruns.1]
  dsimp only
  rw [accumulateCsi_overflows overruns]
  rfl

/-- A character is stored and dispatched without an access outside of what was written, exactly if
it does not overflow. -/
theorem dispatchUnicodeChar_isSome_iff {h : Handlers} (safe : h.Safe) (hs : s.BufOk)
    (ch : UInt32) : (dispatchUnicodeChar h s ch).isSome ↔ ¬ Overflows s ch := by
  constructor
  · intro some overruns
    rw [dispatchUnicodeChar_overflows overruns] at some
    cases some
  · intro fits
    obtain ⟨result, heq, -⟩ := (dispatchUnicodeChar_succeeds safe hs fits).exists
    rw [heq]
    rfl

end Smelly
