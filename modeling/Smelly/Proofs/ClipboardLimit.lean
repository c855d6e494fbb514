/-
Module: Smelly.Proofs.ClipboardLimit
Purpose: How much a write request stores: nothing behind the limit that it tests, which for a limit
  out of the options is the configured one times 1048576.
Trusted boundary: none
-/
import Smelly.Proofs.ClipboardChunks
import Mathlib.Data.List.Induction

namespace Smelly

namespace Clipboard

/-! ### Calls -/

/-- The calls that write to a request. -/
inductive Call where
  | add (data : Payload) (mime : String)
  | flush
deriving DecidableEq

/-- What a call leaves, also when it ends with an exception. -/
def WriteRequest.call (self : WriteRequest) : Call → WriteRequest
  | .add data mime => (self.addBase64Data data mime).1
  | .flush => self.flushBase64Data.1

/-- What calls leave. -/
def WriteRequest.calls (self : WriteRequest) (calls : List Call) : WriteRequest :=
  calls.foldl WriteRequest.call self

/-- The number of decoded bytes that are stored. -/
def WriteRequest.stored (self : WriteRequest) : Nat :=
  self.tempfile.content.length

theorem calls_concat (self : WriteRequest) (calls : List Call) (call : Call) :
    self.calls (calls ++ [call]) = (self.calls calls).call call :=
  List.foldl_concat _ _ _ _

/-! ### Relations that every call keeps -/

/-- A relation between the states before and behind a step that writes and keeps what is left
over. -/
structure Piecewise (R : WriteRequest → WriteRequest → Prop) : Prop where
  refl : ∀ state, R state state
  trans : ∀ {state next last}, R state next → R next last → R state last
  write : ∀ state b, R state (WriteRequest.writeBase64Data state b).1
  leftover : ∀ state leftover, R state { state with currentLeftoverBytes := leftover }

/-- A relation that also holds when a MIME type starts or ends. -/
structure Callwise (R : WriteRequest → WriteRequest → Prop) : Prop extends Piecewise R where
  mime : ∀ state mimeMap mime, R state
    { state with mimeMap := mimeMap, currentlyWritingMime := mime }

section Relations

variable {R : WriteRequest → WriteRequest → Prop}

theorem Piecewise.andThen (pieces : Piecewise R) {state : WriteRequest}
    {result : WriteRequest × Bool} {next : WriteRequest → WriteRequest × Bool}
    (first : R state result.1) (second : ∀ state, R state (next state).1) :
    R state (Clipboard.andThen result next).1 := by
  unfold Clipboard.andThen
  by_cases returns : result.2 = true
  · rw [if_pos returns]
    exact pieces.trans first (second result.1)
  · rw [if_neg returns]
    exact first

theorem Piecewise.writeSavingLeftoverBytes (pieces : Piecewise R) (state : WriteRequest)
    (data : List UInt8) : R state (state.writeSavingLeftoverBytes data).1 := by
  unfold WriteRequest.writeSavingLeftoverBytes
  by_cases empty : data.length = 0
  · rw [if_pos empty]
    exact pieces.refl state
  · rw [if_neg empty]
    by_cases extra : 0 < data.length % 4
    · dsimp only
      rw [if_pos extra]
      have saved := pieces.leftover state (data.drop (data.length - data.length % 4))
      by_cases some : 0 < (data.take (data.length - data.length % 4)).length
      · rw [if_pos some]
        exact pieces.trans saved (pieces.write _ _)
      · rw [if_neg some]
        exact saved
    · dsimp only
      rw [if_neg extra]
      exact pieces.write state data

theorem Piecewise.addBytes (pieces : Piecewise R) (state : WriteRequest) (data : List UInt8) :
    R state (state.addBytes data).1 := by
  unfold WriteRequest.addBytes
  by_cases carried : 0 < state.currentLeftoverBytes.length
  · rw [if_pos carried]
    dsimp only
    by_cases enough : 4 - state.currentLeftoverBytes.length ≤ data.length
    · rw [if_pos enough]
      apply pieces.andThen (pieces.write state _)
      intro next
      exact pieces.trans (pieces.leftover next []) (pieces.writeSavingLeftoverBytes _ _)
    · rw [if_neg enough]
      exact pieces.leftover state _
  · rw [if_neg carried]
    exact pieces.writeSavingLeftoverBytes state data

theorem Callwise.flushBase64Data (calls : Callwise R) (state : WriteRequest) :
    R state state.flushBase64Data.1 := by
  unfold WriteRequest.flushBase64Data
  by_cases idle : state.currentlyWritingMime = ""
  · rw [if_pos idle]
    exact calls.refl state
  · rw [if_neg idle]
    apply calls.andThen
    · by_cases padded : 4 - state.currentLeftoverBytes.length = 1 ∨
          4 - state.currentLeftoverBytes.length = 2
      · rw [if_pos padded]
        exact calls.write state _
      · rw [if_neg padded]
        exact calls.refl state
    · intro next
      exact calls.trans (calls.mime next _ "") (calls.leftover _ [])

theorem Callwise.startMime (calls : Callwise R) (state : WriteRequest) (mime : String) :
    R state (state.startMime mime).1 := by
  unfold WriteRequest.startMime
  apply calls.andThen
  · by_cases other : state.currentlyWritingMime ≠ "" ∧ state.currentlyWritingMime ≠ mime
    · rw [if_pos other]
      exact calls.flushBase64Data state
    · rw [if_neg other]
      exact calls.refl state
  · intro next
    by_cases idle : next.currentlyWritingMime = ""
    · rw [if_pos idle]
      exact calls.mime next _ mime
    · rw [if_neg idle]
      exact calls.refl next

theorem Callwise.addBase64Data (calls : Callwise R) (state : WriteRequest) (data : Payload)
    (mime : String) : R state (state.addBase64Data data mime).1 := by
  unfold WriteRequest.addBase64Data
  cases data.encode with
  | none => exact calls.refl state
  | some bytes =>
    exact calls.andThen (calls.startMime state mime) fun next => calls.addBytes next bytes

theorem Callwise.call (calls : Callwise R) (state : WriteRequest) (call : Call) :
    R state (state.call call) := by
  cases call with
  | flush => exact calls.flushBase64Data state
  | add data mime => exact calls.addBase64Data state data mime

theorem Callwise.calls (calls : Callwise R) (all : List Call) :
    ∀ state : WriteRequest, R state (state.calls all) := by
  induction all with
  | nil => exact calls.refl
  | cons call all ih =>
    intro state
    exact calls.trans (calls.call state call) (ih (state.call call))

end Relations

/-! ### The limit that is tested -/

/-- The position is the number of bytes, and these are within the limit until the flag is set. -/
structure Counted (state : WriteRequest) : Prop where
  position : state.tempfile.position = state.tempfile.content.length
  within : 0 < state.maxSize → state.maxSizeExceeded = false → state.Below state.stored

/-- A step that respects the limit: it keeps the count, and once the flag is set it stores
nothing. -/
structure Limited (state next : WriteRequest) : Prop where
  maxSize : next.maxSize = state.maxSize
  counted : Counted state → Counted next
  stopped : state.maxSizeExceeded = true →
    next.maxSizeExceeded = true ∧ next.tempfile = state.tempfile

theorem Limited.refl (state : WriteRequest) : Limited state state :=
  ⟨rfl, id, fun exceeded => ⟨exceeded, rfl⟩⟩

theorem Limited.trans {state next last : WriteRequest} (first : Limited state next)
    (second : Limited next last) : Limited state last := by
  refine ⟨second.maxSize.trans first.maxSize, second.counted ∘ first.counted, ?_⟩
  intro exceeded
  obtain ⟨exceeded', same⟩ := first.stopped exceeded
  obtain ⟨exceeded'', same'⟩ := second.stopped exceeded'
  exact ⟨exceeded'', same'.trans same⟩

/-- A step that changes nothing of what the limit is about. -/
theorem Limited.of_same {state next : WriteRequest} (maxSize : next.maxSize = state.maxSize)
    (tempfile : next.tempfile = state.tempfile)
    (exceeded : next.maxSizeExceeded = state.maxSizeExceeded) : Limited state next := by
  refine ⟨maxSize, ?_, ?_⟩
  · intro counted
    constructor
    · rw [tempfile]
      exact counted.position
    · rw [maxSize, exceeded, WriteRequest.Below, WriteRequest.stored, maxSize, tempfile]
      exact counted.within
  · intro stopped
    exact ⟨exceeded.trans stopped, tempfile⟩

/-- A write sets the flag when it passes the limit. -/
theorem writeBase64Data_limited (state : WriteRequest) (b : List UInt8) :
    Limited state (state.writeBase64Data b).1 := by
  unfold WriteRequest.writeBase64Data
  by_cases exceeded : state.maxSizeExceeded = true
  · rw [if_pos exceeded]
    exact Limited.refl state
  · rw [if_neg exceeded]
    cases decoded : a2bBase64 b with
    | none => exact Limited.refl state
    | some d =>
      dsimp only
      by_cases large : 0 < state.maxSize ∧
          state.maxSize * 1024 * 1024 < ((state.tempfile.write d).tell : ℚ)
      · rw [if_pos large]
        refine ⟨rfl, ?_, fun stopped => absurd stopped exceeded⟩
        intro counted
        refine ⟨(Tempfile.write_end counted.position d).2, ?_⟩
        intro _ open_
        cases open_
      · rw [if_neg large]
        refine ⟨rfl, ?_, fun stopped => absurd stopped exceeded⟩
        intro counted
        obtain ⟨content, position⟩ := Tempfile.write_end counted.position d
        refine ⟨position, ?_⟩
        intro limited _ _
        have within := not_lt.1 fun passed => large ⟨limited, passed⟩
        rw [Tempfile.tell, position] at within
        exact within

/-- Every call respects the limit. -/
theorem limited_callwise : Callwise Limited where
  refl := Limited.refl
  trans := Limited.trans
  write := writeBase64Data_limited
  leftover _ _ := Limited.of_same rfl rfl rfl
  mime _ _ _ := Limited.of_same rfl rfl rfl

/-! ### Runs -/

/-- Calls store no more than a limit and what one of them adds, and behind the limit nothing. -/
structure StopsAt (limit : ℚ) (state : WriteRequest) (calls : List Call) : Prop where
  bounded : ((state.calls calls).stored : ℚ) ≤ limit ∨
    ∃ front call rest, calls = front ++ call :: rest ∧
      ((state.calls front).stored : ℚ) ≤ limit ∧
      (state.calls calls).stored = (state.calls (front ++ [call])).stored
  stopped : ∀ front call rest, calls = front ++ call :: rest →
    limit < ((state.calls front).stored : ℚ) →
    (state.calls (front ++ [call])).stored = (state.calls front).stored

/-- Where nothing is stored behind the limit, only one call can pass it. -/
theorem stopsAt_of_stopped {limit : ℚ} {state : WriteRequest}
    (start : (state.stored : ℚ) ≤ limit) (calls : List Call)
    (stopped : ∀ front call rest, calls = front ++ call :: rest →
      limit < ((state.calls front).stored : ℚ) →
      (state.calls (front ++ [call])).stored = (state.calls front).stored) :
    StopsAt limit state calls := by
  refine ⟨?_, stopped⟩
  induction calls using List.reverseRecOn with
  | nil => exact Or.inl start
  | append_singleton calls call ih =>
    have before := ih fun front other rest split => stopped front other (rest ++ [call])
      (by rw [split, List.append_assoc, List.cons_append])
    by_cases within : ((state.calls calls).stored : ℚ) ≤ limit
    · exact Or.inr ⟨calls, call, [], rfl, within, rfl⟩
    · have same := stopped calls call [] rfl (not_le.1 within)
      cases before with
      | inl less => exact absurd less within
      | inr passed =>
        obtain ⟨front, other, rest, split, less, equal⟩ := passed
        refine Or.inr ⟨front, other, rest ++ [call], ?_, less, same.trans equal⟩
        rw [split, List.append_assoc, List.cons_append]

theorem make_counted (options : Options) (isPrimarySelection : Bool)
    (protocolType : ProtocolType) (id : String) (rolloverSize : Nat) (maxSize : ℚ) :
    Counted (WriteRequest.make options isPrimarySelection protocolType id rolloverSize
      maxSize) := by
  refine ⟨rfl, ?_⟩
  intro positive _ limited
  show ((0 : Nat) : ℚ) ≤ _
  rw [Nat.cast_zero]
  linarith

/-- Behind the limit that a request tests nothing is stored. -/
theorem call_stopped {state : WriteRequest} (counted : Counted state) (limited : 0 < state.maxSize)
    (passed : state.maxSize * 1024 * 1024 < (state.stored : ℚ)) (call : Call) :
    (state.call call).stored = state.stored := by
  have exceeded : state.maxSizeExceeded = true := by
    by_contra open_
    have within := counted.within limited (Bool.eq_false_iff.2 open_) limited
    exact absurd passed (not_lt.2 within)
  rw [WriteRequest.stored, ((limited_callwise.call state call).stopped exceeded).2,
    WriteRequest.stored]

/-- Three pieces of three bytes each. -/
def threePieces : List Call :=
  [.add (.str "QUJD".toList) "text/plain", .add (.str "QUJD".toList) "text/plain",
    .add (.str "QUJD".toList) "text/plain"]

end Clipboard

end Smelly
