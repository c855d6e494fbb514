/-
Module: Smelly.Proofs.ClipboardRecovery
Purpose: What becomes of a clipboard write behind one that was rejected: the request of the rejected
  code stays in flight, so a later write is set exactly if that request is still empty and for the
  same clipboard.
Trusted boundary: none
-/
import Smelly.Proofs.ClipboardLimit

namespace Smelly

namespace Clipboard

open FileTransmission (setItem)

/-! ### Escape codes -/

/-- The two fields of a write code, and whether more pieces of its text follow. -/
structure Osc52 where
  field : List Char
  text : List Char
  isPartial : Bool
deriving DecidableEq

/-- One code; an exception leaves the state as it is then. -/
def step (boss : Boss) (self : ClipboardRequestManager) (code : Osc52) :
    ClipboardRequestManager × Bool :=
  self.parseOsc52 boss code.field code.text code.isPartial

/-- The state behind codes. -/
def after (boss : Boss) (self : ClipboardRequestManager) (codes : List Osc52) :
    ClipboardRequestManager :=
  codes.foldl (fun self code => (step boss self code).1) self

/-- A complete write: the fields and texts of its partial codes and of the last one. -/
structure Write where
  opening : List (List Char × List Char)
  last : List Char × List Char

/-- The partial codes. -/
def partialCodes (opening : List (List Char × List Char)) : List Osc52 :=
  opening.map fun code => { field := code.1, text := code.2, isPartial := true }

/-- The codes of a write. -/
def Write.codes (self : Write) : List Osc52 :=
  partialCodes self.opening ++
    [{ field := self.last.1, text := self.last.2, isPartial := false }]

/-- The pieces of a write. -/
def Write.pieces (self : Write) : List Payload :=
  (self.opening ++ [self.last]).map fun code => .str code.2

/-- The field of the first code, which is the one that counts. -/
def Write.field (self : Write) : List Char :=
  match self.opening with
  | [] => self.last.1
  | first :: _ => first.1

/-- The clipboard that a write is for. -/
def Write.isPrimary (self : Write) : Bool :=
  isPrimaryWhere self.field

/-- The texts of a write code data. -/
def Write.WellFormed (self : Write) (data : List UInt8) : Prop :=
  ∃ text, joined self.pieces = some text ∧ EncodedAs data text

/-- The request that a code starts when none is in flight. -/
def newRequest (boss : Boss) (field : List Char) : WriteRequest :=
  WriteRequest.make boss.options (isPrimaryWhere field) .osc52 "" (16 * 1024 * 1024) (-1)

/-- The window is there, and the clipboard is enabled and may be written. -/
structure Granted (boss : Boss) (isPrimary : Bool) : Prop where
  window : boss.hasWindow = true
  enabled : boss.enabled isPrimary = true
  allowed : boss.options.clipboardControl.contains
    (if isPrimary then "write-primary" else "write-clipboard") = true

/-- Behind every rejected code, each complete write with well-formed text that is granted and below
the limit sets its clipboard to its data. -/
def Recovers (boss : Boss) (start : ClipboardRequestManager) (codes : List Osc52) : Prop :=
  ∀ (before : List Osc52) (rejected : Osc52) (write : Write) (rest : List Osc52)
    (data : List UInt8), codes = before ++ rejected :: (write.codes ++ rest) →
    (step boss (after boss start before) rejected).2 = false →
    write.WellFormed data → Granted boss write.isPrimary →
    (newRequest boss write.field).Below data.length →
    (after boss start (before ++ rejected :: write.codes)).dataOf write.isPrimary =
      [("text/plain", data)]

/-- No request is in flight, or one for the clipboard that has stored nothing and has nothing left
over. -/
def Clean (self : ClipboardRequestManager) (isPrimary : Bool) : Prop :=
  ∀ wr ∈ self.inFlightWriteRequest, wr.tempfile.content = [] ∧ wr.currentLeftoverBytes = [] ∧
    wr.isPrimarySelection = isPrimary

/-- Every rejected code leaves a clean state for the code behind it. -/
def CleanRejections (boss : Boss) (start : ClipboardRequestManager) (codes : List Osc52) : Prop :=
  ∀ (before : List Osc52) (rejected next : Osc52) (rest : List Osc52),
    codes = before ++ rejected :: next :: rest →
    (step boss (after boss start before) rejected).2 = false →
    Clean (after boss start (before ++ [rejected])) (isPrimaryWhere next.field)

/-! ### Requests of this protocol -/

/-- What no call changes, and that the position is at the end and the flag needs data. -/
structure Identity (state next : WriteRequest) : Prop where
  protocol : next.protocolType = state.protocolType
  primary : next.isPrimarySelection = state.isPrimarySelection
  aliases : next.aliases = state.aliases
  commited : next.commited = state.commited
  maxSize : next.maxSize = state.maxSize
  position : state.tempfile.position = state.tempfile.content.length →
    next.tempfile.position = next.tempfile.content.length
  flagged : state.tempfile.position = state.tempfile.content.length →
    (state.maxSizeExceeded = true → state.tempfile.content ≠ []) →
    next.maxSizeExceeded = true → next.tempfile.content ≠ []

theorem Identity.refl (state : WriteRequest) : Identity state state :=
  ⟨rfl, rfl, rfl, rfl, rfl, id, fun _ => id⟩

theorem Identity.trans {state next last : WriteRequest} (first : Identity state next)
    (second : Identity next last) : Identity state last where
  protocol := second.protocol.trans first.protocol
  primary := second.primary.trans first.primary
  aliases := second.aliases.trans first.aliases
  commited := second.commited.trans first.commited
  maxSize := second.maxSize.trans first.maxSize
  position atEnd := second.position (first.position atEnd)
  flagged atEnd flag := second.flagged (first.position atEnd) (first.flagged atEnd flag)

theorem identity_write (state : WriteRequest) (b : List UInt8) :
    Identity state (state.writeBase64Data b).1 := by
  unfold WriteRequest.writeBase64Data
  by_cases exceeded : state.maxSizeExceeded = true
  · rw [if_pos exceeded]
    exact Identity.refl state
  · rw [if_neg exceeded]
    cases decoded : a2bBase64 b with
    | none => exact Identity.refl state
    | some d =>
      dsimp only
      by_cases large : 0 < state.maxSize ∧
          state.maxSize * 1024 * 1024 < ((state.tempfile.write d).tell : ℚ)
      · rw [if_pos large]
        refine ⟨rfl, rfl, rfl, rfl, rfl, fun atEnd => (Tempfile.write_end atEnd d).2, ?_⟩
        intro atEnd _ _ empty
        have position := (Tempfile.write_end atEnd d).2
        obtain ⟨limited, passed⟩ := large
        rw [Tempfile.tell, position, empty, List.length_nil, Nat.cast_zero] at passed
        linarith
      · rw [if_neg large]
        exact ⟨rfl, rfl, rfl, rfl, rfl, fun atEnd => (Tempfile.write_end atEnd d).2,
          fun _ _ stopped => absurd stopped exceeded⟩

theorem identity_callwise : Callwise Identity where
  refl := Identity.refl
  trans := Identity.trans
  write := identity_write
  leftover _ _ := ⟨rfl, rfl, rfl, rfl, rfl, id, fun _ => id⟩
  mime _ _ _ := ⟨rfl, rfl, rfl, rfl, rfl, id, fun _ => id⟩

/-- What no piece of the current MIME type changes. -/
def SameMime (state next : WriteRequest) : Prop :=
  next.currentlyWritingMime = state.currentlyWritingMime ∧ next.mimeMap = state.mimeMap

theorem sameMime_piecewise : Piecewise SameMime where
  refl _ := ⟨rfl, rfl⟩
  trans first second := ⟨second.1.trans first.1, second.2.trans first.2⟩
  write state b := by
    unfold WriteRequest.writeBase64Data
    by_cases exceeded : state.maxSizeExceeded = true
    · rw [if_pos exceeded]
      exact ⟨rfl, rfl⟩
    · rw [if_neg exceeded]
      cases a2bBase64 b with
      | none => exact ⟨rfl, rfl⟩
      | some d =>
        dsimp only
        by_cases large : 0 < state.maxSize ∧
            state.maxSize * 1024 * 1024 < ((state.tempfile.write d).tell : ℚ)
        · rw [if_pos large]
          exact ⟨rfl, rfl⟩
        · rw [if_neg large]
          exact ⟨rfl, rfl⟩
  leftover _ _ := ⟨rfl, rfl⟩

/-- A request of OSC 52 codes, at any time before its last flush. -/
structure OscRequest (boss : Boss) (state : WriteRequest) : Prop where
  protocol : state.protocolType = .osc52
  aliases : state.aliases = []
  commited : state.commited = false
  maxSize : state.maxSize = (newRequest boss []).maxSize
  position : state.tempfile.position = state.tempfile.content.length
  flagged : state.maxSizeExceeded = true → state.tempfile.content ≠ []
  mime : (state.currentlyWritingMime = "" ∧ state.mimeMap = [] ∧ state.tempfile.content = []) ∨
    (state.currentlyWritingMime = "text/plain" ∧
      state.mimeMap = [("text/plain", { start := 0, size := -1 })])

theorem newRequest_oscRequest (boss : Boss) (field : List Char) :
    OscRequest boss (newRequest boss field) :=
  ⟨rfl, rfl, rfl, rfl, rfl, (fun exceeded => nomatch exceeded), Or.inl ⟨rfl, rfl, rfl⟩⟩

theorem startMime_idle {state : WriteRequest} {mime : String}
    (idle : state.currentlyWritingMime = "") :
    state.startMime mime = ({ state with
      mimeMap := setItem state.mimeMap mime { start := state.tempfile.tell, size := -1 }
      currentlyWritingMime := mime }, true) := by
  rw [WriteRequest.startMime, if_neg (fun busy => busy.1 idle), andThen, if_pos rfl, if_pos idle]

/-- A piece keeps a request of this protocol. -/
theorem OscRequest.addBase64Data {boss : Boss} {state : WriteRequest}
    (request : OscRequest boss state) (data : Payload) :
    OscRequest boss (state.addBase64Data data "text/plain").1 := by
  have same := identity_callwise.addBase64Data state data "text/plain"
  have mime : (state.addBase64Data data "text/plain").1 = state ∨
      ((state.addBase64Data data "text/plain").1.currentlyWritingMime = "text/plain" ∧
        (state.addBase64Data data "text/plain").1.mimeMap =
          [("text/plain", { start := 0, size := -1 })]) := by
    unfold WriteRequest.addBase64Data
    cases data.encode with
    | none => exact Or.inl rfl
    | some bytes =>
      right
      cases request.mime with
      | inl idle =>
        obtain ⟨none, empty, content⟩ := idle
        have tell : state.tempfile.tell = 0 := by
          rw [Tempfile.tell, request.position, content, List.length_nil]
        rw [startMime_idle none, empty, tell]
        exact sameMime_piecewise.addBytes _ bytes
      | inr busy =>
        rw [startMime_current (by decide) busy.1]
        obtain ⟨current, places⟩ := sameMime_piecewise.addBytes state bytes
        exact ⟨current.trans busy.1, places.trans busy.2⟩
  refine ⟨same.protocol.trans request.protocol, same.aliases.trans request.aliases,
    same.commited.trans request.commited, same.maxSize.trans request.maxSize,
    same.position request.position, same.flagged request.position request.flagged, ?_⟩
  cases mime with
  | inl unchanged =>
    rw [unchanged]
    exact request.mime
  | inr started => exact Or.inr started

/-! ### Runs -/

/-- The request that a code writes to. -/
def ClipboardRequestManager.request (boss : Boss) (self : ClipboardRequestManager)
    (field : List Char) : WriteRequest :=
  self.inFlightWriteRequest.getD (newRequest boss field)

/-- Whatever is in flight is a request of this protocol. -/
def Flying (boss : Boss) (self : ClipboardRequestManager) : Prop :=
  ∀ wr ∈ self.inFlightWriteRequest, OscRequest boss wr

theorem Flying.request {boss : Boss} {self : ClipboardRequestManager} (flying : Flying boss self)
    (field : List Char) : OscRequest boss (self.request boss field) := by
  unfold ClipboardRequestManager.request
  cases inFlight : self.inFlightWriteRequest with
  | none => exact newRequest_oscRequest boss field
  | some wr => exact flying wr inFlight

theorem setMime_inFlight (self : ClipboardRequestManager) (isPrimary : Bool)
    (data : List (String × List UInt8)) :
    (self.setMime isPrimary data).inFlightWriteRequest = self.inFlightWriteRequest := by
  cases isPrimary <;> rfl

theorem commit_inFlight (boss : Boss) (self : ClipboardRequestManager) (wr : WriteRequest) :
    (self.commit boss wr).inFlightWriteRequest = self.inFlightWriteRequest := by
  unfold ClipboardRequestManager.commit
  by_cases commited : wr.commited = true
  · rw [if_pos commited]
  · rw [if_neg commited]
    by_cases enabled : boss.enabled wr.isPrimarySelection = true
    · rw [if_pos enabled, setMime_inFlight]
    · rw [if_neg enabled]

/-- The end of a write leaves nothing in flight where nothing was. -/
theorem handleWriteRequest_inFlight {boss : Boss} {self : ClipboardRequestManager}
    (none : self.inFlightWriteRequest = none) (wr : WriteRequest) :
    (self.handleWriteRequest boss wr).1.inFlightWriteRequest = Option.none := by
  unfold ClipboardRequestManager.handleWriteRequest
  obtain ⟨flushed, returns⟩ := wr.flushBase64Data
  cases returns with
  | false => exact none
  | true =>
    show (self.fulfillWriteRequest boss flushed _).inFlightWriteRequest = _
    unfold ClipboardRequestManager.fulfillWriteRequest
    cases flushed.protocolType with
    | osc52 =>
      dsimp only
      split_ifs
      · rw [commit_inFlight, none]
      · exact none
    | osc5522 =>
      dsimp only
      split_ifs
      · rfl
      · exact none

/-- Every code leaves a request of this protocol in flight, or none. -/
theorem step_flying {boss : Boss} {self : ClipboardRequestManager} (flying : Flying boss self)
    (code : Osc52) : Flying boss (step boss self code).1 := by
  have request := flying.request code.field
  have added := request.addBase64Data (.str code.text)
  unfold step ClipboardRequestManager.parseOsc52
  by_cases query : code.text = ['?']
  · rw [if_pos query]
    exact flying
  · rw [if_neg query]
    have kept (wr : WriteRequest) (returns : Bool)
        (result : (self.request boss code.field).addBase64Data (.str code.text) "text/plain" =
          (wr, returns)) : Flying boss { self with inFlightWriteRequest := some wr } := by
      rw [result] at added
      intro other same
      cases Option.mem_some_iff.1 same
      exact added
    dsimp only
    split
    · next wr result => exact kept wr false result
    · next wr result =>
      by_cases more : code.isPartial = true
      · rw [if_pos more]
        exact kept wr true result
      · rw [if_neg more]
        intro other same
        rw [handleWriteRequest_inFlight rfl] at same
        cases same

/-- Every run leaves a request of this protocol in flight, or none. -/
theorem after_flying {boss : Boss} (codes : List Osc52) :
    ∀ {self : ClipboardRequestManager}, Flying boss self → Flying boss (after boss self codes) := by
  induction codes with
  | nil => exact fun flying => flying
  | cons code codes ih => exact fun flying => ih (step_flying flying code)

theorem after_append (boss : Boss) (self : ClipboardRequestManager) (codes more : List Osc52) :
    after boss self (codes ++ more) = after boss (after boss self codes) more :=
  List.foldl_append

/-! ### A write on an empty request -/

/-- The chunks of a range that lies in the file join to the range. -/
theorem Tempfile.chunks_eq (self : Tempfile) (rounds : Nat) :
    ∀ pos size : Nat, size ≤ rounds → pos + size ≤ self.content.length →
      self.chunks rounds pos (pos + size : Nat) = FileBytes.read self.content pos size := by
  induction rounds with
  | zero =>
    intro pos size enough _
    have empty : size = 0 := by omega
    rw [empty]
    rfl
  | succ rounds ih =>
    intro pos size enough within
    by_cases empty : size = 0
    · subst empty
      rw [Tempfile.chunks, if_pos (by omega), FileBytes.read_zero]
    · have bytes : (min 8192 (((pos + size : Nat) : Int) - pos)).toNat = min 8192 size := by
        omega
      have fetched : self.read pos (min 8192 (((pos + size : Nat) : Int) - pos)) =
          FileBytes.read self.content pos (min 8192 size) := by
        rw [Tempfile.read, if_neg (by omega), bytes]
      have length : (FileBytes.read self.content pos (min 8192 size)).length =
          min 8192 size := by
        rw [FileBytes.length_read]
        omega
      rw [Tempfile.chunks, if_neg (by omega), fetched]
      cases chunk : FileBytes.read self.content pos (min 8192 size) with
      | nil =>
        rw [chunk, List.length_nil] at length
        omega
      | cons b more =>
        rw [chunk, List.length_cons] at length
        have rest := ih (pos + (more.length + 1)) (size - (more.length + 1)) (by omega)
          (by omega)
        have ends : pos + (more.length + 1) + (size - (more.length + 1)) = pos + size := by
          omega
        rw [ends] at rest
        dsimp only
        have whole : size = min 8192 size + (size - (more.length + 1)) := by omega
        rw [rest, whole, FileBytes.read_add, chunk, ← length]
        congr 2
        omega

/-- What a request with the data of `text/plain` is committed as. -/
theorem Stored.committedData {total : Nat} {data : List UInt8} {state : WriteRequest}
    (stored : Stored total [("text/plain", data)] state) (aliases : state.aliases = []) :
    state.committedData = [("text/plain", data)] := by
  have content : state.tempfile.content = data := by
    rw [stored.content, List.flatMap_singleton]
  have chunks := state.tempfile.chunks_eq data.length 0 data.length
    (Nat.le_refl _) (by rw [content]; omega)
  rw [Nat.zero_add, content, FileBytes.read_all data (Nat.le_refl _)] at chunks
  rw [WriteRequest.committedData, WriteRequest.committedMap, aliases, List.foldl_nil,
    stored.places]
  simp only [placesOf, List.map_cons, List.map_nil, Tempfile.createChunker, Int.toNat_natCast,
    Nat.cast_zero, Int.zero_add]
  rw [chunks]

/-- The pieces of a write on an empty request leave its data. -/
theorem addPieces_empty {boss : Boss} {state : WriteRequest} (request : OscRequest boss state)
    (empty : state.tempfile.content = []) (nothing : state.currentLeftoverBytes = [])
    {data text : List UInt8} {pieces : List Payload} (filled : pieces ≠ [])
    (join : joined pieces = some text) (encoded : EncodedAs data text)
    (below : state.Below data.length) :
    ∃ next final, addPieces "text/plain" pieces state = (next, true) ∧
      next.flushBase64Data = (final, true) ∧
      Stored data.length [("text/plain", data)] final := by
  have named : "text/plain" ≠ "" := by decide
  have room : state.maxSizeExceeded = false := by
    rw [Bool.eq_false_iff]
    intro exceeded
    exact request.flagged exceeded empty
  cases request.mime with
  | inl idle =>
    have stored : Stored data.length [] state :=
      ⟨empty, request.position, idle.1, nothing, room, idle.2.1, below⟩
    have settles : Settles data.length [] state := by
      refine ⟨⟨state, ?_, stored⟩, Or.inl idle.1⟩
      rw [WriteRequest.flushBase64Data, if_pos idle.1]
    obtain ⟨next, added, settled⟩ := addPieces_settles settles named (by simp) join
      encoded filled (Nat.le_of_eq (Nat.zero_add _))
    obtain ⟨final, flush, stored'⟩ := settled.flush
    exact ⟨next, final, added, flush, stored'⟩
  | inr busy =>
    have writing : Writing data.length [] "text/plain" data 0 state := by
      refine ⟨⟨⟨empty, request.position, room, ?_⟩, nothing, by decide⟩, busy.1, busy.2, below⟩
      rw [List.flatMap_nil, List.length_nil, Nat.zero_add]
      exact below
    obtain ⟨padding, few, whole⟩ := encoded
    have length := congrArg List.length whole
    rw [List.length_append] at length
    obtain ⟨next, added, final⟩ := addPieces_writing named pieces writing join
      ⟨List.replicate padding 0x3d, whole.symm⟩ (by omega)
    rw [Nat.zero_add] at final
    obtain ⟨flushed, flush, stored⟩ := final.flush ⟨padding, few, whole⟩ named (by simp)
    exact ⟨next, flushed, added, flush, stored⟩

/-! ### The codes of a write -/

theorem addPieces_identity (pieces : List Payload) :
    ∀ state : WriteRequest, Identity state (addPieces "text/plain" pieces state).1 := by
  induction pieces with
  | nil => exact Identity.refl
  | cons piece pieces ih =>
    intro state
    exact identity_callwise.andThen (identity_callwise.addBase64Data state piece "text/plain") ih

/-- Pieces up to an exception, one by one. -/
theorem addPieces_cons {mime : String} {piece : Payload} {pieces : List Payload}
    {state last : WriteRequest} (added : addPieces mime (piece :: pieces) state = (last, true)) :
    ∃ next, state.addBase64Data piece mime = (next, true) ∧
      addPieces mime pieces next = (last, true) := by
  rw [addPieces] at added
  cases first : state.addBase64Data piece mime with
  | mk next returns =>
    rw [first] at added
    cases returns with
    | false => cases added
    | true => exact ⟨next, rfl, added⟩

/-- A code whose piece goes in without an exception. -/
theorem parse_added (boss : Boss) (self : ClipboardRequestManager) {field text : List Char}
    {next : WriteRequest} (plain : text ≠ ['?']) (added : (self.request boss field).addBase64Data
      (.str text) "text/plain" = (next, true)) (isPartial : Bool) :
    self.parseOsc52 boss field text isPartial =
      if isPartial then ({ self with inFlightWriteRequest := some next }, true)
      else { self with inFlightWriteRequest := none }.handleWriteRequest boss next := by
  unfold ClipboardRequestManager.request newRequest at added
  unfold ClipboardRequestManager.parseOsc52
  rw [if_neg plain]
  dsimp only
  rw [added]

/-- The partial codes of a write put its pieces into the request. -/
theorem after_partialCodes (boss : Boss) (opening : List (List Char × List Char)) :
    ∀ (self : ClipboardRequestManager) {state next : WriteRequest} {more : List Payload},
      (∀ code ∈ opening, code.2 ≠ ['?']) → self.inFlightWriteRequest = some state →
      addPieces "text/plain" ((opening.map fun code => Payload.str code.2) ++ more) state =
        (next, true) →
      ∃ mid, after boss self (partialCodes opening) =
          { self with inFlightWriteRequest := some mid } ∧
        addPieces "text/plain" more mid = (next, true) := by
  induction opening with
  | nil =>
    intro self state next more _ flying added
    refine ⟨state, ?_, added⟩
    rw [← flying]
    rfl
  | cons code opening ih =>
    intro self state next more plain flying added
    obtain ⟨first, one, others⟩ := addPieces_cons added
    have request : self.request boss code.1 = state := by
      rw [ClipboardRequestManager.request, flying]
      rfl
    rw [← request] at one
    have parsed := parse_added boss self (plain code List.mem_cons_self) one true
    obtain ⟨mid, rest, last⟩ := ih { self with inFlightWriteRequest := some first }
      (fun other member => plain other (List.mem_cons_of_mem code member)) rfl others
    refine ⟨mid, ?_, last⟩
    have stepped : (step boss self { field := code.1, text := code.2, isPartial := true }).1 =
        { self with inFlightWriteRequest := some first } := by
      rw [step, parsed]
      rfl
    show after boss (step boss self _).1 (partialCodes opening) = _
    rw [stepped, rest]

/-- The first code of a write makes the request that is in flight. -/
theorem after_request {boss : Boss} (self : ClipboardRequestManager) {code : Osc52}
    (plain : code.text ≠ ['?']) (codes : List Osc52) :
    after boss self (code :: codes) = after boss
      { self with inFlightWriteRequest := some (self.request boss code.field) }
      (code :: codes) := by
  have same : step boss self code = step boss
      { self with inFlightWriteRequest := some (self.request boss code.field) } code := by
    unfold step ClipboardRequestManager.parseOsc52
    rw [if_neg plain, if_neg plain]
    rfl
  show after boss (step boss self code).1 codes = after boss (step boss _ code).1 codes
  rw [same]

/-- No piece of a text that codes data is a question mark. -/
theorem question_not_mem (data : List UInt8) : (63 : UInt8) ∉ codeBytes data := by
  intro member
  obtain ⟨c, among, same⟩ := List.mem_map.1 member
  cases Base64.mem_encode among with
  | inl letter =>
    obtain ⟨n, small, rfl⟩ := letter
    have checked : ∀ n : Fin 64, UInt8.ofNat (Base64.sextet n).toNat ≠ 63 := by decide
    exact checked ⟨n, small⟩ same
  | inr padding =>
    subst padding
    exact absurd same (by decide)

theorem joined_mem {pieces : List Payload} {piece : Payload} {bytes : List UInt8} :
    ∀ {text : List UInt8}, joined pieces = some text → piece ∈ pieces →
      piece.encode = some bytes → ∀ b ∈ bytes, b ∈ text := by
  induction pieces with
  | nil =>
    intro text _ member
    cases member
  | cons first pieces ih =>
    intro text join member coded b among
    obtain ⟨one, rest, coded', join', rfl⟩ := joined_cons join
    cases List.mem_cons.1 member with
    | inl same =>
      rw [same, coded'] at coded
      cases coded
      exact List.mem_append_left _ among
    | inr later => exact List.mem_append_right _ (ih join' later coded b among)

/-- No code of a well-formed write is a read request. -/
theorem Write.WellFormed.plain {write : Write} {data : List UInt8}
    (wellFormed : write.WellFormed data) :
    ∀ code ∈ write.opening ++ [write.last], code.2 ≠ ['?'] := by
  obtain ⟨text, join, padding, -, whole⟩ := wellFormed
  intro code member query
  have piece : Payload.str code.2 ∈ write.pieces := List.mem_map_of_mem member
  have coded : (Payload.str code.2).encode = some [63] := by
    rw [query]
    decide
  have inText := joined_mem join piece coded 63 (List.mem_singleton_self 63)
  apply question_not_mem data
  rw [← whole]
  exact List.mem_append_left _ inText

/-- A granted request with the data of `text/plain` sets its clipboard. -/
theorem handleWriteRequest_sets {boss : Boss} {self : ClipboardRequestManager}
    {wr final : WriteRequest} {total : Nat} {data : List UInt8}
    (flush : wr.flushBase64Data = (final, true))
    (stored : Stored total [("text/plain", data)] final) (protocol : final.protocolType = .osc52)
    (aliases : final.aliases = []) (commited : final.commited = false)
    (granted : Granted boss final.isPrimarySelection) :
    (self.handleWriteRequest boss wr).1.dataOf final.isPrimarySelection =
      [("text/plain", data)] := by
  have allowed : boss.options.clipboardControl.contains final.permission = true := granted.allowed
  unfold ClipboardRequestManager.handleWriteRequest
  rw [flush]
  show (self.fulfillWriteRequest boss final _).dataOf _ = _
  rw [allowed]
  unfold ClipboardRequestManager.fulfillWriteRequest
  rw [protocol]
  rw [granted.window, granted.enabled]
  unfold ClipboardRequestManager.commit
  rw [commited, if_pos granted.enabled, stored.committedData aliases]
  cases final.isPrimarySelection <;> rfl

/-- In a clean state, a well-formed write that is granted sets its clipboard to its data. -/
theorem write_sets {boss : Boss} {self : ClipboardRequestManager} (flying : Flying boss self)
    {write : Write} {data : List UInt8} (clean : Clean self write.isPrimary)
    (wellFormed : write.WellFormed data) (granted : Granted boss write.isPrimary)
    (below : (newRequest boss write.field).Below data.length) :
    (after boss self write.codes).dataOf write.isPrimary = [("text/plain", data)] := by
  have request := flying.request write.field
  have plain := wellFormed.plain
  have fresh : (self.request boss write.field).tempfile.content = [] ∧
      (self.request boss write.field).currentLeftoverBytes = [] ∧
      (self.request boss write.field).isPrimarySelection = write.isPrimary := by
    unfold ClipboardRequestManager.request
    cases inFlight : self.inFlightWriteRequest with
    | none => exact ⟨rfl, rfl, rfl⟩
    | some wr => exact clean wr inFlight
  obtain ⟨empty, nothing, primary⟩ := fresh
  have below' : (self.request boss write.field).Below data.length := by
    unfold WriteRequest.Below
    rw [request.maxSize]
    exact below
  obtain ⟨text, join, encoded⟩ := wellFormed
  have filled : write.pieces ≠ [] := by simp [Write.pieces]
  obtain ⟨next, final, added, flush, stored⟩ :=
    addPieces_empty request empty nothing filled join encoded below'
  have same : Identity (self.request boss write.field) final := by
    have pieces := addPieces_identity write.pieces (self.request boss write.field)
    have flushed := identity_callwise.flushBase64Data next
    rw [added] at pieces
    rw [flush] at flushed
    exact pieces.trans flushed
  have primary' : final.isPrimarySelection = write.isPrimary := same.primary.trans primary
  rw [Write.pieces, List.map_append] at added
  obtain ⟨mid, opened, last⟩ := after_partialCodes boss write.opening
    { self with inFlightWriteRequest := some (self.request boss write.field) }
    (fun code member => plain code (List.mem_append_left _ member)) rfl added
  have start : after boss self write.codes = after boss
      { self with inFlightWriteRequest := some (self.request boss write.field) } write.codes := by
    unfold Write.codes Write.field
    cases opening : write.opening with
    | nil => exact after_request self (plain write.last (by simp)) _
    | cons code rest => exact after_request self (plain code (by simp [opening])) _
  obtain ⟨done, one, none⟩ := addPieces_cons last
  cases none
  have parsed := @parse_added boss { self with inFlightWriteRequest := some mid } write.last.1
    write.last.2 next (plain write.last (by simp)) one false
  rw [start, Write.codes, after_append, opened]
  show (step boss _ _).1.dataOf _ = _
  rw [step, parsed, ← primary']
  apply handleWriteRequest_sets flush stored (same.protocol.trans request.protocol)
    (same.aliases.trans request.aliases) (same.commited.trans request.commited)
  rw [primary']
  exact granted

/-- A window that may write to the clipboard. -/
def writingBoss : Boss :=
  { options := { clipboardMaxSize := 512, clipboardControl := ["write-clipboard"] }
    hasWindow := true, supportsPrimarySelection := true }

/-- The first write is rejected at its second piece; the second write has the text for `DEF`. -/
def carriedCodes : List Osc52 :=
  [{ field := ['c'], text := "QUJD".toList, isPartial := true },
    { field := [], text := "A!!!".toList, isPartial := false },
    { field := ['c'], text := "REVG".toList, isPartial := false }]

/-- A write that is rejected at its first piece, and one that follows. -/
def droppedCodes : List Osc52 :=
  [{ field := ['c'], text := "A!!!".toList, isPartial := false },
    { field := ['c'], text := "REVG".toList, isPartial := false }]

end Clipboard

end Smelly
