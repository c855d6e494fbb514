/-
Module: Smelly.Proofs.SentFiles
Purpose: What a send session gives its child: for every requested file one block of data commands,
  in the order of the requests, whatever the compressor does and whichever writes are refused.
Trusted boundary: none
-/
import Smelly.Core.FileSending
import Mathlib.Data.List.Chain
import Mathlib.Data.List.Nodup
import Mathlib.Data.List.Forall2

namespace Smelly

namespace FileSending

open FileTransmission (Action Compression Failure splitForTransfer splitRounds setItem)

variable {σ : Type} (z : Zlib σ)

/-! ### Blocks -/

/-- The outputs of a compressor that is given pieces, with the flush behind the last. -/
def Compressor.stream : Compressor σ → List (List UInt8) → List UInt8
  | c, [] => c.flush z
  | c, piece :: pieces => (c.compress z piece).2 ++ (c.compress z piece).1.stream pieces

/-- What a new compression object makes of pieces. -/
def Zlib.deflate (pieces : List (List UInt8)) : List UInt8 :=
  (Compressor.zlib z.compressobj).stream z pieces

/-- `payload` is the content as the compression of the request has it. -/
def Carries : Compression → List UInt8 → List UInt8 → Prop
  | .none, content, payload => payload = content
  | .zlib, content, payload =>
    ∃ pieces : List (List UInt8), pieces.flatten = content ∧ payload = z.deflate pieces

/-- Commands that end in the only `end_data` among them. -/
def EndsOnce (block : List FileTransmission.Command) : Prop :=
  ∃ front last, block = front ++ [last] ∧ (∀ ftc ∈ front, ftc.action = Action.data) ∧
    last.action = Action.endData

/-- `block` sends the requested file. -/
structure SentAs (id : String) (request : FileTransmission.Command × Inode)
    (block : List FileTransmission.Command) : Prop where
  ends : EndsOnce block
  owner : ∀ ftc ∈ block, ftc.fileId = request.1.fileId ∧ ftc.id = id
  small : ∀ ftc ∈ block, ftc.data.length ≤ 4096
  payload : ∃ content, request.2 = Inode.regular content ∧
    Carries z request.1.compression content (block.flatMap (·.data))

/-! ### Pieces of a chunk -/

/-- Pieces of some bytes, for one file, no larger than a chunk. -/
structure PiecesOf (fileId : String) (data : List UInt8)
    (pieces : List FileTransmission.Command) : Prop where
  owner : ∀ ftc ∈ pieces, ftc.fileId = fileId
  small : ∀ ftc ∈ pieces, ftc.data.length ≤ 4096
  whole : pieces.flatMap (·.data) = data

theorem splitRounds_nil (sessionId fileId : String) (markLast : Bool) (rounds : Nat) :
    splitRounds sessionId fileId markLast rounds [] = [] := by
  cases rounds <;> rfl

theorem splitRounds_pieces (sessionId fileId : String) (markLast : Bool) (rounds : Nat) :
    ∀ data : List UInt8, data.length ≤ rounds →
      PiecesOf fileId data (splitRounds sessionId fileId markLast rounds data) := by
  induction rounds with
  | zero =>
    intro data short
    have empty : data = [] := List.length_eq_zero_iff.1 (Nat.le_zero.1 short)
    subst empty
    constructor <;> simp [splitRounds]
  | succ rounds ih =>
    intro data short
    by_cases empty : data = []
    · subst empty
      constructor <;> simp [splitRounds]
    · have rest := ih (data.drop 4096) (by rw [List.length_drop]; omega)
      simp only [splitRounds, if_neg empty]
      constructor
      · intro ftc member
        cases List.mem_cons.1 member with
        | inl first => rw [first]
        | inr later => exact rest.owner ftc later
      · intro ftc member
        cases List.mem_cons.1 member with
        | inl first =>
          rw [first]
          exact List.length_take_le 4096 data
        | inr later => exact rest.small ftc later
      · rw [List.flatMap_cons, rest.whole]
        exact List.take_append_drop 4096 data

theorem splitRounds_data (sessionId fileId : String) (rounds : Nat) :
    ∀ data : List UInt8, ∀ ftc ∈ splitRounds sessionId fileId false rounds data,
      ftc.action = Action.data := by
  induction rounds with
  | zero =>
    intro data ftc member
    cases member
  | succ rounds ih =>
    intro data ftc member
    by_cases empty : data = []
    · simp [splitRounds, empty] at member
    · simp only [splitRounds, if_neg empty] at member
      cases List.mem_cons.1 member with
      | inl first => simp [first]
      | inr later => exact ih _ ftc later

theorem splitRounds_ends (sessionId fileId : String) (rounds : Nat) :
    ∀ data : List UInt8, data ≠ [] → data.length ≤ rounds →
      EndsOnce (splitRounds sessionId fileId true rounds data) := by
  induction rounds with
  | zero =>
    intro data filled short
    exact absurd (List.length_eq_zero_iff.1 (Nat.le_zero.1 short)) filled
  | succ rounds ih =>
    intro data filled short
    simp only [splitRounds, if_neg filled]
    by_cases fits : data.length ≤ 4096
    · have beyond : data.drop 4096 = [] := List.drop_eq_nil_of_le fits
      rw [beyond, splitRounds_nil]
      refine ⟨[], _, rfl, by simp, ?_⟩
      simp [fits]
    · have more : data.drop 4096 ≠ [] := by
        intro beyond
        exact fits (List.drop_eq_nil_iff.1 beyond)
      obtain ⟨front, last, shape, plain, final⟩ := ih (data.drop 4096) more
        (by rw [List.length_drop]; omega)
      rw [shape]
      refine ⟨_ :: front, last, rfl, ?_, final⟩
      intro ftc member
      cases List.mem_cons.1 member with
      | inl first => simp [first, fits]
      | inr later => exact plain ftc later

theorem splitForTransfer_pieces (sessionId fileId : String) (markLast : Bool)
    (data : List UInt8) :
    PiecesOf fileId data (splitForTransfer data sessionId fileId markLast) :=
  splitRounds_pieces sessionId fileId markLast data.length data (Nat.le_refl _)

theorem splitForTransfer_eq_nil (sessionId fileId : String) (markLast : Bool)
    (data : List UInt8) :
    splitForTransfer data sessionId fileId markLast = [] ↔ data = [] := by
  constructor
  · intro none
    have whole := (splitForTransfer_pieces sessionId fileId markLast data).whole
    rw [none] at whole
    exact whole.symm
  · intro empty
    subst empty
    rfl

/-! ### One file -/

/-- A regular file of which a front has been read. -/
structure Reading (content : List UInt8) (af : SourceFile σ) : Prop where
  target : af.target = []
  opened : af.openFile = some content
  simple : af.deltaLoader = none
  ready : af.waitingForSignature = false
  going : af.transmitted = false
  size : af.size = content.length
  within : af.position ≤ content.length

theorem Reading.readyToTransmit {content : List UInt8} {af : SourceFile σ}
    (reading : Reading content af) : af.readyToTransmit = true := by
  simp [SourceFile.readyToTransmit, reading.going, reading.ready]

/-- The last read of a file: its chunk is what the compressor makes of the rest and of the end. -/
structure LastChunk (content : List UInt8) (af next : SourceFile σ) (chunk : List UInt8) :
    Prop where
  transmitted : next.transmitted = true
  fileId : next.fileId = af.fileId
  chunk : chunk = af.compressor.stream z [content.drop af.position]

/-- A read that leaves something for the next. -/
structure InnerChunk (content : List UInt8) (af next : SourceFile σ) (chunk : List UInt8) :
    Prop where
  reading : Reading content next
  fileId : next.fileId = af.fileId
  further : af.position < next.position
  data : ∃ piece, content.drop af.position = piece ++ content.drop next.position ∧
    af.compressor.compress z piece = (next.compressor, chunk)

/-- A read is the last one or leaves something. -/
theorem nextChunk_cases {content : List UInt8} {af : SourceFile σ} (reading : Reading content af)
    (sz : Nat) (positive : 0 < sz) :
    LastChunk z content af (af.nextChunk z sz).1 (af.nextChunk z sz).2 ∨
      InnerChunk z content af (af.nextChunk z sz).1 (af.nextChunk z sz).2 := by
  have fetched : af.fetch sz =
      ({ af with position := af.position + ((content.drop af.position).take sz).length
                 transmitted := decide ((content.drop af.position).take sz = [] ∨ content.length ≤
                   af.position + ((content.drop af.position).take sz).length) },
        (content.drop af.position).take sz) := by
    simp [SourceFile.fetch, reading.target, reading.opened, reading.simple, reading.going,
      reading.size]
  by_cases last : (content.drop af.position).take sz = [] ∨
      content.length ≤ af.position + ((content.drop af.position).take sz).length
  · left
    have rest : (content.drop af.position).take sz = content.drop af.position := by
      apply List.take_of_length_le
      rw [List.length_drop]
      cases last with
      | inl empty =>
        have none := congrArg List.length empty
        rw [List.length_take, List.length_drop, List.length_nil] at none
        omega
      | inr reached =>
        rw [List.length_take] at reached
        omega
    have outcome : af.nextChunk z sz =
        (({ af with position := af.position + ((content.drop af.position).take sz).length
                    transmitted := true
                    compressor := (af.compressor.compress z (content.drop af.position)).1 }
            : SourceFile σ).close,
          (af.compressor.compress z (content.drop af.position)).2 ++
            (af.compressor.compress z (content.drop af.position)).1.flush z) := by
      rw [SourceFile.nextChunk, fetched, decide_eq_true last]
      simp [rest]
    rw [outcome]
    exact ⟨rfl, rfl, rfl⟩
  · right
    have outcome : af.nextChunk z sz =
        ({ af with position := af.position + ((content.drop af.position).take sz).length
                   transmitted := false
                   compressor :=
                    (af.compressor.compress z ((content.drop af.position).take sz)).1 },
          (af.compressor.compress z ((content.drop af.position).take sz)).2) := by
      rw [SourceFile.nextChunk, fetched, decide_eq_false last]
      simp
    rw [not_or] at last
    have short : af.position + ((content.drop af.position).take sz).length < content.length :=
      Nat.lt_of_not_le last.2
    have length := List.length_take (i := sz) (l := content.drop af.position)
    rw [List.length_drop] at length
    have full : ((content.drop af.position).take sz).length = sz := by omega
    rw [outcome]
    constructor
    · exact ⟨reading.target, reading.opened, reading.simple, reading.ready, rfl, reading.size,
        Nat.le_of_lt short⟩
    · rfl
    · show af.position < af.position + ((content.drop af.position).take sz).length
      omega
    · refine ⟨(content.drop af.position).take sz, ?_, rfl⟩
      rw [full, ← List.drop_drop]
      exact (List.take_append_drop sz _).symm

/-- The commands that a file still gives, with the rounds still possible. -/
def SourceFile.dueRounds : Nat → SourceFile σ → List FileTransmission.Command
  | 0, _ => []
  | rounds + 1, af =>
    let (next, chunk) := af.nextChunk z 1048576
    if next.transmitted then
      if chunk = [] then [{ action := .endData, fileId := af.fileId }]
      else splitForTransfer chunk "" af.fileId true
    else splitForTransfer chunk "" af.fileId false ++ SourceFile.dueRounds rounds next

/-- The commands that a file still gives. -/
def SourceFile.due (af : SourceFile σ) : List FileTransmission.Command :=
  af.dueRounds z af.reads

theorem Reading.reads {content : List UInt8} {af : SourceFile σ} (reading : Reading content af) :
    af.reads = content.length - af.position + 1 := by
  simp [SourceFile.reads, reading.simple, reading.size]

/-- More rounds than reads change nothing. -/
theorem dueRounds_enough {content : List UInt8} (rounds : Nat) :
    ∀ {af : SourceFile σ}, Reading content af → ∀ more : Nat, af.reads ≤ rounds →
      af.reads ≤ more → af.dueRounds z rounds = af.dueRounds z more := by
  induction rounds with
  | zero =>
    intro af reading more enough _
    rw [reading.reads] at enough
    omega
  | succ rounds ih =>
    intro af reading more enough enough'
    cases more with
    | zero =>
      rw [reading.reads] at enough'
      omega
    | succ more =>
      cases nextChunk_cases z reading 1048576 (by decide) with
      | inl last => simp only [SourceFile.dueRounds, last.transmitted, if_true]
      | inr inner =>
        have further := inner.further
        have within := inner.reading.within
        have reads := inner.reading.reads
        rw [reading.reads] at enough enough'
        have same := ih inner.reading more (by omega) (by omega)
        simp [SourceFile.dueRounds, same]

/-- The last read leaves its pieces, or an empty `end_data`. -/
theorem due_last {content : List UInt8} {af : SourceFile σ} (reading : Reading content af)
    (last : LastChunk z content af (af.nextChunk z 1048576).1 (af.nextChunk z 1048576).2) :
    af.due z = if (af.nextChunk z 1048576).2 = [] then
        [{ action := .endData, fileId := af.fileId }]
      else splitForTransfer (af.nextChunk z 1048576).2 "" af.fileId true := by
  rw [SourceFile.due, reading.reads]
  simp [SourceFile.dueRounds, last.transmitted]

/-- A read before the last gives its pieces first. -/
theorem due_inner {content : List UInt8} {af : SourceFile σ} (reading : Reading content af)
    (inner : InnerChunk z content af (af.nextChunk z 1048576).1 (af.nextChunk z 1048576).2) :
    af.due z = splitForTransfer (af.nextChunk z 1048576).2 "" af.fileId false ++
      (af.nextChunk z 1048576).1.due z := by
  have going := inner.reading.going
  have further := inner.further
  have within := inner.reading.within
  have reads := inner.reading.reads
  have same := dueRounds_enough z (content.length - af.position) inner.reading
    (af.nextChunk z 1048576).1.reads (by omega) (Nat.le_refl _)
  rw [SourceFile.due, reading.reads]
  simp only [SourceFile.dueRounds, going, same]
  rfl

theorem PiecesOf.append {fileId : String} {data more : List UInt8}
    {pieces others : List FileTransmission.Command}
    (first : PiecesOf fileId data pieces) (second : PiecesOf fileId more others) :
    PiecesOf fileId (data ++ more) (pieces ++ others) := by
  constructor
  · intro ftc member
    cases List.mem_append.1 member with
    | inl front => exact first.owner ftc front
    | inr back => exact second.owner ftc back
  · intro ftc member
    cases List.mem_append.1 member with
    | inl front => exact first.small ftc front
    | inr back => exact second.small ftc back
  · rw [List.flatMap_append, first.whole, second.whole]

theorem EndsOnce.behind {front block : List FileTransmission.Command} (ends : EndsOnce block)
    (plain : ∀ ftc ∈ front, ftc.action = Action.data) : EndsOnce (front ++ block) := by
  obtain ⟨before, last, shape, all, final⟩ := ends
  refine ⟨front ++ before, last, ?_, ?_, final⟩
  · rw [shape, List.append_assoc]
  · intro ftc member
    cases List.mem_append.1 member with
    | inl first => exact plain ftc first
    | inr second => exact all ftc second

/-- What a file still gives is a block with the rest of its content. -/
structure RestOfFile (content : List UInt8) (af : SourceFile σ)
    (block : List FileTransmission.Command) : Prop where
  ends : EndsOnce block
  parts : ∃ parts : List (List UInt8), parts.flatten = content.drop af.position ∧
    PiecesOf af.fileId (af.compressor.stream z parts) block

theorem restOfFile_last {content : List UInt8} {af : SourceFile σ} (reading : Reading content af)
    (last : LastChunk z content af (af.nextChunk z 1048576).1 (af.nextChunk z 1048576).2) :
    RestOfFile z content af (af.due z) := by
  have parts : [content.drop af.position].flatten = content.drop af.position :=
    List.flatten_singleton
  rw [due_last z reading last]
  by_cases empty : (af.nextChunk z 1048576).2 = []
  · rw [if_pos empty]
    have nothing := last.chunk.symm.trans empty
    constructor
    · exact ⟨[], _, rfl, by simp, rfl⟩
    · refine ⟨[content.drop af.position], parts, ?_⟩
      rw [nothing]
      constructor <;> simp
  · rw [if_neg empty]
    constructor
    · exact splitRounds_ends "" af.fileId _ _ empty (Nat.le_refl _)
    · refine ⟨[content.drop af.position], parts, ?_⟩
      rw [← last.chunk]
      exact splitForTransfer_pieces "" af.fileId true _

theorem restOfFile_inner {content : List UInt8} {af : SourceFile σ} (reading : Reading content af)
    (inner : InnerChunk z content af (af.nextChunk z 1048576).1 (af.nextChunk z 1048576).2)
    (rest : RestOfFile z content (af.nextChunk z 1048576).1 ((af.nextChunk z 1048576).1.due z)) :
    RestOfFile z content af (af.due z) := by
  obtain ⟨piece, whole, compressed⟩ := inner.data
  obtain ⟨parts, flat, pieces⟩ := rest.parts
  rw [due_inner z reading inner]
  constructor
  · exact rest.ends.behind (splitRounds_data "" af.fileId _ _)
  · refine ⟨piece :: parts, ?_, ?_⟩
    · rw [List.flatten_cons, flat, whole]
    · rw [Compressor.stream, compressed]
      rw [inner.fileId] at pieces
      exact (splitForTransfer_pieces "" af.fileId false _).append pieces

/-- What a file still gives is a block with the rest of its content. -/
theorem due_restOfFile {content : List UInt8} (bytes : Nat) :
    ∀ {af : SourceFile σ}, Reading content af → content.length - af.position ≤ bytes →
      RestOfFile z content af (af.due z) := by
  induction bytes with
  | zero =>
    intro af reading few
    cases nextChunk_cases z reading 1048576 (by decide) with
    | inl last => exact restOfFile_last z reading last
    | inr inner =>
      have further := inner.further
      have within := inner.reading.within
      omega
  | succ bytes ih =>
    intro af reading few
    cases nextChunk_cases z reading 1048576 (by decide) with
    | inl last => exact restOfFile_last z reading last
    | inr inner =>
      have further := inner.further
      exact restOfFile_inner z reading inner (ih inner.reading (by omega))

/-! ### The chunks of a file -/

/-- What the loop over the reads of a file comes to. -/
inductive Chunked (content : List UInt8) (af next : SourceFile σ) (chunk : List UInt8) : Prop where
  | last (transmitted : next.transmitted = true)
      (due : af.due z = if chunk = [] then [{ action := .endData, fileId := af.fileId }]
        else splitForTransfer chunk "" af.fileId true)
  | inner (reading : Reading content next) (filled : chunk ≠ [])
      (due : af.due z = splitForTransfer chunk "" af.fileId false ++ next.due z)

theorem readChunk_chunked {content : List UInt8} (rounds : Nat) :
    ∀ {af : SourceFile σ}, Reading content af → af.reads ≤ rounds →
      (af.readChunk z rounds).1.fileId = af.fileId ∧
        Chunked z content af (af.readChunk z rounds).1 (af.readChunk z rounds).2 := by
  induction rounds with
  | zero =>
    intro af reading enough
    rw [reading.reads] at enough
    omega
  | succ rounds ih =>
    intro af reading enough
    cases nextChunk_cases z reading 1048576 (by decide) with
    | inl last =>
      simp only [SourceFile.readChunk, last.transmitted]
      exact ⟨last.fileId, .last last.transmitted (due_last z reading last)⟩
    | inr inner =>
      have going := inner.reading.going
      have due := due_inner z reading inner
      by_cases filled : (af.nextChunk z 1048576).2 ≠ []
      · simp only [SourceFile.readChunk, going, Bool.false_eq_true, if_false, if_pos filled]
        exact ⟨inner.fileId, .inner inner.reading filled due⟩
      · have empty := not_not.1 filled
        have further := inner.further
        have within := inner.reading.within
        have reads := inner.reading.reads
        rw [reading.reads] at enough
        obtain ⟨fileId, chunked⟩ := ih inner.reading (by omega)
        simp only [SourceFile.readChunk, going, if_neg filled]
        rw [empty] at due
        refine ⟨fileId.trans inner.fileId, ?_⟩
        cases chunked with
        | last transmitted later =>
          rw [inner.fileId] at later
          exact .last transmitted (due.trans later)
        | inner reading filled later =>
          rw [inner.fileId] at later
          exact .inner reading filled (due.trans later)

/-! ### The session -/

/-- A command as the pump addresses it. -/
def addressed (id : String) (ftc : FileTransmission.Command) : FileTransmission.Command :=
  { ftc with id }

/-- The commands that a session still gives. -/
def ActiveSend.outstanding (asd : ActiveSend σ) : List FileTransmission.Command :=
  (asd.pendingChunks ++ asd.activeFile.elim [] (·.due z) ++
    asd.queuedFilesMap.flatMap (·.2.due z)).map (addressed asd.id)

/-- Every file of a session is a regular one that is being read, or waits under its own id. -/
structure InOrder (asd : ActiveSend σ) : Prop where
  active : ∀ af ∈ asd.activeFile, ∃ content, Reading content af
  queued : ∀ item ∈ asd.queuedFilesMap, item.1 = item.2.fileId ∧
    ∃ content, Reading content item.2
  distinct : (asd.queuedFilesMap.map (·.1)).Nodup

/-- The file that is read next belongs to the same commands. -/
theorem chooseFile_some {asd chosen : ActiveSend σ} {af : SourceFile σ} (order : InOrder asd)
    (choice : asd.chooseFile = some (chosen, af)) :
    chosen.activeFile = some af ∧ InOrder chosen ∧ chosen.id = asd.id ∧
      chosen.pendingChunks = asd.pendingChunks ∧
      List.Sublist chosen.queuedFilesMap asd.queuedFilesMap ∧
      chosen.outstanding z = asd.outstanding z := by
  cases active : asd.activeFile with
  | some af' =>
    simp only [ActiveSend.chooseFile, active] at choice
    obtain ⟨rfl, rfl⟩ := Prod.mk.inj (Option.some.inj choice)
    exact ⟨active, order, rfl, rfl, List.Sublist.refl _, rfl⟩
  | none =>
    cases queue : asd.queuedFilesMap with
    | nil => simp [ActiveSend.chooseFile, active, queue] at choice
    | cons item rest =>
      obtain ⟨key, content, reading⟩ := order.queued item (by simp [queue])
      have distinct := order.distinct
      rw [queue, List.map_cons, List.nodup_cons] at distinct
      have others : rest.filter (fun other => decide (other.1 ≠ item.2.fileId)) = rest := by
        apply List.filter_eq_self.2
        intro other member
        rw [← key]
        apply decide_eq_true
        intro same
        exact distinct.1 (same ▸ List.mem_map_of_mem member)
      have front : (item :: rest).filter (fun other => decide (other.1 ≠ item.2.fileId)) =
          rest := by
        rw [List.filter_cons_of_neg (by simp [key]), others]
      simp only [ActiveSend.chooseFile, active, queue, List.map_cons,
        List.find?_cons_of_pos reading.readyToTransmit, front] at choice
      obtain ⟨rfl, rfl⟩ := Prod.mk.inj (Option.some.inj choice)
      refine ⟨rfl, ?_, rfl, rfl, List.sublist_cons_self item rest, ?_⟩
      · constructor
        · intro af member
          cases Option.mem_some_iff.1 member
          exact ⟨content, reading⟩
        · intro other member
          exact order.queued other (by rw [queue]; exact List.mem_cons_of_mem _ member)
        · exact distinct.2
      · simp [ActiveSend.outstanding, active, queue]

theorem chooseFile_none {asd : ActiveSend σ} (order : InOrder asd)
    (choice : asd.chooseFile = none) : asd.activeFile = none ∧ asd.queuedFilesMap = [] := by
  cases active : asd.activeFile with
  | some af => simp [ActiveSend.chooseFile, active] at choice
  | none =>
    refine ⟨rfl, ?_⟩
    cases queue : asd.queuedFilesMap with
    | nil => rfl
    | cons item rest =>
      obtain ⟨key, content, reading⟩ := order.queued item (by simp [queue])
      simp [ActiveSend.chooseFile, active, queue, reading.readyToTransmit] at choice

/-- The file that is read and the parked chunks change without the queue. -/
theorem InOrder.withFile {asd : ActiveSend σ} (order : InOrder asd) {active : Option (SourceFile σ)}
    (pending : List FileTransmission.Command)
    (reading : ∀ af ∈ active, ∃ content, Reading content af) :
    InOrder { asd with activeFile := active, pendingChunks := pending } :=
  ⟨reading, order.queued, order.distinct⟩

/-- What `next_chunk` does to the commands of a session. -/
structure NextOf (asd next : ActiveSend σ) (given : Option FileTransmission.Command) : Prop where
  order : InOrder next
  id : next.id = asd.id
  queue : List.Sublist next.queuedFilesMap asd.queuedFilesMap
  stream : asd.outstanding z = (given.map (addressed asd.id)).toList ++ next.outstanding z
  finished : given = none → asd.outstanding z = []

/-- A session that has nothing parked reads on in a file. -/
theorem nextOf_file {asd chosen : ActiveSend σ} {af : SourceFile σ} (order : InOrder asd)
    (free : asd.pendingChunks = []) (choice : asd.chooseFile = some (chosen, af)) :
    NextOf z asd (asd.nextChunk z).1 (asd.nextChunk z).2 := by
  obtain ⟨active, order', id, pending, queue, stream⟩ := chooseFile_some z order choice
  obtain ⟨content, reading⟩ := order'.active af active
  obtain ⟨fileId, chunked⟩ := readChunk_chunked z af.reads reading (Nat.le_refl _)
  rw [free] at pending
  have whole : asd.outstanding z = (af.due z ++ chosen.queuedFilesMap.flatMap (·.2.due z)).map
      (addressed asd.id) := by
    rw [← stream, ActiveSend.outstanding, pending, active, id]
    rfl
  unfold ActiveSend.nextChunk
  simp only [free, choice, pending]
  generalize (af.readChunk z af.reads).2 = chunk at chunked ⊢
  rw [fileId]
  cases chunked with
  | last transmitted due =>
    rw [transmitted]
    cases pieces : splitForTransfer chunk "" af.fileId true with
    | nil =>
      have empty := (splitForTransfer_eq_nil _ _ _ _).1 pieces
      rw [if_pos empty] at due
      refine ⟨order'.withFile [] (by simp), id, queue, ?_, by simp⟩
      rw [whole, due]
      simp [ActiveSend.outstanding, id]
    | cons ftc rest =>
      have filled : chunk ≠ [] := by
        intro empty
        rw [(splitForTransfer_eq_nil _ _ _ _).2 empty] at pieces
        cases pieces
      rw [if_neg filled, pieces] at due
      refine ⟨order'.withFile rest (by simp), id, queue, ?_, by simp⟩
      rw [whole, due]
      simp [ActiveSend.outstanding, id]
  | inner reading' filled due =>
    rw [reading'.going]
    cases pieces : splitForTransfer chunk "" af.fileId false with
    | nil => exact absurd ((splitForTransfer_eq_nil _ _ _ _).1 pieces) filled
    | cons ftc rest =>
      rw [pieces] at due
      refine ⟨order'.withFile rest ?_, id, queue, ?_, by simp⟩
      · intro af member
        cases Option.mem_some_iff.1 member
        exact ⟨content, reading'⟩
      · rw [whole, due]
        simp [ActiveSend.outstanding, id]

/-- `next_chunk` takes the first of the commands of a session. -/
theorem nextChunk_nextOf {asd : ActiveSend σ} (order : InOrder asd) :
    NextOf z asd (asd.nextChunk z).1 (asd.nextChunk z).2 := by
  cases pending : asd.pendingChunks with
  | cons ftc rest =>
    simp only [ActiveSend.nextChunk, pending]
    refine ⟨⟨order.active, order.queued, order.distinct⟩, rfl, List.Sublist.refl _, ?_, by simp⟩
    simp [ActiveSend.outstanding, pending]
  | nil =>
    cases choice : asd.chooseFile with
    | none =>
      obtain ⟨active, queue⟩ := chooseFile_none order choice
      have nothing : asd.outstanding z = [] := by
        simp [ActiveSend.outstanding, pending, active, queue]
      simp only [ActiveSend.nextChunk, pending, choice]
      exact ⟨order, rfl, List.Sublist.refl _, by simp, fun _ => nothing⟩
    | some chosen => exact nextOf_file z order pending choice

/-! ### The pump -/

/-- The commands for one request, as they reach the child. -/
def block (id : String) (request : FileTransmission.Command × Inode) :
    List FileTransmission.Command :=
  match SourceFile.make z request.1 request.2 with
  | .ok file => (file.due z).map (addressed id)
  | .error _ => []

/-- A refused command is the next that is tried. -/
def Again (attempts : List (FileTransmission.Command × Bool)) : Prop :=
  attempts.IsChain fun tried next => tried.2 = false → next.1 = tried.1

/-- What holds of a session that has served requests. -/
structure Progress (id : String) (served : List (FileTransmission.Command × Inode))
    (state : Sending σ) :
    Prop where
  own : state.asd.id = id
  order : InOrder state.asd
  known : ∀ item ∈ state.asd.queuedFilesMap, item.1 ∈ served.map (·.1.fileId)
  few : state.asd.queuedFilesMap.length ≤ served.length
  stream : state.emitted ++ state.asd.outstanding z = served.flatMap (block z id)
  again : Again state.attempts
  parked : ∀ ftc, state.attempts.getLast? = some (ftc, false) →
    ftc.id = id ∧ ∃ rest, state.asd.pendingChunks = ftc :: rest

theorem nextChunk_pending {asd : ActiveSend σ} {ftc : FileTransmission.Command}
    {rest : List FileTransmission.Command}
    (pending : asd.pendingChunks = ftc :: rest) :
    asd.nextChunk z = ({ asd with pendingChunks := rest }, some ftc) := by
  simp only [ActiveSend.nextChunk, pending]

/-- The next attempt repeats one that was refused. -/
theorem Progress.again_next {z : Zlib σ} {id : String}
    {served : List (FileTransmission.Command × Inode)} {self : Sending σ}
    (progress : Progress z id served self) {next : ActiveSend σ} {ftc : FileTransmission.Command}
    (given : self.asd.nextChunk z = (next, some ftc)) (accepted : Bool) :
    Again (self.attempts ++ [(addressed id ftc, accepted)]) := by
  refine List.isChain_append.2 ⟨progress.again, List.isChain_singleton _, ?_⟩
  intro tried last first head refused
  cases Option.mem_some_iff.1 head
  have same : tried = (tried.1, false) := Prod.ext rfl refused
  rw [same] at last
  obtain ⟨own, rest, pending⟩ := progress.parked tried.1 last
  rw [nextChunk_pending z pending] at given
  cases Option.some.inj (congrArg Prod.snd given)
  rw [← own]
  rfl

theorem pumpRound_accepted {self : Sending σ} {next : ActiveSend σ} {ftc : FileTransmission.Command}
    (given : self.asd.nextChunk z = (next, some ftc)) :
    self.pumpRound z true =
      ({ self with
          asd := next
          attempts := self.attempts ++ [(addressed next.id ftc, true)] }, true) := by
  rw [Sending.pumpRound, given]
  rfl

theorem pumpRound_refused {self : Sending σ} {next : ActiveSend σ} {ftc : FileTransmission.Command}
    (given : self.asd.nextChunk z = (next, some ftc)) :
    self.pumpRound z false =
      ({ self with
          asd := next.returnChunk (addressed next.id ftc)
          attempts := self.attempts ++ [(addressed next.id ftc, false)] }, false) := by
  rw [Sending.pumpRound, given]
  rfl

/-- One round of the pump keeps the progress of a session. -/
theorem pumpRound_progress {id : String} {served : List (FileTransmission.Command × Inode)}
    {self : Sending σ} (progress : Progress z id served self) (accepted : Bool) :
    Progress z id served (self.pumpRound z accepted).1 ∧
      (self.pumpRound z accepted).1.dropped = self.dropped := by
  have nextOf := nextChunk_nextOf z progress.order
  have own := progress.own
  have known : ∀ item ∈ (self.asd.nextChunk z).1.queuedFilesMap,
      item.1 ∈ served.map (·.1.fileId) :=
    fun item member => progress.known item (nextOf.queue.subset member)
  have few := Nat.le_trans nextOf.queue.length_le progress.few
  have stream := progress.stream
  rw [nextOf.stream, own] at stream
  cases given : self.asd.nextChunk z with
  | mk next taken =>
    rw [given] at nextOf known few stream
    have own' : next.id = id := nextOf.id.trans own
    cases taken with
    | none =>
      rw [Sending.pumpRound, given]
      refine ⟨⟨own', nextOf.order, known, few, stream, progress.again, ?_⟩, rfl⟩
      intro ftc last
      obtain ⟨_, rest, pending⟩ := progress.parked ftc last
      rw [nextChunk_pending z pending] at given
      cases congrArg Prod.snd given
    | some ftc =>
      have again := progress.again_next given accepted
      cases accepted with
      | true =>
        rw [pumpRound_accepted z given, own']
        refine ⟨⟨own', nextOf.order, known, few, ?_, again, ?_⟩, rfl⟩
        · rw [← stream]
          simp [Sending.emitted]
        · intro ftc' last
          simp at last
      | false =>
        rw [pumpRound_refused z given, own']
        have order := nextOf.order.withFile (addressed id ftc :: next.pendingChunks)
          nextOf.order.active
        refine ⟨⟨own', order, known, few, ?_, again, ?_⟩, rfl⟩
        · rw [← stream]
          simp [Sending.emitted, ActiveSend.outstanding, ActiveSend.returnChunk, own',
            addressed]
        · intro ftc' last
          simp only [List.getLast?_concat] at last
          obtain ⟨rfl, -⟩ := last
          exact ⟨rfl, _, rfl⟩

/-- The pump keeps the progress of a session. -/
theorem pumpSendChunks_progress {id : String} {served : List (FileTransmission.Command × Inode)}
    (answers : List Bool) :
    ∀ {self : Sending σ}, Progress z id served self →
      Progress z id served (self.pumpSendChunks z answers) ∧
        (self.pumpSendChunks z answers).dropped = self.dropped := by
  induction answers with
  | nil =>
    intro self progress
    exact pumpRound_progress z progress false
  | cons accepted answers ih =>
    intro self progress
    obtain ⟨kept, dropped⟩ := pumpRound_progress z progress accepted
    unfold Sending.pumpSendChunks
    generalize self.pumpRound z accepted = outcome at kept dropped ⊢
    obtain ⟨next, more⟩ := outcome
    cases more with
    | true =>
      obtain ⟨kept', dropped'⟩ := ih kept
      exact ⟨kept', dropped'.trans dropped⟩
    | false => exact ⟨kept, dropped⟩

/-- Accepted writes bring every command of a session to the child. -/
theorem pumpSendChunks_all {id : String} {served : List (FileTransmission.Command × Inode)}
    (writes : Nat) :
    ∀ {self : Sending σ}, Progress z id served self →
      (self.asd.outstanding z).length ≤ writes →
      (self.pumpSendChunks z (List.replicate writes true)).emitted =
        self.emitted ++ self.asd.outstanding z := by
  induction writes with
  | zero =>
    intro self progress few
    have nothing : self.asd.outstanding z = [] := List.length_eq_zero_iff.1 (Nat.le_zero.1 few)
    have stream := (nextChunk_nextOf z progress.order).stream
    rw [nothing] at stream ⊢
    cases given : self.asd.nextChunk z with
    | mk next taken =>
      rw [given] at stream
      cases taken with
      | none => simp [Sending.pumpSendChunks, Sending.pumpRound, given, Sending.emitted]
      | some ftc => simp at stream
  | succ writes ih =>
    intro self progress few
    have nextOf := nextChunk_nextOf z progress.order
    have kept := (pumpRound_progress z progress true).1
    cases given : self.asd.nextChunk z with
    | mk next taken =>
      rw [given] at nextOf
      have stream := nextOf.stream
      cases taken with
      | none =>
        have nothing := nextOf.finished rfl
        rw [List.replicate_succ, Sending.pumpSendChunks, Sending.pumpRound, given, nothing]
        exact (List.append_nil _).symm
      | some ftc =>
        rw [stream] at few ⊢
        rw [pumpRound_accepted z given] at kept
        rw [List.replicate_succ, Sending.pumpSendChunks, pumpRound_accepted z given]
        rw [ih kept (Nat.le_of_succ_le_succ few), nextOf.id]
        simp [Sending.emitted]

/-! ### Runs -/

/-- The file that an event requests. -/
def Event.request : Event → Option (FileTransmission.Command × Inode)
  | .file cmd inode _ => some (cmd, inode)
  | .timer _ => none

/-- The files that are requested of a session, in their order. -/
def requests (events : List Event) : List (FileTransmission.Command × Inode) :=
  events.filterMap Event.request

/-- A request for a regular file in simple mode. -/
def Simple (request : FileTransmission.Command × Inode) : Prop :=
  request.1.ttype = .simple ∧ ∃ content, request.2 = .regular content

/-- A simple request opens a file at its beginning. -/
theorem make_simple {request : FileTransmission.Command × Inode} (simple : Simple request) :
    ∃ file content, request.2 = .regular content ∧
      SourceFile.make z request.1 request.2 = .ok file ∧ Reading content file ∧
      file.position = 0 ∧ file.fileId = request.1.fileId ∧ file.compressor =
        if request.1.compression = .zlib then .zlib z.compressobj else .identity := by
  obtain ⟨cmd, inode⟩ := request
  obtain ⟨mode, content, rfl⟩ := simple
  refine ⟨_, content, rfl, rfl, ?_, rfl, rfl, rfl⟩
  have ready : decide (cmd.ttype = .rsync) = false := by
    have simple : cmd.ttype = .simple := mode
    simp [simple]
  exact ⟨rfl, rfl, rfl, ready, rfl, rfl, Nat.zero_le _⟩

/-- The outputs of the identity are its inputs. -/
theorem stream_identity (parts : List (List UInt8)) :
    (Compressor.identity : Compressor σ).stream z parts = parts.flatten := by
  induction parts with
  | nil => rfl
  | cons part parts ih =>
    show part ++ (Compressor.identity : Compressor σ).stream z parts = _
    rw [ih, List.flatten_cons]

/-- The commands for a simple request send its file. -/
theorem block_sentAs (id : String) {request : FileTransmission.Command × Inode}
    (simple : Simple request) :
    SentAs z id request (block z id request) := by
  obtain ⟨file, content, regular, made, reading, start, fileId, compressor⟩ := make_simple z simple
  have rest := due_restOfFile z _ reading (Nat.le_refl _)
  obtain ⟨parts, flat, pieces⟩ := rest.parts
  rw [start, List.drop_zero] at flat
  have shape : block z id request = (file.due z).map (addressed id) := by
    simp only [block, made]
  have bytes : (block z id request).flatMap (·.data) = file.compressor.stream z parts := by
    rw [shape, List.flatMap_map]
    exact pieces.whole
  constructor
  · obtain ⟨front, last, split, plain, final⟩ := rest.ends
    refine ⟨front.map (addressed id), addressed id last, ?_, ?_, final⟩
    · rw [shape, split, List.map_append]
      rfl
    · intro ftc member
      obtain ⟨before, among, rfl⟩ := List.mem_map.1 member
      exact plain before among
  · intro ftc member
    rw [shape] at member
    obtain ⟨before, among, rfl⟩ := List.mem_map.1 member
    exact ⟨(pieces.owner before among).trans fileId, rfl⟩
  · intro ftc member
    rw [shape] at member
    obtain ⟨before, among, rfl⟩ := List.mem_map.1 member
    exact pieces.small before among
  · refine ⟨content, regular, ?_⟩
    rw [bytes, compressor]
    cases request.1.compression with
    | zlib => exact ⟨parts, flat, rfl⟩
    | none =>
      show Compressor.stream z Compressor.identity parts = content
      rw [stream_identity, flat]

/-- A new file goes behind the others. -/
theorem setItem_new {items : List (String × SourceFile σ)} {key : String}
    (new : ∀ item ∈ items, item.1 ≠ key) (file : SourceFile σ) :
    setItem items key file = items ++ [(key, file)] := by
  have absent : ¬items.any (fun item => decide (item.1 = key)) = true := by
    intro found
    obtain ⟨item, member, same⟩ := List.any_eq_true.1 found
    exact new item member (of_decide_eq_true same)
  rw [setItem, if_neg absent]

/-- A request joins the queue with its commands. -/
theorem addSendFile_progress {id : String} {served : List (FileTransmission.Command × Inode)}
    {self : Sending σ} (progress : Progress z id served self) {cmd : FileTransmission.Command} {inode : Inode}
    (simple : Simple (cmd, inode)) (new : cmd.fileId ∉ served.map (·.1.fileId))
    {asd : ActiveSend σ} (added : self.asd.addSendFile z cmd inode = .ok asd) :
    Progress z id (served ++ [(cmd, inode)]) { self with asd } := by
  obtain ⟨file, content, -, made, reading, -, fileId, -⟩ := make_simple z simple
  have others : ∀ item ∈ self.asd.queuedFilesMap, item.1 ≠ cmd.fileId := by
    intro item member same
    exact new (same ▸ progress.known item member)
  have due : block z id (cmd, inode) = (file.due z).map (addressed id) := by
    simp only [block, made]
  unfold ActiveSend.addSendFile at added
  rw [made] at added
  by_cases full : 32768 < self.asd.queuedFilesMap.length
  · rw [if_pos full] at added
    cases added
  · rw [if_neg full] at added
    have whole := (Except.ok.inj added).symm
    rw [setItem_new others] at whole
    subst whole
    constructor
    · exact progress.own
    · constructor
      · exact progress.order.active
      · intro item member
        cases List.mem_append.1 member with
        | inl old => exact progress.order.queued item old
        | inr last =>
          rw [List.mem_singleton.1 last]
          exact ⟨fileId.symm, content, reading⟩
      · rw [List.map_append, List.nodup_append]
        refine ⟨progress.order.distinct, List.nodup_singleton _, ?_⟩
        intro key member other last same
        obtain ⟨item, among, rfl⟩ := List.mem_map.1 member
        exact others item among (same.trans (List.mem_singleton.1 last))
    · intro item member
      rw [List.map_append, List.mem_append]
      cases List.mem_append.1 member with
      | inl old => exact Or.inl (progress.known item old)
      | inr last =>
        rw [List.mem_singleton.1 last]
        exact Or.inr (List.mem_singleton_self _)
    · rw [List.length_append, List.length_append]
      exact Nat.add_le_add_right progress.few 1
    · rw [List.flatMap_append, ← progress.stream, List.flatMap_singleton, due]
      simp [Sending.emitted, ActiveSend.outstanding, progress.own]
    · exact progress.again
    · exact progress.parked

/-- Nothing else refuses a simple request than a queue that is full. -/
theorem addSendFile_error {asd : ActiveSend σ} {cmd : FileTransmission.Command} {inode : Inode}
    (simple : Simple (cmd, inode)) {failure : Failure}
    (refused : asd.addSendFile z cmd inode = .error failure) :
    32768 < asd.queuedFilesMap.length := by
  obtain ⟨file, content, -, made, -⟩ := make_simple z simple
  by_contra room
  rw [ActiveSend.addSendFile, if_neg room, made] at refused
  cases refused

/-- What a run has come to: the requests up to an error are served. -/
structure Reached (id : String) (asked : List (FileTransmission.Command × Inode))
    (state : Sending σ) : Prop where
  served : ∃ served more, asked = served ++ more ∧ (state.dropped = false → more = []) ∧
    Progress z id served state
  crowded : state.dropped = true → 32769 < asked.length

/-- The events keep what a run has come to. -/
theorem handle_reached {id : String} {asked : List (FileTransmission.Command × Inode)}
    {self : Sending σ}
    (reached : Reached z id asked self) (event : Event)
    (simple : ∀ request ∈ event.request, Simple request)
    (new : ∀ request ∈ event.request, request.1.fileId ∉ asked.map (·.1.fileId)) :
    Reached z id (asked ++ event.request.toList) (self.handle z event) := by
  obtain ⟨⟨served, more, split, live, progress⟩, crowded⟩ := reached
  unfold Sending.handle
  cases dropped : self.dropped with
  | true =>
    rw [if_pos rfl]
    refine ⟨⟨served, more ++ event.request.toList, ?_, ?_, progress⟩, ?_⟩
    · rw [split, List.append_assoc]
    · intro going
      rw [dropped] at going
      cases going
    · intro _
      rw [List.length_append]
      exact Nat.lt_add_right _ (crowded dropped)
  | false =>
    rw [if_neg (by decide)]
    have none := live dropped
    rw [none, List.append_nil] at split
    subst split
    cases event with
    | timer answers =>
      obtain ⟨kept, same⟩ := pumpSendChunks_progress z answers progress
      rw [Event.request, Option.toList_none, List.append_nil]
      refine ⟨⟨asked, [], (List.append_nil _).symm, fun _ => rfl, kept⟩, ?_⟩
      intro ended
      rw [same, dropped] at ended
      cases ended
    | file cmd inode answers =>
      cases added : self.asd.addSendFile z cmd inode with
      | error failure =>
        have full := addSendFile_error z (simple _ rfl) added
        simp only [added]
        refine ⟨⟨asked, [(cmd, inode)], rfl, ?_, ?_⟩, ?_⟩
        · intro going
          cases going
        · exact ⟨progress.own, progress.order, progress.known, progress.few,
            progress.stream, progress.again, progress.parked⟩
        · have few := progress.few
          rw [Event.request, Option.toList_some, List.length_append, List.length_singleton]
          omega
      | ok asd =>
        have joined := addSendFile_progress z progress (simple _ rfl) (new _ rfl) added
        obtain ⟨kept, same⟩ := pumpSendChunks_progress z answers joined
        simp only [added]
        rw [dropped] at kept same
        refine ⟨⟨asked ++ [(cmd, inode)], [], (List.append_nil _).symm, fun _ => rfl, kept⟩,
          ?_⟩
        intro ended
        rw [same] at ended
        cases ended

/-- A run serves its requests up to an error. -/
theorem run_reached (id : String) (events : List Event)
    (simple : ∀ request ∈ requests events, Simple request)
    (distinct : ((requests events).map (·.1.fileId)).Nodup) :
    Reached z id (requests events) (Sending.run z id events) := by
  induction events using List.reverseRecOn with
  | nil =>
    refine ⟨⟨[], [], rfl, fun _ => rfl, ?_⟩, ?_⟩
    · constructor
      · rfl
      · constructor <;> simp [Sending.run]
      · simp [Sending.run]
      · simp [Sending.run]
      · rfl
      · exact List.IsChain.nil
      · simp [Sending.run]
    · intro ended
      cases ended
  | append_singleton events event ih =>
    have split : requests (events ++ [event]) = requests events ++ event.request.toList := by
      cases asked : event.request <;> simp [requests, asked]
    rw [split] at simple distinct ⊢
    rw [List.map_append, List.nodup_append] at distinct
    obtain ⟨before, -, apart⟩ := distinct
    have run : Sending.run z id (events ++ [event]) =
        (Sending.run z id events).handle z event := by
      rw [Sending.run, List.foldl_concat]
      rfl
    rw [run]
    apply handle_reached z (ih (fun request member => simple request
      (List.mem_append_left _ member)) before)
    · intro request asked
      apply simple request
      exact List.mem_append_right _ (Option.mem_toList.2 asked)
    · intro request asked member
      apply apart _ member request.1.fileId _ rfl
      exact List.mem_map_of_mem (Option.mem_toList.2 asked)

/-- A send session gives its child the requested files in their order, each as a block that ends
once, whatever writes are refused. -/
theorem sendsFilesInOrder (id : String) (events : List Event)
    (simple : ∀ request ∈ requests events, Simple request)
    (distinct : ((requests events).map (·.1.fileId)).Nodup) :
    ∃ blocks, List.Forall₂ (SentAs z id) (requests events) blocks ∧
      (Sending.run z id events).emitted <+: blocks.flatten ∧
      ((Sending.run z id events).dropped = false →
        ((Sending.run z id events).asd.nextChunk z).2 = none →
        (Sending.run z id events).emitted = blocks.flatten) ∧
      ((Sending.run z id events).dropped = false →
        ∃ writes, ((Sending.run z id events).pumpSendChunks z
          (List.replicate writes true)).emitted = blocks.flatten) ∧
      ((Sending.run z id events).dropped = true → 32769 < (requests events).length) ∧
      (Sending.run z id events).attempts.IsChain
        (fun tried next => tried.2 = false → next.1 = tried.1) := by
  obtain ⟨⟨served, more, split, live, progress⟩, crowded⟩ :=
    run_reached z id events simple distinct
  refine ⟨(requests events).map (block z id), ?_, ?_, ?_, ?_, crowded, progress.again⟩
  · rw [List.forall₂_map_right_iff, List.forall₂_same]
    intro request member
    exact block_sentAs z id (simple request member)
  · rw [split, List.map_append, List.flatten_append, ← List.flatMap_def, ← progress.stream,
      List.append_assoc]
    exact List.prefix_append _ _
  · intro going exhausted
    have nothing := (nextChunk_nextOf z progress.order).finished exhausted
    have stream := progress.stream
    rw [nothing, List.append_nil] at stream
    rw [split, live going, List.append_nil, ← List.flatMap_def, stream]
  · intro going
    refine ⟨_, (pumpSendChunks_all z _ progress (Nat.le_refl _)).trans ?_⟩
    rw [split, live going, List.append_nil, ← List.flatMap_def, progress.stream]

/-- A compression object as it answers for an empty file: two bytes of header at the first call, the
final block and the checksum at the flush. -/
def emptyZlib : Zlib Bool where
  compressobj := false
  compress started _ := (true, if started then [] else [0x78, 0x9c])
  flush _ := [3, 0, 0, 0, 0, 1]

/-- Two files, the first refused twice. -/
def twoFiles : List Event :=
  [.file { action := .file, id := "s", fileId := "a", name := "/a" } (.regular [104, 105]) [false],
    .timer [false], .timer [true],
    .file { action := .file, id := "s", fileId := "b", name := "/b", compression := .zlib }
      (.regular []) [true]]

theorem sendsFilesInOrder_twoFiles :
    ∃ blocks, List.Forall₂ (SentAs emptyZlib "s") (requests twoFiles) blocks ∧
      (Sending.run emptyZlib "s" twoFiles).emitted <+: blocks.flatten ∧
      ((Sending.run emptyZlib "s" twoFiles).dropped = false →
        ((Sending.run emptyZlib "s" twoFiles).asd.nextChunk emptyZlib).2 = none →
        (Sending.run emptyZlib "s" twoFiles).emitted = blocks.flatten) ∧
      ((Sending.run emptyZlib "s" twoFiles).dropped = false →
        ∃ writes, ((Sending.run emptyZlib "s" twoFiles).pumpSendChunks emptyZlib
          (List.replicate writes true)).emitted = blocks.flatten) ∧
      ((Sending.run emptyZlib "s" twoFiles).dropped = true →
        32769 < (requests twoFiles).length) ∧
      (Sending.run emptyZlib "s" twoFiles).attempts.IsChain
        (fun tried next => tried.2 = false → next.1 = tried.1) := by
  apply sendsFilesInOrder emptyZlib "s" twoFiles
  · simp [requests, twoFiles, Event.request, Simple]
  · decide

example : ((Sending.run emptyZlib "s" twoFiles).attempts.map fun attempt =>
    (attempt.1.fileId, attempt.1.data, attempt.2)) =
    [("a", [104, 105], false), ("a", [104, 105], false), ("a", [104, 105], true),
      ("b", [0x78, 0x9c, 3, 0, 0, 0, 0, 1], true)] := by
  decide

end FileSending

end Smelly
