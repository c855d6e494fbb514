/-
Module: Smelly.Proofs.ParserTexts
Purpose: What the parser does with a text, whatever the charset that spells it and the chunks it
  arrives in: rules for one character and for one text behind another.
Trusted boundary: none
-/
import Smelly.Lib.Utf8
import Smelly.Proofs.ParserChunks
import Smelly.Proofs.Utf8Decoding

namespace Smelly

open ParseScreen Consume

/-- The bytes are those of the text, in Latin-1 or in UTF-8. -/
inductive Spells (latin1 : Bool) : Bytes → Text → Prop
  | nil : Spells latin1 [] []
  | byte {b : UInt8} {rest : Bytes} {text : Text} (charset : latin1 = true)
      (more : Spells latin1 rest text) : Spells latin1 (b :: rest) (latin1Charset b :: text)
  | char {c : Char} {rest : Bytes} {text : Text} (charset : latin1 = false)
      (more : Spells latin1 rest text) :
      Spells latin1 (String.utf8EncodeChar c ++ rest) (c.val :: text)

/-- A text of characters is spelled by its UTF-8 bytes. -/
theorem spells_utf8 (text : List Char) : Spells false (Utf8.utf8 text) (text.map Char.val) := by
  induction text with
  | nil => exact .nil
  | cons c rest ih => exact .char rfl ih

/-- The decoder stands between two characters of the charset. -/
structure Decoder.Settled (latin1 : Bool) (d : Decoder) : Prop where
  charset : d.useLatin1 = latin1
  whole : d.Whole

/-- Texts that follow each other are spelled by bytes that follow each other. -/
theorem Spells.split {latin1 : Bool} {bytes : Bytes} {first second : Text}
    (spelled : Spells latin1 bytes (first ++ second)) :
    ∃ front back, bytes = front ++ back ∧ Spells latin1 front first ∧
      Spells latin1 back second := by
  induction first generalizing bytes with
  | nil => exact ⟨[], bytes, rfl, .nil, spelled⟩
  | cons ch first ih =>
    cases spelled with
    | @byte b rest _ charset more =>
      obtain ⟨front, back, rfl, hfirst, hsecond⟩ := ih more
      exact ⟨b :: front, back, rfl, .byte charset hfirst, hsecond⟩
    | @char c rest _ charset more =>
      obtain ⟨front, back, rfl, hfirst, hsecond⟩ := ih more
      refine ⟨String.utf8EncodeChar c ++ front, back, ?_, .char charset hfirst, hsecond⟩
      exact (List.append_assoc _ _ _).symm

/-! ### The bytes of one character -/

/-- The bytes of a character are read by dispatching it, with a decoder between two characters. -/
def Dispatching (h : Handlers) (s : ParseScreen) (bytes : Bytes) (ch : UInt32) (d : Decoder) :
    Prop :=
  ∀ t, dispatchUnicodeChar h { s with decoder := d } ch = some (t, false) →
    consume (readByte h) s bytes = .ok (t, [])

theorem consume_single {h : Handlers} {s t : ParseScreen} {b : UInt8}
    (read : readByte h s b = .ok (t, false)) : consume (readByte h) s [b] = .ok (t, []) := by
  rw [consume_cons, read]
  rfl

theorem dispatching_latin1 {h : Handlers} {s : ParseScreen} (latin1 : s.decoder.useLatin1 = true)
    (b : UInt8) : Dispatching h s [b] (latin1Charset b) s.decoder := by
  intro t dispatched
  apply consume_single
  have same : ({ s with decoder := s.decoder } : ParseScreen) = s := rfl
  rw [same] at dispatched
  unfold readByte readFrom
  rw [decodeRound_latin1 latin1, dispatched]
  rfl

theorem dispatching_utf8 {h : Handlers} {s : ParseScreen} {bytes : Bytes} {ch : UInt32}
    (utf8 : s.decoder.useLatin1 = false)
    (decodes : Decodes s.decoder.utf8State s.decoder.utf8Codepoint bytes ch) :
    ∃ d : Decoder, d.Settled false ∧ Dispatching h s bytes ch d := by
  induction bytes generalizing s with
  | nil => exact decodes.elim
  | cons b rest ih =>
    cases rest with
    | nil =>
      have last : decodeUtf8 s.decoder.utf8State s.decoder.utf8Codepoint b =
          (utf8Accept, ch) := decodes
      have accept : (decoded s b).decoder.utf8State = utf8Accept := congrArg Prod.fst last
      have codepoint : (decoded s b).decoder.utf8Codepoint = ch := congrArg Prod.snd last
      refine ⟨(decoded s b).decoder, ⟨utf8, fun _ => accept⟩, fun t dispatched => ?_⟩
      apply consume_single
      have same : ({ s with decoder := (decoded s b).decoder } : ParseScreen) = decoded s b :=
        rfl
      rw [same] at dispatched
      unfold readByte readFrom
      rw [decodeRound_accept utf8 _ accept, codepoint, dispatched]
      rfl
    | cons b' rest =>
      obtain ⟨more, valid, later⟩ := decodes
      have inside := decodeRound_inside (h := h) utf8 s.decoder.utf8State more valid
      have utf8' : (decoded s b).decoder.useLatin1 = false := utf8
      obtain ⟨d, settled, dispatching⟩ := ih utf8' later
      refine ⟨d, settled, fun t dispatched => ?_⟩
      have read : readByte h s b = .ok (decoded s b, false) := by
        unfold readByte readFrom
        rw [inside]
        rfl
      rw [consume_cons, read]
      exact dispatching t dispatched

/-! ### Reading a text -/

/-- From every screen that satisfies the condition in front of the text, reading the text leads to
one that satisfies the condition behind it. -/
def Reads (latin1 : Bool) (P : ParseScreen → Prop) (text : Text) (Q : ParseScreen → Prop) : Prop :=
  ∀ s bytes, P s → s.decoder.Settled latin1 → Spells latin1 bytes text →
    ∃ t, consume (readByte dispatchHandlers) s bytes = .ok (t, []) ∧ Q t ∧
      t.decoder.Settled latin1

variable {latin1 : Bool} {P Q R : ParseScreen → Prop}

theorem reads_nil : Reads latin1 P [] P := by
  intro s bytes hs settled spelled
  cases spelled
  exact ⟨s, rfl, hs, settled⟩

theorem dispatchHandlers_neverStops : NeverStops (readByte dispatchHandlers) := by
  intro s ch t read
  have watched := readByte_watch read
  cases watched

theorem reads_append {first second : Text} (before : Reads latin1 P first Q)
    (behind : Reads latin1 Q second R) : Reads latin1 P (first ++ second) R := by
  intro s bytes hs settled spelled
  obtain ⟨front, back, rfl, hfirst, hsecond⟩ := spelled.split
  obtain ⟨t, read, ht, settled'⟩ := before s front hs settled hfirst
  obtain ⟨u, read', hu, settled''⟩ := behind t back ht settled' hsecond
  refine ⟨u, ?_, hu, settled''⟩
  rw [consume_append dispatchHandlers_neverStops, read]
  exact read'

/-- A character is read as the dispatcher takes it, whatever its bytes left in the decoder. -/
theorem reads_char {ch : UInt32}
    (dispatches : ∀ s d, P s → Decoder.Settled latin1 d →
      ∃ t, dispatchUnicodeChar dispatchHandlers { s with decoder := d } ch = some (t, false) ∧
        Q t ∧ t.decoder = d) :
    Reads latin1 P [ch] Q := by
  intro s bytes hs settled spelled
  have single : ∃ d : Decoder, d.Settled latin1 ∧
      Dispatching dispatchHandlers s bytes ch d := by
    cases spelled with
    | @byte b rest _ charset more =>
      cases more
      exact ⟨s.decoder, settled, dispatching_latin1 (settled.charset.trans charset) b⟩
    | @char c rest _ charset more =>
      cases more
      subst charset
      rw [List.append_nil]
      apply dispatching_utf8 settled.charset
      rw [settled.whole settled.charset]
      exact decodes_utf8EncodeChar c _
  obtain ⟨d, between, dispatching⟩ := single
  obtain ⟨t, dispatched, ht, kept⟩ := dispatches s d hs between
  exact ⟨t, dispatching t dispatched, ht, kept ▸ between⟩

theorem reads_cons {ch : UInt32} {text : Text} (first : Reads latin1 P [ch] Q)
    (behind : Reads latin1 Q text R) : Reads latin1 P (ch :: text) R :=
  reads_append first behind

theorem Reads.strengthen {text : Text} (reads : Reads latin1 P text Q) (implies : ∀ s, Q s → R s) :
    Reads latin1 P text R := by
  intro s bytes hs settled spelled
  obtain ⟨t, consumed, ht, settled'⟩ := reads s bytes hs settled spelled
  exact ⟨t, consumed, implies t ht, settled'⟩

/-! ### The chunks of a stream -/

/-- The parser stands outside of every escape code and of pending mode. -/
structure ParseScreen.Ground (s : ParseScreen) : Prop extends s.AtRest where
  normal : s.parserState = .normal
  inactive : s.pending.activatedAt = 0
  empty : s.pending.buf = []

theorem newScreen_ground : ({} : ParseScreen).Ground :=
  ⟨⟨newScreen_savedWhole, decoder_whole⟩, rfl, rfl, rfl⟩

/-- A stream that is read without a call that switches pending mode on is read in any chunks. -/
theorem feed_reads {s : ParseScreen} (ground : s.Ground) {chunks : List (Bytes × Nat)}
    {text : Text} (spelled : Spells s.decoder.useLatin1 (chunks.map Prod.fst).flatten text)
    (hs : P s) (reads : Reads s.decoder.useLatin1 P text Q)
    (silent : ∀ t, Q t → ¬ Activated s.dispatched.length t) :
    ∃ t, feed s chunks = some (.ok t) ∧ Q t := by
  have settled : s.decoder.Settled s.decoder.useLatin1 := ⟨rfl, ground.current⟩
  obtain ⟨t, consumed, ht, -⟩ := reads s _ hs settled spelled
  have parsed : parseBytes s (chunks.map Prod.fst).flatten = .ok (t, []) := by
    rw [parseBytes_eq_consume ground.toSavedWhole]
    exact consumed
  have watched : Watched s.dispatched.length s :=
    ⟨Nat.le_refl _, Or.inl ground.inactive, ground.empty⟩
  have quiet : Quiet s.dispatched.length s (chunks.map Prod.fst).flatten := by
    unfold Quiet
    rw [parsed]
    exact silent t ht
  refine ⟨t, ?_, ht⟩
  rw [feed_quiet ground.toSavedWhole watched ground.inactive quiet, parsed]
  rfl

end Smelly
