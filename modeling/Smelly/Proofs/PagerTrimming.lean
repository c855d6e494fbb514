/-
Module: Smelly.Proofs.PagerTrimming
Purpose: The start of the pager history: of a text whose oldest bytes were overwritten, exactly the
  rest of the character that was cut is dropped.
Trusted boundary: none
-/
import Smelly.Core.PagerHistory
import Smelly.Lib.Utf8
import Smelly.Proofs.Utf8Decoding

namespace Smelly

open Utf8

/-- A text loses its first bytes: `part` is what is left of the character that is cut, if one is,
and `kept` are the characters behind it. -/
inductive CutAt : List Char → Bytes → Bytes → List Char → Prop where
  | between (front kept : List Char) : CutAt (front ++ kept) (utf8 front) [] kept
  | inside (front kept : List Char) (c : Char) (lead part : Bytes)
      (cut : String.utf8EncodeChar c = lead ++ part) (started : lead ≠ []) :
      CutAt (front ++ c :: kept) (utf8 front ++ lead) part kept

theorem CutAt.behind {text kept : List Char} {dropped part : Bytes}
    (cut : CutAt text dropped part kept) (c : Char) :
    CutAt (c :: text) (String.utf8EncodeChar c ++ dropped) part kept := by
  cases cut with
  | between front =>
    have whole := CutAt.between (c :: front) kept
    rwa [utf8_cons] at whole
  | inside front kept d lead part cut started =>
    have within := CutAt.inside (c :: front) kept d lead part cut started
    rwa [utf8_cons, List.append_assoc] at within

/-- Every suffix of the bytes of a text is left by a cut. -/
theorem exists_cutAt (text : List Char) {dropped ringbuf : Bytes}
    (suffix : dropped ++ ringbuf = utf8 text) :
    ∃ part kept, CutAt text dropped part kept ∧ ringbuf = part ++ utf8 kept := by
  induction text generalizing dropped with
  | nil =>
    obtain ⟨rfl, rfl⟩ := List.append_eq_nil_iff.1 suffix
    exact ⟨[], [], .between [] [], rfl⟩
  | cons c text ih =>
    by_cases nothing : dropped = []
    · subst nothing
      exact ⟨[], c :: text, .between [] _, suffix⟩
    · rw [utf8_cons] at suffix
      rcases List.append_eq_append_iff.1 suffix with ⟨part, whole, rest⟩ | ⟨more, rfl, rest⟩
      · exact ⟨part, text, .inside [] text c dropped part whole nothing, rest⟩
      · obtain ⟨part, kept, cut, left⟩ := ih rest.symm
        exact ⟨part, kept, cut.behind c, left⟩

/-- What is left of a character are at most three bytes, and all of them continue it. -/
theorem continues_of_cut {c : Char} {lead part : Bytes}
    (cut : String.utf8EncodeChar c = lead ++ part) (started : lead ≠ []) :
    part.length ≤ 3 ∧ ∀ b ∈ part, ∃ n, b = UInt8.ofNat n ∧ 0x80 ≤ n ∧ n < 0xc0 := by
  obtain ⟨first, more, rfl⟩ := List.exists_cons_of_ne_nil started
  have sizes : (String.utf8EncodeChar c).length = 1 + (more.length + part.length) := by
    rw [cut, List.length_append, List.length_cons]
    omega
  have few : (String.utf8EncodeChar c).length ≤ 4 := by
    rw [String.length_utf8EncodeChar]
    exact c.utf8Size_le_four
  constructor
  · omega
  · intro b mem
    rcases Nat.lt_or_ge c.val.toNat 0x80 with small | wide
    · rw [utf8EncodeChar_of_ascii small, List.length_singleton] at sizes
      have nothing : part = [] := List.length_eq_zero_iff.1 (by omega)
      rw [nothing] at mem
      cases mem
    · obtain ⟨_, tail, bytes, -, -, -, continues, -⟩ := utf8EncodeChar_of_wide wide
      rw [bytes, List.cons_append] at cut
      apply continues b
      rw [(List.cons.inj cut).2]
      exact List.mem_append_right _ mem

/-- A byte that continues a character is rejected where none has begun. -/
theorem decodeUtf8_stray (codep : UInt32) {n : Nat} (low : 0x80 ≤ n) (high : n < 0xc0) :
    (decodeUtf8 utf8Accept codep (UInt8.ofNat n)).1 = utf8Reject := by
  rw [decodeUtf8_lead codep (by omega), if_neg (by omega), if_pos (by omega)]

/-- The bytes of a whole character are read without a rejection. -/
theorem lastRejectAtFrom_decodes {bytes : Bytes} (rest : Bytes) {ch : UInt32} :
    ∀ {state : Nat} {codep : UInt32} (count last : Nat), Decodes state codep bytes ch →
      lastRejectAtFrom state codep count last (bytes ++ rest) = last := by
  induction bytes with
  | nil => exact fun _ _ whole => absurd whole id
  | cons b more ih =>
    intro state codep count last whole
    rw [List.cons_append, lastRejectAtFrom]
    dsimp only
    cases more with
    | nil =>
      have accepted : (decodeUtf8 state codep b).1 = utf8Accept := congrArg Prod.fst whole
      rw [if_pos accepted]
    | cons next more =>
      obtain ⟨going, valid, whole⟩ := whole
      rw [if_neg going, if_neg valid]
      exact ih _ _ whole

/-- All stray bytes are rejected, and nothing behind them. -/
theorem lastRejectAtFrom_stray {part : Bytes}
    (continues : ∀ b ∈ part, ∃ n, b = UInt8.ofNat n ∧ 0x80 ≤ n ∧ n < 0xc0) (rest : Bytes)
    (clean : ∀ codep count last, lastRejectAtFrom utf8Accept codep count last rest = last) :
    ∀ codep count, lastRejectAtFrom utf8Accept codep count count (part ++ rest) =
      count + part.length := by
  induction part with
  | nil => exact fun codep count => clean codep count count
  | cons b part ih =>
    intro codep count
    obtain ⟨n, rfl, low, high⟩ := continues b List.mem_cons_self
    have stray := decodeUtf8_stray codep low high
    rw [List.cons_append, lastRejectAtFrom]
    dsimp only
    rw [if_neg (by rw [stray]; decide), if_pos stray,
      ih (fun b mem => continues b (List.mem_cons_of_mem _ mem)), List.length_cons]
    omega

/-- What is read of whole characters behind at most three bytes is not rejected. -/
theorem lastRejectAtFrom_kept (kept : List Char) {room : Nat} (enough : 4 ≤ room) (codep : UInt32)
    (count last : Nat) :
    lastRejectAtFrom utf8Accept codep count last ((utf8 kept).take room) = last := by
  cases kept with
  | nil =>
    rw [show utf8 [] = [] from rfl, List.take_nil]
    rfl
  | cons c more =>
    have few : (String.utf8EncodeChar c).length ≤ room := by
      rw [String.length_utf8EncodeChar]
      exact Nat.le_trans c.utf8Size_le_four enough
    rw [utf8_cons, List.take_append, List.take_of_length_le few]
    exact lastRejectAtFrom_decodes _ count last (decodes_utf8EncodeChar c codep)

theorem CutAt.part_continues {text kept : List Char} {dropped part : Bytes}
    (cut : CutAt text dropped part kept) :
    part.length ≤ 3 ∧ ∀ b ∈ part, ∃ n, b = UInt8.ofNat n ∧ 0x80 ≤ n ∧ n < 0xc0 := by
  cases cut with
  | between => exact ⟨Nat.zero_le _, fun b mem => nomatch mem⟩
  | inside _ _ c lead part cut started => exact continues_of_cut cut started

/-- Of any suffix of the bytes of a text, the bytes of the character that is cut are dropped, at
most three, and the whole characters behind them are kept. -/
theorem pagerhistEnsureStartIsValidUtf8_trims (ph : PagerHistoryBuf) (text : List Char)
    (dropped : Bytes) (suffix : dropped ++ ph.ringbuf = utf8 text) :
    ∃ part kept, CutAt text dropped part kept ∧ part.length ≤ 3 ∧
      ph.ringbuf = part ++ utf8 kept ∧
      pagerhistEnsureStartIsValidUtf8 ph =
        ({ ph with ringbuf := utf8 kept }, decide (part ≠ [])) := by
  obtain ⟨part, kept, cut, left⟩ := exists_cutAt text suffix
  obtain ⟨few, continues⟩ := cut.part_continues
  refine ⟨part, kept, cut, few, left, ?_⟩
  have rejected : lastRejectAtFrom utf8Accept 0 0 0 (ph.ringbuf.take 8) = part.length := by
    rw [left, List.take_append, List.take_of_length_le (by omega), ← Nat.zero_add part.length]
    apply lastRejectAtFrom_stray continues
    intro codep count last
    exact lastRejectAtFrom_kept kept (by omega) codep count last
  rw [pagerhistEnsureStartIsValidUtf8, rejected]
  by_cases nothing : part = []
  · rw [if_neg (not_not_intro (List.length_eq_zero_iff.2 nothing))]
    rw [nothing, List.nil_append] at left
    rw [← left, decide_eq_false (not_not_intro nothing)]
  · rw [if_pos fun none_ => nothing (List.length_eq_zero_iff.1 none_), left, List.drop_left,
      decide_eq_true nothing]

/-- A four byte character cut after its first byte. -/
theorem pagerhistEnsureStartIsValidUtf8_trims_cut :
    ∃ part kept, CutAt ['😀', 'a'] [0xf0] part kept ∧ part.length ≤ 3 ∧
      ([0x9f, 0x98, 0x80, 0x61] : Bytes) = part ++ utf8 kept ∧
      pagerhistEnsureStartIsValidUtf8
          { maximumSize := 8, capacity := 8, ringbuf := [0x9f, 0x98, 0x80, 0x61] } =
        ({ maximumSize := 8, capacity := 8, ringbuf := utf8 kept }, decide (part ≠ [])) :=
  pagerhistEnsureStartIsValidUtf8_trims
    { maximumSize := 8, capacity := 8, ringbuf := [0x9f, 0x98, 0x80, 0x61] } ['😀', 'a'] [0xf0]
    (by decide)

end Smelly
