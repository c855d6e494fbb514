/-
Module: Smelly.Proofs.RingbufRefinement
Purpose: The byte ring refines a queue of bounded length: writing appends and drops the oldest
  bytes, reading takes from the front, and no access leaves the memory.
Trusted boundary: none
-/
import Smelly.Core.Ringbuf
import Smelly.Lib.RotatedBlock

namespace Smelly

namespace Ringbuf

open MemoryBlock

/-- The memory has the recorded size, and both offsets lie in it. -/
structure Sound (rb : Ringbuf) : Prop where
  length : rb.buf.length = rb.size
  head : rb.head < rb.size
  tail : rb.tail < rb.size

/-- The bytes in use, oldest first. -/
def contents (rb : Ringbuf) : Bytes := (rb.buf.rotate rb.tail).take rb.bytesUsed

theorem new_sound (fresh : Nat → UInt8) (capacity : Nat) : (new fresh capacity).Sound :=
  ⟨by simp [new], Nat.succ_pos _, Nat.succ_pos _⟩

theorem contents_new (fresh : Nat → UInt8) (capacity : Nat) :
    (new fresh capacity).contents = [] := by
  simp [contents, bytesUsed, bytesFree, new]

/-! ### The bytes in use -/

/-- The head is as many bytes behind the tail as are in use. -/
theorem Sound.used {rb : Ringbuf} (sound : rb.Sound) :
    (rb.tail + rb.bytesUsed = rb.head ∨ rb.tail + rb.bytesUsed = rb.head + rb.size) ∧
      rb.bytesUsed ≤ rb.capacity := by
  have head := sound.head
  have tail := sound.tail
  unfold bytesUsed bytesFree capacity
  split <;> omega

/-- Nothing else is as many bytes behind the tail. -/
theorem Sound.used_eq {rb : Ringbuf} (sound : rb.Sound) {n : Nat} (few : n ≤ rb.capacity)
    (behind : rb.tail + n = rb.head ∨ rb.tail + n = rb.head + rb.size) : rb.bytesUsed = n := by
  have used := sound.used
  have tail := sound.tail
  unfold capacity at few used
  omega

theorem Sound.used_lt {rb : Ringbuf} (sound : rb.Sound) : rb.bytesUsed < rb.size := by
  have used := sound.used.2
  have head := sound.head
  unfold capacity at used
  omega

theorem bytesFree_lt_iff {rb : Ringbuf} (sound : rb.Sound) (n : Nat) :
    rb.bytesFree < n ↔ rb.capacity < rb.bytesUsed + n := by
  have head := sound.head
  have tail := sound.tail
  unfold bytesUsed bytesFree capacity
  split <;> omega

/-- The bytes in use are the last ones when the memory is read from the head. -/
theorem contents_eq {rb : Ringbuf} (sound : rb.Sound) :
    rb.contents = (rb.buf.rotate rb.head).drop (rb.size - rb.bytesUsed) := by
  have used := sound.used.1
  have less := sound.used_lt
  have turned : rb.buf.rotate rb.tail =
      (rb.buf.rotate rb.head).rotate (rb.size - rb.bytesUsed) := by
    rw [List.rotate_rotate]
    rcases used with ahead | behind
    · have around : rb.head + (rb.size - rb.bytesUsed) = rb.buf.length + rb.tail := by
        rw [sound.length]
        omega
      rw [around, ← List.rotate_rotate, List.rotate_length]
    · rw [show rb.head + (rb.size - rb.bytesUsed) = rb.tail by omega]
  have whole : (rb.buf.rotate rb.head).length = rb.size := by
    rw [List.length_rotate, sound.length]
  rw [← take_rotate (by omega), ← turned, whole, contents]
  congr 1
  omega

@[simp] theorem Sound.length_contents {rb : Ringbuf} (sound : rb.Sound) :
    rb.contents.length = rb.bytesUsed := by
  have less := sound.used_lt
  rw [contents, List.length_take, List.length_rotate, sound.length]
  omega

/-- An offset that has gone no further than the end of the memory, as a remainder. -/
theorem wrap_eq {rb : Ringbuf} {p : Nat} (inside : p ≤ rb.size) : rb.wrap p = p % rb.size := by
  unfold wrap
  split
  · next atEnd => rw [atEnd, Nat.mod_self]
  · rw [Nat.mod_eq_of_lt (by omega)]

/-- The remainder of an offset that has gone around at most once. -/
theorem mod_around {p size : Nat} (once : p < 2 * size) : p % size = p ∨ p % size + size = p := by
  rcases Nat.lt_or_ge p size with below | beyond
  · exact .inl (Nat.mod_eq_of_lt below)
  · rw [Nat.mod_eq_sub_mod beyond, Nat.mod_eq_of_lt (by omega)]
    omega

/-! ### Writing -/

/-- What a writing loop keeps, and where it puts the bytes. -/
structure Written (rb : Ringbuf) (bytes : Bytes) (after : Ringbuf) : Prop where
  size : after.size = rb.size
  tail : after.tail = rb.tail
  sound : after.Sound
  head : after.head = (rb.head + bytes.length) % rb.size
  memory : after.buf.rotate after.head = (rb.buf.rotate rb.head ++ bytes).drop bytes.length

theorem Written.refl {rb : Ringbuf} (sound : rb.Sound) : Written rb [] rb where
  size := rfl
  tail := rfl
  sound := sound
  head := (Nat.mod_eq_of_lt sound.head).symm
  memory := by rw [List.append_nil, List.length_nil, List.drop_zero]

theorem Written.trans {rb next after : Ringbuf} {bytes more : Bytes} (first : Written rb bytes next)
    (second : Written next more after) : Written rb (bytes ++ more) after where
  size := second.size.trans first.size
  tail := second.tail.trans first.tail
  sound := second.sound
  head := by
    rw [second.head, first.head, first.size, Nat.mod_add_mod, List.length_append, Nat.add_assoc]
  memory := by
    rw [second.memory, first.memory, ← List.drop_append_of_le_length, List.drop_drop,
      List.append_assoc, List.length_append]
    rw [List.length_append]
    exact Nat.le_add_left ..

/-- A chunk that does not reach beyond the end of the memory is written. -/
theorem writeChunk_spec {rb : Ringbuf} (sound : rb.Sound) {chunk : Bytes}
    (fits : chunk.length ≤ rb.size - rb.head) :
    ∃ after, rb.writeChunk chunk = some after ∧ Written rb chunk after := by
  have head := sound.head
  obtain ⟨buf, copied, length, rotated⟩ := @rotate_copyIn _ rb.buf chunk rb.head (by
    rw [sound.length]
    omega)
  have end_ : rb.head + chunk.length ≤ rb.size := by omega
  have wrapped := wrap_eq end_
  refine ⟨{ rb with buf := buf, head := rb.wrap (rb.head + chunk.length) }, ?_, rfl, rfl, ?_,
    wrapped, ?_⟩
  · rw [writeChunk, copied]
    rfl
  · exact ⟨length.trans sound.length, wrapped ▸ Nat.mod_lt _ (by omega), sound.tail⟩
  · rw [← rotated]
    show buf.rotate (rb.wrap (rb.head + chunk.length)) = _
    rw [wrapped, ← sound.length, ← length, List.rotate_mod]

theorem writeLoop_spec {fuel : Nat} {dst : Ringbuf} {src : Bytes} (sound : dst.Sound)
    (enough : src.length ≤ fuel) :
    ∃ after, writeLoop fuel dst src = some after ∧ Written dst src after := by
  induction fuel generalizing dst src with
  | zero =>
    cases List.eq_nil_of_length_eq_zero (Nat.le_zero.1 enough)
    exact ⟨dst, rfl, .refl sound⟩
  | succ fuel ih =>
    cases src with
    | nil => exact ⟨dst, rfl, .refl sound⟩
    | cons byte rest =>
      have head := sound.head
      generalize hn : min (dst.size - dst.head) (byte :: rest).length = n
      have some_ : 0 < n := by rw [← hn, List.length_cons]; omega
      obtain ⟨next, wrote, written⟩ := @writeChunk_spec dst sound ((byte :: rest).take n) (by
        rw [List.length_take]
        omega)
      obtain ⟨after, looped, others⟩ := @ih next ((byte :: rest).drop n) written.sound (by
        rw [List.length_drop]
        omega)
      refine ⟨after, ?_, ?_⟩
      · rw [writeLoop]
        · simp only [hn, wrote, Option.bind_eq_bind, Option.bind_some]
          exact looped
        · exact List.cons_ne_nil byte rest
      · have both := written.trans others
        rwa [List.take_append_drop] at both

/-- What the writers do at their end makes the ring a queue that has dropped its oldest bytes. -/
structure Appended (rb : Ringbuf) (bytes : Bytes) (after : Ringbuf) : Prop where
  sound : after.Sound
  size : after.size = rb.size
  contents : after.contents = ringbufMemcpyInto rb.capacity rb.contents bytes

/-- The tail that the writers leave: as many bytes are in use as there were and came, up to the
capacity. -/
theorem Written.used {rb after : Ringbuf} {bytes : Bytes} (sound : rb.Sound)
    (written : Written rb bytes after) :
    (after.dropOldest (rb.bytesFree < bytes.length)).Sound ∧
      (after.dropOldest (rb.bytesFree < bytes.length)).bytesUsed =
        min rb.capacity (rb.bytesUsed + bytes.length) := by
  have tail := sound.tail
  have used := sound.used
  have full := bytesFree_lt_iff sound bytes.length
  have capacity : after.capacity = rb.capacity := congrArg (· - 1) written.size
  have size : rb.capacity = rb.size - 1 := rfl
  by_cases overflow : rb.bytesFree < bytes.length
  · rw [decide_eq_true overflow]
    have beyond := full.1 overflow
    have head := written.sound.head
    have next : (after.dropOldest true).tail = after.head + 1 ∨
        (after.dropOldest true).tail + after.size = after.head + 1 :=
      mod_around (by omega)
    have soundAfter : (after.dropOldest true).Sound :=
      ⟨written.sound.length, head, Nat.mod_lt _ (Nat.zero_lt_of_lt head)⟩
    refine ⟨soundAfter, soundAfter.used_eq (capacity ▸ Nat.min_le_left ..) ?_⟩
    show _ + _ = after.head ∨ _ + _ = after.head + after.size
    rw [written.size] at next ⊢
    omega
  · rw [decide_eq_false overflow]
    refine ⟨written.sound, written.sound.used_eq (capacity ▸ Nat.min_le_left ..) ?_⟩
    show after.tail + _ = after.head ∨ after.tail + _ = after.head + after.size
    have arrived := mod_around (show rb.head + bytes.length < 2 * rb.size by omega)
    rw [← written.head] at arrived
    have head := written.sound.head
    rw [written.size] at head ⊢
    rw [written.tail]
    omega

theorem Written.dropOldest {rb after : Ringbuf} {bytes : Bytes} (sound : rb.Sound)
    (written : Written rb bytes after) :
    Appended rb bytes (after.dropOldest (rb.bytesFree < bytes.length)) := by
  obtain ⟨soundAfter, usedAfter⟩ := written.used sound
  have unmoved (overflow : Bool) : (after.dropOldest overflow).buf = after.buf ∧
      (after.dropOldest overflow).head = after.head ∧
      (after.dropOldest overflow).size = after.size := by
    cases overflow with
    | true => exact ⟨rfl, rfl, rfl⟩
    | false => exact ⟨rfl, rfl, rfl⟩
  obtain ⟨buf, head, size⟩ := unmoved (rb.bytesFree < bytes.length)
  have few := sound.used_lt
  have capacity : rb.capacity = rb.size - 1 := rfl
  have view : (rb.buf.rotate rb.head).length = rb.size := by
    rw [List.length_rotate, sound.length]
  have appended : rb.contents ++ bytes =
      (rb.buf.rotate rb.head ++ bytes).drop (rb.size - rb.bytesUsed) := by
    rw [contents_eq sound, List.drop_append_of_le_length (by omega)]
  refine ⟨soundAfter, size.trans written.size, ?_⟩
  rw [contents_eq soundAfter, usedAfter, buf, head, size, written.memory, written.size,
    List.drop_drop, ringbufMemcpyInto, appended, List.drop_drop, List.length_drop,
    List.length_append, view]
  congr 1
  omega

theorem memcpyInto_spec {dst : Ringbuf} (sound : dst.Sound) (src : Bytes) :
    ∃ after, dst.memcpyInto src = some after ∧ Appended dst src after := by
  obtain ⟨after, looped, written⟩ := writeLoop_spec sound (Nat.le_refl src.length)
  refine ⟨_, ?_, written.dropOldest sound⟩
  rw [memcpyInto, looped]
  rfl

/-! ### Reading -/

/-- The ring after bytes have been taken from its front. -/
structure Taken (rb : Ringbuf) (n : Nat) (after : Ringbuf) : Prop where
  sound : after.Sound
  size : after.size = rb.size
  contents : after.contents = rb.contents.drop n

theorem Taken.refl {rb : Ringbuf} (sound : rb.Sound) : Taken rb 0 rb := ⟨sound, rfl, rfl⟩

theorem Taken.trans {rb next after : Ringbuf} {n m : Nat} (first : Taken rb n next)
    (second : Taken next m after) : Taken rb (n + m) after where
  sound := second.sound
  size := second.size.trans first.size
  contents := by rw [second.contents, first.contents, List.drop_drop]

theorem Taken.bytesUsed {rb after : Ringbuf} {n : Nat} (sound : rb.Sound)
    (taken : Taken rb n after) : after.bytesUsed = rb.bytesUsed - n := by
  rw [← taken.sound.length_contents, taken.contents, List.length_drop, sound.length_contents]

/-- Moving the tail forward drops bytes at the front. -/
theorem taken_forward {rb : Ringbuf} (sound : rb.Sound) {n : Nat} (held : n ≤ rb.bytesUsed) :
    Taken rb n { rb with tail := (rb.tail + n) % rb.size } := by
  have head := sound.head
  have tail := sound.tail
  obtain ⟨used, few⟩ := sound.used
  have less := sound.used_lt
  have arrived := mod_around (show rb.tail + n < 2 * rb.size by omega)
  have tailIn : (rb.tail + n) % rb.size < rb.size := Nat.mod_lt _ (by omega)
  have soundAfter : ({ rb with tail := (rb.tail + n) % rb.size } : Ringbuf).Sound :=
    ⟨sound.length, head, tailIn⟩
  have usedAfter : ({ rb with tail := (rb.tail + n) % rb.size } : Ringbuf).bytesUsed =
      rb.bytesUsed - n := by
    apply soundAfter.used_eq
    · exact Nat.le_trans (Nat.sub_le ..) few
    · show (rb.tail + n) % rb.size + _ = rb.head ∨ (rb.tail + n) % rb.size + _ = rb.head + rb.size
      omega
  refine ⟨soundAfter, rfl, ?_⟩
  rw [contents_eq soundAfter, usedAfter, contents_eq sound, List.drop_drop]
  congr 1
  show rb.size - (rb.bytesUsed - n) = _
  omega

/-- A chunk of bytes in use that does not reach beyond the end of the memory is read. -/
theorem readChunk_spec {rb : Ringbuf} (sound : rb.Sound) {n : Nat} (fits : n ≤ rb.size - rb.tail)
    (held : n ≤ rb.bytesUsed) :
    ∃ after, rb.readChunk n = some (rb.contents.take n, after) ∧ Taken rb n after := by
  have tail := sound.tail
  have inside : rb.tail + n ≤ rb.buf.length := by
    rw [sound.length]
    omega
  refine ⟨_, ?_, taken_forward sound held⟩
  rw [readChunk, if_pos inside, contents, List.take_take, Nat.min_eq_left held,
    take_drop_eq_take_rotate inside, wrap_eq (sound.length ▸ inside)]

theorem readLoop_spec {fuel : Nat} {src : Ringbuf} {count : Nat} (sound : src.Sound)
    (enough : count ≤ fuel) (held : count ≤ src.bytesUsed) :
    ∃ after, readLoop fuel src count = some (src.contents.take count, after) ∧
      Taken src count after := by
  induction fuel generalizing src count with
  | zero =>
    cases Nat.le_zero.1 enough
    exact ⟨src, rfl, .refl sound⟩
  | succ fuel ih =>
    cases count with
    | zero => exact ⟨src, rfl, .refl sound⟩
    | succ count =>
      have tail := sound.tail
      generalize hn : min (src.size - src.tail) (count + 1) = n
      obtain ⟨next, read, taken⟩ := @readChunk_spec src sound n (by omega) (by omega)
      obtain ⟨after, looped, others⟩ := @ih next (count + 1 - n) taken.sound (by omega) (by
        rw [taken.bytesUsed sound]
        omega)
      have both := taken.trans others
      rw [show n + (count + 1 - n) = count + 1 by omega] at both
      refine ⟨after, ?_, both⟩
      rw [readLoop]
      · simp only [hn, read, looped, Option.bind_eq_bind, Option.bind_some, taken.contents]
        rw [← List.take_add, show n + (count + 1 - n) = count + 1 by omega]
      · exact Nat.succ_ne_zero count

/-- A ring that holds as many bytes gives them. -/
theorem memmoveFrom_spec {src : Ringbuf} {count : Nat} (sound : src.Sound)
    (held : count ≤ src.bytesUsed) :
    ∃ after, src.memmoveFrom count = some (src.contents.take count, after) ∧
      Taken src count after := by
  rw [memmoveFrom, if_neg (Nat.not_lt.2 held)]
  exact readLoop_spec sound (Nat.le_refl count) held

theorem memcpyFrom_eq {src : Ringbuf} (sound : src.Sound) (count : Nat) :
    src.memcpyFrom count = some (src.contents.take count) := by
  obtain ⟨after, looped, -⟩ := readLoop_spec sound (Nat.le_refl (min count src.bytesUsed))
    (Nat.min_le_right ..)
  rw [memcpyFrom, looped]
  show some _ = _
  rw [← sound.length_contents, ← List.take_eq_take_min]

/-! ### From ring to ring -/

theorem copyLoop_spec {fuel : Nat} {dst src : Ringbuf} {count : Nat} (soundDst : dst.Sound)
    (soundSrc : src.Sound) (enough : count ≤ fuel) (held : count ≤ src.bytesUsed) :
    ∃ written after, copyLoop fuel dst src count = some (written, after) ∧
      Written dst (src.contents.take count) written ∧ Taken src count after := by
  induction fuel generalizing dst src count with
  | zero =>
    cases Nat.le_zero.1 enough
    exact ⟨dst, src, rfl, .refl soundDst, .refl soundSrc⟩
  | succ fuel ih =>
    cases count with
    | zero => exact ⟨dst, src, rfl, .refl soundDst, .refl soundSrc⟩
    | succ count =>
      have tail := soundSrc.tail
      have head := soundDst.head
      generalize hn : min (dst.size - dst.head) (min (src.size - src.tail) (count + 1)) = n
      obtain ⟨nextSrc, read, taken⟩ := @readChunk_spec src soundSrc n (by omega) (by omega)
      have chunk : (src.contents.take n).length ≤ dst.size - dst.head := by
        rw [List.length_take]
        omega
      obtain ⟨nextDst, wrote, written⟩ := writeChunk_spec soundDst chunk
      obtain ⟨final, after, looped, others, rest⟩ := @ih nextDst nextSrc (count + 1 - n)
        written.sound taken.sound (by omega) (by
          rw [taken.bytesUsed soundSrc]
          omega)
      have all : n + (count + 1 - n) = count + 1 := by omega
      have bothWritten := written.trans others
      rw [taken.contents, ← List.take_add, all] at bothWritten
      have bothTaken := taken.trans rest
      rw [all] at bothTaken
      refine ⟨final, after, ?_, bothWritten, bothTaken⟩
      rw [copyLoop]
      · simp only [hn, read, wrote, Option.bind_eq_bind, Option.bind_some]
        exact looped
      · exact Nat.succ_ne_zero count

/-- Bytes that the source holds are appended to the destination and taken from the source. -/
theorem copy_spec {dst src : Ringbuf} {count : Nat} (soundDst : dst.Sound) (soundSrc : src.Sound)
    (held : count ≤ src.bytesUsed) :
    ∃ written after, dst.copy src count = some (written, after) ∧
      Appended dst (src.contents.take count) written ∧ Taken src count after := by
  obtain ⟨written, after, looped, appended, taken⟩ :=
    copyLoop_spec soundDst soundSrc (Nat.le_refl count) held
  have length : (src.contents.take count).length = count := by
    rw [List.length_take, soundSrc.length_contents, Nat.min_eq_left held]
  have dropped := appended.dropOldest soundDst
  rw [length] at dropped
  refine ⟨_, after, ?_, dropped, taken⟩
  rw [copy, if_neg (Nat.not_lt.2 held), looped]
  rfl

/-! ### Searching -/

/-- The search finds the first such byte at or behind the offset; without one, it gives the number
of bytes in use. -/
theorem findchr_eq {rb : Ringbuf} (sound : rb.Sound) (c : UInt8) {fuel offset : Nat}
    (enough : rb.bytesUsed ≤ offset + fuel) (inside : offset ≤ rb.bytesUsed) :
    rb.findchr c fuel offset = some (offset + (rb.contents.drop offset).idxOf c) := by
  have atEnd (done : rb.bytesUsed ≤ offset) :
      some rb.bytesUsed = some (offset + (rb.contents.drop offset).idxOf c) := by
    rw [List.drop_eq_nil_of_le (by rw [sound.length_contents]; exact done)]
    exact congrArg some (Nat.le_antisymm done inside)
  induction fuel generalizing offset with
  | zero =>
    have done : rb.bytesUsed ≤ offset := enough
    rw [findchr, if_pos done, atEnd done]
  | succ fuel ih =>
    rw [findchr]
    by_cases done : rb.bytesUsed ≤ offset
    · rw [if_pos done, atEnd done]
    · rw [if_neg done]
      have taken := taken_forward sound inside
      have used := taken.bytesUsed sound
      have start := taken.sound.tail
      have length := sound.length
      dsimp only at start ⊢
      generalize (rb.tail + offset) % rb.size = start' at *
      generalize hn : min (rb.size - start') (rb.bytesUsed - offset) = n
      have fits : start' + n ≤ rb.buf.length := by omega
      have chunk : (rb.buf.drop start').take n = (rb.contents.drop offset).take n := by
        rw [take_drop_eq_take_rotate fits, ← taken.contents, contents, List.take_take, used,
          Nat.min_eq_left (by omega)]
      rw [if_pos fits, chunk]
      have parts := List.take_append_drop n (rb.contents.drop offset)
      by_cases found : c ∈ (rb.contents.drop offset).take n
      · rw [if_pos found, ← List.idxOf_append_of_mem found, parts]
      · rw [if_neg found, ih (by omega) (by omega)]
        · conv_rhs => rw [← parts, List.idxOf_append_of_notMem found]
          rw [List.drop_drop, List.length_take, List.length_drop, sound.length_contents,
            Nat.min_eq_left (by omega), Nat.add_assoc]
        · intro beyond
          rw [List.drop_eq_nil_of_le (by rw [sound.length_contents]; exact beyond)]
          exact congrArg some (by show rb.bytesUsed = offset + n + 0; omega)

end Ringbuf

end Smelly
