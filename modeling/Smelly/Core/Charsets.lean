/-
Module: Smelly.Core.Charsets
Purpose: The byte codecs of `charsets.c`: the UTF-8 decoding automaton and its loop over a string,
  the UTF-8 encoder, the base64 decoder and the tables of the character sets.
Trusted boundary: human-reviewed model of smelly/charsets.c
-/
import Smelly.Lib.Checked

namespace Smelly

open Checked

abbrev Bytes := List UInt8

/-- The characters of a string literal as the code points the parser compares with. -/
def chars (s : String) : List UInt32 := s.toList.map Char.val

/-- A property of the items of a list is checked on the items, not on all values of their type. -/
theorem forall_mem_of_all {α : Type} {p : α → Prop} [DecidablePred p] {items : List α}
    (h : items.all (fun x => decide (p x)) = true) : ∀ x ∈ items, p x :=
  fun x mem => of_decide_eq_true (List.all_eq_true.1 h x mem)

/-- The same of the characters of a literal. -/
theorem forall_mem_chars {p : UInt32 → Prop} [DecidablePred p] {s : String}
    (h : (chars s).all (fun c => decide (p c)) = true) : ∀ c ∈ chars s, p c :=
  forall_mem_of_all h

/-- `UTF8_ACCEPT`. -/
abbrev utf8Accept : Nat := 0

/-- `UTF8_REJECT`. -/
abbrev utf8Reject : Nat := 1

/-- `utf8_data`: the class of every byte, then 16 transitions for each of the nine states. -/
def utf8Data : List Nat := [
   -- 00..1f
   0, 0, 0, 0, 0, 0, 0, 0, 0, 0, 0, 0, 0, 0, 0, 0,
   0, 0, 0, 0, 0, 0, 0, 0, 0, 0, 0, 0, 0, 0, 0, 0,
   -- 20..3f
   0, 0, 0, 0, 0, 0, 0, 0, 0, 0, 0, 0, 0, 0, 0, 0,
   0, 0, 0, 0, 0, 0, 0, 0, 0, 0, 0, 0, 0, 0, 0, 0,
   -- 40..5f
   0, 0, 0, 0, 0, 0, 0, 0, 0, 0, 0, 0, 0, 0, 0, 0,
   0, 0, 0, 0, 0, 0, 0, 0, 0, 0, 0, 0, 0, 0, 0, 0,
   -- 60..7f
   0, 0, 0, 0, 0, 0, 0, 0, 0, 0, 0, 0, 0, 0, 0, 0,
   0, 0, 0, 0, 0, 0, 0, 0, 0, 0, 0, 0, 0, 0, 0, 0,
   -- 80..9f
   1, 1, 1, 1, 1, 1, 1, 1, 1, 1, 1, 1, 1, 1, 1, 1,
   9, 9, 9, 9, 9, 9, 9, 9, 9, 9, 9, 9, 9, 9, 9, 9,
   -- a0..bf
   7, 7, 7, 7, 7, 7, 7, 7, 7, 7, 7, 7, 7, 7, 7, 7,
   7, 7, 7, 7, 7, 7, 7, 7, 7, 7, 7, 7, 7, 7, 7, 7,
   -- c0..df
   8, 8, 2, 2, 2, 2, 2, 2, 2, 2, 2, 2, 2, 2, 2, 2,
   2, 2, 2, 2, 2, 2, 2, 2, 2, 2, 2, 2, 2, 2, 2, 2,
   -- e0..ef
   10, 3, 3, 3, 3, 3, 3, 3,
   3, 3, 3, 3, 3, 4, 3, 3,
   -- f0..ff
   11, 6, 6, 6, 5, 8, 8, 8,
   8, 8, 8, 8, 8, 8, 8, 8,
   -- s0..s0
   0, 1, 2, 3, 5, 8, 7, 1,
   1, 1, 4, 6, 1, 1, 1, 1,
   -- s1..s2
   1, 1, 1, 1, 1, 1, 1, 1, 1, 1, 1, 1, 1, 1, 1, 1,
   1, 0, 1, 1, 1, 1, 1, 0, 1, 0, 1, 1, 1, 1, 1, 1,
   -- s3..s4
   1, 2, 1, 1, 1, 1, 1, 2, 1, 2, 1, 1, 1, 1, 1, 1,
   1, 1, 1, 1, 1, 1, 1, 2, 1, 1, 1, 1, 1, 1, 1, 1,
   -- s5..s6
   1, 2, 1, 1, 1, 1, 1, 1, 1, 2, 1, 1, 1, 1, 1, 1,
   1, 1, 1, 1, 1, 1, 1, 3, 1, 3, 1, 1, 1, 1, 1, 1,
   -- s7..s8
   1, 3, 1, 1, 1, 1, 1, 3, 1, 3, 1, 1, 1, 1, 1, 1,
   1, 3, 1, 1, 1, 1, 1, 1, 1, 1, 1, 1, 1, 1, 1, 1]

/-- The class of a byte. -/
def utf8Type (byte : UInt8) : Nat := utf8Data.getD byte.toNat 0

/-- `decode_utf8`: the next state and the code point read so far. -/
def decodeUtf8 (state : Nat) (codep : UInt32) (byte : UInt8) : Nat × UInt32 :=
  let type := utf8Type byte
  let codep : UInt32 :=
    if state ≠ utf8Accept then (byte.toUInt32 &&& (0x3f : UInt32)) ||| (codep <<< 6)
    else ((0xff : UInt32) >>> type.toUInt32) &&& byte.toUInt32
  (utf8Data.getD (256 + state * 16 + type) utf8Reject, codep)

/-- The loop of `decode_utf8_string` from byte `i` on: the code points stored in `dest`.  A rejected
byte is read again (`i--`) when it ended a character that had begun. -/
def decodeUtf8StringFrom (state : Nat) (codep : UInt32) (prev i : Nat) : Bytes → List UInt32
  | [] => []
  | byte :: rest =>
    let (state, codep) := decodeUtf8 state codep byte
    if state = utf8Accept then
      codep :: decodeUtf8StringFrom state codep state (i + 1) rest
    else if state = utf8Reject then
      if prev ≠ utf8Accept ∧ 0 < i then
        decodeUtf8StringFrom utf8Accept codep utf8Accept i (byte :: rest)
      else decodeUtf8StringFrom utf8Accept codep utf8Accept (i + 1) rest
    else decodeUtf8StringFrom state codep state (i + 1) rest
termination_by bytes => (bytes.length, if prev = utf8Accept then 0 else 1)
decreasing_by
  · exact Prod.Lex.left _ _ (Nat.lt_succ_self _)
  · rename_i again
    rw [if_neg again.1]
    exact Prod.Lex.right _ Nat.one_pos
  · exact Prod.Lex.left _ _ (Nat.lt_succ_self _)
  · exact Prod.Lex.left _ _ (Nat.lt_succ_self _)

/-- `decode_utf8_string`. -/
def decodeUtf8String (src : Bytes) : List UInt32 :=
  decodeUtf8StringFrom utf8Accept 0 utf8Accept 0 src

/-- `encode_utf8`. -/
def encodeUtf8 (ch : UInt32) : Bytes :=
  if ch < 0x80 then [ch.toUInt8]
  else if ch < 0x800 then [((ch >>> 6) ||| 0xC0).toUInt8, ((ch &&& 0x3F) ||| 0x80).toUInt8]
  else if ch < 0x10000 then
    [((ch >>> 12) ||| 0xE0).toUInt8, (((ch >>> 6) &&& 0x3F) ||| 0x80).toUInt8,
      ((ch &&& 0x3F) ||| 0x80).toUInt8]
  else if ch < 0x110000 then
    [((ch >>> 18) ||| 0xF0).toUInt8, (((ch >>> 12) &&& 0x3F) ||| 0x80).toUInt8,
      (((ch >>> 6) &&& 0x3F) ||| 0x80).toUInt8, ((ch &&& 0x3F) ||| 0x80).toUInt8]
  else []

/-- `latin1_charset`, the first of `charset_translations`, maps every byte to itself. -/
def latin1Charset (byte : UInt8) : UInt32 := byte.toUInt32

/-- `b64_decoding_table`: characters outside the alphabet count as zero. -/
def b64DecodingTable (ch : UInt32) : UInt32 :=
  let byte := ch &&& 0xff
  if 65 ≤ byte ∧ byte ≤ 90 then byte - 65
  else if 97 ≤ byte ∧ byte ≤ 122 then byte - 97 + 26
  else if 48 ≤ byte ∧ byte ≤ 57 then byte - 48 + 52
  else if byte = 43 then 62
  else if byte = 47 then 63
  else 0

/-- One character of the input; `=` is the padding. -/
def b64Sextet (ch : UInt32) : UInt32 := if ch = 61 then 0 else b64DecodingTable ch

/-- The loop of `base64_decode` without the limit on the bytes stored. -/
def base64Triples : List UInt32 → Bytes
  | a :: b :: c :: d :: rest =>
    let triple := (b64Sextet a <<< 18) + (b64Sextet b <<< 12) + (b64Sextet c <<< 6) + b64Sextet d
    (triple >>> 16).toUInt8 :: (triple >>> 8).toUInt8 :: triple.toUInt8 :: base64Triples rest
  | _ => []

inductive Base64Error where
  | badLength (sz : Nat)
  | outputTooSmall
deriving DecidableEq, Repr

/-- The messages `base64_decode` returns. -/
def Base64Error.message : Base64Error → String
  | badLength sz =>
    "base64 encoded data must have a length that is a multiple of four not: " ++ toString sz
  | outputTooSmall => "output buffer too small"

/-- `base64_decode`. -/
def base64Decode (src : List UInt32) (destCapacity : Nat) : Except Base64Error Bytes :=
  if src.length = 0 then .ok []
  else if src.length % 4 ≠ 0 then .error (.badLength src.length)
  else
    let padding := (if src[src.length - 1]? = some 61 then 1 else 0) +
      (if src[src.length - 2]? = some 61 then 1 else 0)
    let destSz := src.length / 4 * 3 - padding
    if destCapacity < destSz then .error .outputTooSmall
    else .ok ((base64Triples src).take destSz)

/-- `if (j < *dest_sz) dest[j++] = byte;` -/
def storeByte (destSz : Nat) (byte : UInt8) (out : Bytes × Nat) : Option (Bytes × Nat) :=
  if out.2 < destSz then do
    let dest ← setAt out.1 out.2 byte
    some (dest, out.2 + 1)
  else some out

/-- The loop of `base64_decode` over what is left of `src`, with `dest` and `j`; `none` where it
would read behind the end of `src` or store behind the end of `dest`. -/
def base64Loop (destSz : Nat) : List UInt32 → Bytes × Nat → Option (Bytes × Nat)
  | [], out => some out
  | a :: b :: c :: d :: rest, out => do
      let triple := (b64Sextet a <<< 18) + (b64Sextet b <<< 12) + (b64Sextet c <<< 6) + b64Sextet d
      let out ← storeByte destSz (triple >>> 16).toUInt8 out
      let out ← storeByte destSz (triple >>> 8).toUInt8 out
      let out ← storeByte destSz triple.toUInt8 out
      base64Loop destSz rest out
  | _, _ => none

/-- `base64_decode` with the memory `dest` points to, and `*dest_sz` or the error. -/
def base64DecodeInto (src : List UInt32) (dest : Bytes) (destCapacity : Nat) :
    Option (Bytes × Except Base64Error Nat) :=
  if src.length = 0 then some (dest, .ok 0)
  else if src.length % 4 ≠ 0 then some (dest, .error (.badLength src.length))
  else
    let padding := (if src[src.length - 1]? = some 61 then 1 else 0) +
      (if src[src.length - 2]? = some 61 then 1 else 0)
    let destSz := src.length / 4 * 3 - padding
    if destCapacity < destSz then some (dest, .error .outputTooSmall)
    else do
      let out ← base64Loop destSz src (dest, 0)
      some (out.1, .ok destSz)

/-! ### Designated character sets -/

/-- The five tables of `charset_translations`. -/
inductive Charset where
  | latin1
  | vt100Graphics
  | codepage437
  | vax42
  | uk
deriving DecidableEq, Repr, Inhabited

/-- `translation_table`. -/
def translationTable (which : UInt32) : Charset :=
  if which = 'B'.val then .latin1
  else if which = '0'.val then .vt100Graphics
  else if which = 'U'.val then .codepage437
  else if which = 'V'.val then .vax42
  else if which = 'A'.val then .uk
  else .latin1

/-- What VT100 graphics put in place of the characters from `0x5f` to `0x7e`. -/
def vt100Symbols : List UInt32 :=
  [0xa0, 0x25c6, 0x2592, 0x2409, 0x240c, 0x240d, 0x240a, 0xb0, 0xb1, 0x2591, 0x240b, 0x2518,
    0x2510, 0x250c, 0x2514, 0x253c, 0x23ba, 0x23bb, 0x2500, 0x23bc, 0x23bd, 0x251c, 0x2524,
    0x2534, 0x252c, 0x2502, 0x2264, 0x2265, 0x3c0, 0x2260, 0xa3, 0xb7]

/-- What codepage 437 puts in place of the characters up to `0x1f`. -/
def codepage437Controls : List UInt32 :=
  [0x0, 0x263a, 0x263b, 0x2665, 0x2666, 0x2663, 0x2660, 0x2022, 0x25d8, 0x25cb, 0x25d9, 0x2642,
    0x2640, 0x266a, 0x266b, 0x263c, 0x25b6, 0x25c0, 0x2195, 0x203c, 0xb6, 0xa7, 0x25ac, 0x21a8,
    0x2191, 0x2193, 0x2192, 0x2190, 0x221f, 0x2194, 0x25b2, 0x25bc]

/-- What codepage 437 puts in place of the characters from `0x7f` on. -/
def codepage437High : List UInt32 :=
  [0x2302, 0xc7, 0xfc, 0xe9, 0xe2, 0xe4, 0xe0, 0xe5, 0xe7, 0xea, 0xeb, 0xe8, 0xef, 0xee, 0xec,
    0xc4, 0xc5, 0xc9, 0xe6, 0xc6, 0xf4, 0xf6, 0xf2, 0xfb, 0xf9, 0xff, 0xd6, 0xdc, 0xa2, 0xa3,
    0xa5, 0x20a7, 0x192, 0xe1, 0xed, 0xf3, 0xfa, 0xf1, 0xd1, 0xaa, 0xba, 0xbf, 0x2310, 0xac, 0xbd,
    0xbc, 0xa1, 0xab, 0xbb, 0x2591, 0x2592, 0x2593, 0x2502, 0x2524, 0x2561, 0x2562, 0x2556,
    0x2555, 0x2563, 0x2551, 0x2557, 0x255d, 0x255c, 0x255b, 0x2510, 0x2514, 0x2534, 0x252c,
    0x251c, 0x2500, 0x253c, 0x255e, 0x255f, 0x255a, 0x2554, 0x2569, 0x2566, 0x2560, 0x2550,
    0x256c, 0x2567, 0x2568, 0x2564, 0x2565, 0x2559, 0x2558, 0x2552, 0x2553, 0x256b, 0x256a,
    0x2518, 0x250c, 0x2588, 0x2584, 0x258c, 0x2590, 0x2580, 0x3b1, 0xdf, 0x393, 0x3c0, 0x3a3,
    0x3c3, 0xb5, 0x3c4, 0x3a6, 0x398, 0x3a9, 0x3b4, 0x221e, 0x3c6, 0x3b5, 0x2229, 0x2261, 0xb1,
    0x2265, 0x2264, 0x2320, 0x2321, 0xf7, 0x2248, 0xb0, 0x2219, 0xb7, 0x221a, 0x207f, 0xb2,
    0x25a0, 0xa0]

/-- The table of codepage 437. -/
def translateCodepage437 (ch : UInt32) : UInt32 :=
  if ch < 0x20 then codepage437Controls.getD ch.toNat ch
  else if 0x7f ≤ ch then codepage437High.getD (ch.toNat - 0x7f) ch
  else ch

/-- An entry of a table; the index is below 256. -/
def Charset.translate : Charset → UInt32 → UInt32
  | .latin1, ch => ch
  | .vt100Graphics, ch =>
    if ch = 0x2b then 0x2192
    else if ch = 0x2c then 0x2190
    else if ch = 0x2d then 0x2191
    else if ch = 0x2e then 0x2193
    else if ch = 0x30 then 0x2588
    else if 0x5f ≤ ch ∧ ch ≤ 0x7e then vt100Symbols.getD (ch.toNat - 0x5f) ch
    else ch
  | .codepage437, ch => translateCodepage437 ch
  | .vax42, ch =>
    if ch = 0x21 then 0x43b
    else if ch = 0x3f then 0x435
    else if ch = 0x61 then 0x441
    else if ch = 0x68 then 0x435
    else if ch = 0x6f then 0x43a
    else if ch = 0x72 then 0x442
    else if ch = 0x74 then 0x43b
    else if ch = 0x75 then 0x435
    else translateCodepage437 ch
  | .uk, ch => if ch = 0x23 then 0xa3 else ch

end Smelly
