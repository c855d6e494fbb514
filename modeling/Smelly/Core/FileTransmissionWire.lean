/-
Module: Smelly.Core.FileTransmissionWire
Purpose: How a file transmission command is written as text and read from it.
Trusted boundary: human-reviewed model of FileTransmissionCommand in smelly/file_transmission.py and of
  parse_ftc in rsync.c.  A failure of any kind is `none`; a length fits in size_t
-/
import Smelly.Core.FileTransmission
import Smelly.Core.KeyDecoding
import Smelly.Lib.Base64
import Smelly.Lib.Fields
import Smelly.Lib.Utf8

namespace Smelly.FileTransmission

open Utf8

/-! ### Text -/

/-- `decode_utf8_buffer`. -/
def decodeUtf8Buffer (bytes : List UInt8) : Option (List Char) :=
  bytes.toByteArray.utf8Decode?.map Array.toList

/-- The characters of `control_codes_pat`. -/
def isControlCode (c : Char) : Bool :=
  c.val ≤ 9 ∨ (0x0b ≤ c.val ∧ c.val ≤ 0x1f) ∨ c.val = 0x7f ∨ (0x80 ≤ c.val ∧ c.val ≤ 0x9f)

/-- `sanitize_control_codes`. -/
def sanitizeControlCodes (text : List Char) : List Char := text.filter fun c => !isControlCode c

/-- `escape_semicolons`. -/
def escapeSemicolons (x : List Char) : List Char :=
  x.flatMap fun c => if c = ';' then [';', ';'] else [c]

/-- `sval.replace(';;', ';')`. -/
def replaceSemicolons : List Char → List Char
  | ';' :: ';' :: rest => ';' :: replaceSemicolons rest
  | c :: rest => c :: replaceSemicolons rest
  | [] => []

/-- `str` of an integer. -/
def strInt (n : Int) : List Char :=
  if n < 0 then '-' :: Nat.toDigits 10 n.natAbs else Nat.toDigits 10 n.natAbs

/-- `standard_b64decode`: characters that are not in the alphabet are discarded. -/
def standardB64decode (val : List UInt8) : Option (List UInt8) :=
  Base64.decode ((val.map fun b => Char.ofNat b.toNat).filter fun c =>
    (Base64.value c).isSome || c == '=')

/-! ### Enumerations -/

/-- `name`. -/
def Action.name : Action → List Char
  | .send => "send".toList
  | .file => "file".toList
  | .data => "data".toList
  | .endData => "end_data".toList
  | .receive => "receive".toList
  | .invalid => "invalid".toList
  | .cancel => "cancel".toList
  | .status => "status".toList
  | .finish => "finish".toList

/-- `name`. -/
def Compression.name : Compression → List Char
  | .zlib => "zlib".toList
  | .none => "none".toList

/-- `name`. -/
def FileType.name : FileType → List Char
  | .regular => "regular".toList
  | .directory => "directory".toList
  | .symlink => "symlink".toList
  | .link => "link".toList

/-- `name`. -/
def TransmissionType.name : TransmissionType → List Char
  | .simple => "simple".toList
  | .rsync => "rsync".toList

/-- `Action[name]`. -/
def Action.ofName (name : List Char) : Option Action :=
  [Action.send, .file, .data, .endData, .receive, .invalid, .cancel, .status, .finish].find?
    (·.name = name)

/-- `Compression[name]`. -/
def Compression.ofName (name : List Char) : Option Compression :=
  [Compression.zlib, .none].find? (·.name = name)

/-- `FileType[name]`. -/
def FileType.ofName (name : List Char) : Option FileType :=
  [FileType.regular, .directory, .symlink, .link].find? (·.name = name)

/-- `TransmissionType[name]`. -/
def TransmissionType.ofName (name : List Char) : Option TransmissionType :=
  [TransmissionType.simple, .rsync].find? (·.name = name)

/-! ### Writing -/

namespace Command

/-- The text of a string field. -/
def strText (val : String) : List Char := escapeSemicolons (sanitizeControlCodes val.toList)

/-- The text of a string field with `base64`. -/
def base64Text (val : String) : List Char := Base64.encode (utf8 val.toList)

/-- The names and texts of the fields that are not at their default, in the order of the class. -/
def serializedFields (self : Command) : List (List Char × List Char) :=
  Fields.written Action.name "ac".toList self.action .invalid ++
    Fields.written Compression.name "zip".toList self.compression .none ++
    Fields.written FileType.name "ft".toList self.ftype .regular ++
    Fields.written TransmissionType.name "tt".toList self.ttype .simple ++
    Fields.written strText "id".toList self.id "" ++
    Fields.written strText "fid".toList self.fileId "" ++
    Fields.written base64Text "pw".toList self.bypass "" ++
    Fields.written strInt "q".toList self.quiet 0 ++
    Fields.written strInt "mod".toList self.mtime (-1) ++
    Fields.written strInt "prm".toList self.permissions (-1) ++
    Fields.written strInt "sz".toList self.size (-1) ++
    Fields.written base64Text "n".toList self.name "" ++
    Fields.written base64Text "st".toList self.status "" ++
    Fields.written strText "pr".toList self.parent "" ++
    Fields.written Base64.encode "d".toList self.data []

/-- `ftc_prefix`. -/
def ftcPrefix : List Char := "5113".toList

/-- `serialize`: the texts of `get_serialized_fields`, joined. -/
def serialize (self : Command) (prefixWithOscCode : Bool) : List Char :=
  let items := self.serializedFields.map fun (name, val) => name ++ '=' :: val
  [';'].intercalate (if prefixWithOscCode then ftcPrefix :: items else items)

end Command

/-! ### Reading -/

/-- What `parse_ftc` calls the callback with. -/
structure FtcItem where
  key : List UInt8
  val : List UInt8
  hasSemicolons : Bool
deriving DecidableEq, Repr

/-- The variables of `parse_ftc`. -/
structure FtcParser where
  keyStart : Nat := 0
  keyLength : Nat := 0
  valStart : Nat := 0
  hasSemicolons : Bool := false
deriving DecidableEq, Repr

/-- The item whose value has a length. -/
def FtcParser.item (src : List UInt8) (p : FtcParser) (valLength : Nat) : FtcItem :=
  { key := (src.drop p.keyStart).take p.keyLength
    val := (src.drop p.valStart).take valLength
    hasSemicolons := p.hasSemicolons }

/-- The loop of `parse_ftc` from the index `i` on. -/
def FtcParser.loop (src : List UInt8) (p : FtcParser) (i : Nat) : List UInt8 → List FtcItem
  | [] =>
    if p.keyLength ≠ 0 ∧ p.valStart ≠ 0 then [p.item src (src.length - p.valStart)] else []
  | ch :: rest =>
    if p.keyLength = 0 then
      if ch = 0x3d then
        FtcParser.loop src
          { p with keyLength := i - p.keyStart, valStart := i + 1, hasSemicolons := false }
          (i + 1) rest
      else p.loop src (i + 1) rest
    else if ch = 0x3b then
      match rest with
      | 0x3b :: rest => FtcParser.loop src { p with hasSemicolons := true } (i + 2) rest
      | rest =>
        p.item src (i - p.valStart) ::
          FtcParser.loop src { p with keyLength := 0, keyStart := i + 1, valStart := 0 } (i + 1)
            rest
    else p.loop src (i + 1) rest

/-- `parse_ftc`: the calls of the callback. -/
def parseFtc (src : List UInt8) : List FtcItem := FtcParser.loop src {} 0 src

namespace Command

/-- The value of a string field. -/
def strVal (item : FtcItem) : Option String :=
  (decodeUtf8Buffer item.val).map fun sval =>
    String.ofList (sanitizeControlCodes
      (if item.hasSemicolons then replaceSemicolons sval else sval))

/-- The value of a string field with `base64`. -/
def base64Val (item : FtcItem) : Option String := do
  let data ← standardB64decode item.val
  let sval ← decodeUtf8Buffer data
  some (String.ofList (sanitizeControlCodes sval))

/-- The value of an integer field. -/
def intVal (item : FtcItem) : Option Int := PythonKeys.int (item.val.map UInt8.toUInt32)

/-- `handle_item` of `deserialize`; an item with another key is ignored. -/
def handleItem (ans : Command) (item : FtcItem) : Option Command :=
  if item.key = utf8 "ac".toList then
    (decodeUtf8Buffer item.val).bind Action.ofName |>.map fun val => { ans with action := val }
  else if item.key = utf8 "zip".toList then
    (decodeUtf8Buffer item.val).bind Compression.ofName |>.map fun val =>
      { ans with compression := val }
  else if item.key = utf8 "ft".toList then
    (decodeUtf8Buffer item.val).bind FileType.ofName |>.map fun val => { ans with ftype := val }
  else if item.key = utf8 "tt".toList then
    (decodeUtf8Buffer item.val).bind TransmissionType.ofName |>.map fun val =>
      { ans with ttype := val }
  else if item.key = utf8 "id".toList then (strVal item).map fun val => { ans with id := val }
  else if item.key = utf8 "fid".toList then (strVal item).map fun val => { ans with fileId := val }
  else if item.key = utf8 "pw".toList then (base64Val item).map fun val => { ans with bypass := val }
  else if item.key = utf8 "q".toList then (intVal item).map fun val => { ans with quiet := val }
  else if item.key = utf8 "mod".toList then (intVal item).map fun val => { ans with mtime := val }
  else if item.key = utf8 "prm".toList then (intVal item).map fun val => { ans with permissions := val }
  else if item.key = utf8 "sz".toList then (intVal item).map fun val => { ans with size := val }
  else if item.key = utf8 "n".toList then (base64Val item).map fun val => { ans with name := val }
  else if item.key = utf8 "st".toList then (base64Val item).map fun val => { ans with status := val }
  else if item.key = utf8 "pr".toList then (strVal item).map fun val => { ans with parent := val }
  else if item.key = utf8 "d".toList then
    (standardB64decode item.val).map fun val => { ans with data := val }
  else some ans

/-- `deserialize`. -/
def deserialize (data : List UInt8) : Option Command := do
  let ans ← (parseFtc data).foldlM handleItem {}
  if ans.action = .invalid then none else some ans

end Command

end Smelly.FileTransmission
