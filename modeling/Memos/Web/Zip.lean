import Mathlib.Data.UInt
import Mathlib.Data.List.Basic
import Memos.Library.Except

namespace Memos
namespace Web

open Library

/-!
# The ZIP archive

The client writes archives whose entries are stored without compression, and
reads them by their central directory.
-/

abbrev Bytes := List UInt8

/-! ## Texts -/

/-- `TextEncoder.encode` -/
def textEncode (text : String) : Bytes := text.toByteArray.data.toList

/-- What the browser makes of bytes that are not UTF-8. -/
structure TextDecoder where
  malformed : Bytes -> String

/-- `decode`, which passes over a byte order mark. -/
def TextDecoder.decode (decoder : TextDecoder) (bytes : Bytes) : String :=
  let unmarked := if bytes.take 3 = [0xef, 0xbb, 0xbf] then bytes.drop 3 else bytes
  match String.fromUTF8? ⟨unmarked.toArray⟩ with
  | some text => text
  | none => decoder.malformed unmarked

/-! ## Writing -/

/-- `writeU16` -/
def u16 (value : Nat) : Bytes := [UInt8.ofNat value, UInt8.ofNat (value / 256)]

/-- `writeU32` -/
def u32 (value : Nat) : Bytes :=
  [UInt8.ofNat value, UInt8.ofNat (value / 256), UInt8.ofNat (value / 65536), UInt8.ofNat (value / 16777216)]

def crc32Step (crc : UInt32) : UInt32 :=
  if crc &&& 1 ≠ 0 then (0xedb88320 : UInt32) ^^^ (crc >>> 1) else crc >>> 1

/-- An entry of `CRC32_TABLE`. -/
def crc32Entry (index : UInt32) : UInt32 := Nat.repeat crc32Step 8 index

def crc32 (data : Bytes) : Nat :=
  let start : UInt32 := 0xffffffff
  let crc := data.foldl (fun crc byte => crc32Entry ((crc ^^^ byte.toUInt32) &&& 0xff) ^^^ (crc >>> 8)) start
  (crc ^^^ start).toNat

/-- The local time of the browser, which is asked for again for each entry. -/
structure LocalTime where
  year : Int
  month : Nat
  day : Nat
  hours : Nat
  minutes : Nat
  seconds : Nat

/-- `toDosDateTime`; the fields do not overlap. -/
def LocalTime.dosDate (time : LocalTime) : Nat :=
  (((time.year - 1980) * 512 + time.month * 32 + time.day) % 65536).toNat

def LocalTime.dosTime (time : LocalTime) : Nat := time.hours * 2048 + time.minutes * 32 + time.seconds / 2

structure ZipEntry where
  name : String
  data : Bytes
deriving DecidableEq

def ZipEntry.nameBytes (entry : ZipEntry) : Bytes := textEncode entry.name

/-- From the signature to the lengths of name and extra field. -/
def localHeader (now : LocalTime) (entry : ZipEntry) : Bytes :=
  u32 0x04034b50 ++ (u16 20 ++ (u16 0 ++ (u16 0 ++ (u16 now.dosTime ++ (u16 now.dosDate ++
    (u32 (crc32 entry.data) ++ (u32 entry.data.length ++ (u32 entry.data.length ++
      (u16 entry.nameBytes.length ++ (u16 0 ++ entry.nameBytes))))))))))

def centralHeader (now : LocalTime) (entry : ZipEntry) (offset : Nat) : Bytes :=
  u32 0x02014b50 ++ (u16 20 ++ (u16 20 ++ (u16 0 ++ (u16 0 ++ (u16 now.dosTime ++ (u16 now.dosDate ++
    (u32 (crc32 entry.data) ++ (u32 entry.data.length ++ (u32 entry.data.length ++
      (u16 entry.nameBytes.length ++ (u16 0 ++ (u16 0 ++ (u16 0 ++ (u16 0 ++ (u32 0 ++
        (u32 offset ++ entry.nameBytes))))))))))))))))

/-- The headers and the data of the entries. -/
def localParts (now : ZipEntry -> LocalTime) : List ZipEntry -> Bytes
  | [] => []
  | entry :: entries => localHeader (now entry) entry ++ (entry.data ++ localParts now entries)

/-- The central directory, from the offset of its first entry on. -/
def centralParts (now : ZipEntry -> LocalTime) : Nat -> List ZipEntry -> Bytes
  | _, [] => []
  | offset, entry :: entries => centralHeader (now entry) entry offset ++
      centralParts now (offset + ((localHeader (now entry) entry).length + entry.data.length)) entries

def endRecord (entries centralDirSize centralDirOffset : Nat) : Bytes :=
  u32 0x06054b50 ++ (u16 0 ++ (u16 0 ++ (u16 entries ++ (u16 entries ++ (u32 centralDirSize ++
    (u32 centralDirOffset ++ u16 0))))))

def createZip (now : ZipEntry -> LocalTime) (entries : List ZipEntry) : Bytes :=
  localParts now entries ++ (centralParts now 0 entries ++
    endRecord entries.length (centralParts now 0 entries).length (localParts now entries).length)

/-! ## Reading -/

def outOfBounds : String := "Offset is outside the bounds of the DataView"

def getUint16 (buffer : Bytes) (offset : Nat) : Except String Nat :=
  match buffer.drop offset with
  | a :: b :: _ => .ok (a.toNat + 256 * b.toNat)
  | _ => .error outOfBounds

def getUint32 (buffer : Bytes) (offset : Nat) : Except String Nat :=
  match buffer.drop offset with
  | a :: b :: c :: d :: _ => .ok (a.toNat + 256 * b.toNat + 65536 * c.toNat + 16777216 * d.toNat)
  | _ => .error outOfBounds

def slice (buffer : Bytes) (first last : Nat) : Bytes := (buffer.drop first).take (last - first)

/-- `findEocd`: the last signature, unless a longer comment follows it. -/
def findEocd (buffer : Bytes) : Option Nat :=
  if buffer.length < 22 then none
  else
    let offsets := (List.range (min 65536 (buffer.length - 21))).map fun back => buffer.length - 22 - back
    offsets.find? fun offset => (buffer.drop offset).take 4 = [0x50, 0x4b, 0x05, 0x06]

/-- The loop over the central directory; the second argument is what is done
with the name and the data of an entry. -/
def readEntries {σ : Type} (buffer : Bytes) (decoder : TextDecoder)
    (add : σ -> String -> Bytes -> Except String σ) : Nat -> Nat -> σ -> Except String σ
  | 0, _, state => .ok state
  | count + 1, cdOffset, state => do
      let signature ← getUint32 buffer cdOffset
      if signature ≠ 0x02014b50 then .error "Invalid central directory entry"
      else do
        let nameLen ← getUint16 buffer (cdOffset + 28)
        let localOffset ← getUint32 buffer (cdOffset + 42)
        let name := decoder.decode (slice buffer (cdOffset + 46) (cdOffset + 46 + nameLen))
        let localNameLen ← getUint16 buffer (localOffset + 26)
        let localExtraLen ← getUint16 buffer (localOffset + 28)
        let dataStart := localOffset + 30 + localNameLen + localExtraLen
        let compressedSize ← getUint32 buffer (cdOffset + 20)
        let state ← add state name (slice buffer dataStart (dataStart + compressedSize))
        let cdExtraLen ← getUint16 buffer (cdOffset + 30)
        let cdCommentLen ← getUint16 buffer (cdOffset + 32)
        readEntries buffer decoder add count (cdOffset + (46 + nameLen + cdExtraLen + cdCommentLen)) state

def readZip {σ : Type} (decoder : TextDecoder) (add : σ -> String -> Bytes -> Except String σ) (start : σ)
    (buffer : Bytes) : Except String σ :=
  match findEocd buffer with
  | none => .error "Invalid ZIP file: end of central directory not found"
  | some eocdOffset => do
      let totalEntries ← getUint16 buffer (eocdOffset + 10)
      let cdOffset ← getUint32 buffer (eocdOffset + 16)
      readEntries buffer decoder add totalEntries cdOffset start

/-! ## Integers -/

theorem getUint16_of_drop {buffer rest : Bytes} {offset value : Nat}
    (here : buffer.drop offset = u16 value ++ rest) : getUint16 buffer offset = .ok (value % 65536) := by
  unfold getUint16
  rw [here]
  simp only [u16, List.cons_append, List.nil_append, UInt8.toNat_ofNat']
  exact congrArg Except.ok (by omega)

theorem getUint32_of_drop {buffer rest : Bytes} {offset value : Nat}
    (here : buffer.drop offset = u32 value ++ rest) : getUint32 buffer offset = .ok (value % 4294967296) := by
  unfold getUint32
  rw [here]
  simp only [u32, List.cons_append, List.nil_append, UInt8.toNat_ofNat']
  exact congrArg Except.ok (by omega)

/-! ## Texts again -/

theorem textEncode_head {text : String} {first : Char} {rest : List Char}
    (begins : text.toList = first :: rest) (ascii : first.toNat < 128) :
    (textEncode text).head? = some (UInt8.ofNat first.toNat) := by
  have whole : text = String.ofList (first :: rest) := by rw [← begins, String.ofList_toList]
  have single : String.utf8EncodeChar first = [UInt8.ofNat first.toNat] := by
    have small : first.val.toNat ≤ 127 := by
      have same : first.val.toNat = first.toNat := rfl
      omega
    rw [String.utf8EncodeChar]
    exact if_pos small
  unfold textEncode
  rw [whole, String.toByteArray_ofList, List.utf8Encode_cons, List.utf8Encode_singleton, single]
  simp

/-- A character takes four bytes at most. -/
theorem length_textEncode_le (chars : List Char) :
    (textEncode (String.ofList chars)).length ≤ 4 * chars.length := by
  unfold textEncode
  rw [String.toByteArray_ofList]
  induction chars with
  | nil => exact Nat.le_refl 0
  | cons c chars ih =>
      have single : ((List.utf8Encode [c]).data.toList).length = c.utf8Size := by
        rw [List.utf8Encode_singleton]
        simp
      have bounded := c.utf8Size_le_four
      rw [List.utf8Encode_cons, ByteArray.data_append, Array.toList_append, List.length_append, single, List.length_cons]
      omega

theorem decode_textEncode (decoder : TextDecoder) {text : String} {first : Char} {rest : List Char}
    (begins : text.toList = first :: rest) (ascii : first.toNat < 128) :
    decoder.decode (textEncode text) = text := by
  have unmarked : ¬ (textEncode text).take 3 = [0xef, 0xbb, 0xbf] := by
    intro mark
    have head := textEncode_head begins ascii
    have marked : (textEncode text).head? = some 0xef := by
      have first := @List.head?_take _ (textEncode text) 3
      rw [mark] at first
      exact first.symm
    rw [marked] at head
    have value := congrArg UInt8.toNat (Option.some.inj head)
    rw [UInt8.toNat_ofNat'] at value
    have mark : (0xef : UInt8).toNat = 239 := rfl
    omega
  have bytes : (⟨(textEncode text).toArray⟩ : ByteArray) = text.toByteArray := rfl
  unfold TextDecoder.decode
  dsimp only
  rw [if_neg unmarked, bytes, String.fromUTF8?, dif_pos text.isValidUTF8]
  rfl

/-! ## The entries that were written -/

theorem centralParts_append (now : ZipEntry -> LocalTime) (offset : Nat) (first second : List ZipEntry) :
    centralParts now offset (first ++ second) = centralParts now offset first ++
      centralParts now (offset + (localParts now first).length) second := by
  induction first generalizing offset with
  | nil => rfl
  | cons entry first ih =>
      rw [List.cons_append, centralParts, centralParts, ih, localParts, List.append_assoc,
        List.length_append, List.length_append, Nat.add_assoc, Nat.add_assoc]

theorem localParts_append (now : ZipEntry -> LocalTime) (first second : List ZipEntry) :
    localParts now (first ++ second) = localParts now first ++ localParts now second := by
  induction first with
  | nil => rfl
  | cons entry first ih =>
      rw [List.cons_append, localParts, localParts, ih, List.append_assoc, List.append_assoc]

theorem length_localHeader (now : LocalTime) (entry : ZipEntry) :
    (localHeader now entry).length = 30 + entry.nameBytes.length := by
  simp only [localHeader, u16, u32, List.length_append, List.length_cons, List.length_nil]
  omega

theorem length_centralHeader (now : LocalTime) (entry : ZipEntry) (offset : Nat) :
    (centralHeader now entry offset).length = 46 + entry.nameBytes.length := by
  simp only [centralHeader, u16, u32, List.length_append, List.length_cons, List.length_nil]
  omega

/-- The archive is within the limits of its fields, and its names can be read
back. -/
structure Fits (now : ZipEntry -> LocalTime) (entries : List ZipEntry) : Prop where
  addressable : (createZip now entries).length < 4294967296
  names : ∀ entry, entry ∈ entries -> entry.nameBytes.length < 65536
  readable : ∀ entry, entry ∈ entries -> ∀ decoder : TextDecoder,
    decoder.decode entry.nameBytes = entry.name

/-- The reader comes to every entry: the offsets of the headers and of the
directory are within their fields, and so are the names. -/
structure Reachable (now : ZipEntry -> LocalTime) (entries : List ZipEntry) : Prop where
  offsets : (localParts now entries).length < 4294967296
  names : ∀ entry, entry ∈ entries -> entry.nameBytes.length < 65536
  readable : ∀ entry, entry ∈ entries -> ∀ decoder : TextDecoder,
    decoder.decode entry.nameBytes = entry.name

theorem drop_add {buffer front rest : Bytes} {offset : Nat} (here : buffer.drop offset = front ++ rest) :
    buffer.drop (offset + front.length) = rest := by
  rw [← List.drop_drop, here, List.drop_left]

variable {σ : Type} {now : ZipEntry -> LocalTime}

/-- One entry of the directory. -/
theorem readEntries_entry {buffer : Bytes} {decoder : TextDecoder} {add : σ -> String -> Bytes -> Except String σ}
    {now : LocalTime} {entry : ZipEntry} {count cdOffset localOffset : Nat} {central rest : Bytes} (state : σ)
    (directory : buffer.drop cdOffset = centralHeader now entry localOffset ++ central)
    (contents : buffer.drop localOffset = localHeader now entry ++ (entry.data ++ rest))
    (small : localOffset < 4294967296) (short : entry.nameBytes.length < 65536)
    (light : entry.data.length < 4294967296) (readable : decoder.decode entry.nameBytes = entry.name) :
    readEntries buffer decoder add (count + 1) cdOffset state =
      (add state entry.name entry.data >>= fun state =>
        readEntries buffer decoder add count (cdOffset + (centralHeader now entry localOffset).length) state) := by
  have inDirectory : ∀ (skipped : Nat) (front after : Bytes),
      (centralHeader now entry localOffset ++ central).drop skipped = front ++ after ->
      buffer.drop (cdOffset + skipped) = front ++ after := by
    intro skipped front after same
    rw [← List.drop_drop, directory, same]
  have inContents : ∀ (skipped : Nat) (front after : Bytes),
      (localHeader now entry ++ (entry.data ++ rest)).drop skipped = front ++ after ->
      buffer.drop (localOffset + skipped) = front ++ after := by
    intro skipped front after same
    rw [← List.drop_drop, contents, same]
  have signature := getUint32_of_drop (inDirectory 0 (u32 0x02014b50) _ rfl)
  have size := getUint32_of_drop (inDirectory 20 (u32 entry.data.length) _ rfl)
  have nameLen := getUint16_of_drop (inDirectory 28 (u16 entry.nameBytes.length) _ rfl)
  have extraLen := getUint16_of_drop (inDirectory 30 (u16 0) _ rfl)
  have commentLen := getUint16_of_drop (inDirectory 32 (u16 0) _ rfl)
  have offset := getUint32_of_drop (inDirectory 42 (u32 localOffset) _ rfl)
  have localNameLen := getUint16_of_drop (inContents 26 (u16 entry.nameBytes.length) _ rfl)
  have localExtraLen := getUint16_of_drop (inContents 28 (u16 0) _ rfl)
  rw [Nat.mod_eq_of_lt (by assumption)] at size nameLen offset localNameLen
  have name : slice buffer (cdOffset + 46) (cdOffset + 46 + entry.nameBytes.length) = entry.nameBytes := by
    rw [slice, inDirectory 46 entry.nameBytes _ rfl, Nat.add_sub_cancel_left, List.take_left]
  have body : buffer.drop (localOffset + 30 + entry.nameBytes.length) = entry.data ++ rest :=
    drop_add (inContents 30 entry.nameBytes _ rfl)
  have data : slice buffer (localOffset + 30 + entry.nameBytes.length)
      (localOffset + 30 + entry.nameBytes.length + entry.data.length) = entry.data := by
    rw [slice, body, Nat.add_sub_cancel_left, List.take_left]
  rw [Nat.add_zero] at signature
  have sameSignature : ¬ 0x02014b50 % 4294967296 ≠ 0x02014b50 := by decide
  rw [readEntries, signature, ok_bind, if_neg sameSignature, nameLen, ok_bind, offset, ok_bind]
  dsimp only
  rw [name, readable, localNameLen, ok_bind, localExtraLen, ok_bind, size, ok_bind, Nat.zero_mod, Nat.add_zero, data,
    length_centralHeader]
  refine bind_congr fun state => ?_
  rw [extraLen, ok_bind, commentLen, ok_bind, Nat.zero_mod, Nat.add_zero]

theorem length_createZip (now : ZipEntry -> LocalTime) (entries : List ZipEntry) :
    (createZip now entries).length = (localParts now entries).length +
      ((centralParts now 0 entries).length + 22) := by
  rw [createZip, List.length_append, List.length_append]
  rfl

theorem Fits.reachable {entries : List ZipEntry} (fits : Fits now entries) :
    Reachable now entries := by
  have addressable := fits.addressable
  rw [length_createZip] at addressable
  exact ⟨by omega, fits.names, fits.readable⟩

/-- The loop from some entry of the directory on. -/
theorem readEntries_createZip (decoder : TextDecoder) (add : σ -> String -> Bytes -> Except String σ)
    (earlier later : List ZipEntry) (reachable : Reachable now (earlier ++ later)) (count : Nat)
    (bounded : count ≤ later.length) (state : σ) :
    readEntries (createZip now (earlier ++ later)) decoder add count
        ((localParts now (earlier ++ later)).length + (centralParts now 0 earlier).length) state =
      (later.take count).foldlM (fun state entry => add state entry.name entry.data) state := by
  induction later generalizing earlier count state with
  | nil =>
      have none : count = 0 := Nat.le_zero.mp bounded
      rw [none]
      rfl
  | cons entry later ih =>
      cases count with
      | zero => rfl
      | succ count =>
          have whole : earlier ++ entry :: later = (earlier ++ [entry]) ++ later := by simp
          have central := centralParts_append now 0 earlier (entry :: later)
          have locals := localParts_append now earlier (entry :: later)
          rw [Nat.zero_add, centralParts] at central
          rw [localParts] at locals
          have member : entry ∈ earlier ++ entry :: later := by simp
          have offsets := reachable.offsets
          rw [locals] at offsets
          simp only [List.length_append] at offsets
          have contents : (createZip now (earlier ++ entry :: later)).drop (localParts now earlier).length =
              localHeader (now entry) entry ++ (entry.data ++ (localParts now later ++
                (centralParts now 0 (earlier ++ entry :: later) ++ endRecord (earlier ++ entry :: later).length
                  (centralParts now 0 (earlier ++ entry :: later)).length
                  (localParts now (earlier ++ entry :: later)).length))) := by
            rw [createZip, locals, List.append_assoc, List.drop_left, List.append_assoc, List.append_assoc]
          have directory : (createZip now (earlier ++ entry :: later)).drop
              ((localParts now (earlier ++ entry :: later)).length + (centralParts now 0 earlier).length) =
              centralHeader (now entry) entry (localParts now earlier).length ++
                (centralParts now ((localParts now earlier).length +
                    ((localHeader (now entry) entry).length + entry.data.length)) later ++
                  endRecord (earlier ++ entry :: later).length
                    (centralParts now 0 (earlier ++ entry :: later)).length
                    (localParts now (earlier ++ entry :: later)).length) := by
            rw [← List.drop_drop, createZip, List.drop_left, central, List.append_assoc, List.drop_left,
              List.append_assoc]
          have step := @readEntries_entry σ _ decoder add (now entry) entry count _ _ _ _ state directory contents (by omega)
            (reachable.names entry member) (by omega) (reachable.readable entry member decoder)
          have onward : (centralParts now 0 (earlier ++ [entry])).length = (centralParts now 0 earlier).length +
              (centralHeader (now entry) entry (localParts now earlier).length).length := by
            rw [centralParts_append, Nat.zero_add, List.length_append, centralParts, centralParts, List.append_nil]
          rw [step, List.take_succ_cons, List.foldlM_cons]
          refine bind_congr fun after => ?_
          rw [whole] at reachable ⊢
          rw [Nat.add_assoc, ← onward]
          exact ih (earlier ++ [entry]) reachable count (Nat.le_of_succ_le_succ bounded) after

theorem findEocd_createZip (now : ZipEntry -> LocalTime) (entries : List ZipEntry) :
    findEocd (createZip now entries) =
      some ((localParts now entries).length + (centralParts now 0 entries).length) := by
  have length := length_createZip now entries
  have counted : min 65536 ((createZip now entries).length - 21) =
      min 65535 ((createZip now entries).length - 22) + 1 := by omega
  have here : (createZip now entries).length - 22 - 0 =
      (localParts now entries).length + (centralParts now 0 entries).length := by omega
  unfold findEocd
  rw [if_neg (by omega), counted, List.range_succ_eq_map, List.map_cons, here]
  dsimp only
  rw [List.find?_cons_of_pos]
  rw [createZip, ← List.drop_drop, List.drop_left, List.drop_left]
  rfl

/-- What is read from an archive that was written: as many entries as the count
in its last record says. -/
theorem readZip_createZip (decoder : TextDecoder) (add : σ -> String -> Bytes -> Except String σ) (start : σ)
    {entries : List ZipEntry} (reachable : Reachable now entries) :
    readZip decoder add start (createZip now entries) =
      (entries.take (entries.length % 65536)).foldlM (fun state entry => add state entry.name entry.data)
        start := by
  have atEnd : (createZip now entries).drop
      ((localParts now entries).length + (centralParts now 0 entries).length) =
      endRecord entries.length (centralParts now 0 entries).length (localParts now entries).length := by
    rw [createZip, ← List.drop_drop, List.drop_left, List.drop_left]
  have offsets := reachable.offsets
  have inRecord : ∀ (skipped : Nat) (front after : Bytes),
      (endRecord entries.length (centralParts now 0 entries).length (localParts now entries).length).drop skipped =
        front ++ after ->
      (createZip now entries).drop ((localParts now entries).length + (centralParts now 0 entries).length +
        skipped) = front ++ after := by
    intro skipped front after same
    rw [← List.drop_drop, atEnd, same]
  have totalEntries := getUint16_of_drop (inRecord 10 (u16 entries.length) _ rfl)
  have cdOffset := getUint32_of_drop (inRecord 16 (u32 (localParts now entries).length) _ rfl)
  rw [Nat.mod_eq_of_lt (by omega)] at cdOffset
  have read := readEntries_createZip decoder add [] entries reachable (entries.length % 65536) (Nat.mod_le _ _) start
  unfold readZip
  rw [findEocd_createZip]
  dsimp only
  rw [totalEntries, ok_bind, cdOffset, ok_bind]
  exact read

end Web
end Memos
