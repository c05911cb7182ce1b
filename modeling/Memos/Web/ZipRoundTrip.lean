import Memos.Web.Dates
import Memos.Web.ExportData

namespace Memos
namespace Web

open Library

/-!
# Archives read back

What the client writes it can read, as long as the numbers in the records of
the archive fit their fields: the count of the entries, the lengths of the
names, and the offsets.  Nothing in the data of an entry matters.
-/

/-! ## The reader -/

/-- `Map.set`: a key keeps its place. -/
def setFile (files : List (String × Bytes)) (name : String) (data : Bytes) : List (String × Bytes) :=
  if name ∈ files.map Prod.fst then
    files.map fun file => if file.1 = name then (name, data) else file
  else files ++ [(name, data)]

section Reader

variable {υ : Type} (decoder : TextDecoder) (parseData : String -> Except String υ)

/-- One entry of the archive.  `parseData` is `JSON.parse` with the validation
that follows it. -/
def addFile (read : Option υ × List (String × Bytes)) (name : String) (data : Bytes) :
    Except String (Option υ × List (String × Bytes)) :=
  if name = dataName then do
    let parsed ← parseData (decoder.decode data)
    return (some parsed, read.2)
  else if attachmentsFolder.toList <+: name.toList then .ok (read.1, setFile read.2 name data)
  else .ok read

/-- `parseZipFile`, with the attachments in the order of the map. -/
def parseArchive (buffer : Bytes) : Except String (υ × List (String × Bytes)) := do
  let read ← readZip decoder (addFile decoder parseData) (none, []) buffer
  match read with
  | (none, _) => .error "ZIP file does not contain data.json"
  | (some data, files) => .ok (data, files)

end Reader

/-- The entries have distinct names: one is `data.json`, the others are in the
folder of the attachments. -/
structure ArchiveOf (json : Bytes) (entries : List ZipEntry) : Prop where
  distinct : (entries.map ZipEntry.name).Nodup
  named : ∀ entry, entry ∈ entries ->
    entry.name = dataName ∧ entry.data = json ∨ attachmentsFolder.toList <+: entry.name.toList
  present : dataName ∈ entries.map ZipEntry.name

/-- The attachments among the entries. -/
def attachmentsOf (entries : List ZipEntry) : List (String × Bytes) :=
  (entries.filter fun entry => entry.name ≠ dataName).map ZipEntry.file

/-! ## What was written is read -/

theorem setFile_fresh {files : List (String × Bytes)} {name : String} {data : Bytes}
    (fresh : name ∉ files.map Prod.fst) : setFile files name data = files ++ [(name, data)] :=
  if_neg fresh

/-- Names in the archive begin with ASCII, so no byte order mark is taken off. -/
theorem decode_name (decoder : TextDecoder) {name : String}
    (named : name = dataName ∨ attachmentsFolder.toList <+: name.toList) :
    decoder.decode (textEncode name) = name := by
  rcases named with rfl | ⟨rest, same⟩
  · exact @decode_textEncode decoder dataName 'd' "ata.json".toList (by decide) (by decide)
  · exact decode_textEncode decoder same.symm (by decide)

section Writing

variable {υ : Type} {decoder : TextDecoder} {parseData : String -> Except String υ} {value : υ}
  {json : Bytes}

theorem foldlM_addFile (valid : parseData (decoder.decode json) = .ok value) {entries : List ZipEntry}
    (named : ∀ entry, entry ∈ entries ->
      entry.name = dataName ∧ entry.data = json ∨ attachmentsFolder.toList <+: entry.name.toList)
    {found : Option υ} {files : List (String × Bytes)}
    (distinct : (files.map Prod.fst ++ entries.map ZipEntry.name).Nodup) :
    entries.foldlM (fun read entry => addFile decoder parseData read entry.name entry.data) (found, files) =
      .ok (if dataName ∈ entries.map ZipEntry.name then some value else found,
        files ++ attachmentsOf entries) := by
  induction entries generalizing found files with
  | nil => simp [attachmentsOf]; rfl
  | cons entry entries ih =>
      have later : ∀ other, other ∈ entries -> other.name = dataName ∧ other.data = json ∨
          attachmentsFolder.toList <+: other.name.toList :=
        fun other member => named other (List.mem_cons_of_mem _ member)
      rw [List.map_cons] at distinct
      rcases named entry List.mem_cons_self with ⟨isData, isJson⟩ | inFolder
      · have fewer : (files.map Prod.fst ++ entries.map ZipEntry.name).Nodup :=
          distinct.sublist (List.Sublist.append_left (List.sublist_cons_self _ _) _)
        have first : addFile decoder parseData (found, files) entry.name entry.data =
            .ok (some value, files) := by
          unfold addFile
          rw [if_pos isData, isJson, valid]
          rfl
        rw [List.foldlM_cons, first, ok_bind, ih later fewer]
        simp [attachmentsOf, isData]
      · have notData : entry.name ≠ dataName := fun same => dataName_not_file (same ▸ inFolder)
        have fresh : entry.name ∉ files.map Prod.fst := by
          intro member
          exact (List.nodup_append.mp distinct).2.2 _ member _ List.mem_cons_self rfl
        have moved : ((files ++ [entry.file]).map Prod.fst ++ entries.map ZipEntry.name).Nodup := by
          rw [List.map_append, List.append_assoc]
          exact distinct
        have first : addFile decoder parseData (found, files) entry.name entry.data =
            .ok (found, files ++ [entry.file]) := by
          unfold addFile
          rw [if_neg notData, if_pos inFolder, setFile_fresh fresh]
          rfl
        rw [List.foldlM_cons, first, ok_bind, ih later moved]
        have other : (dataName = entry.name) = False := eq_false (Ne.symm notData)
        simp [attachmentsOf, notData, other]

/-- Within the fields of the records the archive is read back. -/
theorem parseArchive_createZip {now : ZipEntry -> LocalTime} {entries : List ZipEntry}
    (archive : ArchiveOf json entries) (valid : parseData (decoder.decode json) = .ok value)
    (few : entries.length < 65536) (names : ∀ entry, entry ∈ entries -> entry.nameBytes.length < 65536)
    (offsets : (localParts now entries).length < 4294967296) :
    parseArchive decoder parseData (createZip now entries) = .ok (value, attachmentsOf entries) := by
  have reachable : Reachable now entries := by
    refine ⟨offsets, names, fun entry member decoder => decode_name decoder ?_⟩
    exact (archive.named entry member).imp And.left id
  have read := readZip_createZip decoder (addFile decoder parseData) (none, []) reachable
  rw [Nat.mod_eq_of_lt few, List.take_length,
    @foldlM_addFile _ decoder parseData value json valid entries archive.named none [] archive.distinct,
    if_pos archive.present] at read
  unfold parseArchive
  rw [read]
  rfl

end Writing

/-! ## What is read was within the fields -/

theorem getUint16_lt {buffer : Bytes} {offset value : Nat} (read : getUint16 buffer offset = .ok value) :
    value < 65536 := by
  unfold getUint16 at read
  split at read
  case h_1 low high _ _ =>
    cases read
    have := low.toNat_lt
    have := high.toNat_lt
    omega
  case h_2 => cases read

theorem getUint32_lt {buffer : Bytes} {offset value : Nat} (read : getUint32 buffer offset = .ok value) :
    value < 4294967296 := by
  unfold getUint32 at read
  split at read
  case h_1 first second third fourth _ _ =>
    cases read
    have := first.toNat_lt
    have := second.toNat_lt
    have := third.toNat_lt
    have := fourth.toNat_lt
    omega
  case h_2 => cases read

theorem length_slice (buffer : Bytes) (first last : Nat) : (slice buffer first last).length ≤ last - first := by
  unfold slice
  rw [List.length_take]
  exact Nat.min_le_left _ _

/-- A name and a file that some entry of a directory can hold. -/
def Readable (decoder : TextDecoder) (item : String × Bytes) : Prop :=
  (Exists fun bytes => bytes.length < 65536 ∧ item.1 = decoder.decode bytes) ∧ item.2.length < 4294967296

/-- Whatever the bytes are, the reader adds as many entries as it was told, and
each one has been read from fields of limited width. -/
theorem readEntries_reads {σ : Type} {buffer : Bytes} {decoder : TextDecoder}
    {add : σ -> String -> Bytes -> Except String σ} {count cdOffset : Nat} {state after : σ}
    (success : readEntries buffer decoder add count cdOffset state = .ok after) :
    Exists fun items : List (String × Bytes) => items.length = count ∧
      (∀ item, item ∈ items -> Readable decoder item) ∧
      items.foldlM (fun state item => add state item.1 item.2) state = .ok after := by
  induction count generalizing cdOffset state with
  | zero =>
      cases success
      exact ⟨[], rfl, fun item member => absurd member List.not_mem_nil, rfl⟩
  | succ count ih =>
      rcases bind_eq_ok.mp success with ⟨signature, _, success⟩
      split at success
      · cases success
      rcases bind_eq_ok.mp success with ⟨nameLen, readNameLen, success⟩
      rcases bind_eq_ok.mp success with ⟨localOffset, _, success⟩
      rcases bind_eq_ok.mp success with ⟨localNameLen, _, success⟩
      rcases bind_eq_ok.mp success with ⟨localExtraLen, _, success⟩
      rcases bind_eq_ok.mp success with ⟨compressedSize, readSize, success⟩
      rcases bind_eq_ok.mp success with ⟨next, added, success⟩
      rcases bind_eq_ok.mp success with ⟨cdExtraLen, _, success⟩
      rcases bind_eq_ok.mp success with ⟨cdCommentLen, _, success⟩
      rcases ih success with ⟨items, length, readable, folded⟩
      have shortName := getUint16_lt readNameLen
      have lightData := getUint32_lt readSize
      refine ⟨(decoder.decode (slice buffer (cdOffset + 46) (cdOffset + 46 + nameLen)),
        slice buffer (localOffset + 30 + localNameLen + localExtraLen)
          (localOffset + 30 + localNameLen + localExtraLen + compressedSize)) :: items,
        congrArg (· + 1) length, ?_, ?_⟩
      rotate_left
      · rw [List.foldlM_cons]
        dsimp only
        rw [added]
        exact folded
      · intro item member
        rcases List.mem_cons.mp member with rfl | later
        · refine ⟨⟨_, ?_, rfl⟩, ?_⟩
          · refine lt_of_le_of_lt (length_slice _ _ _) ?_
            omega
          · refine lt_of_le_of_lt (length_slice _ _ _) ?_
            omega
        · exact readable item later

/-- Text that was not malformed is as long as the bytes it was read from. -/
theorem length_decode_le {decoder : TextDecoder} {bytes : Bytes}
    (replaces : ∀ bytes, '\ufffd' ∈ (decoder.malformed bytes).toList)
    (proper : '\ufffd' ∉ (decoder.decode bytes).toList) :
    (textEncode (decoder.decode bytes)).length ≤ bytes.length := by
  have unmarkedLength : (if bytes.take 3 = [0xef, 0xbb, 0xbf] then bytes.drop 3 else bytes).length ≤
      bytes.length := by
    split
    · rw [List.length_drop]
      exact Nat.sub_le _ _
    · exact Nat.le_refl _
  unfold TextDecoder.decode at proper ⊢
  dsimp only at proper ⊢
  generalize (if bytes.take 3 = [0xef, 0xbb, 0xbf] then bytes.drop 3 else bytes) = unmarked at *
  unfold String.fromUTF8? at proper ⊢
  split at proper
  case h_1 text isText =>
    split at isText
    case isTrue valid =>
      cases isText
      exact unmarkedLength
    case isFalse => cases isText
  case h_2 => exact absurd (replaces unmarked) proper

section Reading

variable {υ : Type} {decoder : TextDecoder} {parseData : String -> Except String υ}

theorem length_setFile_le (files : List (String × Bytes)) (name : String) (data : Bytes) :
    (setFile files name data).length ≤ files.length + 1 := by
  unfold setFile
  split <;> simp

theorem mem_setFile {files : List (String × Bytes)} {name : String} {data : Bytes}
    {file : String × Bytes} (member : file ∈ setFile files name data) :
    file ∈ files ∨ file = (name, data) := by
  unfold setFile at member
  split at member
  · rcases List.mem_map.mp member with ⟨other, isOther, same⟩
    split at same
    · exact .inr same.symm
    · exact .inl (same ▸ isOther)
  · exact (List.mem_append.mp member).imp id List.mem_singleton.mp

/-- Every entry adds the data or one file at most, and nothing else is there. -/
theorem foldlM_addFile_le {items : List (String × Bytes)} {read after : Option υ × List (String × Bytes)}
    (success : items.foldlM (fun read item => addFile decoder parseData read item.1 item.2) read =
      .ok after) :
    after.2.length + after.1.toList.length ≤ read.2.length + read.1.toList.length + items.length ∧
      ∀ file, file ∈ after.2 -> file ∈ read.2 ∨ file ∈ items := by
  induction items generalizing read with
  | nil =>
      cases success
      exact ⟨Nat.le_refl _, fun file member => .inl member⟩
  | cons item items ih =>
      rw [List.foldlM_cons] at success
      rcases bind_eq_ok.mp success with ⟨next, added, continued⟩
      rcases ih continued with ⟨fewer, known⟩
      have step : next.2.length + next.1.toList.length ≤ read.2.length + read.1.toList.length + 1 ∧
          ∀ file, file ∈ next.2 -> file ∈ read.2 ∨ file = item := by
        unfold addFile at added
        split at added
        · rcases bind_eq_ok.mp added with ⟨parsed, _, finished⟩
          cases finished
          exact ⟨by simp, fun file member => .inl member⟩
        · split at added
          · cases added
            have := length_setFile_le read.2 item.1 item.2
            exact ⟨by dsimp only; omega, fun file member => mem_setFile member⟩
          · cases added
            exact ⟨Nat.le_succ _, fun file member => .inl member⟩
      refine ⟨by rw [List.length_cons]; omega, fun file member => ?_⟩
      rcases known file member with inNext | later
      · exact (step.2 file inNext).imp id fun same : file = item => same ▸ List.mem_cons_self
      · exact .inr (List.mem_cons_of_mem _ later)

theorem length_attachmentsOf {entries : List ZipEntry} {json : Bytes} (archive : ArchiveOf json entries) :
    entries.length ≤ (attachmentsOf entries).length + 1 := by
  have once : (entries.map ZipEntry.name).count dataName ≤ 1 :=
    List.nodup_iff_count_le_one.mp archive.distinct dataName
  rw [List.count_eq_countP, List.countP_map] at once
  have split := @List.length_eq_countP_add_countP _ (fun entry : ZipEntry => entry.name == dataName) entries
  have isFiles : (attachmentsOf entries).length =
      entries.countP fun entry => ¬ (entry.name == dataName) = true := by
    unfold attachmentsOf
    rw [List.length_map, List.countP_eq_length_filter]
    simp
  have same : entries.countP ((fun name => name == dataName) ∘ ZipEntry.name) =
      entries.countP fun entry => entry.name == dataName := rfl
  omega

/-- Only what is within the fields is read back, wherever the data of the
archive starts and ends. -/
theorem within_of_parseArchive {now : ZipEntry -> LocalTime} {entries : List ZipEntry} {json : Bytes} {value : υ}
    (archive : ArchiveOf json entries)
    (success : parseArchive decoder parseData (createZip now entries) = .ok (value, attachmentsOf entries)) :
    entries.length < 65536 ∧ ∀ file, file ∈ attachmentsOf entries -> Readable decoder file := by
  rcases bind_eq_ok.mp success with ⟨⟨found, files⟩, read, finished⟩
  unfold readZip at read
  rw [findEocd_createZip] at read
  rcases bind_eq_ok.mp read with ⟨count, readCount, read⟩
  rcases bind_eq_ok.mp read with ⟨cdOffset, _, read⟩
  rcases readEntries_reads read with ⟨items, length, readable, folded⟩
  rcases foldlM_addFile_le folded with ⟨fewer, known⟩
  have bounded := getUint16_lt readCount
  cases found with
  | none => cases finished
  | some data =>
      cases finished
      have longer := length_attachmentsOf archive
      dsimp only [Option.toList_some, Option.toList_none, List.length_cons, List.length_nil] at fewer
      refine ⟨by omega, fun file member => ?_⟩
      exact readable file ((known file member).resolve_left List.not_mem_nil)

end Reading

/-! ## The round trip -/

/-- The archive is read back: the same data and, in their order, the same
files. -/
def RoundTrip {υ : Type} (decoder : TextDecoder) (parseData : String -> Except String υ)
    (now : ZipEntry -> LocalTime) (entries : List ZipEntry) (value : υ) : Prop :=
  parseArchive decoder parseData (createZip now entries) = .ok (value, attachmentsOf entries)

/-- An archive is read back if its count, its names and its offsets are within
their fields; otherwise, if count, names or files are not, it is not read back.
A name that was decoded without loss is a name that has no replacement
character. -/
theorem zip_round_trip {υ : Type} {decoder : TextDecoder} {parseData : String -> Except String υ}
    (replaces : ∀ bytes, '\ufffd' ∈ (decoder.malformed bytes).toList) {now : ZipEntry -> LocalTime}
    {entries : List ZipEntry} {json : Bytes} {value : υ} (archive : ArchiveOf json entries)
    (valid : parseData (decoder.decode json) = .ok value) :
    (entries.length < 65536 -> (∀ entry, entry ∈ entries -> entry.nameBytes.length < 65536) ->
      (localParts now entries).length < 4294967296 ->
        RoundTrip decoder parseData now entries value) ∧
    (RoundTrip decoder parseData now entries value ->
      entries.length < 65536 ∧ ∀ entry, entry ∈ entries -> entry.name ≠ dataName ->
        entry.data.length < 4294967296 ∧
          ('\ufffd' ∉ entry.name.toList -> entry.nameBytes.length < 65536)) := by
  refine ⟨parseArchive_createZip archive valid, fun trip => ?_⟩
  rcases within_of_parseArchive archive trip with ⟨few, readable⟩
  refine ⟨few, fun entry member notData => ?_⟩
  have isFile : entry.file ∈ attachmentsOf entries :=
    List.mem_map_of_mem (List.mem_filter.mpr ⟨member, by simpa using notData⟩)
  rcases readable entry.file isFile with ⟨⟨bytes, short, decoded⟩, light⟩
  refine ⟨light, fun proper => ?_⟩
  have same : entry.name = decoder.decode bytes := decoded
  unfold ZipEntry.nameBytes
  rw [same] at proper ⊢
  exact lt_of_le_of_lt (length_decode_le replaces proper) short

/-! ### Two archives -/

def utf8Decoder : TextDecoder := ⟨fun _ => "\ufffd"⟩

/-- The seconds go on with the size of the entries. -/
def anyTime (entry : ZipEntry) : LocalTime := ⟨2025, 1, 4, 9, 0, entry.data.length⟩

/-- Data and a number of empty attachments, named by five digits. -/
def numberedFile (number : Nat) : ZipEntry :=
  ⟨attachmentsFolder ++ String.ofList (padded 5 number), []⟩

def numberedEntries (count : Nat) : List ZipEntry :=
  ⟨dataName, []⟩ :: (List.range count).map numberedFile

theorem numberedEntries_archive {count : Nat} (few : count ≤ 100000) :
    ArchiveOf [] (numberedEntries count) := by
  have inFolder : ∀ number, attachmentsFolder.toList <+: (numberedFile number).name.toList := by
    intro number
    unfold numberedFile
    rw [String.toList_append]
    exact List.prefix_append _ _
  refine ⟨?_, ?_, List.mem_cons_self⟩
  · refine List.nodup_cons.mpr ⟨?_, ?_⟩
    · rw [List.map_map]
      intro member
      rcases List.mem_map.mp member with ⟨number, _, same⟩
      have isData : (numberedFile number).name = dataName := same
      exact dataName_not_file (isData ▸ inFolder number)
    · rw [List.map_map]
      refine List.Nodup.map_on ?_ List.nodup_range
      intro first isFirst second isSecond same
      have lists := congrArg String.toList same
      simp only [Function.comp, numberedFile, String.toList_append, String.toList_ofList] at lists
      have digits := List.append_cancel_left lists
      have low := List.mem_range.mp isFirst
      have high := List.mem_range.mp isSecond
      rw [← readDigits_padded 5 first (by omega), digits, readDigits_padded 5 second (by omega)]
  · intro entry member
    rcases List.mem_cons.mp member with rfl | isFile
    · exact .inl ⟨rfl, rfl⟩
    · rcases List.mem_map.mp isFile with ⟨number, _, rfl⟩
      exact .inr (inFolder number)

/-- Data and two attachments, of which one is not UTF-8. -/
def fileEntries : List ZipEntry :=
  [⟨dataName, textEncode "[\x22é\x22]"⟩, ⟨"attachments/né.txt", [0x68, 0x69]⟩,
    ⟨"attachments/n_1.bin", [0x50, 0x4b, 0x05, 0x06, 0xff, 0x00]⟩]

theorem zip_round_trip_files :
    parseArchive utf8Decoder (fun text => (.ok text : Except String String)) (createZip anyTime fileEntries) =
      .ok ("[\x22é\x22]",
        [("attachments/né.txt", [0x68, 0x69]), ("attachments/n_1.bin", [0x50, 0x4b, 0x05, 0x06, 0xff, 0x00])]) := by
  have entries : ArchiveOf (textEncode "[\x22é\x22]") fileEntries := by
    refine ⟨by decide, fun entry member => ?_, List.mem_cons_self⟩
    rcases List.mem_cons.mp member with rfl | file
    · exact .inl ⟨rfl, rfl⟩
    · have folder : (fileEntries.tail.all fun entry => attachmentsFolder.toList.isPrefixOf entry.name.toList) = true := by
        decide
      exact .inr (List.isPrefixOf_iff_prefix.mp (List.all_eq_true.mp folder entry file))
  have short : (fileEntries.all fun entry => entry.nameBytes.length < 65536) = true := by
    decide +kernel
  have text : utf8Decoder.decode (textEncode "[\x22é\x22]") = "[\x22é\x22]" := by
    decide +kernel
  exact (zip_round_trip (fun _ => (by decide : '\ufffd' ∈ "\ufffd".toList)) entries (congrArg Except.ok text)).1 (by decide)
    (fun entry member => of_decide_eq_true (List.all_eq_true.mp short entry member)) (by decide +kernel)

/-- With 65535 attachments the count in the last record is 0, and the reader
does not find the data. -/
theorem zip_count_lost : ArchiveOf [] (numberedEntries 65535) ∧
    ¬ RoundTrip utf8Decoder (fun text => (.ok text : Except String String)) anyTime
      (numberedEntries 65535) "" := by
  have archive := @numberedEntries_archive 65535 (by decide)
  refine ⟨archive, fun trip => ?_⟩
  have few := (within_of_parseArchive archive trip).1
  rw [numberedEntries, List.length_cons, List.length_map, List.length_range] at few
  exact absurd few (by decide)

end Web
end Memos
