import Mathlib
import Memos.Library.LastIndex

namespace Memos
namespace Service
namespace MotionVideo

open Library

/-!
# The video in a motion photo

A motion photo is a JPEG with an MP4 appended to it.  The video is searched from
the end of the file by the type of its first box.  A candidate that is rejected
takes with it the last byte of a candidate right before it, so that a start is
missed when a further box type directly follows it and the file ends early.
-/

/-! ## Bytes -/

abbrev Blob := List UInt8

def bytesOf (text : String) : Blob := text.toList.map fun c => UInt8.ofNat c.toNat

def ftyp : Blob := bytesOf "ftyp"

/-- `binary.BigEndian.Uint32` -/
def bigEndianUint32 (bytes : Blob) : Nat :=
  bytes.foldl (fun value byte => 256 * value + byte.toNat) 0

def looksLikeMP4 (blob : Blob) : Bool :=
  if blob.length < 12 || (blob.drop 4).take 4 != ftyp then false
  else
    let size := bigEndianUint32 (blob.take 4)
    size == 1 || 8 ≤ size

theorem ftyp_nonempty : ftyp ≠ [] := by decide

theorem ftyp_length : ftyp.length = 4 := rfl

/-- The loop of `findEmbeddedMP4Start`; every round ends before the last. -/
def findEmbeddedMP4StartFrom (blob : Blob) (searchFrom : Nat) : Int :=
  if 8 < searchFrom then
    match found : lastIndex ftyp (blob.take searchFrom) with
    | none => -1
    | some index =>
        if index < 4 then -1
        else
          let start := index - 4
          if looksLikeMP4 (blob.drop start) then start
          else findEmbeddedMP4StartFrom blob (index - 1)
  else -1
termination_by searchFrom
decreasing_by
  have within := (lastIndex_take_some ftyp_nonempty found).2.1
  rw [ftyp_length] at within
  omega

def findEmbeddedMP4Start (blob : Blob) : Int := findEmbeddedMP4StartFrom blob blob.length

/-! ## The metadata -/

def lower (byte : UInt8) : UInt8 := if 65 ≤ byte ∧ byte ≤ 90 then byte + 32 else byte

/-- What follows a name, in letters of either case.  `(?i)` also takes the long
s, of two bytes, for the letter. -/
def afterName : Blob -> Blob -> Option Blob
  | [], text => some text
  | _ :: _, [] => none
  | letter :: name, byte :: text =>
      if lower byte = letter then afterName name text
      else if letter = 115 ∧ byte = 0xC5 ∧ text.head? = some 0xBF then afterName name text.tail
      else none

/-- `["'=:\s>]` -/
def isSeparator (byte : UInt8) : Bool :=
  byte ∈ [34, 39, 61, 58, 9, 10, 12, 13, 32, 62]

/-- What follows one or more separators. -/
def afterSeparators : Blob -> Option Blob
  | [] => none
  | byte :: text => if isSeparator byte then some (text.dropWhile isSeparator) else none

/-- The value of a field named at the beginning of the text. -/
def valueAt (names : List Blob) (value : Blob -> Option Blob) (text : Blob) : Option Blob :=
  names.findSome? fun name =>
    (afterName name text).bind fun rest => (afterSeparators rest).bind value

/-- The value at the leftmost match of a regular expression. -/
def firstValue (names : List Blob) (value : Blob -> Option Blob) (text : Blob) : Option Blob :=
  text.tails.findSome? (valueAt names value)

def isDigit (byte : UInt8) : Bool := 48 ≤ byte && byte ≤ 57

/-- `1` -/
def one : Blob -> Option Blob
  | 49 :: _ => some [49]
  | _ => none

/-- `(\d+)` -/
def digits (text : Blob) : Option Blob :=
  match text.takeWhile isDigit with
  | [] => none
  | digit :: more => some (digit :: more)

/-- `(-?\d+)` -/
def signedDigits : Blob -> Option Blob
  | 45 :: text => (digits text).map (45 :: ·)
  | text => digits text

def motionPhotoNames : List Blob :=
  [bytesOf "camera:motionphoto", bytesOf "gcamera:motionphoto", bytesOf "microvideo"]

def presentationNames : List Blob :=
  [bytesOf "camera:motionphotopresentationtimestampus",
    bytesOf "gcamera:motionphotopresentationtimestampus"]

def microVideoOffsetNames : List Blob :=
  [bytesOf "camera:microvideooffset", bytesOf "gcamera:microvideooffset"]

/-- `motionPhotoMarkerRegex.MatchString` -/
def motionPhotoMarker (text : Blob) : Bool := (firstValue motionPhotoNames one text).isSome

def decimal (digits : Blob) : Nat :=
  digits.foldl (fun value digit => 10 * value + (digit.toNat - 48)) 0

/-- `strconv.ParseInt` in base ten with 64 bits, of what the expressions match. -/
def parseInt64 : Blob -> Option Int
  | 45 :: digits => if decimal digits ≤ 2 ^ 63 then some (-(decimal digits : Int)) else none
  | digits => if decimal digits < 2 ^ 63 then some (decimal digits) else none

structure Detection where
  videoStart : Int
  presentationTimestampUs : Int
deriving DecidableEq

def maxMetadataScanBytes : Nat := 256 * 1024

def metadata (blob : Blob) : Blob := blob.take (min blob.length maxMetadataScanBytes)

/-- The number that `microVideoOffsetRegex` captures. -/
def microVideoOffset (text : Blob) : Option Int :=
  (firstValue microVideoOffsetNames digits text).bind parseInt64

/-- The start of the video by the offset of the metadata. -/
def microVideoStart (blob text : Blob) : Option Nat :=
  match microVideoOffset text with
  | none => none
  | some offset =>
      if 0 < offset ∧ offset < blob.length then
        let start := blob.length - offset.toNat
        if looksLikeMP4 (blob.drop start) then some start else none
      else none

def detectVideoStart (blob text : Blob) : Int :=
  match microVideoStart blob text with
  | some start => start
  | none => findEmbeddedMP4Start blob

def parsePresentationTimestampUs (text : Blob) : Int :=
  match firstValue presentationNames signedDigits text with
  | none => 0
  | some value => (parseInt64 value).getD 0

/-- `bytes.HasPrefix(blob, []byte{0xFF, 0xD8})` -/
def isJPEG (blob : Blob) : Bool := [0xFF, 0xD8].isPrefixOf blob

def detectJPEG (blob : Blob) : Option Detection :=
  if blob.length < 16 || !isJPEG blob then none
  else
    let text := metadata blob
    if !motionPhotoMarker text then none
    else
      let videoStart := detectVideoStart blob text
      if videoStart < 0 || (blob.length : Int) ≤ videoStart then none
      else some { videoStart, presentationTimestampUs := parsePresentationTimestampUs text }

def extractVideo (blob : Blob) : Option (Blob × Detection) :=
  match detectJPEG blob with
  | none => none
  | some detection =>
      let videoBlob := blob.drop detection.videoStart.toNat
      if !looksLikeMP4 videoBlob then none
      else some (videoBlob, detection)

/-! ## What looks like a video -/

theorem bigEndianUint32_pos {first : UInt8} {rest : Blob} (long : rest.length = 3)
    (positive : first ≠ 0) : 8 ≤ bigEndianUint32 (first :: rest) := by
  rcases List.length_eq_three.mp long with ⟨second, third, fourth, rfl⟩
  have nonzero : first.toNat ≠ 0 := fun zero => positive (UInt8.toNat_inj.mp zero)
  simp only [bigEndianUint32, List.foldl_cons, List.foldl_nil]
  omega

variable {blob : Blob} {start : Nat}

theorem looksLikeMP4_iff :
    looksLikeMP4 (blob.drop start) = true ↔
      start + 12 ≤ blob.length ∧ ftyp <+: blob.drop (start + 4) ∧
        (bigEndianUint32 ((blob.drop start).take 4) = 1 ∨
          8 ≤ bigEndianUint32 ((blob.drop start).take 4)) := by
  have typed : ((blob.drop start).drop 4).take 4 = ftyp ↔ ftyp <+: blob.drop (start + 4) := by
    rw [List.drop_drop, List.prefix_iff_eq_take, ftyp_length]
    exact eq_comm
  rw [looksLikeMP4]
  simp only [List.length_drop]
  split
  · rename_i rejected
    simp only [Bool.or_eq_true, decide_eq_true_eq, bne_iff_ne, ne_eq, typed] at rejected
    constructor
    · intro impossible
      contradiction
    · rintro ⟨long, named, _sized⟩
      rcases rejected with short | unnamed
      · omega
      · exact absurd named unnamed
  · rename_i accepted
    simp only [Bool.or_eq_true, decide_eq_true_eq, bne_iff_ne, ne_eq, typed, not_or,
      Decidable.not_not] at accepted
    simp only [Bool.or_eq_true, beq_iff_eq, decide_eq_true_eq]
    constructor
    · exact fun sized => ⟨by omega, accepted.2, sized⟩
    · exact fun looks => looks.2.2

/-- A box type over a size whose first byte is not zero is rejected only for
the end of the file. -/
theorem short_of_rejected (first : UInt8) (rejected : ¬ looksLikeMP4 (blob.drop start) = true)
    (named : ftyp <+: blob.drop (start + 4)) (sized : blob[start]? = some first) (positive : first ≠ 0) :
    blob.length < start + 12 := by
  by_contra long
  refine rejected (looksLikeMP4_iff.mpr ⟨by omega, named, Or.inr ?_⟩)
  rcases List.getElem?_eq_some_iff.mp sized with ⟨inside, first_eq⟩
  rw [List.drop_eq_getElem_cons inside, List.take_succ_cons, first_eq]
  refine bigEndianUint32_pos ?_ positive
  rw [List.length_take, List.length_drop]
  omega

theorem ftyp_unbordered : Unbordered ftyp := by
  intro shift positive short
  rw [ftyp_length] at short
  have cases : shift = 1 ∨ shift = 2 ∨ shift = 3 := by omega
  rcases cases with rfl | rfl | rfl <;> decide

/-- A candidate right behind a video start is a box type, so that only the end
of the file rejects it. -/
theorem short_of_adjacent (named : ftyp <+: blob.drop (start + 4)) (again : ftyp <+: blob.drop (start + 8))
    (rejected : ¬ looksLikeMP4 (blob.drop (start + 4)) = true) :
    blob.length < start + 16 := by
  have sized := getElem?_of_occurrence named 0 (by decide)
  have short := short_of_rejected 102 rejected again sized (by decide)
  omega

/-- So does one more byte in between. -/
theorem short_of_near (named : ftyp <+: blob.drop (start + 4)) (again : ftyp <+: blob.drop (start + 9))
    (rejected : ¬ looksLikeMP4 (blob.drop (start + 5)) = true) :
    blob.length < start + 17 := by
  have sized := getElem?_of_occurrence named 1 (by decide)
  have short := short_of_rejected 116 rejected again sized (by decide)
  omega

/-! ## The search -/

/-- The starts of what looks like a video. -/
def VideoStart (blob : Blob) (start : Nat) : Prop := looksLikeMP4 (blob.drop start) = true

theorem VideoStart.named (looks : VideoStart blob start) :
    ftyp <+: blob.drop (start + 4) :=
  (looksLikeMP4_iff.mp looks).2.1

theorem VideoStart.long (looks : VideoStart blob start) :
    start + 12 ≤ blob.length :=
  (looksLikeMP4_iff.mp looks).1

/-- The largest start, and `-1` exactly when there is none. -/
def IsLastVideoStart (blob : Blob) (found : Int) : Prop :=
  (found = -1 ∧ forall start, ¬ VideoStart blob start) ∨
    Exists fun start : Nat =>
      found = start ∧ VideoStart blob start ∧ forall other, VideoStart blob other -> other ≤ start

/-- A box type follows directly on a start, and the file ends before it could
head a video of its own; at the beginning of the file one byte may stand in
between. -/
def Overshadowed (blob : Blob) (start : Nat) : Prop :=
  VideoStart blob start ∧
    (ftyp <+: blob.drop (start + 8) ∧ blob.length < start + 16 ∨
      start = 0 ∧ ftyp <+: blob.drop 9 ∧ blob.length < 17)

/-- What one round of the search does. -/
theorem findEmbeddedMP4StartFrom_step (blob : Blob) (searchFrom : Nat) :
    (searchFrom ≤ 8 ∧ findEmbeddedMP4StartFrom blob searchFrom = -1) ∨
    (lastIndex ftyp (blob.take searchFrom) = none ∧
      findEmbeddedMP4StartFrom blob searchFrom = -1) ∨
    (Exists fun index => lastIndex ftyp (blob.take searchFrom) = some index ∧ index < 4 ∧
      findEmbeddedMP4StartFrom blob searchFrom = -1) ∨
    (Exists fun start => lastIndex ftyp (blob.take searchFrom) = some (start + 4) ∧
      VideoStart blob start ∧ findEmbeddedMP4StartFrom blob searchFrom = start) ∨
    (8 < searchFrom ∧ Exists fun start =>
      lastIndex ftyp (blob.take searchFrom) = some (start + 4) ∧ ¬ VideoStart blob start ∧
      findEmbeddedMP4StartFrom blob searchFrom = findEmbeddedMP4StartFrom blob (start + 3)) := by
  rw [findEmbeddedMP4StartFrom]
  split
  · rename_i far
    split
    · rename_i missed
      exact Or.inr (Or.inl ⟨missed, rfl⟩)
    · rename_i index found
      split
      · rename_i early
        exact Or.inr (Or.inr (Or.inl ⟨index, found, early, rfl⟩))
      · rename_i late
        have index_eq : index = index - 4 + 4 := by omega
        dsimp only
        split
        · rename_i looks
          exact Or.inr (Or.inr (Or.inr (Or.inl ⟨index - 4, by rw [found, <- index_eq], looks, rfl⟩)))
        · rename_i rejected
          refine Or.inr (Or.inr (Or.inr (Or.inr ⟨far, index - 4, by rw [found, <- index_eq],
            rejected, ?_⟩)))
          rw [show index - 4 + 3 = index - 1 by omega]
  · rename_i near
    exact Or.inl ⟨by omega, rfl⟩

/-- What the search finds is a start in the part that it searches. -/
theorem findEmbeddedMP4StartFrom_sound (blob : Blob) (searchFrom : Nat) :
    findEmbeddedMP4StartFrom blob searchFrom = -1 ∨
      Exists fun start : Nat => findEmbeddedMP4StartFrom blob searchFrom = start ∧
        VideoStart blob start ∧ start + 8 ≤ searchFrom := by
  induction searchFrom using Nat.strong_induction_on with
  | _ searchFrom ih =>
      rcases findEmbeddedMP4StartFrom_step blob searchFrom with
        ⟨_, result⟩ | ⟨_, result⟩ | ⟨_, _, _, result⟩ | ⟨start, found, looks, result⟩
          | ⟨_, start, found, _, result⟩
      · exact Or.inl result
      · exact Or.inl result
      · exact Or.inl result
      · have within := (lastIndex_take_some ftyp_nonempty found).2.1
        rw [ftyp_length] at within
        exact Or.inr ⟨start, result, looks, by omega⟩
      · have within := (lastIndex_take_some ftyp_nonempty found).2.1
        rw [ftyp_length] at within
        rw [result]
        rcases ih (start + 3) (by omega) with none | ⟨earlier, equal, looks, bound⟩
        · exact Or.inl none
        · exact Or.inr ⟨earlier, equal, looks, by omega⟩

/-- The part that is searched holds every start, as long as none is
overshadowed. -/
theorem findEmbeddedMP4StartFrom_complete (blob : Blob) (searchFrom : Nat)
    (clear : forall start, ¬ Overshadowed blob start)
    (held : forall start, VideoStart blob start -> start + 8 ≤ searchFrom ∧ 8 < searchFrom) :
    IsLastVideoStart blob (findEmbeddedMP4StartFrom blob searchFrom) := by
  induction searchFrom using Nat.strong_induction_on with
  | _ searchFrom ih =>
      rcases findEmbeddedMP4StartFrom_step blob searchFrom with
        ⟨near, result⟩ | ⟨missed, result⟩ | ⟨index, found, early, result⟩
          | ⟨start, found, looks, result⟩ | ⟨far, start, found, rejected, result⟩
      · refine Or.inl ⟨result, fun other looks => ?_⟩
        have bound := held other looks
        omega
      · refine Or.inl ⟨result, fun other looks => ?_⟩
        have beyond := lastIndex_take_none ftyp_nonempty missed looks.named
        have bound := held other looks
        rw [ftyp_length] at beyond
        omega
      · refine Or.inl ⟨result, fun other looks => ?_⟩
        have beyond := (lastIndex_take_some ftyp_nonempty found).2.2 (other + 4) (by omega) looks.named
        have bound := held other looks
        rw [ftyp_length] at beyond
        omega
      · refine Or.inr ⟨start, result, looks, fun other otherLooks => ?_⟩
        by_contra later
        have beyond := (lastIndex_take_some ftyp_nonempty found).2.2 (other + 4) (by omega)
          otherLooks.named
        have bound := held other otherLooks
        rw [ftyp_length] at beyond
        omega
      · rcases lastIndex_take_some ftyp_nonempty found with ⟨named, within, isLast⟩
        rw [ftyp_length] at within isLast
        rw [result]
        refine ih (start + 3) (by omega) fun other looks => ?_
        have bound := held other looks
        have before : other < start := by
          rcases Nat.lt_trichotomy other start with earlier | same | later
          · exact earlier
          · exact absurd (same ▸ looks) rejected
          · have beyond := isLast (other + 4) (by omega) looks.named
            omega
        have apart := ftyp_unbordered.apart looks.named named (by omega)
        rw [ftyp_length] at apart
        have notAdjacent : start ≠ other + 4 := by
          intro adjacent
          subst adjacent
          exact clear other ⟨looks, Or.inl ⟨named, short_of_adjacent looks.named named rejected⟩⟩
        have notNear : ¬ (other = 0 ∧ start = 5) := by
          rintro ⟨zero, five⟩
          subst zero five
          exact clear 0 ⟨looks, Or.inr ⟨rfl, named, short_of_near looks.named named rejected⟩⟩
        omega

/-- An overshadowed start is missed. -/
theorem not_isLastVideoStart_of_overshadowed (overshadowed : Overshadowed blob start) :
    ¬ IsLastVideoStart blob (findEmbeddedMP4Start blob) := by
  rcases overshadowed with ⟨looks, cases⟩
  have long := looks.long
  -- The type that overshadows the start is the last one of the file, and the file rejects it.
  have last : Exists fun index => (index = start + 8 ∨ start = 0 ∧ index = 9) ∧
      ftyp <+: blob.drop index ∧ blob.length < index + 8 := by
    rcases cases with ⟨named, short⟩ | ⟨zero, named, short⟩
    · exact ⟨start + 8, Or.inl rfl, named, by omega⟩
    · exact ⟨9, Or.inr ⟨zero, rfl⟩, named, by omega⟩
  rcases last with ⟨index, place, named, short⟩
  have missed : findEmbeddedMP4Start blob = -1 ∨
      Exists fun other : Nat => findEmbeddedMP4Start blob = other ∧ other < start := by
    have indexBound := occurrence_bound named ftyp_nonempty
    rw [ftyp_length] at indexBound
    have foundIndex : forall found, lastIndex ftyp (blob.take blob.length) = some found ->
        found = index := by
      intro found equal
      rcases lastIndex_take_some ftyp_nonempty equal with ⟨foundNamed, within, isLast⟩
      rw [ftyp_length] at within isLast
      rcases Nat.lt_trichotomy found index with earlier | same | later
      · have beyond := isLast index earlier named
        omega
      · exact same
      · have apart := ftyp_unbordered.apart named foundNamed later
        rw [ftyp_length] at apart
        omega
    rcases findEmbeddedMP4StartFrom_step blob blob.length with
      ⟨_, result⟩ | ⟨_, result⟩ | ⟨_, _, _, result⟩ | ⟨found, equal, foundLooks, _⟩
        | ⟨_, found, equal, _, result⟩
    · exact Or.inl result
    · exact Or.inl result
    · exact Or.inl result
    · have same := foundIndex (found + 4) equal
      have foundLong := foundLooks.long
      omega
    · have same := foundIndex (found + 4) equal
      rw [findEmbeddedMP4Start, result]
      rcases place with adjacent | ⟨zero, near⟩
      · rcases findEmbeddedMP4StartFrom_sound blob (found + 3) with none | ⟨earlier, equal, _, bound⟩
        · exact Or.inl none
        · exact Or.inr ⟨earlier, equal, by omega⟩
      · refine Or.inl ?_
        rw [findEmbeddedMP4StartFrom, if_neg (by omega)]
  rintro (⟨_, none⟩ | ⟨largest, equal, _, isLargest⟩)
  · exact none start looks
  · have bound := isLargest start looks
    rcases missed with absent | ⟨other, other_eq, before⟩ <;> omega

theorem isLastVideoStart_iff (blob : Blob) :
    IsLastVideoStart blob (findEmbeddedMP4Start blob) ↔ forall start, ¬ Overshadowed blob start := by
  constructor
  · exact fun right start overshadowed => not_isLastVideoStart_of_overshadowed overshadowed right
  · refine fun clear => findEmbeddedMP4StartFrom_complete blob blob.length clear fun start looks => ?_
    have long := looks.long
    omega

/-! ## The extraction -/

theorem afterName_some {name text rest : Blob} (plain : 115 ∉ name)
    (after : afterName name text = some rest) :
    Exists fun front : Blob => text = front ++ rest ∧ front.map lower = name := by
  induction name generalizing text with
  | nil => exact ⟨[], Option.some.inj after, rfl⟩
  | cons letter name ih =>
      rw [List.mem_cons, not_or] at plain
      cases text with
      | nil => contradiction
      | cons byte text =>
          rw [afterName] at after
          split at after
          · rename_i equal
            rcases ih plain.2 after with ⟨front, text_eq, front_eq⟩
            exact ⟨byte :: front, by rw [text_eq, List.cons_append],
              by rw [List.map_cons, equal, front_eq]⟩
          · rw [if_neg fun long => plain.1 long.1.symm] at after
            contradiction

theorem length_of_afterSeparators {text rest : Blob} (after : afterSeparators text = some rest) :
    rest.length < text.length := by
  cases text with
  | nil => contradiction
  | cons byte text =>
      rw [afterSeparators] at after
      split at after
      · have shorter := (List.dropWhile_sublist (l := text) isSeparator).length_le
        rw [<- Option.some.inj after, List.length_cons]
        omega
      · contradiction

/-- The marker is the name of a field, and at least two bytes follow it. -/
theorem motionPhotoMarker_iff_field {text : Blob} (marked : motionPhotoMarker text = true) :
    Exists fun before => Exists fun front => Exists fun rest =>
      text = before ++ (front ++ rest) ∧ front.map lower ∈ motionPhotoNames ∧ 2 ≤ rest.length := by
  rcases Option.isSome_iff_exists.mp marked with ⟨value, found⟩
  rcases List.exists_of_findSome?_eq_some found with ⟨tail, member, matched⟩
  rcases (List.mem_tails _ _).mp member with ⟨before, text_eq⟩
  rcases List.exists_of_findSome?_eq_some matched with ⟨name, known, valued⟩
  rcases Option.bind_eq_some_iff.mp valued with ⟨rest, named, valued⟩
  rcases Option.bind_eq_some_iff.mp valued with ⟨last, separated, isOne⟩
  have plain : forall name, name ∈ motionPhotoNames -> (115 : UInt8) ∉ name := by decide
  rcases afterName_some (plain name known) named with ⟨front, tail_eq, front_eq⟩
  have shorter := length_of_afterSeparators separated
  have nonempty : 0 < last.length := by
    cases last with
    | nil => contradiction
    | cons byte last => exact Nat.succ_pos _
  exact ⟨before, front, rest, by rw [<- text_eq, tail_eq], front_eq ▸ known, by omega⟩

/-- A file with a marker and a video has sixteen bytes. -/
theorem long_of_marked (marked : motionPhotoMarker (metadata blob) = true) (looks : VideoStart blob start) :
    16 ≤ blob.length := by
  by_contra short
  have long := looks.long
  have whole : metadata blob = blob := by
    rw [metadata, maxMetadataScanBytes]
    exact List.take_of_length_le (by omega)
  rw [whole] at marked
  rcases motionPhotoMarker_iff_field marked with ⟨before, front, rest, blob_eq, known, more⟩
  have lengths := congrArg List.length blob_eq
  rw [List.length_append, List.length_append] at lengths
  have sizes : forall name, name ∈ motionPhotoNames -> 10 ≤ name.length ∧ (102 : UInt8) ∉ name := by decide
  rcases sizes _ known with ⟨wide, noLetter⟩
  rw [List.length_map] at wide
  -- The letter f of the box type would be one of the name.
  have letter := getElem?_of_occurrence looks.named 0 (by decide)
  rw [blob_eq, Nat.add_zero, List.getElem?_append_right (by omega),
    List.getElem?_append_left (by omega)] at letter
  refine noLetter (List.mem_map.mpr ⟨102, List.mem_of_getElem? letter, ?_⟩)
  decide

/-- The search and the extraction, at every position that a file may name. -/
structure FindsVideo (blob : Blob) : Prop where
  search : IsLastVideoStart blob (findEmbeddedMP4Start blob)
  extraction : isJPEG blob = true -> motionPhotoMarker (metadata blob) = true ->
    (Exists fun start => VideoStart blob start) ->
    Exists fun start : Nat => Exists fun detection =>
      extractVideo blob = some (blob.drop start, detection) ∧ detection.videoStart = start ∧
        VideoStart blob start ∧
        forall offset : Nat, microVideoOffset (metadata blob) = some (offset : Int) ->
          offset ≤ blob.length -> VideoStart blob (blob.length - offset) ->
          start = blob.length - offset

/-- The metadata name the whole file as the video, and another one follows. -/
structure NamesWholeFile (blob : Blob) : Prop where
  jpeg : isJPEG blob = true
  marked : motionPhotoMarker (metadata blob) = true
  offset : microVideoOffset (metadata blob) = some (blob.length : Int)
  whole : VideoStart blob 0
  later : Exists fun start => 0 < start ∧ VideoStart blob start

theorem extractVideo_of_start (jpeg : isJPEG blob = true) (marked : motionPhotoMarker (metadata blob) = true)
    (detected : detectVideoStart blob (metadata blob) = start) (looks : VideoStart blob start) :
    extractVideo blob = some (blob.drop start,
      { videoStart := start
        presentationTimestampUs := parsePresentationTimestampUs (metadata blob) }) := by
  have long := long_of_marked marked looks
  have bound := looks.long
  have detection : detectJPEG blob = some
      { videoStart := start
        presentationTimestampUs := parsePresentationTimestampUs (metadata blob) } := by
    rw [detectJPEG, if_neg (by simp [jpeg, long])]
    simp only [marked, detected, Bool.not_true, Bool.false_eq_true, if_false]
    rw [if_neg (by simp only [Bool.or_eq_true, decide_eq_true_eq]; omega)]
  rw [extractVideo, detection]
  simp only [Int.toNat_natCast]
  rw [if_neg (by rw [looks]; decide)]

theorem microVideoStart_some {blob text : Blob} (found : microVideoStart blob text = some start) :
    VideoStart blob start ∧ Exists fun offset : Nat =>
      microVideoOffset text = some (offset : Int) ∧ start = blob.length - offset := by
  rw [microVideoStart] at found
  split at found
  · contradiction
  · rename_i offset offset_eq
    split at found
    · rename_i inside
      dsimp only at found
      split at found
      · rename_i looks
        obtain rfl : blob.length - offset.toNat = start := Option.some.inj found
        exact ⟨looks, offset.toNat, by rw [offset_eq, Int.toNat_of_nonneg (by omega)], rfl⟩
      · contradiction
    · contradiction

theorem microVideoStart_of_offset {blob text : Blob} {offset : Nat}
    (named : microVideoOffset text = some (offset : Int)) (inside : offset < blob.length)
    (looks : VideoStart blob (blob.length - offset)) :
    microVideoStart blob text = some (blob.length - offset) := by
  have positive : 0 < offset := by
    have bound := looks.long
    omega
  rw [microVideoStart, named]
  dsimp only
  rw [if_pos (by omega), Int.toNat_natCast]
  exact if_pos looks

theorem microVideoStart_whole {blob text : Blob} (named : microVideoOffset text = some (blob.length : Int)) :
    microVideoStart blob text = none := by
  rw [microVideoStart, named]
  dsimp only
  rw [if_neg (by omega)]

theorem detectVideoStart_of_some {blob text : Blob} (found : microVideoStart blob text = some start) :
    detectVideoStart blob text = start := by
  rw [detectVideoStart, found]

theorem detectVideoStart_of_none {blob text : Blob} (missed : microVideoStart blob text = none) :
    detectVideoStart blob text = findEmbeddedMP4Start blob := by
  rw [detectVideoStart, missed]

theorem findsVideo_of_clear (clear : forall start, ¬ Overshadowed blob start) (notWhole : ¬ NamesWholeFile blob) :
    FindsVideo blob := by
  have search := (isLastVideoStart_iff blob).mpr clear
  refine ⟨search, ?_⟩
  rintro jpeg marked ⟨some, someLooks⟩
  cases found : microVideoStart blob (metadata blob) with
  | some start =>
      rcases microVideoStart_some found with ⟨looks, offset, named, start_eq⟩
      refine ⟨start, _, extractVideo_of_start jpeg marked (detectVideoStart_of_some found) looks, rfl,
        looks, fun other otherNamed _within _looks => ?_⟩
      rw [named] at otherNamed
      have same := Int.natCast_inj.mp (Option.some.inj otherNamed)
      rw [start_eq, same]
  | none =>
      rcases search with ⟨_, none⟩ | ⟨start, start_eq, looks, isLargest⟩
      · exact absurd someLooks (none some)
      · refine ⟨start, _, extractVideo_of_start jpeg marked
          ((detectVideoStart_of_none found).trans start_eq) looks, rfl, looks,
          fun offset named within offsetLooks => ?_⟩
        -- An offset inside the file would have been followed: it names the whole file.
        have whole : offset = blob.length := by
          by_contra inside
          have followed := microVideoStart_of_offset named (by omega) offsetLooks
          rw [found] at followed
          contradiction
        subst whole
        rw [Nat.sub_self] at offsetLooks ⊢
        by_contra later
        exact notWhole ⟨jpeg, marked, named, offsetLooks, start, by omega, looks⟩

theorem not_findsVideo_of_whole (whole : NamesWholeFile blob) : ¬ FindsVideo blob := by
  intro finds
  rcases whole.later with ⟨later, positive, laterLooks⟩
  rcases finds.extraction whole.jpeg whole.marked ⟨later, laterLooks⟩ with
    ⟨start, detection, extracted, detected, _looks, follows⟩
  have zero := follows blob.length whole.offset (Nat.le_refl _) (by rw [Nat.sub_self]; exact whole.whole)
  rw [Nat.sub_self] at zero
  subst zero
  rcases finds.search with ⟨_, none⟩ | ⟨largest, largest_eq, largestLooks, isLargest⟩
  · exact none later laterLooks
  · have bound := isLargest later laterLooks
    rw [extractVideo_of_start whole.jpeg whole.marked
      ((detectVideoStart_of_none (microVideoStart_whole whole.offset)).trans largest_eq)
      largestLooks] at extracted
    have same := congrArg (fun result => result.2.videoStart) (Option.some.inj extracted)
    dsimp only at same
    rw [detected] at same
    omega

/-- Videos are found unless one is overshadowed, or the metadata name the whole
file. -/
theorem findsVideo_iff (blob : Blob) :
    FindsVideo blob ↔ (forall start, ¬ Overshadowed blob start) ∧ ¬ NamesWholeFile blob := by
  constructor
  · intro finds
    exact ⟨(isLastVideoStart_iff blob).mp finds.search,
      fun whole => not_findsVideo_of_whole whole finds⟩
  · rintro ⟨clear, notWhole⟩
    exact findsVideo_of_clear clear notWhole

/-- A motion photo whose video consists of a header and the type of a box. -/
def truncatedPhoto : Blob :=
  [0xFF, 0xD8] ++ bytesOf "MicroVideo=1" ++ [0, 0, 0, 8] ++ ftyp ++ ftyp

/-- The suffix from the fourteenth byte on looks like a video, but none is found. -/
theorem truncatedPhoto_missed :
    VideoStart truncatedPhoto 14 ∧ extractVideo truncatedPhoto = none ∧
      ¬ FindsVideo truncatedPhoto := by
  have looks : VideoStart truncatedPhoto 14 := by
    rw [VideoStart]
    decide +kernel
  have overshadowed : Overshadowed truncatedPhoto 14 :=
    ⟨looks, Or.inl ⟨by decide +kernel, by decide +kernel⟩⟩
  exact ⟨looks, by decide +kernel,
    fun finds => not_isLastVideoStart_of_overshadowed overshadowed finds.search⟩

end MotionVideo
end Service
end Memos
