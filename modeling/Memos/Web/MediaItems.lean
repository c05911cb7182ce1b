import Memos.Library.Batches
import Memos.Library.FirstOfEach

namespace Memos
namespace Web
namespace MediaItems

open Library

/-!
# The visual items of a list of attachments

Attachments are shown as items: the still and the video of a live photo as one,
every other attachment by itself.  Items of one id are shown once.  An item is
lost when the group id of a live photo is the name of another attachment, and a
motion container is shown as a plain image when another attachment of its group
comes first.
-/

/-! ## Attachments -/

inductive MotionMediaFamily where
  | unspecified
  | appleLivePhoto
  | androidMotionPhoto
deriving DecidableEq

inductive MotionMediaRole where
  | unspecified
  | still
  | video
  | container
deriving DecidableEq

structure MotionMedia where
  family : MotionMediaFamily
  role : MotionMediaRole
  groupId : String := ""
  presentationTimestampUs : Int := 0
  hasEmbeddedVideo : Bool := false
deriving DecidableEq

structure Attachment where
  name : String
  filename : String
  externalLink : String := ""
  type : String
  motionMedia : Option MotionMedia := none
deriving DecidableEq

def startsWith (text start : String) : Bool := start.toList.isPrefixOf text.toList

def endsWith (text ending : String) : Bool := ending.toList.isSuffixOf text.toList

def includes (text part : String) : Bool := text.toList.tails.any part.toList.isPrefixOf

/-- `toLowerCase` where it gives an ASCII letter; the Kelvin sign does, too. -/
def lower (c : Char) : Char := if c = '\u212A' then 'k' else c.toLower

/-- `filename.split(".").pop().toLowerCase()` -/
def extension (filename : String) : String :=
  String.ofList (((filename.toList.splitOn '.').getLastD []).map lower)

def isPSD (type : String) : Bool :=
  type ∈ ["image/vnd.adobe.photoshop", "image/x-photoshop", "image/photoshop"]

def isImage (type : String) : Bool := startsWith type "image/" && !isPSD type

def isMidiFile (type : String) : Bool :=
  type ∈ ["audio/midi", "audio/mid", "audio/x-midi", "application/x-midi"]

/-- The type that decides how an attachment is shown; a generic type with an
unknown extension has none. -/
def getAttachmentType (attachment : Attachment) : Option String :=
  let type := attachment.type
  if isImage type then some "image/*"
  else if startsWith type "video" then some "video/*"
  else if startsWith type "audio" && !isMidiFile type then some "audio/*"
  else if type = "text/markdown" ∨ type = "text/x-markdown" then some "text/markdown"
  else if endsWith attachment.filename ".md" then some "text/markdown"
  else if type = "application/octet-stream" ∨ type = "" then
    let ext := extension attachment.filename
    if ext ∈ ["mov", "mp4", "mkv", "avi", "webm", "m4v", "3gp", "ogv", "wmv", "flv"] then some "video/*"
    else if ext ∈ ["mp3", "wav", "flac", "aac", "ogg", "m4a", "wma", "opus", "aiff"] then some "audio/*"
    else none
  else if startsWith type "text" then some "text/*"
  else if startsWith type "application/epub+zip" then some "application/epub+zip"
  else if startsWith type "application/pdf" then some "application/pdf"
  else if includes type "word" then some "application/msword"
  else if includes type "excel" then some "application/msexcel"
  else if startsWith type "application/zip" then some "application/zip"
  else if startsWith type "application/x-java-archive" then some "application/x-java-archive"
  else some "application/octet-stream"

/-- `motionMedia?.groupId || undefined` -/
def getAttachmentMotionGroupId (attachment : Attachment) : Option String :=
  match attachment.motionMedia with
  | none => none
  | some motion => if motion.groupId = "" then none else some motion.groupId

def isAppleLivePhotoStill (attachment : Attachment) : Bool :=
  match attachment.motionMedia with
  | none => false
  | some motion => motion.family = .appleLivePhoto && motion.role = .still

def isAppleLivePhotoVideo (attachment : Attachment) : Bool :=
  match attachment.motionMedia with
  | none => false
  | some motion => motion.family = .appleLivePhoto && motion.role = .video

def isAndroidMotionContainer (attachment : Attachment) : Bool :=
  match attachment.motionMedia with
  | none => false
  | some motion =>
      motion.family = .androidMotionPhoto && motion.role = .container && motion.hasEmbeddedVideo

def isMotionAttachment (attachment : Attachment) : Bool :=
  isAppleLivePhotoStill attachment || isAppleLivePhotoVideo attachment ||
    isAndroidMotionContainer attachment

/-! ## Items -/

inductive Kind where
  | image
  | video
  | motion
  | pdf
  | md
deriving DecidableEq

structure PreviewMediaItem where
  id : String
  kind : Kind
  filename : String
  sourceUrl : Option String := none
  posterUrl : Option String := none
  motionUrl : Option String := none
  presentationTimestampUs : Option Int := none
deriving DecidableEq

structure AttachmentVisualItem where
  id : String
  kind : Kind
  filename : String
  posterUrl : String
  sourceUrl : String
  attachmentNames : List String
  attachments : List Attachment
  previewItem : PreviewMediaItem
  mimeType : String
deriving DecidableEq

section Building

-- `window.location.origin`
variable (origin : String)

def fileUrl (attachment : Attachment) : String :=
  origin ++ "/file/" ++ attachment.name ++ "/" ++ attachment.filename

def getAttachmentUrl (attachment : Attachment) : String :=
  if attachment.externalLink ≠ "" then attachment.externalLink else fileUrl origin attachment

def getAttachmentThumbnailUrl (attachment : Attachment) : String :=
  fileUrl origin attachment ++ "?thumbnail=true"

def getAttachmentMotionClipUrl (attachment : Attachment) : String :=
  fileUrl origin attachment ++ "?motion=true"

def singleKind (attachment : Attachment) : Kind :=
  let type := getAttachmentType attachment
  if type = some "application/pdf" then .pdf
  else if type = some "text/markdown" then .md
  else if type = some "video/*" then .video
  else .image

def buildSingleAttachmentItem (attachment : Attachment) : AttachmentVisualItem :=
  let sourceUrl := getAttachmentUrl origin attachment
  let posterUrl := if getAttachmentType attachment = some "image/*" then
    getAttachmentThumbnailUrl origin attachment else sourceUrl
  let kind := singleKind attachment
  { id := attachment.name
    kind
    filename := attachment.filename
    posterUrl
    sourceUrl
    attachmentNames := [attachment.name]
    attachments := [attachment]
    previewItem :=
      { id := attachment.name
        kind
        filename := attachment.filename
        sourceUrl := some sourceUrl
        posterUrl := if kind = .image ∨ kind = .video then some posterUrl else none }
    mimeType := attachment.type }

def buildAppleMotionItem (still video : Attachment) : AttachmentVisualItem :=
  let sourceUrl := getAttachmentUrl origin video
  let posterUrl := getAttachmentThumbnailUrl origin still
  let id := (getAttachmentMotionGroupId still).getD still.name
  { id
    kind := .motion
    filename := still.filename
    posterUrl
    sourceUrl
    attachmentNames := [still.name, video.name]
    attachments := [still, video]
    previewItem :=
      { id
        kind := .motion
        filename := still.filename
        posterUrl := some posterUrl
        motionUrl := some sourceUrl }
    mimeType := still.type }

def buildAndroidMotionItem (attachment : Attachment) : AttachmentVisualItem :=
  { id := attachment.name
    kind := .motion
    filename := attachment.filename
    posterUrl := getAttachmentThumbnailUrl origin attachment
    sourceUrl := getAttachmentMotionClipUrl origin attachment
    attachmentNames := [attachment.name]
    attachments := [attachment]
    previewItem :=
      { id := attachment.name
        kind := .motion
        filename := attachment.filename
        posterUrl := some (getAttachmentThumbnailUrl origin attachment)
        motionUrl := some (getAttachmentMotionClipUrl origin attachment)
        presentationTimestampUs := attachment.motionMedia.map MotionMedia.presentationTimestampUs }
    mimeType := attachment.type }

/-! ## Building the items -/

/-- The attachments that name a group. -/
def grouped (attachments : List Attachment) : List Attachment :=
  attachments.filter fun attachment => (getAttachmentMotionGroupId attachment).isSome

/-- The map from group ids to the attachments of the group. -/
def attachmentsByGroup (attachments : List Attachment) : List (Option String × List Attachment) :=
  tally getAttachmentMotionGroupId [] (fun group attachment => group ++ [attachment])
    (grouped attachments)

/-- `attachmentsByGroup.get(groupId) ?? []` -/
def groupOf (attachments : List Attachment) (groupId : String) : List Attachment :=
  match (attachmentsByGroup attachments).find? fun entry => entry.1 = some groupId with
  | none => []
  | some entry => entry.2

structure Progress where
  consumedGroups : List String := []
  items : List AttachmentVisualItem := []

/-- An attachment and then the other members of its group, each by itself. -/
def memberItems (attachment : Attachment) (group : List Attachment) : List AttachmentVisualItem :=
  buildSingleAttachmentItem origin attachment ::
    (group.filter fun member => member.name ≠ attachment.name).map (buildSingleAttachmentItem origin)

/-- What an attachment that is no container pushes when its group was not
consumed. -/
def groupItems (attachment : Attachment) (group : List Attachment) : List AttachmentVisualItem :=
  match group.find? isAppleLivePhotoStill, group.find? isAppleLivePhotoVideo with
  | some still, some video =>
      if group.length = 2 then [buildAppleMotionItem origin still video]
      else memberItems origin attachment group
  | _, _ => memberItems origin attachment group

/-- The body of the loop over the attachments. -/
def visit (attachments : List Attachment) (progress : Progress) (attachment : Attachment) : Progress :=
  if isAndroidMotionContainer attachment then
    { progress with items := progress.items ++ [buildAndroidMotionItem origin attachment] }
  else
    match getAttachmentMotionGroupId attachment with
    | none => { progress with items := progress.items ++ [buildSingleAttachmentItem origin attachment] }
    | some groupId =>
        if groupId ∈ progress.consumedGroups then progress
        else
          { consumedGroups := groupId :: progress.consumedGroups
            items := progress.items ++ groupItems origin attachment (groupOf attachments groupId) }

def dedupeVisualItems (items : List AttachmentVisualItem) : List AttachmentVisualItem :=
  firstOfEach AttachmentVisualItem.id [] items

/-- The items that the loop pushes. -/
def pushedItems (attachments : List Attachment) : List AttachmentVisualItem :=
  (attachments.foldl (visit origin attachments) {}).items

def buildAttachmentVisualItems (attachments : List Attachment) : List AttachmentVisualItem :=
  dedupeVisualItems (pushedItems origin attachments)

def isVisual (attachment : Attachment) : Bool :=
  getAttachmentType attachment ∈
    [some "image/*", some "video/*", some "application/pdf", some "text/markdown"] ||
    isMotionAttachment attachment

def countLogicalAttachmentItems (attachments : List Attachment) : Nat :=
  let visualAttachments := attachments.filter isVisual
  let visualNames := visualAttachments.map Attachment.name
  let visualCount := (buildAttachmentVisualItems origin visualAttachments).length
  let nonVisualCount := (attachments.filter fun attachment => attachment.name ∉ visualNames).length
  visualCount + nonVisualCount

end Building

/-! ## Groups -/

theorem groupOf_eq (attachments : List Attachment) (groupId : String) :
    groupOf attachments groupId =
      attachments.filter fun attachment => getAttachmentMotionGroupId attachment = some groupId := by
  have append (rows : List Attachment) (start : List Attachment) :
      rows.foldl (fun group attachment => group ++ [attachment]) start = start ++ rows := by
    induction rows generalizing start with
    | nil => rw [List.foldl_nil, List.append_nil]
    | cons row rows ih =>
        rw [List.foldl_cons, ih, List.append_assoc, List.singleton_append]
  have group_eq : group getAttachmentMotionGroupId (some groupId) (grouped attachments) =
      attachments.filter fun attachment => getAttachmentMotionGroupId attachment = some groupId := by
    rw [group, grouped, List.filter_filter]
    refine List.filter_congr fun attachment _ => ?_
    by_cases same : getAttachmentMotionGroupId attachment = some groupId
    · simp [same]
    · simp [same]
  have nodup : ((attachmentsByGroup attachments).map Prod.fst).Nodup :=
    (tally_spec (grouped attachments)).1
  have keys : some groupId ∈ (attachmentsByGroup attachments).map Prod.fst ↔
      some groupId ∈ (grouped attachments).map getAttachmentMotionGroupId :=
    (tally_spec (grouped attachments)).2.1 (some groupId)
  rw [groupOf, <- group_eq]
  by_cases known : some groupId ∈ (grouped attachments).map getAttachmentMotionGroupId
  · have entry : (some groupId, group getAttachmentMotionGroupId (some groupId) (grouped attachments)) ∈
        attachmentsByGroup attachments := by
      have held : (some groupId, (group getAttachmentMotionGroupId (some groupId)
          (grouped attachments)).foldl (fun group attachment => group ++ [attachment]) []) ∈
          attachmentsByGroup attachments :=
        (tally_spec (grouped attachments)).2.2 (some groupId) known
      rwa [append, List.nil_append] at held
    rw [find_key nodup entry]
  · have missed : ((attachmentsByGroup attachments).find? fun entry => entry.1 = some groupId) = none := by
      rw [List.find?_eq_none]
      intro entry member same
      exact known (keys.mp (List.mem_map.mpr ⟨entry, member, of_decide_eq_true same⟩))
    have empty : group getAttachmentMotionGroupId (some groupId) (grouped attachments) = [] := by
      rw [group, List.filter_eq_nil_iff]
      intro attachment member same
      exact known (List.mem_map.mpr ⟨attachment, member, of_decide_eq_true same⟩)
    rw [missed, empty]

variable {attachment : Attachment}

theorem mem_groupOf {attachments : List Attachment} {groupId : String} :
    attachment ∈ groupOf attachments groupId ↔
      attachment ∈ attachments ∧ getAttachmentMotionGroupId attachment = some groupId := by
  rw [groupOf_eq, List.mem_filter, decide_eq_true_eq]

/-- A group of exactly one still and one video. -/
structure LivePhoto (group : List Attachment) (still video : Attachment) : Prop where
  members : group.Perm [still, video]
  isStill : isAppleLivePhotoStill still = true
  isVideo : isAppleLivePhotoVideo video = true

theorem not_video_of_still (still : isAppleLivePhotoStill attachment = true) :
    isAppleLivePhotoVideo attachment = false ∧ isAndroidMotionContainer attachment = false := by
  unfold isAppleLivePhotoStill isAppleLivePhotoVideo isAndroidMotionContainer at *
  cases motion_eq : attachment.motionMedia with
  | none => exact ⟨rfl, rfl⟩
  | some motion =>
      rw [motion_eq] at still
      simp only [Bool.and_eq_true, decide_eq_true_eq] at still
      simp [still.1, still.2]

theorem not_still_of_video (video : isAppleLivePhotoVideo attachment = true) :
    isAppleLivePhotoStill attachment = false ∧ isAndroidMotionContainer attachment = false := by
  unfold isAppleLivePhotoStill isAppleLivePhotoVideo isAndroidMotionContainer at *
  cases motion_eq : attachment.motionMedia with
  | none => exact ⟨rfl, rfl⟩
  | some motion =>
      rw [motion_eq] at video
      simp only [Bool.and_eq_true, decide_eq_true_eq] at video
      simp [video.1, video.2]

variable {group : List Attachment}

/-- The two orders of a group of two. -/
theorem LivePhoto.orders {still video : Attachment} (photo : LivePhoto group still video) :
    group = [still, video] ∨ group = [video, still] := by
  have length_eq := photo.members.length_eq
  rcases List.length_eq_two.mp length_eq with ⟨first, second, rfl⟩
  have perm := photo.members
  have firstMember : first ∈ [still, video] := perm.subset List.mem_cons_self
  rcases List.mem_pair.mp firstMember with rfl | rfl
  · have rest := List.perm_singleton.mp (List.Perm.cons_inv perm)
    rw [rest]
    exact Or.inl rfl
  · have rest := List.perm_singleton.mp
      (List.Perm.cons_inv (perm.trans (List.Perm.swap first still [])))
    rw [rest]
    exact Or.inr rfl

theorem LivePhoto.find {still video : Attachment} (photo : LivePhoto group still video) :
    group.find? isAppleLivePhotoStill = some still ∧
      group.find? isAppleLivePhotoVideo = some video ∧ group.length = 2 := by
  have notVideo := (not_video_of_still photo.isStill).1
  have notStill := (not_still_of_video photo.isVideo).1
  rcases photo.orders with rfl | rfl
  · simp [photo.isStill, photo.isVideo, notVideo]
  · simp [photo.isStill, photo.isVideo, notStill]

theorem LivePhoto.unique {still video otherStill otherVideo : Attachment} (photo : LivePhoto group still video)
    (other : LivePhoto group otherStill otherVideo) :
    still = otherStill ∧ video = otherVideo := by
  have first := photo.find
  have second := other.find
  rw [first.1] at second
  rw [first.2.1] at second
  exact ⟨Option.some.inj second.1, Option.some.inj second.2.1⟩

/-- What the loop finds in a group of two is a live photo. -/
theorem livePhoto_of_find {still video : Attachment} (foundStill : group.find? isAppleLivePhotoStill = some still)
    (foundVideo : group.find? isAppleLivePhotoVideo = some video) (two : group.length = 2) :
    LivePhoto group still video := by
  have isStill := List.find?_some foundStill
  have isVideo := List.find?_some foundVideo
  refine ⟨?_, isStill, isVideo⟩
  have different : still ≠ video := by
    rintro rfl
    rw [(not_video_of_still isStill).1] at isVideo
    contradiction
  rcases List.length_eq_two.mp two with ⟨first, second, rfl⟩
  have stillMember := List.mem_of_find?_eq_some foundStill
  have videoMember := List.mem_of_find?_eq_some foundVideo
  rcases List.mem_pair.mp stillMember with rfl | rfl <;>
    rcases List.mem_pair.mp videoMember with rfl | rfl
  · exact absurd rfl different
  · exact List.Perm.refl _
  · exact List.Perm.swap _ _ []
  · exact absurd rfl different

/-! ## What the loop pushes -/

section Pushing

variable {origin : String} {attachments : List Attachment}

/-- The items of a group with a member that is no container. -/
def GroupShows (origin : String) (group : List Attachment) (item : AttachmentVisualItem) : Prop :=
  (Exists fun still => Exists fun video => LivePhoto group still video ∧
    item = buildAppleMotionItem origin still video) ∨
  (∀ still video, ¬ LivePhoto group still video) ∧
    Exists fun member => member ∈ group ∧ item = buildSingleAttachmentItem origin member

/-- The items that an attachment brings about. -/
def VisitShows (origin : String) (attachments : List Attachment) (attachment : Attachment)
    (item : AttachmentVisualItem) : Prop :=
  isAndroidMotionContainer attachment = true ∧ item = buildAndroidMotionItem origin attachment ∨
  isAndroidMotionContainer attachment = false ∧
    (getAttachmentMotionGroupId attachment = none ∧ item = buildSingleAttachmentItem origin attachment ∨
      Exists fun groupId => getAttachmentMotionGroupId attachment = some groupId ∧
        GroupShows origin (groupOf attachments groupId) item)

variable {item : AttachmentVisualItem}

theorem mem_memberItems {attachment : Attachment} {group : List Attachment} (member : attachment ∈ group)
    (distinct : (group.map Attachment.name).Nodup) :
    item ∈ memberItems origin attachment group ↔
      Exists fun member => member ∈ group ∧ item = buildSingleAttachmentItem origin member := by
  rw [memberItems, List.mem_cons, List.mem_map]
  constructor
  · rintro (rfl | ⟨other, isOther, rfl⟩)
    · exact ⟨attachment, member, rfl⟩
    · exact ⟨other, List.mem_of_mem_filter isOther, rfl⟩
  · rintro ⟨other, isOther, rfl⟩
    by_cases same : other.name = attachment.name
    · have equal := List.inj_on_of_nodup_map distinct isOther member same
      exact Or.inl (equal ▸ rfl)
    · exact Or.inr ⟨other, List.mem_filter.mpr ⟨isOther, decide_eq_true same⟩, rfl⟩

/-- What is pushed for a group does not depend on its first member. -/
theorem mem_groupItems {attachment : Attachment} {group : List Attachment} (member : attachment ∈ group)
    (distinct : (group.map Attachment.name).Nodup) :
    item ∈ groupItems origin attachment group ↔ GroupShows origin group item := by
  have noPhoto (missing : ∀ still video, ¬ LivePhoto group still video) :
      item ∈ memberItems origin attachment group ↔ GroupShows origin group item := by
    rw [mem_memberItems member distinct]
    constructor
    · exact fun shown => Or.inr ⟨missing, shown⟩
    · rintro (⟨still, video, photo, _⟩ | ⟨_, shown⟩)
      · exact absurd photo (missing still video)
      · exact shown
  unfold groupItems
  split
  · rename_i still video foundStill foundVideo
    split
    · rename_i two
      have photo := livePhoto_of_find foundStill foundVideo two
      rw [List.mem_singleton]
      constructor
      · exact fun equal => Or.inl ⟨still, video, photo, equal⟩
      · rintro (⟨otherStill, otherVideo, other, equal⟩ | ⟨missing, _⟩)
        · rcases photo.unique other with ⟨rfl, rfl⟩
          exact equal
        · exact absurd photo (missing still video)
    · rename_i notTwo
      exact noPhoto fun otherStill otherVideo photo => notTwo photo.find.2.2
  · rename_i incomplete
    exact noPhoto fun still video photo => incomplete still video photo.find.1 photo.find.2.1

theorem nodup_groupOf (distinct : (attachments.map Attachment.name).Nodup) (groupId : String) :
    ((groupOf attachments groupId).map Attachment.name).Nodup := by
  rw [groupOf_eq]
  exact distinct.sublist (List.filter_sublist.map _)

/-- The loop consumes the groups of what it has visited, and pushes their items. -/
theorem foldl_visit_spec (distinct : (attachments.map Attachment.name).Nodup)
    (visited : List Attachment) (inside : ∀ attachment, attachment ∈ visited ->
      attachment ∈ attachments) :
    (∀ groupId, groupId ∈ (visited.foldl (visit origin attachments) {}).consumedGroups ↔
      Exists fun attachment => attachment ∈ visited ∧ isAndroidMotionContainer attachment = false ∧
        getAttachmentMotionGroupId attachment = some groupId) ∧
    ∀ item, item ∈ (visited.foldl (visit origin attachments) {}).items ↔
      Exists fun attachment => attachment ∈ visited ∧ VisitShows origin attachments attachment item := by
  induction visited using List.reverseRecOn with
  | nil => simp
  | append_singleton visited attachment ih =>
      have isInside := inside attachment (List.mem_append_right visited List.mem_cons_self)
      rcases ih fun other member => inside other (List.mem_append_left _ member) with
        ⟨consumed, items⟩
      have split {property : Attachment -> Prop} :
          (Exists fun other => other ∈ visited ++ [attachment] ∧ property other) ↔
            (Exists fun other => other ∈ visited ∧ property other) ∨ property attachment := by
        simp only [List.mem_append, List.mem_singleton, or_and_right, exists_or, exists_eq_left]
      simp only [List.foldl_append, List.foldl_cons, List.foldl_nil, split]
      generalize visited.foldl (visit origin attachments) {} = progress at consumed items
      unfold visit
      split
      · rename_i container
        refine ⟨fun groupId => ?_, fun item => ?_⟩
        · rw [consumed, container]
          simp
        · rw [List.mem_append, List.mem_singleton, items]
          refine or_congr_right ⟨fun equal => Or.inl ⟨container, equal⟩, ?_⟩
          rintro (⟨_, equal⟩ | ⟨noContainer, _⟩)
          · exact equal
          · rw [container] at noContainer
            contradiction
      · rename_i noContainer
        rw [Bool.not_eq_true] at noContainer
        split
        · rename_i ungrouped
          refine ⟨fun groupId => ?_, fun item => ?_⟩
          · rw [consumed, ungrouped]
            simp
          · rw [List.mem_append, List.mem_singleton, items]
            refine or_congr_right ⟨fun equal => Or.inr ⟨noContainer, Or.inl ⟨ungrouped, equal⟩⟩, ?_⟩
            rintro (⟨container, _⟩ | ⟨_, ⟨_, equal⟩ | ⟨groupId, named, _⟩⟩)
            · rw [noContainer] at container
              contradiction
            · exact equal
            · rw [ungrouped] at named
              contradiction
        · rename_i groupId named
          have shows (item : AttachmentVisualItem) :
              VisitShows origin attachments attachment item ↔
                GroupShows origin (groupOf attachments groupId) item := by
            constructor
            · rintro (⟨container, _⟩ | ⟨_, ⟨ungrouped, _⟩ | ⟨other, otherNamed, shown⟩⟩)
              · rw [noContainer] at container
                contradiction
              · rw [named] at ungrouped
                contradiction
              · rw [named] at otherNamed
                rw [Option.some.inj otherNamed]
                exact shown
            · exact fun shown => Or.inr ⟨noContainer, Or.inr ⟨groupId, named, shown⟩⟩
          split
          · rename_i known
            -- The items of the group are there since its first visited member.
            rcases (consumed groupId).mp known with ⟨first, visitedFirst, firstPlain, firstNamed⟩
            refine ⟨fun other => ?_, fun item => ?_⟩
            · rw [consumed, noContainer, named]
              refine ⟨Or.inl, ?_⟩
              rintro (earlier | ⟨_, same⟩)
              · exact earlier
              · rw [<- Option.some.inj same]
                exact ⟨first, visitedFirst, firstPlain, firstNamed⟩
            · rw [items, shows]
              refine ⟨Or.inl, ?_⟩
              rintro (earlier | shown)
              · exact earlier
              · exact ⟨first, visitedFirst, Or.inr ⟨firstPlain, Or.inr ⟨groupId, firstNamed, shown⟩⟩⟩
          · refine ⟨fun other => ?_, fun item => ?_⟩
            · rw [List.mem_cons, consumed, noContainer, named, Option.some.injEq, or_comm]
              simp only [true_and, eq_comm]
            · rw [List.mem_append, items, shows,
                mem_groupItems (mem_groupOf.mpr ⟨isInside, named⟩) (nodup_groupOf distinct groupId)]

theorem mem_pushedItems (distinct : (attachments.map Attachment.name).Nodup) :
    item ∈ pushedItems origin attachments ↔
      Exists fun attachment => attachment ∈ attachments ∧
        VisitShows origin attachments attachment item :=
  (foldl_visit_spec distinct attachments fun _ member => member).2 item

end Pushing

/-! ## The partition -/

/-- The attachment belongs to a live photo. -/
def Paired (attachments : List Attachment) (attachment : Attachment) : Prop :=
  Exists fun groupId => Exists fun still => Exists fun video =>
    LivePhoto (groupOf attachments groupId) still video ∧ (attachment = still ∨ attachment = video)

/-- A motion container is in a group with an attachment that is none. -/
def Mixed (attachments : List Attachment) : Prop :=
  Exists fun container => Exists fun other => Exists fun groupId =>
    container ∈ attachments ∧ other ∈ attachments ∧
      isAndroidMotionContainer container = true ∧ isAndroidMotionContainer other = false ∧
      getAttachmentMotionGroupId container = some groupId ∧
      getAttachmentMotionGroupId other = some groupId

/-- The group id of a live photo is the name of an attachment that is shown by
itself. -/
def NamedLikeGroup (attachments : List Attachment) : Prop :=
  Exists fun groupId => Exists fun still => Exists fun video => Exists fun other =>
    LivePhoto (groupOf attachments groupId) still video ∧ other ∈ attachments ∧
      ¬ Paired attachments other ∧ other.name = groupId

/-- Every attachment is shown in one item, with another one only in a live
photo; the items have ids of their own and do not depend on the order. -/
structure PartitionsAttachments (origin : String) (attachments : List Attachment) : Prop where
  covered : ∀ attachment, attachment ∈ attachments -> ExistsUnique fun item =>
    item ∈ buildAttachmentVisualItems origin attachments ∧ attachment ∈ item.attachments
  fromInput : ∀ item attachment, item ∈ buildAttachmentVisualItems origin attachments ->
    attachment ∈ item.attachments -> attachment ∈ attachments
  distinctIds : ((buildAttachmentVisualItems origin attachments).map AttachmentVisualItem.id).Nodup
  shared : ∀ item first second, item ∈ buildAttachmentVisualItems origin attachments ->
    first ∈ item.attachments -> second ∈ item.attachments -> first ≠ second ->
    Exists fun groupId => Exists fun still => Exists fun video =>
      LivePhoto (groupOf attachments groupId) still video ∧ item.attachments = [still, video]
  containers : ∀ item attachment, item ∈ buildAttachmentVisualItems origin attachments ->
    attachment ∈ item.attachments -> isAndroidMotionContainer attachment = true ->
    item.kind = .motion
  ordered : ∀ other, other.Perm attachments ->
    (∀ item, item ∈ buildAttachmentVisualItems origin other ↔
      item ∈ buildAttachmentVisualItems origin attachments) ∧
    countLogicalAttachmentItems origin other = countLogicalAttachmentItems origin attachments

section Partition

variable {origin : String} {attachments other : List Attachment}

variable {groupId : String} {attachment : Attachment}

theorem LivePhoto.inGroup {still video : Attachment} (photo : LivePhoto (groupOf attachments groupId) still video)
    (member : attachment = still ∨ attachment = video) :
    attachment ∈ attachments ∧ getAttachmentMotionGroupId attachment = some groupId ∧
      isAndroidMotionContainer attachment = false := by
  have inGroup : attachment ∈ groupOf attachments groupId :=
    photo.members.symm.subset (List.mem_pair.mpr member)
  rcases mem_groupOf.mp inGroup with ⟨inside, named⟩
  refine ⟨inside, named, ?_⟩
  rcases member with rfl | rfl
  · exact (not_video_of_still photo.isStill).2
  · exact (not_still_of_video photo.isVideo).2

/-- Two live photos with a common member are the same. -/
theorem LivePhoto.same {groupId otherId : String} {still video otherStill otherVideo : Attachment}
    (photo : LivePhoto (groupOf attachments groupId) still video)
    (again : LivePhoto (groupOf attachments otherId) otherStill otherVideo)
    (member : attachment = still ∨ attachment = video)
    (otherMember : attachment = otherStill ∨ attachment = otherVideo) :
    groupId = otherId ∧ still = otherStill ∧ video = otherVideo := by
  have named := (photo.inGroup member).2.1
  rw [(again.inGroup otherMember).2.1] at named
  obtain rfl : otherId = groupId := Option.some.inj named
  exact ⟨rfl, photo.unique again⟩

theorem appleItem_id {still video : Attachment} (photo : LivePhoto (groupOf attachments groupId) still video) :
    (buildAppleMotionItem origin still video).id = groupId := by
  have named := (photo.inGroup (Or.inl rfl)).2.1
  simp only [buildAppleMotionItem, named, Option.getD_some]

/-- An item of one attachment that belongs to no live photo. -/
structure Alone (origin : String) (attachments : List Attachment) (attachment : Attachment)
    (item : AttachmentVisualItem) : Prop where
  inside : attachment ∈ attachments
  unpaired : ¬ Paired attachments attachment
  built : isAndroidMotionContainer attachment = true ∧ item = buildAndroidMotionItem origin attachment ∨
    item = buildSingleAttachmentItem origin attachment ∧
      (isAndroidMotionContainer attachment = true -> Mixed attachments)

theorem Alone.attachments_eq {item : AttachmentVisualItem} (alone : Alone origin attachments attachment item) :
    item.attachments = [attachment] ∧ item.id = attachment.name := by
  rcases alone.built with ⟨_, rfl⟩ | ⟨rfl, _⟩
  · exact ⟨rfl, rfl⟩
  · exact ⟨rfl, rfl⟩

/-- Unless groups are mixed, an attachment has one item of its own. -/
theorem Alone.unique {item another : AttachmentVisualItem} (alone : Alone origin attachments attachment item)
    (again : Alone origin attachments attachment another) (unmixed : ¬ Mixed attachments) :
    item = another := by
  rcases alone.built with ⟨container, rfl⟩ | ⟨rfl, mixed⟩ <;>
    rcases again.built with ⟨otherContainer, rfl⟩ | ⟨rfl, otherMixed⟩
  · rfl
  · exact absurd (otherMixed container) unmixed
  · exact absurd (mixed otherContainer) unmixed
  · rfl

/-- What is pushed: items of one attachment, and live photos. -/
theorem pushed_cases (distinct : (attachments.map Attachment.name).Nodup)
    {item : AttachmentVisualItem} (pushed : item ∈ pushedItems origin attachments) :
    (Exists fun attachment => Alone origin attachments attachment item) ∨
      Exists fun groupId => Exists fun still => Exists fun video =>
        LivePhoto (groupOf attachments groupId) still video ∧
          item = buildAppleMotionItem origin still video := by
  rcases (mem_pushedItems distinct).mp pushed with ⟨attachment, inside, shown⟩
  rcases shown with ⟨container, rfl⟩ | ⟨plain, ⟨ungrouped, rfl⟩ | ⟨groupId, named, shown⟩⟩
  · refine Or.inl ⟨attachment, inside, ?_, Or.inl ⟨container, rfl⟩⟩
    rintro ⟨groupId, still, video, photo, member⟩
    rw [(photo.inGroup member).2.2] at container
    contradiction
  · refine Or.inl ⟨attachment, inside, ?_, Or.inr ⟨rfl, fun container => ?_⟩⟩
    · rintro ⟨groupId, still, video, photo, member⟩
      rw [(photo.inGroup member).2.1] at ungrouped
      contradiction
    · rw [plain] at container
      contradiction
  · rcases shown with ⟨still, video, photo, rfl⟩ | ⟨missing, member, isMember, rfl⟩
    · exact Or.inr ⟨groupId, still, video, photo, rfl⟩
    · rcases mem_groupOf.mp isMember with ⟨memberInside, memberNamed⟩
      refine Or.inl ⟨member, memberInside, ?_, Or.inr ⟨rfl, fun container => ?_⟩⟩
      · rintro ⟨otherId, still, video, photo, isPart⟩
        have same := (photo.inGroup isPart).2.1
        rw [memberNamed] at same
        rw [<- Option.some.inj same] at photo
        exact missing still video photo
      · exact ⟨member, attachment, groupId, memberInside, inside, container, plain, memberNamed, named⟩

theorem pushed_of_livePhoto (distinct : (attachments.map Attachment.name).Nodup) {still video : Attachment}
    (photo : LivePhoto (groupOf attachments groupId) still video) :
    buildAppleMotionItem origin still video ∈ pushedItems origin attachments := by
  rcases photo.inGroup (Or.inl rfl) with ⟨inside, named, plain⟩
  exact (mem_pushedItems distinct).mpr ⟨still, inside, Or.inr ⟨plain, Or.inr ⟨groupId, named,
    Or.inl ⟨still, video, photo, rfl⟩⟩⟩⟩

theorem pushed_of_unpaired (distinct : (attachments.map Attachment.name).Nodup) (inside : attachment ∈ attachments)
    (unpaired : ¬ Paired attachments attachment) :
    Exists fun item => item ∈ pushedItems origin attachments ∧
      Alone origin attachments attachment item := by
  cases container : isAndroidMotionContainer attachment with
  | true =>
      exact ⟨_, (mem_pushedItems distinct).mpr ⟨attachment, inside, Or.inl ⟨container, rfl⟩⟩,
        inside, unpaired, Or.inl ⟨container, rfl⟩⟩
  | false =>
      have alone : Alone origin attachments attachment (buildSingleAttachmentItem origin attachment) := by
        refine ⟨inside, unpaired, Or.inr ⟨rfl, fun isContainer => ?_⟩⟩
        rw [container] at isContainer
        contradiction
      cases named : getAttachmentMotionGroupId attachment with
      | none =>
          exact ⟨_, (mem_pushedItems distinct).mpr ⟨attachment, inside, Or.inr ⟨container,
            Or.inl ⟨named, rfl⟩⟩⟩, alone⟩
      | some groupId =>
          have inGroup := mem_groupOf.mpr ⟨inside, named⟩
          refine ⟨_, (mem_pushedItems distinct).mpr ⟨attachment, inside, Or.inr ⟨container,
            Or.inr ⟨groupId, named, Or.inr ⟨?_, attachment, inGroup, rfl⟩⟩⟩⟩, alone⟩
          intro still video photo
          exact unpaired ⟨groupId, still, video, photo,
            List.mem_pair.mp (photo.members.subset inGroup)⟩

/-- An id determines its item, unless groups are mixed or named like an
attachment. -/
theorem pushed_determined (distinct : (attachments.map Attachment.name).Nodup)
    (unmixed : ¬ Mixed attachments) (unnamed : ¬ NamedLikeGroup attachments)
    (item another : AttachmentVisualItem) (pushed : item ∈ pushedItems origin attachments)
    (again : another ∈ pushedItems origin attachments) (same : item.id = another.id) :
    item = another := by
  rcases pushed_cases distinct pushed with
    ⟨attachment, alone⟩ | ⟨groupId, still, video, photo, rfl⟩ <;>
    rcases pushed_cases distinct again with
      ⟨otherAttachment, otherAlone⟩ | ⟨otherId, otherStill, otherVideo, otherPhoto, rfl⟩
  · rw [alone.attachments_eq.2, otherAlone.attachments_eq.2] at same
    obtain rfl := List.inj_on_of_nodup_map distinct alone.inside otherAlone.inside same
    exact alone.unique otherAlone unmixed
  · rw [alone.attachments_eq.2, appleItem_id otherPhoto] at same
    exact absurd ⟨otherId, otherStill, otherVideo, attachment, otherPhoto, alone.inside,
      alone.unpaired, same⟩ unnamed
  · rw [otherAlone.attachments_eq.2, appleItem_id photo] at same
    exact absurd ⟨groupId, still, video, otherAttachment, photo, otherAlone.inside,
      otherAlone.unpaired, same.symm⟩ unnamed
  · rw [appleItem_id photo, appleItem_id otherPhoto] at same
    subst same
    rcases photo.unique otherPhoto with ⟨rfl, rfl⟩
    rfl

/-! ## The order of the attachments -/

theorem groupOf_perm (perm : other.Perm attachments) (groupId : String) :
    (groupOf other groupId).Perm (groupOf attachments groupId) := by
  rw [groupOf_eq, groupOf_eq]
  exact perm.filter _

theorem livePhoto_perm (perm : other.Perm attachments) (groupId : String) (still video : Attachment) :
    LivePhoto (groupOf other groupId) still video ↔
      LivePhoto (groupOf attachments groupId) still video := by
  have groups := groupOf_perm perm groupId
  constructor
  · exact fun photo => ⟨groups.symm.trans photo.members, photo.isStill, photo.isVideo⟩
  · exact fun photo => ⟨groups.trans photo.members, photo.isStill, photo.isVideo⟩

theorem pushedItems_perm (distinct : (attachments.map Attachment.name).Nodup)
    (perm : other.Perm attachments) (item : AttachmentVisualItem) :
    item ∈ pushedItems origin other ↔ item ∈ pushedItems origin attachments := by
  have otherDistinct : (other.map Attachment.name).Nodup :=
    ((perm.map Attachment.name).nodup_iff).mpr distinct
  rw [mem_pushedItems distinct, mem_pushedItems otherDistinct]
  simp only [perm.mem_iff, VisitShows, GroupShows, livePhoto_perm perm, (groupOf_perm perm _).mem_iff]

theorem length_build_perm (distinct : (attachments.map Attachment.name).Nodup)
    (perm : other.Perm attachments) :
    (buildAttachmentVisualItems origin other).length =
      (buildAttachmentVisualItems origin attachments).length := by
  refine length_firstOfEach fun value => ?_
  simp only [List.mem_map, pushedItems_perm distinct perm]

/-- The number of items never depends on the order. -/
theorem countLogicalAttachmentItems_perm (distinct : (attachments.map Attachment.name).Nodup)
    (perm : other.Perm attachments) :
    countLogicalAttachmentItems origin other = countLogicalAttachmentItems origin attachments := by
  have visual : (other.filter isVisual).Perm (attachments.filter isVisual) := perm.filter _
  have visualDistinct : ((attachments.filter isVisual).map Attachment.name).Nodup :=
    distinct.sublist (List.filter_sublist.map _)
  have names (name : String) : name ∈ (other.filter isVisual).map Attachment.name ↔
      name ∈ (attachments.filter isVisual).map Attachment.name :=
    (visual.map Attachment.name).mem_iff
  have others : (other.filter fun attachment =>
      attachment.name ∉ (other.filter isVisual).map Attachment.name).length =
      (attachments.filter fun attachment =>
        attachment.name ∉ (attachments.filter isVisual).map Attachment.name).length := by
    simp only [names]
    exact (perm.filter _).length_eq
  unfold countLogicalAttachmentItems
  dsimp only
  rw [length_build_perm visualDistinct visual, others]

theorem mem_build_iff (distinct : (attachments.map Attachment.name).Nodup)
    (unmixed : ¬ Mixed attachments) (unnamed : ¬ NamedLikeGroup attachments)
    (perm : other.Perm attachments) (item : AttachmentVisualItem) :
    item ∈ buildAttachmentVisualItems origin other ↔ item ∈ pushedItems origin attachments := by
  rw [<- pushedItems_perm distinct perm]
  refine mem_firstOfEach_iff fun item another pushed again same => ?_
  rw [pushedItems_perm distinct perm] at pushed again
  exact pushed_determined distinct unmixed unnamed item another pushed again same

/-- The attachments are partitioned when no group is mixed and none is named like
an attachment. -/
theorem partitions_of_plain (distinct : (attachments.map Attachment.name).Nodup)
    (unmixed : ¬ Mixed attachments) (unnamed : ¬ NamedLikeGroup attachments) :
    PartitionsAttachments origin attachments := by
  have shown (item : AttachmentVisualItem) :
      item ∈ buildAttachmentVisualItems origin attachments ↔ item ∈ pushedItems origin attachments :=
    mem_build_iff distinct unmixed unnamed (List.Perm.refl _) item
  constructor
  · intro attachment inside
    by_cases paired : Paired attachments attachment
    · rcases paired with ⟨groupId, still, video, photo, member⟩
      refine ⟨buildAppleMotionItem origin still video,
        ⟨(shown _).mpr (pushed_of_livePhoto distinct photo), List.mem_pair.mpr member⟩, ?_⟩
      rintro item ⟨isItem, isPart⟩
      rcases pushed_cases distinct ((shown item).mp isItem) with
        ⟨single, alone⟩ | ⟨otherId, otherStill, otherVideo, otherPhoto, rfl⟩
      · rw [alone.attachments_eq.1, List.mem_singleton] at isPart
        subst isPart
        exact absurd ⟨groupId, still, video, photo, member⟩ alone.unpaired
      · rcases otherPhoto.same photo (List.mem_pair.mp isPart) member with ⟨_, rfl, rfl⟩
        rfl
    · rcases pushed_of_unpaired distinct inside paired with ⟨item, pushed, alone⟩
      refine ⟨item, ⟨(shown item).mpr pushed, ?_⟩, ?_⟩
      · rw [alone.attachments_eq.1]
        exact List.mem_singleton_self attachment
      · rintro another ⟨isItem, isPart⟩
        rcases pushed_cases distinct ((shown another).mp isItem) with
          ⟨single, otherAlone⟩ | ⟨groupId, still, video, photo, rfl⟩
        · rw [otherAlone.attachments_eq.1, List.mem_singleton] at isPart
          subst isPart
          exact otherAlone.unique alone unmixed
        · exact absurd ⟨groupId, still, video, photo, List.mem_pair.mp isPart⟩ paired
  · intro item attachment isItem isPart
    rcases pushed_cases distinct ((shown item).mp isItem) with
      ⟨single, alone⟩ | ⟨groupId, still, video, photo, rfl⟩
    · rw [alone.attachments_eq.1, List.mem_singleton] at isPart
      exact isPart ▸ alone.inside
    · exact (photo.inGroup (List.mem_pair.mp isPart)).1
  · exact nodup_firstOfEach
  · intro item first second isItem isFirst isSecond different
    rcases pushed_cases distinct ((shown item).mp isItem) with
      ⟨single, alone⟩ | ⟨groupId, still, video, photo, rfl⟩
    · rw [alone.attachments_eq.1, List.mem_singleton] at isFirst isSecond
      exact absurd (isFirst.trans isSecond.symm) different
    · exact ⟨groupId, still, video, photo, rfl⟩
  · intro item attachment isItem isPart container
    rcases pushed_cases distinct ((shown item).mp isItem) with
      ⟨single, alone⟩ | ⟨groupId, still, video, photo, rfl⟩
    · rw [alone.attachments_eq.1, List.mem_singleton] at isPart
      subst isPart
      rcases alone.built with ⟨_, rfl⟩ | ⟨_, mixed⟩
      · rfl
      · exact absurd (mixed container) unmixed
    · rfl
  · intro other perm
    refine ⟨fun item => ?_, countLogicalAttachmentItems_perm distinct perm⟩
    rw [shown, mem_build_iff distinct unmixed unnamed perm]

/-! ## What goes wrong -/

/-- The loop only adds to what it has pushed. -/
theorem foldl_visit_items (origin : String) (attachments visited : List Attachment) (progress : Progress) :
    Exists fun more => (visited.foldl (visit origin attachments) progress).items =
      progress.items ++ more := by
  induction visited generalizing progress with
  | nil => exact ⟨[], (List.append_nil _).symm⟩
  | cons attachment visited ih =>
      rcases ih (visit origin attachments progress attachment) with ⟨more, equal⟩
      have step : Exists fun added => (visit origin attachments progress attachment).items =
          progress.items ++ added := by
        unfold visit
        split
        · exact ⟨_, rfl⟩
        · split
          · exact ⟨_, rfl⟩
          · split
            · exact ⟨[], (List.append_nil _).symm⟩
            · exact ⟨_, rfl⟩
      rcases step with ⟨added, added_eq⟩
      refine ⟨added ++ more, ?_⟩
      rw [List.foldl_cons, equal, added_eq, List.append_assoc]

theorem singleKind_ne_motion (attachment : Attachment) : singleKind attachment ≠ .motion := by
  unfold singleKind
  dsimp only
  split
  · decide
  · split
    · decide
    · split <;> decide

/-- A container that comes first is shown as a motion item. -/
theorem android_mem_build {container : Attachment} {rest : List Attachment}
    (isContainer : isAndroidMotionContainer container = true) :
    buildAndroidMotionItem origin container ∈ buildAttachmentVisualItems origin (container :: rest) := by
  have first : visit origin (container :: rest) {} container =
      { items := [buildAndroidMotionItem origin container] } := by
    rw [visit, if_pos isContainer]
    rfl
  rcases foldl_visit_items origin (container :: rest) rest
    { items := [buildAndroidMotionItem origin container] } with ⟨more, pushed⟩
  rw [buildAttachmentVisualItems, dedupeVisualItems, pushedItems, List.foldl_cons, first, pushed]
  have noneBefore : buildAndroidMotionItem origin container ∈ firstOfEach AttachmentVisualItem.id []
      ([] ++ buildAndroidMotionItem origin container :: more) :=
    mem_firstOfEach_of_first List.not_mem_nil List.not_mem_nil
  exact noneBefore

/-- A container is shown as a plain item when another attachment of its group
comes first. -/
theorem single_mem_build {attachment container : Attachment} {rest : List Attachment}
    (distinct : ((attachment :: rest).map Attachment.name).Nodup)
    (plain : isAndroidMotionContainer attachment = false)
    (named : getAttachmentMotionGroupId attachment = some groupId) (inside : container ∈ rest)
    (isContainer : isAndroidMotionContainer container = true)
    (containerNamed : getAttachmentMotionGroupId container = some groupId) :
    buildSingleAttachmentItem origin container ∈
      buildAttachmentVisualItems origin (attachment :: rest) := by
  have inGroup : container ∈ groupOf (attachment :: rest) groupId :=
    mem_groupOf.mpr ⟨List.mem_cons_of_mem _ inside, containerNamed⟩
  have noPhoto (still video : Attachment) :
      ¬ LivePhoto (groupOf (attachment :: rest) groupId) still video := by
    intro photo
    have part := List.mem_pair.mp (photo.members.subset inGroup)
    rw [(photo.inGroup part).2.2] at isContainer
    contradiction
  have members : groupItems origin attachment (groupOf (attachment :: rest) groupId) =
      memberItems origin attachment (groupOf (attachment :: rest) groupId) := by
    unfold groupItems
    split
    · rename_i still video foundStill foundVideo
      exact if_neg fun two => noPhoto still video (livePhoto_of_find foundStill foundVideo two)
    · rfl
  have first : visit origin (attachment :: rest) {} attachment =
      { consumedGroups := [groupId]
        items := memberItems origin attachment (groupOf (attachment :: rest) groupId) } := by
    rw [visit, if_neg (by rw [plain]; decide), named]
    dsimp only
    rw [if_neg List.not_mem_nil, members]
    rfl
  have different : container.name ≠ attachment.name := by
    rw [List.map_cons, List.nodup_cons] at distinct
    exact fun same => distinct.1 (same ▸ List.mem_map_of_mem inside)
  have remaining : container ∈ (groupOf (attachment :: rest) groupId).filter
      fun member => member.name ≠ attachment.name :=
    List.mem_filter.mpr ⟨inGroup, decide_eq_true different⟩
  rcases List.append_of_mem remaining with ⟨before, after, split⟩
  have beforeNames : container.name ∉ before.map Attachment.name := by
    have nodup : (((groupOf (attachment :: rest) groupId).filter
        fun member => member.name ≠ attachment.name).map Attachment.name).Nodup :=
      (nodup_groupOf distinct groupId).sublist (List.filter_sublist.map _)
    rw [split, List.map_append, List.map_cons] at nodup
    intro earlier
    exact (List.nodup_append.mp nodup).2.2 _ earlier _ List.mem_cons_self rfl
  rcases foldl_visit_items origin (attachment :: rest) rest
    (visit origin (attachment :: rest) {} attachment) with ⟨more, pushed⟩
  have items : pushedItems origin (attachment :: rest) =
      (buildSingleAttachmentItem origin attachment :: before.map (buildSingleAttachmentItem origin)) ++
        buildSingleAttachmentItem origin container ::
          (after.map (buildSingleAttachmentItem origin) ++ more) := by
    rw [pushedItems, List.foldl_cons, pushed, first, memberItems, split]
    simp
  rw [buildAttachmentVisualItems, dedupeVisualItems, items]
  refine mem_firstOfEach_of_first List.not_mem_nil ?_
  rw [List.map_cons, List.mem_cons, not_or, List.map_map]
  exact ⟨different, beforeNames⟩

theorem not_mixed_of_partitions (distinct : (attachments.map Attachment.name).Nodup)
    (partitions : PartitionsAttachments origin attachments) : ¬ Mixed attachments := by
  rintro ⟨container, attachment, groupId, isInside, inside, isContainer, plain, containerNamed, named⟩
  have different : container ≠ attachment := by
    rintro rfl
    rw [plain] at isContainer
    contradiction
  have plainFirst := (List.perm_cons_erase inside).symm
  have containerFirst := (List.perm_cons_erase isInside).symm
  have single : buildSingleAttachmentItem origin container ∈
      buildAttachmentVisualItems origin attachments := by
    refine ((partitions.ordered _ plainFirst).1 _).mp ?_
    exact single_mem_build (((plainFirst.map Attachment.name).nodup_iff).mpr distinct) plain named
      ((List.mem_erase_of_ne different).mpr isInside) isContainer containerNamed
  have motion : buildAndroidMotionItem origin container ∈
      buildAttachmentVisualItems origin attachments :=
    ((partitions.ordered _ containerFirst).1 _).mp (android_mem_build isContainer)
  have same := firstOfEach_unique single motion rfl
  exact singleKind_ne_motion container (congrArg AttachmentVisualItem.kind same)

theorem not_named_of_partitions (distinct : (attachments.map Attachment.name).Nodup)
    (partitions : PartitionsAttachments origin attachments) : ¬ NamedLikeGroup attachments := by
  rintro ⟨groupId, still, video, other, photo, inside, unpaired, named⟩
  rcases partitions.covered still (photo.inGroup (Or.inl rfl)).1 with ⟨item, ⟨isItem, isPart⟩, _⟩
  rcases partitions.covered other inside with ⟨another, ⟨isAnother, isOther⟩, _⟩
  have itemId : item.id = groupId := by
    rcases pushed_cases distinct (mem_of_mem_firstOfEach isItem).1 with
      ⟨single, alone⟩ | ⟨otherId, otherStill, otherVideo, otherPhoto, rfl⟩
    · rw [alone.attachments_eq.1, List.mem_singleton] at isPart
      subst isPart
      exact absurd ⟨groupId, still, video, photo, Or.inl rfl⟩ alone.unpaired
    · rcases otherPhoto.same photo (List.mem_pair.mp isPart) (Or.inl rfl) with ⟨rfl, rfl, rfl⟩
      exact appleItem_id photo
  rcases pushed_cases distinct (mem_of_mem_firstOfEach isAnother).1 with
    ⟨single, alone⟩ | ⟨otherId, otherStill, otherVideo, otherPhoto, rfl⟩
  · rw [alone.attachments_eq.1, List.mem_singleton] at isOther
    subst isOther
    have same := firstOfEach_unique isItem isAnother (by rw [itemId, alone.attachments_eq.2, named])
    rw [same, alone.attachments_eq.1, List.mem_singleton] at isPart
    exact unpaired ⟨groupId, still, video, photo, Or.inl isPart.symm⟩
  · exact unpaired ⟨otherId, otherStill, otherVideo, otherPhoto, List.mem_pair.mp isOther⟩

end Partition

/-- The attachments are partitioned exactly when no motion container shares its
group with an attachment that is none, and the group id of no live photo is the
name of an attachment shown by itself. -/
theorem partitionsAttachments_iff (origin : String) (attachments : List Attachment)
    (distinct : (attachments.map Attachment.name).Nodup) :
    PartitionsAttachments origin attachments ↔ ¬ Mixed attachments ∧ ¬ NamedLikeGroup attachments := by
  constructor
  · exact fun partitions =>
      ⟨not_mixed_of_partitions distinct partitions, not_named_of_partitions distinct partitions⟩
  · rintro ⟨unmixed, unnamed⟩
    exact partitions_of_plain distinct unmixed unnamed

/-- A live photo, and an attachment whose name is the id of its group. -/
def namedPhoto : List Attachment :=
  [{ name := "attachments/a", filename := "a.heic", type := "image/heic"
     motionMedia := some { family := .appleLivePhoto, role := .still, groupId := "attachments/c" } },
    { name := "attachments/b", filename := "b.mov", type := "video/quicktime"
      motionMedia := some { family := .appleLivePhoto, role := .video, groupId := "attachments/c" } },
    { name := "attachments/c", filename := "c.png", type := "image/png" }]

theorem namedPhoto_iff :
    PartitionsAttachments "https://memos.test" namedPhoto ↔
      ¬ Mixed namedPhoto ∧ ¬ NamedLikeGroup namedPhoto :=
  partitionsAttachments_iff "https://memos.test" namedPhoto (by decide)

/-- The third attachment is in no item: one of the same id came before. -/
theorem namedPhoto_not_partitioned :
    ¬ PartitionsAttachments "https://memos.test" namedPhoto := by
  intro partitions
  have photo : LivePhoto (groupOf namedPhoto "attachments/c")
      { name := "attachments/a", filename := "a.heic", type := "image/heic"
        motionMedia := some { family := .appleLivePhoto, role := .still, groupId := "attachments/c" } }
      { name := "attachments/b", filename := "b.mov", type := "video/quicktime"
        motionMedia := some { family := .appleLivePhoto, role := .video, groupId := "attachments/c" } } := by
    refine ⟨?_, rfl, rfl⟩
    rw [groupOf_eq]
    decide
  refine not_named_of_partitions (by decide) partitions ⟨_, _, _, _, photo,
    List.mem_cons_of_mem _ (List.mem_cons_of_mem _ List.mem_cons_self), ?_, rfl⟩
  rintro ⟨groupId, still, video, other, member⟩
  have named := (other.inGroup member).2.1
  contradiction

end MediaItems
end Web
end Memos
