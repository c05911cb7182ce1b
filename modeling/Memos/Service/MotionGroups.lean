import Memos.Library.Blocks
import Memos.Service.Runs

namespace Memos
namespace Service

open Library Memos.Filter Store Handler

/-!
# The attachments that a request asks for

A request lists the attachments of a memo by their names.  What it comes down
to is the list in blocks: a motion group stands together where its first member
is, and a group of which the request leaves out a current member goes as a
whole.
-/

/-! ## Reading the request -/

/-- The attachments that the names stand for. -/
def Requests (db : Database) (names : List String) (requested : List Attachment) : Prop :=
  List.Forall₂ (fun name attachment =>
    extractAttachmentUIDFromName name = .ok attachment.uid ∧
      (db.attachments.find? fun row => row.uid = attachment.uid) = some attachment) names requested

/-- The user may attach it. -/
def MayAttach (user : User) (attachment : Attachment) : Prop :=
  attachment.creatorId = user.id ∨ isSuperUser user = true

instance (user : User) (attachment : Attachment) : Decidable (MayAttach user attachment) :=
  inferInstanceAs (Decidable (_ ∨ _))

variable {db : Database}

variable {names : List String}

theorem Requests.find {requested : List Attachment} (requests : Requests db names requested) {attachment : Attachment}
    (member : attachment ∈ requested) :
    extractAttachmentUIDFromName ("attachments/" ++ attachment.uid) = .ok attachment.uid ∧
      (db.attachments.find? fun row => row.uid = attachment.uid) = some attachment := by
  induction requests with
  | nil => cases member
  | cons known _ ih =>
      rcases List.mem_cons.mp member with rfl | later
      · rcases known with ⟨named, found⟩
        rw [← eq_of_extractAttachmentUID named]
        exact ⟨named, found⟩
      · exact ih later

/-- Two requested attachments with one uid are the same row. -/
theorem Requests.eq_of_uid {requested : List Attachment} (requests : Requests db names requested)
    {first second : Attachment} (left : first ∈ requested) (right : second ∈ requested)
    (same : first.uid = second.uid) : first = second := by
  have ofFirst := (requests.find left).2
  rw [same, (requests.find right).2] at ofFirst
  exact (Option.some.inj ofFirst).symm

/-- The names stand for one list of rows. -/
theorem Requests.unique {first second : List Attachment} (left : Requests db names first)
    (right : Requests db names second) : first = second := by
  induction left generalizing second with
  | nil =>
      cases right
      rfl
  | cons known _ ih =>
      cases right with
      | cons other rest =>
          have uids := Except.ok.inj (known.1.symm.trans other.1)
          have rows := known.2
          rw [uids, other.2] at rows
          rw [Option.some.inj rows, ih rest]

/-- Attachments that are found by their uids can be requested by them. -/
theorem requests_by_uid {some : List Attachment} (found : forall attachment, attachment ∈ some ->
      extractAttachmentUIDFromName ("attachments/" ++ attachment.uid) = .ok attachment.uid ∧
        (db.attachments.find? fun row => row.uid = attachment.uid) = .some attachment) :
    Requests db (some.map fun attachment => "attachments/" ++ attachment.uid) some := by
  induction some with
  | nil => exact .nil
  | cons attachment rest ih =>
      exact .cons (found attachment List.mem_cons_self)
        (ih fun other member => found other (List.mem_cons_of_mem _ member))

section Reading

variable {db : Database} {user : User} {names : List String}

/-- The requested rows are read off one state. -/
theorem ends_requestedAttachments :
    Ends (fun state => state = db) (requestedAttachments user names)
      (fun requested state => state = db ∧ Requests db names requested ∧
        forall attachment, attachment ∈ requested -> MayAttach user attachment)
      (fun _ state => state = db) := by
  induction names with
  | nil =>
      refine ends_pure fun state given => ⟨given, .nil, ?_⟩
      intro attachment impossible
      cases impossible
  | cons name names ih =>
      refine ends_bind (ends_lift fun _ _ given _ => given) fun uid => ?_
      refine ends_bind (ends_query fun _ _ given => given.1) fun row => ?_
      refine ends_bind (ends_found fun _ given _ => given.1.1) fun attachment => ?_
      refine ends_bind (ends_require fun _ given _ => given.1.1.1) fun _ => ?_
      have reads : forall state, ((((state = db ∧ extractAttachmentUIDFromName name = .ok uid) ∧
          (.ok (state.attachments.find? fun attachment => attachment.uid = uid) :
            Except String (Option Attachment)) = .ok row) ∧ row = some attachment) ∧ MayAttach user attachment) ->
          extractAttachmentUIDFromName name = .ok attachment.uid ∧
            (db.attachments.find? fun row => row.uid = attachment.uid) = some attachment ∧
            MayAttach user attachment := by
        rintro state ⟨⟨⟨⟨rfl, named⟩, found⟩, rfl⟩, permitted⟩
        have lookup := Except.ok.inj found
        have kept := List.find?_some lookup
        have ofUid : attachment.uid = uid := of_decide_eq_true kept
        rw [ofUid]
        exact ⟨named, lookup, permitted⟩
      refine ends_given reads fun known => ?_
      have rest : Ends (fun state => state = db) (requestedAttachments user names >>= fun others =>
          pure (attachment :: others))
          (fun requested state => state = db ∧ Requests db (name :: names) requested ∧
            forall other, other ∈ requested -> MayAttach user other)
          (fun _ state => state = db) := by
        refine ends_bind ih fun others => ends_pure fun state given => ?_
        rcases given with ⟨same, requests, permitted⟩
        refine ⟨same, .cons ⟨known.1, known.2.1⟩ requests, ?_⟩
        intro other member
        rcases List.mem_cons.mp member with rfl | later
        · exact known.2.2
        · exact permitted other later
      exact ends_weaken rest (fun _ given => given.1.1.1.1) (fun _ _ given => given)
        fun _ _ given => given

theorem read_quiet {α : Type} (select : Database -> α) (status : String -> Status) (db : Database) :
    read select status ⟨db, []⟩ = (.ok (select db), ⟨db, []⟩) := rfl

/-- The request is read without a fault. -/
theorem requestedAttachments_quiet {requested : List Attachment} (requests : Requests db names requested)
    (permitted : forall attachment, attachment ∈ requested -> MayAttach user attachment) :
    requestedAttachments user names ⟨db, []⟩ = (.ok requested, ⟨db, []⟩) := by
  induction requests with
  | nil => rfl
  | @cons name attachment names others known _ ih =>
      have later := ih fun other member =>
        permitted other (List.mem_cons_of_mem _ member)
      have own : attachment.creatorId = user.id ∨ isSuperUser user = true :=
        permitted attachment List.mem_cons_self
      unfold requestedAttachments
      rw [known.1, lift_ok, pure_bind]
      rw [bind_of_ok (read_quiet _ _ _), known.2, found_some, pure_bind, require_of own, pure_bind]
      exact (bind_of_ok later).trans rfl

end Reading

/-! ## Units -/

/-- What stands together: a motion group, or one attachment without a group. -/
inductive MotionUnit where
  | alone (attachment : Attachment)
  | group (id : String)
deriving DecidableEq

section Units

variable (backend : Backend)

def motionUnit (attachment : Attachment) : MotionUnit :=
  if backend.motionGroup attachment = "" then .alone attachment
  else .group (backend.motionGroup attachment)

/-- The current members of a motion group. -/
def currentGroup (current : List Attachment) (group : String) : List Attachment :=
  current.filter fun attachment => backend.motionGroup attachment = group

/-- The request leaves out a current member of the group. -/
def LeavesOut (current requested : List Attachment) (group : String) : Prop :=
  Exists fun member => member ∈ currentGroup backend current group ∧
    forall attachment, attachment ∈ requested -> backend.motionGroup attachment = group ->
      attachment.uid ≠ member.uid

/-- The group has several members now, of which the request leaves one out. -/
def Partial (current requested : List Attachment) (group : String) : Prop :=
  2 ≤ (currentGroup backend current group).length ∧ LeavesOut backend current requested group

/-- The unit stays. -/
def staysUnit (current requested : List Attachment) : MotionUnit -> Bool
  | .alone _ => true
  | .group group => !(isMultiMemberMotionGroup backend (currentGroup backend current group) &&
      !allGroupMembersRequested (currentGroup backend current group)
        (currentGroup backend requested group))

variable {backend} {current requested : List Attachment}

variable {attachment : Attachment} {group : String}

theorem motionUnit_alone (alone : backend.motionGroup attachment = "") :
    motionUnit backend attachment = .alone attachment := if_pos alone

theorem motionUnit_grouped (grouped : backend.motionGroup attachment ≠ "") :
    motionUnit backend attachment = .group (backend.motionGroup attachment) := if_neg grouped

theorem motionUnit_eq_alone {attachment other : Attachment}
    (same : motionUnit backend attachment = .alone other) : attachment = other := by
  unfold motionUnit at same
  split at same
  · exact MotionUnit.alone.inj same
  · cases same

theorem motionUnit_eq_group :
    motionUnit backend attachment = .group group ↔
      backend.motionGroup attachment = group ∧ group ≠ "" := by
  unfold motionUnit
  split
  · next alone =>
      constructor
      · intro impossible
        cases impossible
      · rintro ⟨rfl, grouped⟩
        exact absurd alone grouped
  · next grouped =>
      constructor
      · intro same
        rw [← MotionUnit.group.inj same]
        exact ⟨rfl, grouped⟩
      · rintro ⟨same, _⟩
        rw [same]

/-- Two attachments of one unit are the same or belong to one motion group. -/
theorem group_of_motionUnit (grouped : group ≠ "") (list : List Attachment) :
    Library.group (motionUnit backend) (.group group) list = currentGroup backend list group := by
  unfold Library.group currentGroup
  refine List.filter_congr fun attachment _ => ?_
  rw [decide_eq_decide, motionUnit_eq_group]
  exact ⟨fun both => both.1, fun same => ⟨same, grouped⟩⟩

theorem staysUnit_group (grouped : group ≠ "") :
    staysUnit backend current requested (.group group) = true ↔
      ¬ Partial backend current requested group := by
  have all : ((currentGroup backend current group).all fun attachment =>
      backend.motionGroup attachment ≠ "") = true := by
    refine List.all_eq_true.mpr fun attachment member => ?_
    rw [decide_eq_true_eq, of_decide_eq_true (List.mem_filter.mp member).2]
    exact grouped
  have some : 2 ≤ (currentGroup backend current group).length ->
      (currentGroup backend current group).isEmpty = false := by
    intro several
    cases members : currentGroup backend current group with
    | nil =>
        rw [members] at several
        exact absurd several (by decide)
    | cons _ _ => rfl
  unfold staysUnit Partial LeavesOut isMultiMemberMotionGroup allGroupMembersRequested
  dsimp only
  rw [all, Bool.and_true, Bool.not_eq_true', Bool.and_eq_false_iff]
  by_cases several : 2 ≤ (currentGroup backend current group).length
  · rw [some several]
    simp only [several, decide_true, Bool.true_eq_false, false_or, Bool.not_false, Bool.true_and,
      Bool.not_eq_false', true_and, List.all_eq_true, List.any_eq_true, decide_eq_true_eq]
    constructor
    · rintro complete ⟨member, inGroup, missing⟩
      rcases complete member inGroup with ⟨attachment, inRequest, same⟩
      rcases List.mem_filter.mp inRequest with ⟨asked, ofGroup⟩
      exact missing attachment asked (of_decide_eq_true ofGroup) same
    · intro complete member inGroup
      by_contra missing
      refine complete ⟨member, inGroup, ?_⟩
      intro attachment asked ofGroup same
      exact missing ⟨attachment, List.mem_filter.mpr ⟨asked, decide_eq_true ofGroup⟩, same⟩
  · simp [several]

end Units

/-! ## The loop arranges the request -/

section Loop

variable {backend : Backend} {current requested : List Attachment}

/-- The rows of the request are told apart by their uids. -/
def ByUid (requested : List Attachment) : Prop :=
  forall first second, first ∈ requested -> second ∈ requested -> first.uid = second.uid ->
    first = second

/-- Appending what is not there yet. -/
theorem appendAttachments_eq (unique : ByUid requested) {normalized list : List Attachment}
    (known : forall attachment, attachment ∈ normalized -> attachment ∈ requested)
    (asked : forall attachment, attachment ∈ list -> attachment ∈ requested) :
    appendAttachments normalized list =
      normalized ++ (list.filter fun attachment => attachment ∉ normalized).eraseDups := by
  induction list generalizing normalized with
  | nil => exact (List.append_nil _).symm
  | cons attachment rest ih =>
      have inRequest := asked attachment List.mem_cons_self
      have restAsked : forall other, other ∈ rest -> other ∈ requested :=
        fun other member => asked other (List.mem_cons_of_mem _ member)
      have there : (normalized.any fun other => other.uid = attachment.uid) = true ↔
          attachment ∈ normalized := by
        rw [List.any_eq_true]
        constructor
        · rintro ⟨other, member, same⟩
          rw [← unique other attachment (known other member) inRequest (of_decide_eq_true same)]
          exact member
        · exact fun member => ⟨attachment, member, decide_eq_true rfl⟩
      unfold appendAttachments
      by_cases member : attachment ∈ normalized
      · rw [if_pos (there.mpr member), ih known restAsked,
          List.filter_cons_of_neg (by simpa using member)]
      · have knownMore : forall other, other ∈ normalized ++ [attachment] -> other ∈ requested := by
          intro other inEither
          rcases List.mem_append.mp inEither with old | new
          · exact known other old
          · rw [List.mem_singleton.mp new]
            exact inRequest
        have later : (rest.filter fun other => other ∉ normalized ++ [attachment]) =
            (rest.filter fun other => other ∉ normalized).filter
              fun other => !(other == attachment) := by
          rw [List.filter_filter]
          refine List.filter_congr fun other _ => ?_
          by_cases same : other = attachment <;> by_cases old : other ∈ normalized <;>
            simp [same, old]
        rw [if_neg fun found => member (there.mp found), ih knownMore restAsked,
          List.filter_cons_of_pos (by simpa using member), List.eraseDups_cons, later,
          List.append_assoc]
        rfl

/-- Nothing of the list is there yet. -/
theorem appendAttachments_fresh (unique : ByUid requested) {normalized list : List Attachment}
    (known : forall attachment, attachment ∈ normalized -> attachment ∈ requested)
    (asked : forall attachment, attachment ∈ list -> attachment ∈ requested)
    (fresh : forall attachment, attachment ∈ list -> attachment ∉ normalized) :
    appendAttachments normalized list = normalized ++ list.eraseDups := by
  rw [appendAttachments_eq unique known asked, List.filter_eq_self.mpr fun attachment member =>
    decide_eq_true (fresh attachment member)]

/-- What the loop has put together when it has seen some of the requested
attachments. -/
def arranged (backend : Backend) (current requested seen : List Attachment) : List Attachment :=
  (units (motionUnit backend) (staysUnit backend current requested) seen).flatMap
    (block (motionUnit backend) requested)

theorem units_concat (seen : List Attachment) (attachment : Attachment) :
    units (motionUnit backend) (staysUnit backend current requested) (seen ++ [attachment]) =
      units (motionUnit backend) (staysUnit backend current requested) seen ++
        if motionUnit backend attachment ∉ seen.map (motionUnit backend) ∧
            staysUnit backend current requested (motionUnit backend attachment) = true then
          [motionUnit backend attachment] else [] := by
  unfold units
  rw [List.map_append, List.map_singleton, eraseDups_concat]
  by_cases known : motionUnit backend attachment ∈ seen.map (motionUnit backend)
  · rw [if_pos known, if_neg fun both => both.1 known, List.append_nil]
  · rw [if_neg known, List.filter_append]
    by_cases stays : staysUnit backend current requested (motionUnit backend attachment) = true
    · rw [if_pos ⟨known, stays⟩, List.filter_cons_of_pos stays, List.filter_nil]
    · rw [if_neg fun both => stays both.2, List.filter_cons_of_neg stays, List.filter_nil]

variable {seen : List Attachment} {attachment : Attachment}

/-- An attachment of a unit that the loop has seen changes nothing. -/
theorem arranged_seen (known : motionUnit backend attachment ∈ seen.map (motionUnit backend)) :
    arranged backend current requested (seen ++ [attachment]) =
      arranged backend current requested seen := by
  unfold arranged
  rw [units_concat, if_neg fun both => both.1 known, List.append_nil]

theorem arranged_left (left : staysUnit backend current requested (motionUnit backend attachment) = false) :
    arranged backend current requested (seen ++ [attachment]) =
      arranged backend current requested seen := by
  unfold arranged
  rw [units_concat, if_neg fun both => absurd both.2 (Bool.eq_false_iff.mp left), List.append_nil]

theorem arranged_fresh (fresh : motionUnit backend attachment ∉ seen.map (motionUnit backend))
    (stays : staysUnit backend current requested (motionUnit backend attachment) = true) :
    arranged backend current requested (seen ++ [attachment]) =
      arranged backend current requested seen ++
        block (motionUnit backend) requested (motionUnit backend attachment) := by
  unfold arranged
  rw [units_concat, if_pos ⟨fresh, stays⟩, List.flatMap_append, List.flatMap_singleton]

theorem mem_arranged :
    attachment ∈ arranged backend current requested seen ↔
      attachment ∈ requested ∧ motionUnit backend attachment ∈ seen.map (motionUnit backend) ∧
        staysUnit backend current requested (motionUnit backend attachment) = true := by
  unfold arranged
  rw [List.mem_flatMap]
  constructor
  · rintro ⟨value, inUnits, inBlock⟩
    rcases mem_block.mp inBlock with ⟨asked, rfl⟩
    rcases mem_units.mp inUnits with ⟨⟨first, member, same⟩, stays⟩
    exact ⟨asked, List.mem_map.mpr ⟨first, member, same⟩, stays⟩
  · rintro ⟨asked, inSeen, stays⟩
    rcases List.mem_map.mp inSeen with ⟨first, member, same⟩
    exact ⟨_, mem_units.mpr ⟨⟨first, member, same⟩, stays⟩, mem_block.mpr ⟨asked, rfl⟩⟩

/-- An attachment of its own is appended unless it is there already. -/
theorem append_alone (unique : ByUid requested) (inRequest : attachment ∈ requested)
    (alone : backend.motionGroup attachment = "") :
    appendAttachments (arranged backend current requested seen) [attachment] =
      arranged backend current requested (seen ++ [attachment]) := by
  have known : forall other, other ∈ arranged backend current requested seen ->
      other ∈ requested := fun other member => (mem_arranged.mp member).1
  have unit := motionUnit_alone alone
  have stays : staysUnit backend current requested (motionUnit backend attachment) = true := by
    rw [unit]
    rfl
  by_cases old : motionUnit backend attachment ∈ seen.map (motionUnit backend)
  · have member : attachment ∈ arranged backend current requested seen :=
      mem_arranged.mpr ⟨inRequest, old, stays⟩
    rw [arranged_seen old, appendAttachments_eq unique known (by simpa using inRequest),
      List.filter_cons_of_neg (by simpa using member)]
    exact List.append_nil _
  · have own : block (motionUnit backend) requested (motionUnit backend attachment) =
        [attachment] := by
      refine eraseDups_of_forall_eq (mem_group.mpr ⟨inRequest, rfl⟩) fun other member => ?_
      have same := (mem_group.mp member).2
      rw [unit] at same
      exact motionUnit_eq_alone same
    rw [arranged_fresh old stays, own, appendAttachments_fresh unique known
      (by simpa using inRequest)]
    · rfl
    · intro other member there
      rw [List.mem_singleton.mp member] at there
      exact old (mem_arranged.mp there).2.1

/-- The members of a new motion group are appended together. -/
theorem append_group (unique : ByUid requested) (grouped : backend.motionGroup attachment ≠ "")
    (fresh : motionUnit backend attachment ∉ seen.map (motionUnit backend))
    (stays : staysUnit backend current requested (motionUnit backend attachment) = true) :
    appendAttachments (arranged backend current requested seen)
        (currentGroup backend requested (backend.motionGroup attachment)) =
      arranged backend current requested (seen ++ [attachment]) := by
  have known : forall other, other ∈ arranged backend current requested seen ->
      other ∈ requested := fun other member => (mem_arranged.mp member).1
  have unit := motionUnit_grouped grouped
  have asked : forall other,
      other ∈ currentGroup backend requested (backend.motionGroup attachment) ->
        other ∈ requested := fun other member => (List.mem_filter.mp member).1
  have apart : forall other,
      other ∈ currentGroup backend requested (backend.motionGroup attachment) ->
        other ∉ arranged backend current requested seen := by
    intro other member there
    have ofGroup := of_decide_eq_true (List.mem_filter.mp member).2
    have sameUnit : motionUnit backend other = motionUnit backend attachment := by
      rw [unit]
      exact motionUnit_eq_group.mpr ⟨ofGroup, grouped⟩
    have seenUnit := (mem_arranged.mp there).2.1
    rw [sameUnit] at seenUnit
    exact fresh seenUnit
  have whole : block (motionUnit backend) requested (motionUnit backend attachment) =
      (currentGroup backend requested (backend.motionGroup attachment)).eraseDups := by
    rw [block, unit, group_of_motionUnit grouped]
  rw [appendAttachments_fresh unique known asked apart, ← whole, ← arranged_fresh fresh stays]

/-- The test of the loop. -/
theorem staysUnit_eq_false (grouped : backend.motionGroup attachment ≠ "") :
    staysUnit backend current requested (motionUnit backend attachment) = false ↔
      isMultiMemberMotionGroup backend
          (currentGroup backend current (backend.motionGroup attachment)) = true ∧
        (!allGroupMembersRequested (currentGroup backend current (backend.motionGroup attachment))
          (currentGroup backend requested (backend.motionGroup attachment))) = true := by
  rw [motionUnit_grouped grouped, staysUnit, Bool.not_eq_false', Bool.and_eq_true]

theorem normalizeAttachments_cons (attachment : Attachment) (rest normalized : List Attachment)
    (groups : List String) :
    normalizeAttachments backend current requested (attachment :: rest) normalized groups =
      let group := backend.motionGroup attachment
      if group = "" then
        normalizeAttachments backend current requested rest
          (appendAttachments normalized [attachment]) groups
      else if group ∈ groups then
        normalizeAttachments backend current requested rest normalized groups
      else if isMultiMemberMotionGroup backend (currentGroup backend current group) = true ∧
          (!allGroupMembersRequested (currentGroup backend current group)
            (currentGroup backend requested group)) = true then
        normalizeAttachments backend current requested rest normalized (group :: groups)
      else
        normalizeAttachments backend current requested rest
          (appendAttachments normalized (currentGroup backend requested group)) (group :: groups) :=
  rfl

/-- The loop from the point where it has seen some of the attachments. -/
theorem normalizeAttachments_eq (unique : ByUid requested) {seen rest : List Attachment}
    {groups : List String} (whole : requested = seen ++ rest)
    (marked : forall group, group ∈ groups ↔
      MotionUnit.group group ∈ seen.map (motionUnit backend)) :
    normalizeAttachments backend current requested rest
        (arranged backend current requested seen) groups =
      arranged backend current requested requested := by
  induction rest generalizing seen groups with
  | nil =>
      rw [List.append_nil] at whole
      rw [whole]
      rfl
  | cons attachment rest ih =>
      have inRequest : attachment ∈ requested := by
        rw [whole]
        exact List.mem_append_right _ List.mem_cons_self
      have further : requested = (seen ++ [attachment]) ++ rest := by
        rw [whole, List.append_assoc, List.singleton_append]
      have ofSeen : forall unit, unit ∈ (seen ++ [attachment]).map (motionUnit backend) ↔
          unit ∈ seen.map (motionUnit backend) ∨ unit = motionUnit backend attachment := by
        intro unit
        rw [List.map_append, List.mem_append, List.map_singleton, List.mem_singleton]
      rw [normalizeAttachments_cons]
      dsimp only
      by_cases alone : backend.motionGroup attachment = ""
      · have unmarked : forall group, group ∈ groups ↔
            MotionUnit.group group ∈ (seen ++ [attachment]).map (motionUnit backend) := by
          intro group
          rw [ofSeen, marked, motionUnit_alone alone]
          exact ⟨.inl, fun either => either.resolve_right nofun⟩
        rw [if_pos alone, append_alone unique inRequest alone]
        exact ih further unmarked
      · have unit := motionUnit_grouped alone
        have markedMore : forall group, group ∈ backend.motionGroup attachment :: groups ↔
            MotionUnit.group group ∈ (seen ++ [attachment]).map (motionUnit backend) := by
          intro group
          rw [ofSeen, List.mem_cons, marked, unit, MotionUnit.group.injEq, Or.comm]
        rw [if_neg alone]
        by_cases old : backend.motionGroup attachment ∈ groups
        · have seenUnit : motionUnit backend attachment ∈ seen.map (motionUnit backend) := by
            rw [unit]
            exact (marked _).mp old
          have unchanged : forall group, group ∈ groups ↔
              MotionUnit.group group ∈ (seen ++ [attachment]).map (motionUnit backend) := by
            intro group
            rw [ofSeen, marked]
            exact ⟨.inl, fun either => either.elim id fun same => same ▸ seenUnit⟩
          rw [if_pos old, ← arranged_seen seenUnit]
          exact ih further unchanged
        · rw [if_neg old]
          by_cases left : staysUnit backend current requested (motionUnit backend attachment) = false
          · rw [if_pos ((staysUnit_eq_false alone).mp left), ← arranged_left left]
            exact ih further markedMore
          · have fresh : motionUnit backend attachment ∉ seen.map (motionUnit backend) := by
              rw [unit]
              exact fun member => old ((marked _).mpr member)
            rw [if_neg fun dropped => left ((staysUnit_eq_false alone).mpr dropped),
              append_group unique alone fresh (Bool.eq_true_of_not_eq_false left)]
            exact ih further markedMore

theorem normalizeAttachments_arrange (unique : ByUid requested) :
    normalizeAttachments backend current requested requested [] [] =
      arrange (motionUnit backend) (staysUnit backend current requested) requested := by
  have none : forall group, group ∈ ([] : List String) ↔
      MotionUnit.group group ∈ ([] : List Attachment).map (motionUnit backend) :=
    fun _ => ⟨nofun, nofun⟩
  exact normalizeAttachments_eq unique (List.nil_append _).symm none

end Loop

/-! ## What the request comes down to -/

section Normalizes

variable {backend : Backend} {user : User} {current requested normalized : List Attachment}
  {names : List String}

/-- The normalised request has the requested attachments once each, less the
groups that are left out in part.  The groups stand together, where their first
members are requested, and the order is that of the request. -/
structure Normalizes (backend : Backend) (current requested normalized : List Attachment) : Prop where
  distinct : (normalized.map Attachment.uid).Nodup
  asked : forall attachment, attachment ∈ normalized -> attachment ∈ requested
  complete : forall attachment, attachment ∈ requested ->
    (attachment ∈ normalized ↔ ¬ (backend.motionGroup attachment ≠ "" ∧
      Partial backend current requested (backend.motionGroup attachment)))
  contiguous : forall group, group ≠ "" -> Exists fun before => Exists fun after =>
    normalized = before ++ currentGroup backend normalized group ++ after ∧
      forall attachment, attachment ∈ before ++ after -> backend.motionGroup attachment ≠ group
  ordered : normalized.Pairwise (Precedes (motionUnit backend) requested)

theorem stays_iff {attachment : Attachment} :
    staysUnit backend current requested (motionUnit backend attachment) = true ↔
      ¬ (backend.motionGroup attachment ≠ "" ∧
        Partial backend current requested (backend.motionGroup attachment)) := by
  by_cases alone : backend.motionGroup attachment = ""
  · rw [motionUnit_alone alone]
    exact ⟨fun _ both => both.1 alone, fun _ => rfl⟩
  · rw [motionUnit_grouped alone, staysUnit_group alone]
    exact ⟨fun whole both => whole both.2, fun whole half => whole ⟨alone, half⟩⟩

theorem normalizes_arrange (unique : ByUid requested) :
    Normalizes backend current requested
      (arrange (motionUnit backend) (staysUnit backend current requested) requested) where
  distinct := by
    refine List.Nodup.map_on ?_ nodup_arrange
    intro first left second right same
    exact unique first second (mem_arrange.mp left).1 (mem_arrange.mp right).1 same
  asked := fun _ member => (mem_arrange.mp member).1
  complete := by
    intro attachment asked
    rw [mem_arrange, ← stays_iff]
    exact ⟨fun both => both.2, fun stays => ⟨asked, stays⟩⟩
  contiguous := by
    intro group grouped
    rcases @arrange_contiguous _ _ _ _ (motionUnit backend)
      (staysUnit backend current requested) requested (.group group) with
        ⟨before, after, whole, others⟩
    rw [group_of_motionUnit grouped] at whole
    refine ⟨before, after, whole, ?_⟩
    intro attachment member same
    exact others attachment member (motionUnit_eq_group.mpr ⟨same, grouped⟩)
  ordered := pairwise_arrange

/-- A request that names what is left of the first is left as it is. -/
theorem normalizeAttachments_again (unique : ByUid requested)
    (result : normalizeAttachments backend current requested requested [] [] = normalized) :
    normalizeAttachments backend current normalized normalized [] [] = normalized := by
  have arranged := @normalizeAttachments_arrange backend current _ unique
  have whole := arranged.symm.trans result
  have spec : Normalizes backend current requested normalized := whole ▸ normalizes_arrange unique
  have uniqueAgain : ByUid normalized := fun first second left right =>
    unique first second (spec.asked first left) (spec.asked second right)
  have kept : forall unit, unit ∈ units (motionUnit backend)
      (staysUnit backend current requested) requested ->
        staysUnit backend current normalized unit = true := by
    intro unit member
    rcases mem_units.mp member with ⟨⟨attachment, asked, rfl⟩, stays⟩
    rw [stays_iff] at stays ⊢
    rintro ⟨grouped, several, left, inGroup, missing⟩
    refine stays ⟨grouped, several, left, inGroup, ?_⟩
    intro other otherAsked ofGroup
    refine missing other ((spec.complete other otherAsked).mpr ?_) ofGroup
    rw [ofGroup]
    exact stays
  rw [normalizeAttachments_arrange uniqueAgain, ← whole]
  rw [← whole] at kept
  exact arrange_arrange kept

theorem ends_normalizeMemoAttachmentRequest {db : Database} :
    Ends (fun state => state = db) (normalizeMemoAttachmentRequest backend user current names)
      (fun normalized state => state = db ∧ Exists fun requested => Requests db names requested ∧
        (forall attachment, attachment ∈ requested -> MayAttach user attachment) ∧
        normalizeAttachments backend current requested requested [] [] = normalized)
      (fun _ state => state = db) :=
  ends_bind ends_requestedAttachments fun requested => ends_pure fun _ given =>
    ⟨given.1, requested, given.2.1, given.2.2, rfl⟩

theorem normalizeMemoAttachmentRequest_quiet {db : Database} (requests : Requests db names requested)
    (permitted : forall attachment, attachment ∈ requested -> MayAttach user attachment) :
    normalizeMemoAttachmentRequest backend user current names ⟨db, []⟩ =
      (.ok (normalizeAttachments backend current requested requested [] []), ⟨db, []⟩) :=
  (bind_of_ok (requestedAttachments_quiet requests permitted)).trans rfl

/-- Whatever the current attachments are and whatever is requested, a result has
the blocks of the request, and a request for just these attachments has it
again. -/
theorem normalizeMemoAttachmentRequest_blocks {world after : World Database}
    (success : normalizeMemoAttachmentRequest backend user current names world =
      (.ok normalized, after)) :
    Exists fun requested => Requests world.state names requested ∧
      Normalizes backend current requested normalized ∧
      normalizeMemoAttachmentRequest backend user current
          (normalized.map fun attachment => "attachments/" ++ attachment.uid) ⟨world.state, []⟩ =
        (.ok normalized, ⟨world.state, []⟩) := by
  have ends := @ends_normalizeMemoAttachmentRequest backend user current names world.state world rfl
  rw [success] at ends
  rcases ends with ⟨_, requested, requests, permitted, result⟩
  have unique : ByUid requested := fun _ _ left right => requests.eq_of_uid left right
  have spec : Normalizes backend current requested normalized := by
    rw [← result, normalizeAttachments_arrange unique]
    exact normalizes_arrange unique
  refine ⟨requested, requests, spec, ?_⟩
  rw [normalizeMemoAttachmentRequest_quiet
    (requests_by_uid fun attachment member => requests.find (spec.asked attachment member))
    fun attachment member => permitted attachment (spec.asked attachment member),
    normalizeAttachments_again unique result]

end Normalizes

/-! ## A request for a live photo -/

def photographer : User where
  id := 1
  rowStatus := .normal
  username := "ada"
  role := .user

/-- An attachment whose payload is the name of its motion group. -/
def albumAttachment (id : Nat) (uid group : String) : Attachment where
  id := id
  uid := uid
  creatorId := 1
  updatedTs := 0
  memoId := none
  payload := group

def albumBackend : Backend := { quietBackend with motionGroup := Attachment.payload }

def albumStill : Attachment := albumAttachment 1 "still" "live"

def albumVideo : Attachment := albumAttachment 2 "video" "live"

def albumText : Attachment := albumAttachment 3 "text" ""

def albumOther : Attachment := albumAttachment 4 "other" "torn"

def albumRest : Attachment := albumAttachment 5 "rest" "torn"

def album : Database := { attachments := [albumStill, albumVideo, albumText, albumOther, albumRest] }

def albumCurrent : List Attachment := [albumOther, albumRest]

def albumRequest : List Attachment := [albumVideo, albumOther, albumText, albumStill, albumVideo]

def albumNames : List String := albumRequest.map fun attachment => "attachments/" ++ attachment.uid

theorem albumNames_requests : Requests album albumNames albumRequest := by
  refine requests_by_uid fun attachment member => ?_
  have plain : forall row, row ∈ albumRequest -> (row.uid ≠ "" ∧ '/' ∉ row.uid.toList) ∧
      (album.attachments.find? fun other => other.uid = row.uid) = some row := by decide +kernel
  rcases plain attachment member with ⟨plainUid, found⟩
  exact ⟨extractAttachmentUIDFromName_append plainUid, found⟩

theorem normalizeMemoAttachmentRequest_albumNames :
    normalizeMemoAttachmentRequest albumBackend photographer albumCurrent albumNames ⟨album, []⟩ =
      (.ok [albumVideo, albumStill, albumText], ⟨album, []⟩) := by
  have normalized : normalizeAttachments albumBackend albumCurrent albumRequest albumRequest [] [] =
      [albumVideo, albumStill, albumText] := by decide +kernel
  have permitted : forall attachment, attachment ∈ albumRequest -> MayAttach photographer attachment := by
    decide
  rw [normalizeMemoAttachmentRequest_quiet albumNames_requests permitted, normalized]

/-- The live photo comes together, the torn one goes. -/
theorem normalizeMemoAttachmentRequest_album :
    Exists fun requested => Requests album albumNames requested ∧
      Normalizes albumBackend albumCurrent requested [albumVideo, albumStill, albumText] ∧
      normalizeMemoAttachmentRequest albumBackend photographer albumCurrent
          ([albumVideo, albumStill, albumText].map fun attachment =>
            "attachments/" ++ attachment.uid) ⟨album, []⟩ =
        (.ok [albumVideo, albumStill, albumText], ⟨album, []⟩) :=
  @normalizeMemoAttachmentRequest_blocks albumBackend photographer albumCurrent
    [albumVideo, albumStill, albumText] albumNames ⟨album, []⟩ ⟨album, []⟩
    normalizeMemoAttachmentRequest_albumNames

end Service
end Memos
