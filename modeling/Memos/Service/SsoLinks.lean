import Memos.Service.SsoIdentities

namespace Memos
namespace Service
namespace SsoIdentities

open Library Store

/-!
# One user for each external account

Links are only ever added, and only to users that nobody is about to delete:
somebody acts as them, or the call that created them links them itself.  What a
call has read of the links therefore stays true until it returns.  The one link
that goes again is that of a provisional user whose creation is reported as
failed although it was made.
-/

variable {ι : Type}

/-! ## What a call knows -/

/-- Its own user, links that it has seen and users that it may link. -/
structure Known where
  own : Own := .none
  links : List UserIdentity := []
  settled : List Nat := []

def Demands (call : ι) (known : Known) : SsoOperation ι -> Prop
  | .createUserIdentity caller userId _ _ =>
      caller = call ∧ (known.own = .provisional userId ∨ userId ∈ known.settled)
  | .createUser caller _ => caller = call ∧ known.own = .none
  | .deleteUser caller id => caller = call ∧ known.own = .provisional id
  | _ => True

def Expects : (operation : SsoOperation ι) -> SsoReply operation -> Prop
  | .getUserIdentity find, .ok (some row) => find.selects row = true
  | .getCurrentUser id, .ok (some user) | .getUser id, .ok (some user) => user.id = id
  | .createUserIdentity _ userId provider externUid, .ok row =>
      row.userId = userId ∧ row.provider = provider ∧ row.externUid = externUid
  | _, _ => True

def learn (known : Known) : (operation : SsoOperation ι) -> SsoReply operation -> Known
  | .getCurrentUser id, .ok (some _) => { known with settled := id :: known.settled }
  | .getUserIdentity _, .ok (some row) => { known with links := row :: known.links }
  | .createUserIdentity _ userId _ _, .ok row =>
      { known with own := known.own.settle userId (.linked userId), links := row :: known.links }
  | .createUser _ _, .ok row => { known with own := .provisional row.id }
  | .deleteUser _ id, .ok _ => { known with own := known.own.settle id (.deleted id) }
  | .deleteUser _ id, .error _ => { known with own := known.own.settle id (.stranded id) }
  | _, _ => known

def ssoGuide (call : ι) : Guide (SsoOperation ι) SsoReply Known where
  demands := Demands call
  expects := Expects
  learn := learn

/-- A link that is there, or that went with its provisional user. -/
def Kept (accounts : Accounts ι) (row : UserIdentity) : Prop :=
  row ∈ accounts.identities ∨ row ∈ accounts.lost

/-- What a call knows is true. -/
structure Holds (accounts : Accounts ι) (call : ι) (known : Known) : Prop where
  own : accounts.own call = known.own
  links : forall row, row ∈ known.links -> Kept accounts row
  settled : forall id, id ∈ known.settled -> Settled accounts id

/-! ## What the tables keep -/

structure Sound (accounts : Accounts ι) : Prop where
  users : forall user, user ∈ accounts.users -> user.id ≤ accounts.sequence
  identities : forall row, row ∈ accounts.identities ->
    Settled accounts row.userId ∨ row ∈ accounts.lost
  consistent : forall first, first ∈ accounts.identities -> forall second,
    second ∈ accounts.identities -> Conflicts first second -> first = second
  created : forall call id, (accounts.own call).created = some id -> id ≤ accounts.sequence
  apart : forall first second id, accounts.own first = .provisional id ->
    accounts.own second = .provisional id -> first = second
  deleted : forall call id, accounts.own call = .deleted id ->
    forall user, user ∈ accounts.users -> user.id ≠ id

theorem Conflicts.symm {first second : UserIdentity} (conflicts : Conflicts first second) :
    Conflicts second first :=
  ⟨conflicts.1.symm, conflicts.2.imp Eq.symm Eq.symm⟩

/-- The tables after a step of one call: links stay, and only new users are
provisional. -/
structure Extends (before after : Accounts ι) (call : ι) : Prop where
  links : forall row, row ∈ before.identities -> Kept after row
  lost : forall row, row ∈ before.lost -> row ∈ after.lost
  sequence : before.sequence ≤ after.sequence
  provisional : forall caller id, after.own caller = .provisional id ->
    before.own caller = .provisional id ∨ before.sequence < id
  others : forall other, other ≠ call -> after.own other = before.own other

theorem Extends.refl (accounts : Accounts ι) (call : ι) : Extends accounts accounts call :=
  ⟨fun _ member => Or.inl member, fun _ member => member, Nat.le_refl _, fun _ _ same => Or.inl same,
    fun _ _ => rfl⟩

variable {call : ι} {row : UserIdentity} {id : Nat} {known : Known} {accounts : Accounts ι} {mark : Own}
  {before : Accounts ι} {after : Accounts ι}

theorem Extends.kept {before after : Accounts ι} (extends_ : Extends before after call) (kept : Kept before row) :
    Kept after row :=
  kept.elim (extends_.links row) fun lost => Or.inr (extends_.lost row lost)

theorem Extends.settled {before after : Accounts ι} (extends_ : Extends before after call)
    (settled : Settled before id) : Settled after id := by
  refine ⟨settled.1.trans extends_.sequence, fun caller provisional => ?_⟩
  rcases extends_.provisional caller id provisional with same | new
  · exact settled.2 caller same
  · exact absurd settled.1 (Nat.not_le_of_lt new)

/-- The old links are still as they should be. -/
theorem Extends.identities {before after : Accounts ι} (extends_ : Extends before after call) (sound : Sound before)
    (member : row ∈ before.identities) :
    Settled after row.userId ∨ row ∈ after.lost :=
  (sound.identities row member).imp extends_.settled (extends_.lost row)

theorem Extends.holds {before after : Accounts ι} {call other : ι} (extends_ : Extends before after call)
    (different : other ≠ call) (holds : Holds before other known) :
    Holds after other known :=
  ⟨(extends_.others other different).trans holds.own,
    fun row member => extends_.kept (holds.links row member),
    fun id member => extends_.settled (holds.settled id member)⟩

variable [DecidableEq ι]

theorem mark_self (mark : Own) :
    accounts.mark call id mark call = (accounts.own call).settle id mark := Function.update_self ..

theorem mark_other {call other : ι} (different : other ≠ call) :
    accounts.mark call id mark other = accounts.own other :=
  Function.update_of_ne different ..

/-- What is not the new mark has been there before. -/
theorem mark_old {call caller : ι} {mark own : Own} (same : accounts.mark call id mark caller = own)
    (old : own ≠ mark) :
    accounts.own caller = own := by
  by_cases here : caller = call
  · rw [here, mark_self, Own.settle] at same
    split at same
    · exact absurd same.symm old
    · rw [here, same]
  · rwa [mark_other here] at same

/-- A user that is marked is no longer provisional for the call. -/
theorem mark_not_provisional (marked : mark ≠ .provisional id) : accounts.mark call id mark call ≠ .provisional id := by
  rw [mark_self, Own.settle]
  split
  · exact marked
  next other => exact other

theorem mark_created {call caller : ι} {id other : Nat} (named : mark.created = some id)
    (same : (accounts.mark call id mark caller).created = some other) :
    (accounts.own caller).created = some other := by
  by_cases here : caller = call
  · rw [here, mark_self, Own.settle] at same
    split at same
    next provisional =>
      rw [named] at same
      rw [here, provisional, ← same]
      rfl
    next =>
      rw [here]
      exact same
  · rwa [mark_other here] at same

/-- A mark keeps what has been there. -/
theorem extends_of_mark {before after : Accounts ι} (marked : forall id, mark ≠ .provisional id)
    (links : forall row, row ∈ before.identities -> Kept after row) (lost : after.lost = before.lost)
    (sequence : after.sequence = before.sequence) (own : after.own = before.mark call id mark) :
    Extends before after call where
  links := links
  lost := fun row member => lost ▸ member
  sequence := Nat.le_of_eq sequence.symm
  provisional := fun caller id same => by
    rw [own] at same
    exact Or.inl (mark_old same (marked id).symm)
  others := fun other different => by rw [own, mark_other different]

/-! ## The steps that change something -/

omit [DecidableEq ι] in
/-- A row that conflicts with no other may be added. -/
theorem Sound.consistent_append (sound : Sound accounts)
    (free : forall other, other ∈ accounts.identities -> ¬Conflicts other row) :
    forall first, first ∈ accounts.identities ++ [row] -> forall second,
      second ∈ accounts.identities ++ [row] -> Conflicts first second -> first = second := by
  intro first firstMember second secondMember conflicts
  rcases List.mem_append.mp firstMember with firstOld | firstNew
  · rcases List.mem_append.mp secondMember with secondOld | secondNew
    · exact sound.consistent first firstOld second secondOld conflicts
    · rw [List.mem_singleton.mp secondNew] at conflicts
      exact absurd conflicts (free first firstOld)
  · rw [List.mem_singleton.mp firstNew] at conflicts ⊢
    rcases List.mem_append.mp secondMember with secondOld | secondNew
    · exact absurd conflicts.symm (free second secondOld)
    · exact (List.mem_singleton.mp secondNew).symm

theorem Sound.createIdentity (sound : Sound before)
    (linkable : before.own call = .provisional row.userId ∨ Settled before row.userId)
    (free : forall other, other ∈ before.identities -> ¬Conflicts other row) (changed : after = { before with
      identities := before.identities ++ [row],
      own := before.mark call row.userId (.linked row.userId) }) :
    Extends before after call ∧ Sound after := by
  have extension : Extends before after call := by
    subst changed
    exact extends_of_mark (fun _ => Own.noConfusion)
      (fun _ member => Or.inl (List.mem_append_left _ member)) rfl rfl rfl
  have settled : Settled after row.userId := by
    subst changed
    constructor
    · rcases linkable with own | settled
      · exact sound.created call row.userId (by rw [own]; rfl)
      · exact settled.1
    · intro caller provisional
      have earlier := mark_old provisional Own.noConfusion
      rcases linkable with own | settled
      · rw [sound.apart caller call row.userId earlier own] at provisional
        exact mark_not_provisional Own.noConfusion provisional
      · exact settled.2 caller earlier
  refine ⟨extension, ?_⟩
  subst changed
  refine ⟨sound.users, ?_, ?_, ?_, ?_, ?_⟩
  · intro other member
    rcases List.mem_append.mp member with old | new
    · exact extension.identities sound old
    · rw [List.mem_singleton.mp new]
      exact Or.inl settled
  · exact sound.consistent_append free
  · exact fun caller id same => sound.created caller id (mark_created rfl same)
  · exact fun first second id firstSame secondSame => sound.apart first second id
      (mark_old firstSame Own.noConfusion) (mark_old secondSame Own.noConfusion)
  · exact fun caller id same => sound.deleted caller id (mark_old same Own.noConfusion)

omit [DecidableEq ι] in
/-- A link that is reported as failed. -/
theorem Sound.loseIdentity (sound : Sound before)
    (linkable : before.own call = .provisional row.userId ∨ Settled before row.userId)
    (free : forall other, other ∈ before.identities -> ¬Conflicts other row) (changed : after = { before with
      identities := before.identities ++ [row]
      lost := before.lost ++ if before.own call = .provisional row.userId then [row] else [] }) :
    Extends before after call ∧ Sound after := by
  have extension : Extends before after call := by
    subst changed
    exact ⟨fun _ member => Or.inl (List.mem_append_left _ member),
      fun _ member => List.mem_append_left _ member, Nat.le_refl _, fun _ _ same => Or.inl same,
      fun _ _ => rfl⟩
  refine ⟨extension, ?_⟩
  subst changed
  refine ⟨sound.users, fun other member => ?_, sound.consistent_append free, sound.created, sound.apart,
    sound.deleted⟩
  rcases List.mem_append.mp member with old | new
  · exact extension.identities sound old
  · rw [List.mem_singleton.mp new]
    rcases linkable with own | settled
    · refine Or.inr (List.mem_append_right _ ?_)
      rw [if_pos own]
      exact List.mem_cons_self
    · exact Or.inl settled

omit [DecidableEq ι] in
/-- A user whose creation is reported as failed. -/
theorem Sound.loseUser (sound : Sound before) (call : ι) {row : LocalUser} (fresh : before.sequence < row.id)
    (changed : after = { before with
      users := before.users ++ [row], sequence := row.id }) :
    Extends before after call ∧ Sound after := by
  have extension : Extends before after call := by
    subst changed
    exact ⟨fun _ member => Or.inl member, fun _ member => member, Nat.le_of_lt fresh,
      fun _ _ same => Or.inl same, fun _ _ => rfl⟩
  refine ⟨extension, ?_⟩
  subst changed
  refine ⟨fun user member => ?_, fun other member => extension.identities sound member, sound.consistent,
    fun caller id same => (sound.created caller id same).trans (Nat.le_of_lt fresh), sound.apart, ?_⟩
  · rcases List.mem_append.mp member with old | new
    · exact (sound.users user old).trans (Nat.le_of_lt fresh)
    · rw [List.mem_singleton.mp new]
  · intro caller id same user member
    rcases List.mem_append.mp member with present | new
    · exact sound.deleted caller id same user present
    · rw [List.mem_singleton.mp new]
      exact ((sound.created caller id (by rw [same]; rfl)).trans_lt fresh).ne'

theorem Sound.createUser (sound : Sound before) {row : LocalUser} (fresh : before.sequence < row.id)
    (changed : after = { before with
      users := before.users ++ [row], sequence := row.id,
      own := Function.update before.own call (.provisional row.id) }) :
    Extends before after call ∧ Sound after := by
  have own : forall caller mark, after.own caller = mark ->
      caller = call ∧ mark = .provisional row.id ∨ caller ≠ call ∧ before.own caller = mark := by
    intro caller mark same
    subst changed
    by_cases here : caller = call
    · rw [here] at same
      exact Or.inl ⟨here, (same.symm.trans (Function.update_self ..))⟩
    · exact Or.inr ⟨here, (Function.update_of_ne here ..).symm.trans same⟩
  have extension : Extends before after call := by
    refine ⟨?_, ?_, ?_, ?_, ?_⟩
    · subst changed
      exact fun _ member => Or.inl member
    · subst changed
      exact fun _ member => member
    · subst changed
      exact Nat.le_of_lt fresh
    · intro caller id same
      rcases own caller _ same with ⟨_, new⟩ | ⟨_, old⟩
      · cases new
        exact Or.inr fresh
      · exact Or.inl old
    · intro other different
      rcases own other _ rfl with ⟨here, _⟩ | ⟨_, old⟩
      · exact absurd here different
      · exact old.symm
  refine ⟨extension, ?_⟩
  have older : forall caller id, (before.own caller).created = some id -> id < row.id :=
    fun caller id same => (sound.created caller id same).trans_lt fresh
  refine ⟨?_, ?_, ?_, ?_, ?_, ?_⟩
  · subst changed
    intro user member
    rcases List.mem_append.mp member with old | new
    · exact (sound.users user old).trans (Nat.le_of_lt fresh)
    · rw [List.mem_singleton.mp new]
  · intro other member
    refine extension.identities sound ?_
    subst changed
    exact member
  · subst changed
    exact sound.consistent
  · intro caller id same
    have bound : id ≤ row.id := by
      rcases own caller _ rfl with ⟨_, new⟩ | ⟨_, old⟩
      · rw [new] at same
        cases same
        exact Nat.le_refl _
      · rw [← old] at same
        exact Nat.le_of_lt (older caller id same)
    subst changed
    exact bound
  · intro first second id firstSame secondSame
    have new : forall caller, caller ≠ call -> before.own caller ≠ .provisional row.id := by
      intro caller _ old
      exact absurd (older caller row.id (by rw [old]; rfl)) (Nat.lt_irrefl _)
    rcases own first _ firstSame with ⟨firstHere, firstNew⟩ | ⟨firstOther, firstOld⟩
    · cases firstNew
      rcases own second _ secondSame with ⟨secondHere, _⟩ | ⟨secondOther, secondOld⟩
      · rw [firstHere, secondHere]
      · exact absurd secondOld (new second secondOther)
    · rcases own second _ secondSame with ⟨_, secondNew⟩ | ⟨_, secondOld⟩
      · cases secondNew
        exact absurd firstOld (new first firstOther)
      · exact sound.apart first second id firstOld secondOld
  · intro caller id same user member
    rcases own caller _ same with ⟨_, impossible⟩ | ⟨_, old⟩
    · cases impossible
    · subst changed
      rcases List.mem_append.mp member with present | new
      · exact sound.deleted caller id old user present
      · rw [List.mem_singleton.mp new]
        exact (older caller id (by rw [old]; rfl)).ne'

theorem Sound.deleteUser (sound : Sound before) (own : before.own call = .provisional id)
    (changed : after = { before with
      users := before.users.filter fun user => user.id ≠ id
      identities := before.identities.filter fun identity => identity.userId ≠ id
      own := before.mark call id (.deleted id) }) :
    Extends before after call ∧ Sound after := by
  have extension : Extends before after call := by
    subst changed
    refine extends_of_mark (fun _ => Own.noConfusion) (fun row member => ?_) rfl rfl rfl
    by_cases spared : row.userId ≠ id
    · exact Or.inl (List.mem_filter.mpr ⟨member, decide_eq_true spared⟩)
    · -- A provisional user has no link but a lost one.
      refine Or.inr ((sound.identities row member).resolve_left fun settled => ?_)
      exact settled.2 call (not_not.mp spared ▸ own)
  refine ⟨extension, ?_⟩
  subst changed
  refine ⟨fun user member => sound.users user (List.mem_of_mem_filter member),
    fun row member => extension.identities sound (List.mem_of_mem_filter member),
    fun first firstMember second secondMember => sound.consistent first (List.mem_of_mem_filter firstMember)
      second (List.mem_of_mem_filter secondMember),
    fun caller other same => sound.created caller other (mark_created rfl same),
    fun first second other firstSame secondSame => sound.apart first second other
      (mark_old firstSame Own.noConfusion) (mark_old secondSame Own.noConfusion), ?_⟩
  intro caller other same user member
  rcases List.mem_filter.mp member with ⟨present, spared⟩
  by_cases here : other = id
  · rw [here]
    exact of_decide_eq_true spared
  · have different : Own.deleted other ≠ .deleted id := fun equal => here (Own.deleted.inj equal)
    exact sound.deleted caller other (mark_old same different) user present

theorem Sound.strand (sound : Sound before) (call : ι) (id : Nat)
    (changed : after = { before with own := before.mark call id (.stranded id) }) :
    Extends before after call ∧ Sound after := by
  have extension : Extends before after call := by
    subst changed
    exact extends_of_mark (fun _ => Own.noConfusion) (fun _ member => Or.inl member) rfl rfl rfl
  refine ⟨extension, ?_⟩
  subst changed
  exact ⟨sound.users, fun row member => extension.identities sound member,
    sound.consistent, fun caller other same => sound.created caller other (mark_created rfl same),
    fun first second other firstSame secondSame => sound.apart first second other
      (mark_old firstSame Own.noConfusion) (mark_old secondSame Own.noConfusion),
    fun caller other same => sound.deleted caller other (mark_old same Own.noConfusion)⟩

/-! ## Every step -/

omit [DecidableEq ι] in
/-- The knowledge of a call whose own user and links are as the step leaves
them. -/
theorem Holds.step {before after : Accounts ι} (holds : Holds before call known)
    (extension : Extends before after call) {own : Own} (same : after.own call = own) {links : List UserIdentity}
    (new : forall row, row ∈ links -> row ∈ known.links ∨ row ∈ after.identities) :
    Holds after call { known with own := own, links := links } where
  own := same
  links := fun row member => (new row member).elim
    (fun old => extension.kept (holds.links row old)) Or.inl
  settled := fun id member => extension.settled (holds.settled id member)

/-- What a step does to the tables, to what is expected of its reply and to
what its call knows. -/
structure Stepped (before after : Accounts ι) (call : ι) (known : Known) (operation : SsoOperation ι)
    (reply : SsoReply operation) : Prop where
  extension : Extends before after call
  sound : Sound after
  expected : Expects operation reply
  learnt : Holds after call (learn known operation reply)

omit [DecidableEq ι] in
/-- A step that changes nothing. -/
theorem Stepped.read {operation : SsoOperation ι} {reply : SsoReply operation} (sound : Sound before)
    (expected : Expects operation reply) (learnt : Holds before call (learn known operation reply)) :
    Stepped before before call known operation reply :=
  ⟨Extends.refl before call, sound, expected, learnt⟩

theorem stepped {before after : Accounts ι} {operation : SsoOperation ι} {reply : SsoReply operation}
    (sound : Sound before) (holds : Holds before call known) (demanded : Demands call known operation)
    (effective : SsoEffect before operation reply after) :
    Stepped before after call known operation reply := by
  cases operation with
  | getCurrentUser id =>
      rcases effective with ⟨rfl, signedIn⟩
      match reply with
      | .error cause => exact .read sound trivial holds
      | .ok none => exact .read sound trivial holds
      | .ok (some user) =>
          rcases signedIn user rfl with ⟨same, settled⟩
          refine .read sound same ⟨holds.own, holds.links, fun other member => ?_⟩
          rcases List.mem_cons.mp member with rfl | old
          · exact settled
          · exact holds.settled other old
  | getUserIdentity find =>
      rcases effective with ⟨rfl, found⟩
      match reply with
      | .error cause => exact .read sound trivial holds
      | .ok none => exact .read sound trivial holds
      | .ok (some row) =>
          have first := (found (some row) rfl).symm
          refine .read sound (List.find?_some first) ⟨holds.own, fun other member => ?_, holds.settled⟩
          rcases List.mem_cons.mp member with rfl | old
          · exact Or.inl (List.mem_of_find?_eq_some first)
          · exact holds.links other old
  | createUserIdentity caller userId provider externUid =>
      rcases demanded with ⟨rfl, linkable⟩
      have allowed : before.own caller = .provisional userId ∨ Settled before userId :=
        linkable.imp (fun own => holds.own.trans own) (holds.settled userId)
      match reply with
      | .error cause =>
          rcases effective with ⟨rfl, _⟩ | ⟨_, row, ⟨rfl, rfl, rfl, free⟩, changed⟩
          · exact .read sound trivial holds
          · rcases sound.loseIdentity allowed (fun other member => (free other member).2) changed with
              ⟨extension, kept⟩
            refine ⟨extension, kept, trivial, holds.step extension ?_ fun _ member => Or.inl member⟩
            rw [changed]
            exact holds.own
      | .ok row =>
          rcases effective with ⟨⟨rfl, rfl, rfl, free⟩, changed⟩
          rcases sound.createIdentity allowed (fun other member => (free other member).2) changed with
            ⟨extension, kept⟩
          refine ⟨extension, kept, ⟨rfl, rfl, rfl⟩, holds.step extension ?_ fun other member => ?_⟩
          · rw [changed, ← holds.own]
            exact mark_self _
          · rcases List.mem_cons.mp member with rfl | old
            · rw [changed]
              exact Or.inr (List.mem_append_right _ List.mem_cons_self)
            · exact Or.inl old
  | getUser id =>
      rcases effective with ⟨rfl, same, _⟩
      match reply with
      | .error cause => exact .read sound trivial holds
      | .ok none => exact .read sound trivial holds
      | .ok (some user) => exact .read sound (same user rfl) holds
  | createUser caller create =>
      rcases demanded with ⟨rfl, idle⟩
      match reply with
      | .error cause =>
          rcases effective with rfl | ⟨row, ⟨_, fresh, _⟩, changed⟩
          · exact .read sound trivial holds
          · rcases sound.loseUser caller fresh changed with ⟨extension, kept⟩
            refine ⟨extension, kept, trivial, holds.step extension ?_ fun _ member => Or.inl member⟩
            rw [changed]
            exact holds.own
      | .ok row =>
          rcases effective with ⟨⟨_, fresh, _⟩, changed⟩
          rcases sound.createUser fresh changed with ⟨extension, kept⟩
          refine ⟨extension, kept, trivial, holds.step extension ?_ fun _ member => Or.inl member⟩
          rw [changed]
          exact Function.update_self ..
  | deleteUser caller id =>
      rcases demanded with ⟨rfl, own⟩
      match reply with
      | .error cause =>
          rcases sound.strand caller id effective with ⟨extension, kept⟩
          refine ⟨extension, kept, trivial, holds.step extension ?_ fun _ member => Or.inl member⟩
          rw [effective, ← holds.own]
          exact mark_self _
      | .ok () =>
          rcases sound.deleteUser (holds.own.trans own) effective with ⟨extension, kept⟩
          refine ⟨extension, kept, trivial, holds.step extension ?_ fun _ member => Or.inl member⟩
          rw [effective, ← holds.own]
          exact mark_self _
  | getInstanceGeneralSetting =>
      cases effective
      exact .read sound trivial holds
  | randomString length =>
      cases effective
      exact .read sound trivial holds
  | generateFromPassword password =>
      cases effective
      exact .read sound trivial holds
  | deriveSsoUsername =>
      cases effective
      exact .read sound trivial holds

/-- The tables keep what they keep, and the links that were there. -/
theorem guards (links : List UserIdentity) :
    Pool.Guards (ι := ι) SsoEffect ssoGuide
      (fun accounts => Sound accounts ∧ forall row, row ∈ links -> Kept accounts row) Holds where
  preserved := by
    intro before after call known operation reply sound holds demanded effective
    have done := stepped sound.1 holds demanded effective
    exact ⟨done.sound, fun row member => done.extension.kept (sound.2 row member)⟩
  expected := by
    intro before after call known operation reply sound holds demanded effective
    exact (stepped sound.1 holds demanded effective).expected
  learnt := by
    intro before after call known operation reply sound holds demanded effective
    exact (stepped sound.1 holds demanded effective).learnt
  unspoilt := by
    intro before after call known operation reply sound holds demanded effective other knownOther
      different trueOther
    exact (stepped sound.1 holds demanded effective).extension.holds different trueOther

/-! ## The calls are guided -/

section Calls

omit [DecidableEq ι]

/-- A call returns with its own user done with, and with a user that is linked
to the external account. -/
structure Wanted (account : String × String) (known : Known) (result : Except Status LocalUser) : Prop where
  finished : forall id, known.own ≠ .provisional id
  linked : forall id, known.own = .linked id -> Exists fun user : LocalUser =>
    result = .ok user ∧ user.id = id
  user : forall user, result = .ok user -> Exists fun row : UserIdentity => row ∈ known.links ∧
    row.provider = account.1 ∧ row.externUid = account.2 ∧ row.userId = user.id

/-- The call is not about to link or to delete a user of its own. -/
def Own.Idle (own : Own) : Prop := (forall id, own ≠ .provisional id) ∧ forall id, own ≠ .linked id

variable {known : Known} {row : UserIdentity}

theorem wanted_error {account : String × String} (idle : known.own.Idle) (status : Status) :
    Wanted account known (.error status) :=
  ⟨idle.1, fun id linked => absurd linked (idle.2 id), fun _ impossible => by cases impossible⟩

theorem wanted_ok {provider externUid : String} (idle : known.own.Idle) {user : LocalUser}
    (member : row ∈ known.links) (sameProvider : row.provider = provider) (sameExtern : row.externUid = externUid)
    (sameUser : row.userId = user.id) :
    Wanted (provider, externUid) known (.ok user) := by
  refine ⟨idle.1, fun id linked => absurd linked (idle.2 id), fun other returned => ?_⟩
  cases returned
  exact ⟨row, member, sameProvider, sameExtern, sameUser⟩

theorem selects_linkOf {provider externUid : String} (selected : (linkOf provider externUid).selects row = true) :
    row.provider = provider ∧ row.externUid = externUid := by
  simp only [linkOf, FindUserIdentity.selects, Option.all_none, Option.all_some, Bool.true_and,
    Bool.and_eq_true, decide_eq_true_eq] at selected
  exact ⟨selected.1.symm, selected.2.symm⟩

theorem selects_linkWith {userId : Nat} {provider : String} (selected : (linkWith userId provider).selects row = true) :
    row.userId = userId ∧ row.provider = provider := by
  simp only [linkWith, FindUserIdentity.selects, Option.all_none, Option.all_some, Bool.and_true,
    Bool.and_eq_true, decide_eq_true_eq] at selected
  exact ⟨selected.1.symm, selected.2.symm⟩

/-- Looking up leaves the own user and the settled ones as they are. -/
structure Looked (account : String × String) (before known : Known) (result : Except Status (Option LocalUser)) :
    Prop where
  own : known.own = before.own
  settled : known.settled = before.settled
  user : forall user, result = .ok (some user) -> Exists fun row : UserIdentity => row ∈ known.links ∧
    row.provider = account.1 ∧ row.externUid = account.2 ∧ row.userId = user.id

theorem guided_getLinkedSsoUser (call : ι) (known : Known) (provider externUid : String) :
    (getLinkedSsoUser provider externUid : SsoProgram ι _).Guided (ssoGuide call)
      (Looked (provider, externUid) known) known := by
  refine Program.Guided.perform_bind trivial fun reply expected => ?_
  match reply with
  | .error cause => exact ⟨rfl, rfl, fun _ impossible => by cases impossible⟩
  | .ok none => exact ⟨rfl, rfl, fun _ impossible => by cases impossible⟩
  | .ok (some row) =>
      rcases selects_linkOf expected with ⟨sameProvider, sameExtern⟩
      refine Program.Guided.perform_bind trivial fun outcome found => ?_
      match outcome with
      | .error cause => exact ⟨rfl, rfl, fun _ impossible => by cases impossible⟩
      | .ok none => exact ⟨rfl, rfl, fun _ impossible => by cases impossible⟩
      | .ok (some user) =>
          refine ⟨rfl, rfl, fun other returned => ?_⟩
          cases returned
          exact ⟨row, List.mem_cons_self, sameProvider, sameExtern, Eq.symm found⟩

theorem guided_loadWinner (call : ι) (idle : known.own.Idle) (provider externUid : String) :
    (loadWinner provider externUid : SsoProgram ι _).Guided (ssoGuide call)
      (Wanted (provider, externUid)) known := by
  refine Program.Guided.perform_bind trivial fun reply expected => ?_
  match reply with
  | .error cause => exact wanted_error idle _
  | .ok none => exact wanted_error idle _
  | .ok (some row) =>
      rcases selects_linkOf expected with ⟨sameProvider, sameExtern⟩
      refine Program.Guided.perform_bind trivial fun outcome found => ?_
      have stillIdle : ({ known with links := row :: known.links } : Known).own.Idle := idle
      match outcome with
      | .error cause => exact wanted_error stillIdle _
      | .ok none => exact wanted_error stillIdle _
      | .ok (some user) =>
          exact wanted_ok stillIdle List.mem_cons_self sameProvider sameExtern (Eq.symm found)

/-- The identity of the current user with the provider, once it is known. -/
theorem guided_existing (call : ι) (idle : known.own.Idle) {currentUser : LocalUser} {provider externUid : String}
    (selected : (linkWith currentUser.id provider).selects row = true) :
    (if row.externUid = externUid then return .ok currentUser
      else return .error linkedToAnother : SsoProgram ι (Except Status LocalUser)).Guided (ssoGuide call)
      (Wanted (provider, externUid)) { known with links := row :: known.links } := by
  have stillIdle : ({ known with links := row :: known.links } : Known).own.Idle := idle
  rcases selects_linkWith selected with ⟨sameUser, sameProvider⟩
  split
  next sameExtern => exact wanted_ok stillIdle List.mem_cons_self sameProvider sameExtern sameUser
  next => exact wanted_error stillIdle _

theorem guided_afterBindConflict (call : ι) (idle : known.own.Idle) (currentUser : LocalUser)
    (provider externUid : String) :
    (afterBindConflict currentUser provider externUid : SsoProgram ι _).Guided (ssoGuide call)
      (Wanted (provider, externUid)) known := by
  refine (guided_getLinkedSsoUser call known provider externUid).bind fun later result looked => ?_
  have stillIdle : later.own.Idle := looked.own ▸ idle
  match result with
  | .error status => exact wanted_error stillIdle _
  | .ok (some winner) =>
      rcases looked.user winner rfl with ⟨row, member, sameProvider, sameExtern, sameUser⟩
      dsimp only
      split
      next => exact wanted_error stillIdle _
      next sameId =>
        exact wanted_ok stillIdle member sameProvider sameExtern (sameUser.trans (not_not.mp sameId))
  | .ok none =>
      refine Program.Guided.perform_bind trivial fun reply expected => ?_
      match reply with
      | .error cause => exact wanted_error stillIdle _
      | .ok none => exact wanted_error stillIdle _
      | .ok (some row) => exact guided_existing call stillIdle expected

theorem guided_bindSsoIdentityToUser (call : ι) (idle : known.own.Idle) {currentUser : LocalUser}
    (settled : currentUser.id ∈ known.settled) (provider externUid : String) :
    (bindSsoIdentityToUser call currentUser provider externUid).Guided (ssoGuide call)
      (Wanted (provider, externUid)) known := by
  refine Program.Guided.perform_bind trivial fun reply expected => ?_
  match reply with
  | .error cause => exact wanted_error idle _
  | .ok (some row) => exact guided_existing call idle expected
  | .ok none =>
      refine Program.Guided.perform_bind ⟨rfl, Or.inr settled⟩ fun outcome created => ?_
      match outcome with
      | .ok row =>
          rcases created with ⟨sameUser, sameProvider, sameExtern⟩
          have untouched : known.own.settle currentUser.id (.linked currentUser.id) = known.own :=
            if_neg (idle.1 currentUser.id)
          have stillIdle : (known.own.settle currentUser.id (.linked currentUser.id)).Idle := by
            rw [untouched]
            exact idle
          exact wanted_ok stillIdle List.mem_cons_self sameProvider sameExtern sameUser
      | .error cause =>
          dsimp only
          split
          next => exact guided_afterBindConflict call idle currentUser provider externUid
          next => exact wanted_error idle _

theorem guided_linkCreatedUser (call : ι) {user : LocalUser} (own : known.own = .provisional user.id)
    (provider externUid : String) :
    (linkCreatedUser call user provider externUid).Guided (ssoGuide call)
      (Wanted (provider, externUid)) known := by
  refine Program.Guided.perform_bind ⟨rfl, Or.inl own⟩ fun reply expected => ?_
  match reply with
  | .ok row =>
      rcases expected with ⟨sameUser, sameProvider, sameExtern⟩
      have now : known.own.settle user.id (.linked user.id) = .linked user.id := if_pos own
      refine ⟨fun id => ?_, fun id linked => ⟨user, rfl, ?_⟩, fun other returned => ?_⟩
      · exact fun same => Own.noConfusion (now.symm.trans same)
      · exact Own.linked.inj (now.symm.trans linked)
      · cases returned
        exact ⟨row, List.mem_cons_self, sameProvider, sameExtern, sameUser⟩
  | .error cause =>
      refine Program.Guided.perform_bind ⟨rfl, own⟩ fun outcome _ => ?_
      have idle : (learn known (.deleteUser call user.id) outcome).own.Idle := by
        match outcome with
        | .ok () =>
            have now : known.own.settle user.id (.deleted user.id) = .deleted user.id := if_pos own
            exact ⟨fun id same => Own.noConfusion (now.symm.trans same),
              fun id same => Own.noConfusion (now.symm.trans same)⟩
        | .error _ =>
            have now : known.own.settle user.id (.stranded user.id) = .stranded user.id := if_pos own
            exact ⟨fun id same => Own.noConfusion (now.symm.trans same),
              fun id same => Own.noConfusion (now.symm.trans same)⟩
      have rest : (if isUniqueConstraintViolation cause then loadWinner provider externUid
          else return .error ⟨.internal, "failed to create user identity, error: " ++ cause⟩ :
          SsoProgram ι (Except Status LocalUser)).Guided (ssoGuide call) (Wanted (provider, externUid))
          (learn known (.deleteUser call user.id) outcome) := by
        split
        next => exact guided_loadWinner call idle provider externUid
        next => exact wanted_error idle _
      exact rest

/-- What is done before a user is created leaves the knowledge alone. -/
theorem guided_checkRegistration (call : ι) (known : Known) :
    (checkRegistration : SsoProgram ι _).Guided (ssoGuide call) (fun later _ => later = known) known := by
  refine Program.Guided.perform_bind trivial fun reply _ => ?_
  match reply with
  | .error cause => exact rfl
  | .ok setting =>
      dsimp only
      split <;> exact rfl

theorem guided_newSsoUser (call : ι) (known : Known) (userInfo : UserInfo) :
    (newSsoUser userInfo : SsoProgram ι _).Guided (ssoGuide call) (fun later _ => later = known) known := by
  refine Program.Guided.perform_bind trivial fun reply _ => ?_
  match reply with
  | .error cause => exact rfl
  | .ok password =>
      refine Program.Guided.perform_bind trivial fun hashed _ => ?_
      match hashed with
      | .error cause => exact rfl
      | .ok passwordHash =>
          refine Program.Guided.perform_bind trivial fun named _ => ?_
          match named with
          | .error cause => exact rfl
          | .ok username => exact rfl

theorem guided_registerSsoUser (call : ι) (none : known.own = .none) (provider : String) (userInfo : UserInfo) :
    (registerSsoUser call provider userInfo).Guided (ssoGuide call)
      (Wanted (provider, userInfo.identifier)) known := by
  have idle : known.own.Idle := by
    rw [none]
    exact ⟨fun _ => Own.noConfusion, fun _ => Own.noConfusion⟩
  refine (guided_checkRegistration call known).bind fun later allowed same => ?_
  subst same
  match allowed with
  | .error status => exact wanted_error idle _
  | .ok () =>
      refine (guided_newSsoUser call later userInfo).bind fun still made same => ?_
      subst same
      match made with
      | .error status => exact wanted_error idle _
      | .ok create =>
          refine Program.Guided.perform_bind ⟨rfl, none⟩ fun reply _ => ?_
          match reply with
          | .error cause => exact wanted_error idle _
          | .ok user => exact guided_linkCreatedUser call rfl provider userInfo.identifier

theorem guided_resolveSsoUser (call : ι) (none : known.own = .none) {currentUser : Option LocalUser}
    (settled : forall user, currentUser = some user ->
      user.id ∈ known.settled) (provider : String) (userInfo : UserInfo) :
    (resolveSsoUser call currentUser provider userInfo).Guided (ssoGuide call)
      (Wanted (provider, userInfo.identifier)) known := by
  refine (guided_getLinkedSsoUser call known provider userInfo.identifier).bind
    fun later result looked => ?_
  have stillNone : later.own = .none := looked.own.trans none
  have idle : later.own.Idle := by
    rw [stillNone]
    exact ⟨fun _ => Own.noConfusion, fun _ => Own.noConfusion⟩
  match result with
  | .error status => exact wanted_error idle _
  | .ok (some user) =>
      rcases looked.user user rfl with ⟨row, member, sameProvider, sameExtern, sameUser⟩
      dsimp only
      split
      next => exact wanted_error idle _
      next => exact wanted_ok idle member sameProvider sameExtern sameUser
  | .ok Option.none =>
      match currentUser with
      | some current =>
          have known : current.id ∈ later.settled := looked.settled ▸ settled current rfl
          exact guided_bindSsoIdentityToUser call idle known provider userInfo.identifier
      | Option.none => exact guided_registerSsoUser call stillNone provider userInfo

theorem guided_withCurrentUser (call : ι) {account : String × String} (id : Nat)
    {rest : LocalUser -> SsoProgram ι (Except Status LocalUser)}
    (guided : forall known : Known, forall user, known.own = .none -> user.id ∈ known.settled ->
      (rest user).Guided (ssoGuide call) (Wanted account) known) :
    (withCurrentUser id rest).Guided (ssoGuide call) (Wanted account) {} := by
  have idle : Own.none.Idle := ⟨fun _ => Own.noConfusion, fun _ => Own.noConfusion⟩
  refine Program.Guided.perform_bind trivial fun reply expected => ?_
  match reply with
  | .error cause => exact wanted_error idle _
  | .ok none => exact wanted_error idle _
  | .ok (some user) =>
      refine guided _ user rfl ?_
      have same : user.id = id := expected
      rw [same]
      exact List.mem_cons_self

/-- Every call is guided from the start. -/
theorem guided_program (call : ι) (ssoCall : SsoCall) :
    (ssoCall.program call).Guided (ssoGuide call) (Wanted ssoCall.account) {} := by
  cases ssoCall with
  | signIn provider userInfo =>
      exact guided_resolveSsoUser call rfl (fun _ impossible => by cases impossible) provider userInfo
  | resolve currentUserId provider userInfo =>
      refine guided_withCurrentUser call currentUserId fun known user none settled => ?_
      refine guided_resolveSsoUser call none (fun other same => ?_) provider userInfo
      cases same
      exact settled
  | bind currentUserId provider externUid =>
      refine guided_withCurrentUser call currentUserId fun known user none settled => ?_
      have idle : known.own.Idle := by
        rw [none]
        exact ⟨fun _ => Own.noConfusion, fun _ => Own.noConfusion⟩
      exact guided_bindSsoIdentityToUser call idle settled provider externUid

/-! ## Runs -/

/-- Calls that are not running: the tables are as the database keeps them. -/
theorem pending_sound (calls : ι -> SsoCall) (tables : AccountTables) :
    Sound (pending calls tables).shared where
  users := tables.usersBounded
  identities := fun row member => Or.inl ⟨tables.identitiesBounded row member, fun _ => Own.noConfusion⟩
  consistent := tables.consistent
  created := fun _ _ impossible => by cases impossible
  apart := fun _ _ _ impossible => by cases impossible
  deleted := fun _ _ impossible => by cases impossible

/-- Each call of a pool goes on as its guide wants. -/
def Guided (calls : ι -> SsoCall) (pool : SsoPool ι) : Prop :=
  pool.Guided ssoGuide Holds fun call => Wanted (calls call).account

theorem pending_guided (calls : ι -> SsoCall) (tables : AccountTables) :
    Guided calls (pending calls tables) := fun call =>
  ⟨{}, ⟨rfl, (fun _ impossible => absurd impossible List.not_mem_nil),
    fun _ impossible => absurd impossible List.not_mem_nil⟩, guided_program call (calls call)⟩

/-- The link that a call has returned. -/
theorem Guided.returned {calls : ι -> SsoCall} {pool : SsoPool ι} (guided : Guided calls pool) {call : ι}
    {user : LocalUser} (returned : pool.programs call = .done (.ok user)) :
    Exists fun row : UserIdentity => Kept pool.shared row ∧
      row.provider = (calls call).account.1 ∧ row.externUid = (calls call).account.2 ∧
        row.userId = user.id := by
  rcases guided call with ⟨known, holds, wanted⟩
  rw [returned] at wanted
  rcases (show Wanted _ known _ from wanted).user user rfl with ⟨row, member, facts⟩
  exact ⟨row, holds.links row member, facts⟩

/-- What has become of the user that a call has created. -/
theorem Guided.finished {calls : ι -> SsoCall} {pool : SsoPool ι} (guided : Guided calls pool)
    (sound : Sound pool.shared) {call : ι} {result : Except Status LocalUser}
    (returned : pool.programs call = .done result) {id : Nat}
    (created : (pool.shared.own call).created = some id) :
    (Exists fun user : LocalUser => result = .ok user ∧ user.id = id) ∨
      (forall user, user ∈ pool.shared.users -> user.id ≠ id) ∨
      pool.shared.own call = .stranded id := by
  rcases guided call with ⟨known, holds, finished⟩
  rw [returned] at finished
  have wanted : Wanted (calls call).account known result := finished
  cases own : pool.shared.own call with
  | none =>
      rw [own] at created
      cases created
  | provisional other => exact absurd (holds.own.symm.trans own) (wanted.finished other)
  | linked other =>
      rw [own] at created
      cases created
      exact Or.inl (wanted.linked id (holds.own.symm.trans own))
  | deleted other =>
      rw [own] at created
      cases created
      exact Or.inr (Or.inl (sound.deleted call id own))
  | stranded other =>
      rw [own] at created
      cases created
      exact Or.inr (Or.inr rfl)

end Calls

/-- A run of calls, in which every step may be taken. -/
def Run (start last : SsoPool ι) : Prop :=
  Pool.Run SsoEffect (fun _ _ => False) (fun _ _ _ _ _ => True) start last

/-- However the steps of any number of calls interleave: calls that succeed for
one external account return one user, a user has one identity with a provider,
a link stays as it is, and a user that a call has created in vain is gone when
the call returns, unless it could not be deleted.  Only a link that was made for
a provisional user and reported as failed can go again. -/
theorem identities_linked_once (calls : ι -> SsoCall) (tables : AccountTables) {middle last : SsoPool ι}
    (before : Run (pending calls tables) middle) (after : Run middle last) :
    (forall first second firstUser secondUser, (calls first).account = (calls second).account ->
      (forall row, row ∈ last.shared.lost -> (row.provider, row.externUid) ≠ (calls first).account) ->
      last.programs first = .done (.ok firstUser) -> last.programs second = .done (.ok secondUser) ->
      firstUser.id = secondUser.id) ∧
    (forall first, first ∈ last.shared.identities -> forall second, second ∈ last.shared.identities ->
      first.userId = second.userId -> first.provider = second.provider -> first = second) ∧
    (forall row, row ∈ middle.shared.identities -> row ∉ last.shared.lost ->
      row ∈ last.shared.identities ∧ forall other, other ∈ last.shared.identities -> other.provider = row.provider ->
        other.externUid = row.externUid -> other.userId = row.userId) ∧
    forall call result, last.programs call = .done result -> forall id,
      (last.shared.own call).created = some id ->
      (Exists fun user : LocalUser => result = .ok user ∧ user.id = id) ∨
        (forall user, user ∈ last.shared.users -> user.id ≠ id) ∨
        last.shared.own call = .stranded id := by
  have half := Pool.Run.guided before (guards [])
    ⟨pending_sound calls tables, fun _ impossible => absurd impossible List.not_mem_nil⟩
    (pending_guided calls tables)
  have whole := Pool.Run.guided after (guards middle.shared.identities)
    ⟨half.1.1, fun _ member => Or.inl member⟩ half.2
  rcases whole with ⟨⟨sound, kept⟩, guided⟩
  refine ⟨?_, ?_, ?_, ?_⟩
  · intro first second firstUser secondUser same found firstDone secondDone
    rcases Guided.returned guided firstDone with ⟨row, isKept, provider, externUid, user⟩
    rcases Guided.returned guided secondDone with
      ⟨other, otherKept, otherProvider, otherExtern, otherUser⟩
    have member := isKept.resolve_right fun lost =>
      found row lost (Prod.ext provider externUid)
    have otherMember := otherKept.resolve_right fun lost =>
      found other lost ((Prod.ext otherProvider otherExtern).trans same.symm)
    have conflicts : Conflicts row other := by
      rw [same] at provider externUid
      exact ⟨provider.trans otherProvider.symm, Or.inl (externUid.trans otherExtern.symm)⟩
    rw [← user, ← otherUser, sound.consistent row member other otherMember conflicts]
  · intro first firstMember second secondMember user provider
    exact sound.consistent first firstMember second secondMember ⟨provider, Or.inr user⟩
  · intro row member found
    have still := (kept row member).resolve_right found
    refine ⟨still, fun other otherMember provider externUid => ?_⟩
    rw [sound.consistent other otherMember row still ⟨provider, Or.inl externUid⟩]
  · intro call result returned id created
    exact Guided.finished guided sound returned created

/-! ## Two first logins -/

/-- Two logins with one account at the same time. -/
def twoLogins : Bool -> SsoCall := fun _ => .signIn "github" { identifier := "ada" }

def noAccounts : AccountTables where
  users := []
  identities := []
  sequence := 0
  usersBounded := fun _ impossible => absurd impossible List.not_mem_nil
  identitiesBounded := fun _ impossible => absurd impossible List.not_mem_nil
  consistent := fun _ impossible => absurd impossible List.not_mem_nil

def firstAda : LocalUser := ⟨⟨"a-uuid", .user, "", "", "", "hash"⟩, 1⟩
def secondAda : LocalUser := ⟨⟨"b-uuid", .user, "", "", "", "hash"⟩, 2⟩
def adaLink : UserIdentity := ⟨1, 1, "github", "ada"⟩

/-- Both logins have created a user, the first has linked its own, and the
second has been refused. -/
theorem second_login_refused :
    Exists fun pool : SsoPool Bool => Run (pending twoLogins noAccounts) pool ∧
      pool.shared.users = [firstAda, secondAda] ∧ pool.shared.identities = [adaLink] ∧
      pool.shared.own true = .provisional 2 ∧ pool.programs false = .done (.ok firstAda) ∧
      pool.programs true = step (.deleteUser true 2) >>= fun _ => loadWinner "github" "ada" := by
  have begun : Run (pending twoLogins noAccounts) (pending twoLogins noAccounts) := .refl
  have firstLooked := begun.operation false rfl (.ok none) _
    ⟨rfl, fun found same => by cases same; rfl⟩ trivial
  have secondLooked := firstLooked.operation true rfl (.ok none) _
    ⟨rfl, fun found same => by cases same; rfl⟩ trivial
  have firstAllowed := secondLooked.operation false rfl (.ok {}) _ rfl trivial
  have firstPassword := firstAllowed.operation false rfl (.ok "secret") _ rfl trivial
  have firstHash := firstPassword.operation false rfl (.ok "hash") _ rfl trivial
  have firstNamed := firstHash.operation false rfl (.ok "a-uuid") _ rfl trivial
  have firstCreated := firstNamed.operation false rfl (.ok firstAda) _
    ⟨⟨rfl, by decide, fun _ impossible => absurd impossible List.not_mem_nil⟩, rfl⟩ trivial
  have secondAllowed := firstCreated.operation true rfl (.ok {}) _ rfl trivial
  have secondPassword := secondAllowed.operation true rfl (.ok "secret") _ rfl trivial
  have secondHash := secondPassword.operation true rfl (.ok "hash") _ rfl trivial
  have secondNamed := secondHash.operation true rfl (.ok "b-uuid") _ rfl trivial
  have secondCreated := secondNamed.operation true rfl (.ok secondAda) _
    ⟨⟨rfl, by decide, by decide⟩, rfl⟩ trivial
  have linked := secondCreated.operation false rfl (.ok adaLink) _
    ⟨⟨rfl, rfl, rfl, fun _ impossible => absurd impossible List.not_mem_nil⟩, rfl⟩ trivial
  have refused := linked.operation true rfl (.error "UNIQUE constraint failed") _
    (.inl ⟨rfl, fun _ => ⟨adaLink, List.mem_cons_self, by decide⟩⟩) trivial
  exact ⟨_, refused, rfl, rfl, rfl, rfl, rfl⟩

/-- The second login deletes its user and returns that of the first. -/
theorem identities_linked_once_race :
    Exists fun last : SsoPool Bool => last.programs true = .done (.ok firstAda) ∧
      last.shared.users = [firstAda] ∧
      forall id, (last.shared.own true).created = some id ->
        (Exists fun user : LocalUser =>
          (.ok firstAda : Except Status LocalUser) = .ok user ∧ user.id = id) ∨
          (forall user, user ∈ last.shared.users -> user.id ≠ id) ∨
          last.shared.own true = .stranded id := by
  rcases second_login_refused with ⟨pool, refused, users, identities, own, _, rest⟩
  have deleted := refused.operation true rest (.ok ()) _ rfl trivial
  have reloaded := deleted.operation true rfl (.ok (some adaLink)) _
    ⟨rfl, fun found same => by cases same; rw [identities]; rfl⟩ trivial
  have returned := reloaded.operation true rfl (.ok (some firstAda)) _
    ⟨rfl, (fun user same => by cases same; rfl), fun impossible => by cases impossible⟩ trivial
  have finished := (identities_linked_once twoLogins noAccounts returned .refl).2.2.2 true
    (.ok firstAda) rfl
  refine ⟨_, rfl, ?_, finished⟩
  rw [users]
  rfl

/-- Three logins with one account. -/
def threeLogins : Fin 3 -> SsoCall := fun _ => .signIn "github" { identifier := "ada" }

/-- A second login that cannot delete its user, which remains when it returns
that of the first; and a link that is made and reported as failed, which a login
finds before its user is deleted and another creates its own. -/
theorem linkage_broken :
    (Exists fun last : SsoPool Bool => Run (pending twoLogins noAccounts) last ∧
      last.programs true = .done (.ok firstAda) ∧ (last.shared.own true).created = some secondAda.id ∧
      secondAda ∈ last.shared.users ∧
      forall row, row ∈ last.shared.identities -> row.userId ≠ secondAda.id) ∧
    Exists fun last : SsoPool (Fin 3) => Run (pending threeLogins noAccounts) last ∧
      last.programs 1 = .done (.ok firstAda) ∧ last.programs 2 = .done (.ok secondAda) := by
  constructor
  · rcases second_login_refused with ⟨pool, refused, users, identities, own, _, rest⟩
    have undeleted := refused.operation true rest (.error "database is locked") _ rfl trivial
    have reloaded := undeleted.operation true rfl (.ok (some adaLink)) _
      ⟨rfl, fun found same => by cases same; rw [identities]; rfl⟩ trivial
    have returned := reloaded.operation true rfl (.ok (some firstAda)) _
      ⟨rfl, (fun user same => by cases same; rfl), fun impossible => by cases impossible⟩ trivial
    refine ⟨_, returned, rfl, ?_, ?_, ?_⟩
    · dsimp only
      rw [mark_self, own]
      rfl
    · rw [users]
      decide
    · rw [identities]
      decide
  · have begun : Run (pending threeLogins noAccounts) (pending threeLogins noAccounts) := .refl
    have firstLooked := begun.operation 0 rfl (.ok none) _
      ⟨rfl, fun found same => by cases same; rfl⟩ trivial
    have firstAllowed := firstLooked.operation 0 rfl (.ok {}) _ rfl trivial
    have firstPassword := firstAllowed.operation 0 rfl (.ok "secret") _ rfl trivial
    have firstHash := firstPassword.operation 0 rfl (.ok "hash") _ rfl trivial
    have firstNamed := firstHash.operation 0 rfl (.ok "a-uuid") _ rfl trivial
    have firstCreated := firstNamed.operation 0 rfl (.ok firstAda) _
      ⟨⟨rfl, by decide, fun _ impossible => absurd impossible List.not_mem_nil⟩, rfl⟩ trivial
    have lost := firstCreated.operation 0 rfl (.error "invalid connection") _
      (.inr ⟨by decide +kernel, adaLink,
        ⟨rfl, rfl, rfl, fun _ impossible => absurd impossible List.not_mem_nil⟩, rfl⟩) trivial
    have found := lost.operation 1 rfl (.ok (some adaLink)) _
      ⟨rfl, fun found same => by cases same; rfl⟩ trivial
    have returned := found.operation 1 rfl (.ok (some firstAda)) _
      ⟨rfl, (fun user same => by cases same; rfl), fun impossible => by cases impossible⟩ trivial
    have deleted := returned.operation 0 rfl (.ok ()) _ rfl trivial
    have thirdLooked := deleted.operation 2 rfl (.ok none) _
      ⟨rfl, fun found same => by cases same; rfl⟩ trivial
    have thirdAllowed := thirdLooked.operation 2 rfl (.ok {}) _ rfl trivial
    have thirdPassword := thirdAllowed.operation 2 rfl (.ok "secret") _ rfl trivial
    have thirdHash := thirdPassword.operation 2 rfl (.ok "hash") _ rfl trivial
    have thirdNamed := thirdHash.operation 2 rfl (.ok "b-uuid") _ rfl trivial
    have thirdCreated := thirdNamed.operation 2 rfl (.ok secondAda) _
      ⟨⟨rfl, by decide, fun _ impossible => absurd impossible List.not_mem_nil⟩, rfl⟩ trivial
    have linked := thirdCreated.operation 2 rfl (.ok ⟨2, 2, "github", "ada"⟩) _
      ⟨⟨rfl, rfl, rfl, fun _ impossible => absurd impossible List.not_mem_nil⟩, rfl⟩ trivial
    exact ⟨_, linked, rfl, rfl⟩

end SsoIdentities
end Service
end Memos
