import Memos.Service.Shortcuts

namespace Memos
namespace Service

open Library Store Store.Caching

/-!
# Failed changes of a setting

An operation that fails upserts nothing, but it may have changed the object in
the cache by then.  What a later read sees is as before exactly when the change
of the object was none.
-/

variable (backend : ShortcutBackend)

/-- Every read of a user setting returns what it returned before, from the cache
and from the database. -/
def Unseen (codecs : SettingCodecs) (before after : Cached AccountTables CacheKey CachedValue) :
    Prop :=
  forall userId key,
    readUserSetting codecs after userId key = readUserSetting codecs before userId key ∧
      after.db.storedSetting codecs userId key = before.db.storedSetting codecs userId key

/-! ## What an operation leaves alone -/

/-- A field of the mask that passes its check. -/
def UpdateShortcutRequest.Passes (request : UpdateShortcutRequest) (field : String) : Bool :=
  if field = "title" then request.title ≠ ""
  else if field = "filter" then (backend.validateFilter request.filter).isOk
  else true

/-- The fields before the first one that fails its check. -/
def UpdateShortcutRequest.reached (request : UpdateShortcutRequest) : List String :=
  request.mask.takeWhile (request.Passes backend)

/-- The shortcut has the requested value in every field that is reached. -/
def UpdateShortcutRequest.Has (request : UpdateShortcutRequest) (shortcut : Shortcut) : Prop :=
  ("title" ∈ request.reached backend -> shortcut.title = request.title) ∧
    ("filter" ∈ request.reached backend -> shortcut.filter = request.filter)

/-- The shortcuts that the request comes to have the values already: all with the
id, or the first one when a field fails its check there. -/
def UpdateShortcutRequest.Leaves (request : UpdateShortcutRequest) (shortcuts : List Shortcut) :
    Prop :=
  if request.mask.all (request.Passes backend) then
    forall shortcut, shortcut ∈ shortcuts -> shortcut.id = request.shortcutId ->
      request.Has backend shortcut
  else forall shortcut,
    shortcuts.find? (fun shortcut => shortcut.id = request.shortcutId) = some shortcut ->
      request.Has backend shortcut

/-- The operation has nothing to change in the object: the tokens, webhooks or
shortcuts that it comes to have the new values already. -/
def ListCall.Leaves : ListCall -> UserSettingMessage -> Prop
  | .updatePATLastUsed _ tokenId lastUsed, setting => forall token,
      setting.personalAccessTokens.find? (fun token => token.tokenId = tokenId) = some token ->
      token.lastUsedAt = lastUsed
  | .updateUserWebhook _ webhook, setting => forall existing,
      setting.webhooks.find? (fun existing => existing.id = webhook.id) = some existing ->
      existing = webhook
  | .createShortcut _ _ _ _, _ => False
  | .updateShortcut _ request, setting => request.Leaves backend setting.shortcuts
  | .deleteShortcut _ _ shortcutId, setting =>
      forall shortcut, shortcut ∈ setting.shortcuts -> shortcut.id ≠ shortcutId
  | _, _ => True

theorem changeFirst_eq_iff {α : Type} {selects : α -> Bool} {change : α -> α} (list : List α) :
    changeFirst selects change list = list ↔
      forall element, list.find? selects = some element -> change element = element := by
  induction list with
  | nil => exact ⟨fun _ _ impossible => (by cases impossible), fun _ => rfl⟩
  | cons first rest ih =>
      cases selected : selects first with
      | true =>
          simp only [changeFirst, selected, if_true, List.find?_cons_of_pos, Option.some.injEq,
            List.cons.injEq, and_true, forall_eq']
      | false =>
          rw [changeFirst, selected, List.find?_cons_of_neg (by simp [selected])]
          simp only [Bool.false_eq_true, if_false, List.cons.injEq, true_and]
          exact ih

section UpdateShortcut

variable {backend} {request : UpdateShortcutRequest}

/-- The loop over the mask sets the fields before the first that fails its check,
and ends with an error when there is one. -/
theorem applyMask_spec (mask : List String) (shortcut : Shortcut) :
    (applyMask backend request mask shortcut).1 =
      { shortcut with
        title := if "title" ∈ mask.takeWhile (request.Passes backend) then request.title
          else shortcut.title
        filter := if "filter" ∈ mask.takeWhile (request.Passes backend) then request.filter
          else shortcut.filter } ∧
    (applyMask backend request mask shortcut).2.isSome = !mask.all (request.Passes backend) := by
  induction mask generalizing shortcut with
  | nil => exact ⟨rfl, rfl⟩
  | cons field fields ih =>
      unfold applyMask
      by_cases isTitle : field = "title"
      · subst isTitle
        by_cases empty : request.title = ""
        · simp [UpdateShortcutRequest.Passes, empty]
        · rw [if_pos rfl, if_neg empty, (ih _).1, (ih _).2]
          simp [UpdateShortcutRequest.Passes, empty]
      · rw [if_neg isTitle]
        by_cases isFilter : field = "filter"
        · subst isFilter
          cases valid : backend.validateFilter request.filter with
          | error cause => simp [UpdateShortcutRequest.Passes, valid, Except.isOk, Except.toBool]
          | ok done =>
              rw [if_pos rfl]
              dsimp only
              rw [(ih _).1, (ih _).2]
              simp [UpdateShortcutRequest.Passes, valid, Except.isOk, Except.toBool]
        · rw [if_neg isFilter, (ih _).1, (ih _).2]
          have other : ("title" = field) = False ∧ ("filter" = field) = False :=
            ⟨eq_false fun same => isTitle same.symm, eq_false fun same => isFilter same.symm⟩
          simp [UpdateShortcutRequest.Passes, isTitle, isFilter, other]

theorem applyMask_eq_iff (shortcut : Shortcut) :
    (applyMask backend request request.mask shortcut).1 = shortcut ↔
      request.Has backend shortcut := by
  rw [(applyMask_spec request.mask shortcut).1]
  rcases shortcut with ⟨id, title, filter⟩
  unfold UpdateShortcutRequest.Has UpdateShortcutRequest.reached
  simp only [Shortcut.mk.injEq, true_and, ite_eq_right_iff]
  exact ⟨fun ⟨first, second⟩ => ⟨fun reached => (first reached).symm, fun reached =>
    (second reached).symm⟩, fun ⟨first, second⟩ => ⟨fun reached => (first reached).symm,
    fun reached => (second reached).symm⟩⟩

section Loop

variable {shortcut : Shortcut} {rest : List Shortcut}

theorem applyShortcuts_other (different : shortcut.id ≠ request.shortcutId) :
    (applyShortcuts backend request (shortcut :: rest)).1 =
      shortcut :: (applyShortcuts backend request rest).1 := by
  rw [applyShortcuts, if_neg different]

/-- When every field passes, the loop goes on after a shortcut with the id. -/
theorem applyShortcuts_passed (same : shortcut.id = request.shortcutId)
    (passes : request.mask.all (request.Passes backend) = true) :
    (applyShortcuts backend request (shortcut :: rest)).1 =
      (applyMask backend request request.mask shortcut).1 ::
        (applyShortcuts backend request rest).1 := by
  have fault := (@applyMask_spec backend request request.mask shortcut).2
  rw [applyShortcuts, if_pos same]
  rcases applied : applyMask backend request request.mask shortcut with ⟨changed, _ | cause⟩
  · rfl
  · rw [applied, passes] at fault
    cases fault

/-- Otherwise it ends there. -/
theorem applyShortcuts_failed (same : shortcut.id = request.shortcutId)
    (fails : request.mask.all (request.Passes backend) = false) :
    (applyShortcuts backend request (shortcut :: rest)).1 =
      (applyMask backend request request.mask shortcut).1 :: rest := by
  have fault := (@applyMask_spec backend request request.mask shortcut).2
  rw [applyShortcuts, if_pos same]
  rcases applied : applyMask backend request request.mask shortcut with ⟨changed, _ | cause⟩
  · rw [applied, fails] at fault
    cases fault
  · rfl

end Loop

theorem applyShortcuts_eq_iff_of_passes (passes : request.mask.all (request.Passes backend) = true)
    (list : List Shortcut) :
    (applyShortcuts backend request list).1 = list ↔ forall shortcut, shortcut ∈ list ->
      shortcut.id = request.shortcutId -> request.Has backend shortcut := by
  induction list with
  | nil => exact ⟨fun _ _ impossible => absurd impossible List.not_mem_nil, fun _ => rfl⟩
  | cons shortcut rest ih =>
      rw [List.forall_mem_cons, ← ih]
      by_cases same : shortcut.id = request.shortcutId
      · rw [applyShortcuts_passed same passes, List.cons.injEq, applyMask_eq_iff]
        exact ⟨fun ⟨first, others⟩ => ⟨fun _ => first, others⟩,
          fun ⟨first, others⟩ => ⟨first same, others⟩⟩
      · rw [applyShortcuts_other same, List.cons.injEq]
        exact ⟨fun ⟨_, others⟩ => ⟨fun impossible => absurd impossible same, others⟩,
          fun ⟨_, others⟩ => ⟨rfl, others⟩⟩

theorem applyShortcuts_eq_iff_of_fails (fails : request.mask.all (request.Passes backend) = false)
    (list : List Shortcut) :
    (applyShortcuts backend request list).1 = list ↔ forall shortcut,
      list.find? (fun shortcut => shortcut.id = request.shortcutId) = some shortcut ->
        request.Has backend shortcut := by
  induction list with
  | nil => exact ⟨fun _ _ impossible => (by cases impossible), fun _ => rfl⟩
  | cons shortcut rest ih =>
      by_cases same : shortcut.id = request.shortcutId
      · rw [applyShortcuts_failed same fails, List.find?_cons_of_pos (by simp [same]),
          List.cons.injEq, applyMask_eq_iff]
        exact ⟨fun ⟨first, _⟩ _ found => (by cases found; exact first),
          fun holds => ⟨holds shortcut rfl, rfl⟩⟩
      · rw [applyShortcuts_other same, List.find?_cons_of_neg (by simp [same]), List.cons.injEq,
          ← ih]
        exact ⟨fun ⟨_, others⟩ => others, fun others => ⟨rfl, others⟩⟩

theorem applyShortcuts_eq_iff (backend : ShortcutBackend) (request : UpdateShortcutRequest)
    (list : List Shortcut) :
    (applyShortcuts backend request list).1 = list ↔ request.Leaves backend list := by
  unfold UpdateShortcutRequest.Leaves
  split
  · rename_i passes
    exact applyShortcuts_eq_iff_of_passes passes list
  · rename_i fails
    exact applyShortcuts_eq_iff_of_fails (Bool.eq_false_iff.mpr fails) list

end UpdateShortcut

section Objects

theorem setLastUsed_eq_iff (tokenId : String) (lastUsed : Option Int) (tokens : List PersonalAccessToken) :
    setLastUsed tokenId lastUsed tokens = tokens ↔ forall token,
      tokens.find? (fun token => token.tokenId = tokenId) = some token ->
      token.lastUsedAt = lastUsed := by
  unfold setLastUsed
  rw [changeFirst_eq_iff]
  refine forall_congr' fun token => imp_congr_right fun _ => ?_
  rcases token with ⟨_, _, _, _, _, usedAt⟩
  simp only [PersonalAccessToken.mk.injEq, true_and]
  exact eq_comm

theorem replaceWebhook_eq_iff (webhook : Webhook) (webhooks : List Webhook) :
    replaceWebhook webhook webhooks = webhooks ↔ forall existing,
      webhooks.find? (fun existing => existing.id = webhook.id) = some existing ->
      existing = webhook := by
  unfold replaceWebhook
  rw [changeFirst_eq_iff]
  exact forall_congr' fun existing => imp_congr_right fun _ => eq_comm

theorem withShortcuts_eq_iff (owner : Nat) (value : UserSettingValue) (shortcuts : List Shortcut) :
    withShortcuts ⟨owner, value⟩ shortcuts = ⟨owner, value⟩ ↔ value = .shortcuts shortcuts := by
  simp only [withShortcuts, UserSettingMessage.mk.injEq, true_and]
  exact eq_comm

theorem appendShortcut_ne (setting : UserSettingMessage) (shortcut : Shortcut) :
    withShortcuts setting (setting.shortcuts ++ [shortcut]) ≠ setting := by
  rcases setting with ⟨owner, value⟩
  rw [Ne, withShortcuts_eq_iff]
  intro same
  cases value with
  | shortcuts shortcuts =>
      have lengths := congrArg List.length (UserSettingValue.shortcuts.inj same)
      simp [UserSettingMessage.shortcuts] at lengths
  | _ => cases same

theorem removeShortcut_eq_iff (userId : Nat) (shortcutId : String) (setting : UserSettingMessage) :
    (removeShortcut userId shortcutId).object setting = setting ↔
      forall shortcut, shortcut ∈ setting.shortcuts -> shortcut.id ≠ shortcutId := by
  change (if setting.shortcuts.any fun shortcut => shortcut.id = shortcutId then
    withShortcuts setting (setting.shortcuts.filter fun shortcut => shortcut.id ≠ shortcutId)
    else setting) = setting ↔ _
  split
  · rename_i present
    rcases List.any_eq_true.mp present with ⟨shortcut, member, same⟩
    have differs : ¬ forall shortcut, shortcut ∈ setting.shortcuts -> shortcut.id ≠ shortcutId :=
      fun absent => absent shortcut member (of_decide_eq_true same)
    refine iff_of_false ?_ differs
    rcases setting with ⟨owner, value⟩
    rw [withShortcuts_eq_iff]
    intro kept
    apply differs
    cases value with
    | shortcuts shortcuts =>
        have filtered := UserSettingValue.shortcuts.inj kept
        intro shortcut member
        have member : shortcut ∈ shortcuts := member
        rw [filtered] at member
        exact of_decide_eq_true (List.mem_filter.mp member).2
    | _ => cases member
  · rename_i absent
    refine iff_of_true rfl fun shortcut member same => absent ?_
    exact List.any_eq_true.mpr ⟨shortcut, member, decide_eq_true same⟩

end Objects

/-- The object stays the same exactly when the operation leaves it alone. -/
theorem object_eq_iff (call : ListCall) (setting : UserSettingMessage) :
    (call.change backend).object setting = setting ↔ call.Leaves backend setting := by
  cases call with
  | updatePATLastUsed userId tokenId lastUsed =>
      rcases setting with ⟨owner, general | shortcuts | webhooks | tokens | tokens⟩
      case personalAccessTokens =>
        refine Iff.trans ?_ (setLastUsed_eq_iff tokenId lastUsed tokens)
        change UserSettingMessage.mk owner (.personalAccessTokens (setLastUsed tokenId lastUsed tokens)) =
          ⟨owner, .personalAccessTokens tokens⟩ ↔ _
        simp only [UserSettingMessage.mk.injEq, UserSettingValue.personalAccessTokens.injEq, true_and]
      all_goals exact ⟨fun _ _ impossible => (by cases impossible), fun _ => rfl⟩
  | updateUserWebhook userId webhook =>
      rcases setting with ⟨owner, general | shortcuts | webhooks | tokens | tokens⟩
      case webhooks =>
        refine Iff.trans ?_ (replaceWebhook_eq_iff webhook webhooks)
        change UserSettingMessage.mk owner (.webhooks (replaceWebhook webhook webhooks)) =
          ⟨owner, .webhooks webhooks⟩ ↔ _
        simp only [UserSettingMessage.mk.injEq, UserSettingValue.webhooks.injEq, true_and]
      all_goals exact ⟨fun _ _ impossible => (by cases impossible), fun _ => rfl⟩
  | createShortcut access userId shortcut validateOnly =>
      exact iff_of_false (appendShortcut_ne setting shortcut) id
  | updateShortcut access request =>
      rcases setting with ⟨owner, general | shortcuts | webhooks | tokens | tokens⟩
      case shortcuts =>
        refine Iff.trans ?_ (applyShortcuts_eq_iff backend request shortcuts)
        change UserSettingMessage.mk owner (.shortcuts (applyShortcuts backend request shortcuts).1) =
          ⟨owner, .shortcuts shortcuts⟩ ↔ _
        simp only [UserSettingMessage.mk.injEq, UserSettingValue.shortcuts.injEq, true_and]
      all_goals exact iff_of_true rfl ((applyShortcuts_eq_iff backend request []).mp rfl)
  | deleteShortcut access userId shortcutId => exact removeShortcut_eq_iff userId shortcutId setting
  | _ => exact ⟨fun _ => trivial, fun _ => rfl⟩

/-! ## Failed operations -/

section Failures

variable {backend} {codecs : SettingCodecs}
  {state after : Cached AccountTables CacheKey CachedValue}

theorem Unseen.refl (state : Cached AccountTables CacheKey CachedValue) :
    Unseen codecs state state := fun _ _ => ⟨rfl, rfl⟩

/-- A new entry shows unless it is what was read before. -/
theorem unseen_putEntry_iff {userId : Nat} {key : UserSettingKey} {setting object : UserSettingMessage}
    (reads : readUserSetting codecs state userId key = .ok (some setting)) :
    Unseen codecs state (putEntry state userId key object) ↔ object = setting := by
  have entry : readUserSetting codecs (putEntry state userId key object) userId key =
      .ok (some object) := readUserSetting_hit (putEntry_cache _ _ _)
  constructor
  · intro unseen
    have same := (unseen userId key).1
    rw [entry, reads] at same
    cases same
    rfl
  · rintro rfl otherId otherKey
    refine ⟨?_, rfl⟩
    by_cases same : otherId = userId ∧ otherKey = key
    · rw [same.1, same.2, entry, reads]
    · have different : CacheKey.userSetting otherId otherKey ≠ .userSetting userId key := by
        rintro ⟨⟩
        exact same ⟨rfl, rfl⟩
      simp only [readUserSetting, putEntry, Function.update_of_ne different]

/-- What an operation obtains is what a read returns. -/
theorem read_of_obtains {change : SettingChange} {faults : Caching.Statement -> Option String}
    {setting : UserSettingMessage} (obtains : change.obtains codecs faults state = some setting) :
    readUserSetting codecs state change.userId change.key = .ok (some setting) := by
  by_cases hit : Exists fun entry =>
      state.cache (.userSetting change.userId change.key) = some (.userSetting entry)
  · rcases hit with ⟨entry, cached⟩
    rw [SettingChange.obtains_hit cached] at obtains
    rw [readUserSetting_hit cached, obtains]
  · have missed := fun entry same => hit ⟨entry, same⟩
    rw [SettingChange.obtains_miss missed] at obtains
    rw [readUserSetting_miss missed]
    split at obtains
    · split at obtains
      · rename_i found stored
        rw [stored, obtains]
      · cases obtains
    · cases obtains

/-- A failed operation changes nothing that a later read can see if and only if
it ends before it comes to a setting, or leaves that setting alone. -/
theorem failed_unseen_iff (backend : ShortcutBackend) (faults : Caching.Statement -> Option String)
    (call : ListCall) (state after : Cached AccountTables CacheKey CachedValue) (cause : String)
    (failed : Pool.Executes (CacheEffect (Faulty faults)) state (call.program backend)
      (.error cause) after) :
    Unseen backend.codecs state after ↔ (call.early backend = none -> forall setting,
      (call.change backend).obtains backend.codecs faults state = some setting ->
        call.Leaves backend setting) := by
  rw [call.program_eq] at failed
  cases early : call.early backend with
  | some result =>
      rw [early] at failed
      rcases failed with ⟨_, rfl⟩
      exact iff_of_true (Unseen.refl state) fun impossible => by cases impossible
  | none =>
      rw [early] at failed
      rcases executes_program (call.key_ne_unspecified backend) failed with
        ⟨_, _, rfl⟩ | ⟨_, _, _, _, _, _, impossible, _⟩
      · unfold SettingChange.objectChanged
        cases obtains : (call.change backend).obtains backend.codecs faults state with
        | none =>
            exact iff_of_true (Unseen.refl state) fun _ _ impossible => by cases impossible
        | some setting =>
            rw [unseen_putEntry_iff (read_of_obtains obtains), object_eq_iff]
            exact ⟨fun leaves _ _ same => (by cases same; exact leaves),
              fun leaves => leaves rfl setting rfl⟩
      · cases impossible

end Failures

/-! ## A failed update that shows -/

/-- One shortcut, and a server whose engine knows one filter. -/
def inboxShortcut : Shortcut := ⟨"s1", "Inbox", "pinned"⟩

def inboxBackend : ShortcutBackend where
  codecs := { emptyCodecs with
    shortcuts := .ofTexts [([inboxShortcut],
      "\x7b\"shortcuts\":[\x7b\"id\":\"s1\",\"title\":\"Inbox\",\"filter\":\"pinned\"\x7d]\x7d")] }
  compileFilter := fun filter =>
    if filter = "pinned" then .ok () else .error "undeclared reference"

/-- The setting is stored and cached. -/
def inboxState : Cached AccountTables CacheKey CachedValue :=
  putEntry
    { db := ({} : AccountTables).putUserSetting ⟨1, .shortcuts,
        "\x7b\"shortcuts\":[\x7b\"id\":\"s1\",\"title\":\"Inbox\",\"filter\":\"pinned\"\x7d]\x7d"⟩
      cache := fun _ => none }
    1 .shortcuts ⟨1, .shortcuts [inboxShortcut]⟩

theorem inboxState_cached : inboxState.cache (.userSetting 1 .shortcuts) =
    some (.userSetting ⟨1, .shortcuts [inboxShortcut]⟩) :=
  putEntry_cache _ _ _

/-- A new title, and a filter that does not compile. -/
def renameInbox (mask : List String) : ListCall :=
  .updateShortcut (.ok ()) ⟨1, "s1", mask, "Outbox", "nonsense"⟩

/-- The request fails at the filter, with the new title in the cache. -/
theorem failed_seen : ¬ forall (backend : ShortcutBackend)
    (faults : Caching.Statement -> Option String) (call : ListCall)
    (state after : Cached AccountTables CacheKey CachedValue) (cause : String),
    Pool.Executes (CacheEffect (Faulty faults)) state (call.program backend) (.error cause) after ->
      Unseen backend.codecs state after := by
  intro unseen
  have failed := unseen inboxBackend (fun _ => none) (renameInbox ["title", "filter"]) inboxState
    (putEntry inboxState 1 .shortcuts ⟨1, .shortcuts [⟨"s1", "Outbox", "pinned"⟩]⟩)
    "invalid filter: failed to compile filter: undeclared reference"
    ⟨_, _, ⟨rfl, rfl⟩, rfl, rfl⟩
  have same := (unseen_putEntry_iff (readUserSetting_hit inboxState_cached)).mp failed
  revert same
  decide

/-- With the filter first, nothing has been changed when the request fails. -/
theorem failed_unseen_filter : Exists fun after =>
    Pool.Executes (CacheEffect (Faulty fun _ => none)) inboxState
      ((renameInbox ["filter", "title"]).program inboxBackend)
      (.error "invalid filter: failed to compile filter: undeclared reference") after ∧
    Unseen inboxBackend.codecs inboxState after := by
  have failed : Pool.Executes (CacheEffect (Faulty fun _ => none)) inboxState
      ((renameInbox ["filter", "title"]).program inboxBackend)
      (.error "invalid filter: failed to compile filter: undeclared reference")
      (putEntry inboxState 1 .shortcuts ⟨1, .shortcuts [inboxShortcut]⟩) :=
    ⟨_, _, ⟨rfl, rfl⟩, rfl, rfl⟩
  refine ⟨_, failed, (failed_unseen_iff inboxBackend _ (renameInbox ["filter", "title"]) inboxState _ _
    failed).mpr fun _ setting obtains => ?_⟩
  have obtained : ((renameInbox ["filter", "title"]).change inboxBackend).obtains
      inboxBackend.codecs (fun _ => none) inboxState =
      some ⟨1, .shortcuts [inboxShortcut]⟩ := SettingChange.obtains_hit inboxState_cached
  rw [obtained] at obtains
  cases obtains
  exact (object_eq_iff inboxBackend (renameInbox ["filter", "title"]) _).mp rfl

end Service
end Memos
