import Memos.Library.Labelled
import Memos.Service.CommentTree
import Memos.Service.Pagination

namespace Memos
namespace Service
namespace Rss

open Library Memos.Filter Store Handler

/-!
# Feeds

The feed of all public memos and the feeds of the users are made for the
origin of a request and then kept for an hour under a key that does not tell
the origins apart.  What is cached is served whatever has happened to its memos.
-/

def maxRSSItemCount : Nat := 100

/-- One hour in nanoseconds. -/
def defaultCacheDuration : Int := 3600 * 1000000000

/-- Maximum number of cached feeds -/
def maxCacheSize : Nat := 50

/-! ## A feed -/

structure RSSHeading where
  title : String
  description : String
deriving DecidableEq

/-- The title and the HTML of an item, both made from the content. -/
structure ItemText where
  title : String
  html : String
deriving DecidableEq

/-- The attachment that is enclosed, and the address it is given. -/
structure Enclosure where
  attachment : Attachment
  url : String
deriving DecidableEq

/-- An item and the memo it is made from.  Its id is its link. -/
structure FeedItem where
  memo : Memo
  text : ItemText
  link : String
  author : Option User
  enclosure : Option Enclosure
deriving DecidableEq

structure Feed where
  heading : RSSHeading
  link : String
  items : List FeedItem
deriving DecidableEq

structure CacheEntry where
  content : Feed
  etag : String
  lastModified : Option Int
  createdAt : Int

/-- The entries by key. -/
abbrev FeedCache := List (String × CacheEntry)

/-- What the service takes from outside the model: the clock in nanoseconds,
the name of the instance, the title and HTML of a content, the names of files,
the hash of a feed, the order in which the cache is iterated over, and the engine
of the memo queries, which a query without filters does not use. -/
structure RssBackend where
  now : Int
  heading : Except String RSSHeading
  itemText : String -> Except String ItemText
  filename : Attachment -> String
  hash : Feed -> String
  iterate : FeedCache -> FeedCache
  iterate_perm : forall cache, (iterate cache).Perm cache
  engine : Engine
  rules : TextRules

variable (rss : RssBackend)

/-- `ListAttachments` of several memos. -/
def listAttachmentsOf (db : Database) (memoIds : List Nat) : List Attachment :=
  (db.attachments.filter fun attachment => attachment.memoId.any fun id => id ∈ memoIds).mergeSort
    fun first second => second.updatedTs ≤ first.updatedTs

/-- The file is kept somewhere else. -/
def Attachment.isElsewhere (attachment : Attachment) : Bool :=
  attachment.storageType = "EXTERNAL" || attachment.storageType = "S3"

def enclosureOf (baseURL : String) (attachment : Attachment) : Enclosure where
  attachment := attachment
  url :=
    if Attachment.isElsewhere attachment then attachment.reference
    else baseURL ++ "/file/attachments/" ++ attachment.uid ++ "/" ++ rss.filename attachment

/-- One turn of the loop over the memos. -/
def generateItem (baseURL : String) (attachments : List Attachment) (creators : List User)
    (memo : Memo) : Except String FeedItem := do
  let text ← rss.itemText memo.content
  let own := attachments.filter fun attachment => attachment.memoId = some memo.id
  return {
    memo := memo
    text := text
    link := baseURL ++ "/memos/" ++ memo.uid
    author := creators.find? fun user => user.id = memo.creatorId
    enclosure := own.head?.map (enclosureOf rss baseURL) }

/-- The creators of the memos, in one query unless the feed is that of one user. -/
def feedCreators (memos : List Memo) : Option User -> Request (List User)
  | some user => pure [user]
  | none =>
      read (fun db => db.users.filter fun creator => creator.id ∈ memos.map Memo.creatorId)
        (internal "Failed to generate rss")

/-- The time of the last modification is that of the first memo. -/
def generateRSSFromMemoList (memoList : List JoinedMemo) (baseURL : String) (user : Option User) :
    Request (Feed × Option Int) := do
  let heading ← lift rss.heading (internal "Failed to generate rss")
  let memos := (memoList.take maxRSSItemCount).map JoinedMemo.memo
  match memos with
  | [] => return (⟨heading, baseURL, []⟩, none)
  | first :: _ =>
      let attachments ← read (fun db => listAttachmentsOf db (memos.map Memo.id))
        (internal "Failed to generate rss")
      let creators ← feedCreators memos user
      let items ← lift (memos.mapM (generateItem rss baseURL attachments creators))
        (internal "Failed to generate rss")
      return (⟨heading, baseURL, items⟩, some first.updatedTs)

/-! ## The cache -/

/-- The entry of the key unless it has expired; then it is removed. -/
def getFromCache (cache : FeedCache) (key : String) : Option CacheEntry × FeedCache :=
  match cache.find? fun pair => pair.1 = key with
  | none => (none, cache)
  | some (_, entry) =>
      if defaultCacheDuration < rss.now - entry.createdAt then
        (none, cache.filter fun pair => pair.1 ≠ key)
      else (some entry, cache)

/-- One turn of the loop that looks for the oldest entry. -/
def olderKey (oldest : String × Int) (pair : String × CacheEntry) : String × Int :=
  if oldest.1 = "" ∨ pair.2.createdAt < oldest.2 then (pair.1, pair.2.createdAt) else oldest

/-- The key of the oldest entry. -/
def oldestKey (cache : FeedCache) : String := ((rss.iterate cache).foldl olderKey ("", 0)).1

/-- The oldest entry makes room when the cache is full. -/
def putInCache (cache : FeedCache) (key : String) (content : Feed) (lastModified : Option Int) :
    FeedCache :=
  let room :=
    if maxCacheSize ≤ cache.length then
      let oldest := oldestKey rss cache
      if oldest ≠ "" then cache.filter fun pair => pair.1 ≠ oldest else cache
    else cache
  (key, ⟨content, rss.hash content, lastModified, rss.now⟩) :: room.filter fun pair => pair.1 ≠ key

/-! ## Requests -/

/-- A request for the feed of all memos, or of a user. -/
structure FeedRequest where
  username : Option String
  scheme : String
  host : String
  ifNoneMatch : String

/-- `c.Scheme() + "://" + c.Request().Host` -/
def FeedRequest.origin (request : FeedRequest) : String := request.scheme ++ "://" ++ request.host

def FeedRequest.cacheKey (request : FeedRequest) : String :=
  match request.username with
  | none => "explore"
  | some username => "user:" ++ username

/-- The query of a feed. -/
def feedFind (user : Option User) : FindMemo where
  creatorId := user.map User.id
  rowStatus := some .normal
  visibilityList := [.isPublic]
  excludeComments := true
  limit := some maxRSSItemCount

/-- The user whose feed is asked for. -/
def feedUser : Option String -> Request (Option User)
  | none => pure none
  | some username => do
      let row ← read (fun db => db.users.find? fun user => user.username = username)
        (internal "Failed to find user")
      let user ← found row ⟨.notFound, "User not found"⟩
      return some user

/-- What is made for a request that finds nothing in the cache. -/
def makeFeed (request : FeedRequest) : Request (Feed × Option Int) := do
  let user ← feedUser request.username
  let memoList ← call (Transaction.query fun db =>
    Store.listMemos rss.engine rss.rules rss.now db (feedFind user)) (internal "Failed to find memo list")
  generateRSSFromMemoList rss memoList request.origin user

inductive FeedResponse where
  | notModified
  | served (feed : Feed)
  | failed (status : Status)

/-- `GetExploreRSS` and `GetUserRSS` -/
def serve (db : Database) (plans : List (List (Option String))) (cache : FeedCache)
    (request : FeedRequest) : FeedResponse × FeedCache :=
  match getFromCache rss cache request.cacheKey with
  | (some cached, cache) =>
      if request.ifNoneMatch = cached.etag then (.notModified, cache)
      else (.served cached.content, cache)
  | (none, cache) =>
      match (makeFeed rss request ⟨db, plans⟩).1 with
      | .error status => (.failed status, cache)
      | .ok (feed, lastModified) =>
          (.served feed, putInCache rss cache request.cacheKey feed lastModified)

/-! ## What is made for a request -/

/-- The memo is public, normal and no comment. -/
def Shown (db : Database) (memo : Memo) : Prop :=
  Exists fun stored => stored ∈ db.memos ∧ stored.id = memo.id ∧ stored.visibility = .isPublic ∧
    stored.rowStatus = .normal ∧ forall parent, ¬ db.CommentOf stored.id parent

/-- The address is one of the origin. -/
def UsesOrigin (origin url : String) : Prop := Exists fun path => url = origin ++ path

/-- The links of an item, and the address of its enclosure if the server keeps
the file. -/
structure ItemLinks (origin : String) (item : FeedItem) : Prop where
  link : UsesOrigin origin item.link
  enclosure : forall enclosure, item.enclosure = some enclosure ->
    Attachment.isElsewhere enclosure.attachment = true ∨ UsesOrigin origin enclosure.url

/-- The feed may be served: to a request of this origin, from this database. -/
structure GoodFeed (db : Database) (origin : String) (feed : Feed) : Prop where
  shown : forall item, item ∈ feed.items -> Shown db item.memo
  link : feed.link = origin
  items : forall item, item ∈ feed.items -> ItemLinks origin item

variable {rss : RssBackend} {db : Database}

/-- A listed memo is one that may be shown. -/
theorem shown_of_listed (sound : db.Sound) {user : Option User} {memoList : List JoinedMemo}
    (success : Store.listMemos rss.engine rss.rules rss.now db (feedFind user) = .ok memoList)
    {listed : JoinedMemo} (member : listed ∈ memoList) : Shown db listed.memo := by
  have unfiltered : AllBind rss.engine rss.now .sqlite (feedFind user).filters :=
    fun _ impossible => absurd impossible List.not_mem_nil
  rcases listMemos_sound unfiltered success listed member with ⟨joined, row, same, _, pushes⟩
  have meets := FindMemo.meets_of_pushes pushes
  have visible := List.mem_singleton.mp (meets.visibility (List.cons_ne_nil _ _))
  rcases listMemos_topLevel rfl success member with ⟨other, otherRow, sameId, topLevel⟩
  have id_eq : joined.memo.id = listed.memo.id := by
    rcases same with rfl | rfl <;> rfl
  refine ⟨joined.memo, Database.mem_joinedMemos row, id_eq, visible, meets.rowStatus _ rfl, ?_⟩
  intro parent comment
  rw [id_eq, ← sameId] at comment
  exact HasParent.joined sound otherRow ⟨parent, comment, sound.target _ comment⟩ topLevel

theorem generateItem_eq_ok {baseURL : String} {attachments : List Attachment} {creators : List User}
    {memo : Memo} {item : FeedItem}
    (success : generateItem rss baseURL attachments creators memo = .ok item) :
    item.memo = memo ∧ ItemLinks baseURL item := by
  rcases bind_eq_ok.mp success with ⟨text, _, finished⟩
  cases pure_eq_ok.mp finished
  refine ⟨rfl, ⟨⟨"/memos/" ++ memo.uid, by rw [← String.append_assoc]⟩, ?_⟩⟩
  intro enclosure enclosed
  rcases Option.map_eq_some_iff.mp enclosed with ⟨attachment, _, rfl⟩
  cases elsewhere : Attachment.isElsewhere attachment with
  | true => exact Or.inl elsewhere
  | false =>
      right
      refine ⟨"/file/attachments/" ++ attachment.uid ++ "/" ++ rss.filename attachment, ?_⟩
      simp only [enclosureOf, elsewhere, Bool.false_eq_true, if_false, String.append_assoc]

theorem mapM_generateItem {baseURL : String} {attachments : List Attachment} {creators : List User}
    {memos : List Memo} {items : List FeedItem}
    (success : memos.mapM (generateItem rss baseURL attachments creators) = .ok items) :
    forall item, item ∈ items -> item.memo ∈ memos ∧ ItemLinks baseURL item := by
  induction memos generalizing items with
  | nil =>
      cases pure_eq_ok.mp success
      exact fun _ impossible => absurd impossible List.not_mem_nil
  | cons memo memos ih =>
      rw [List.mapM_cons] at success
      rcases bind_eq_ok.mp success with ⟨first, generated, continued⟩
      rcases bind_eq_ok.mp continued with ⟨others, ofOthers, finished⟩
      cases pure_eq_ok.mp finished
      intro item member
      rcases List.mem_cons.mp member with rfl | later
      · rcases generateItem_eq_ok generated with ⟨rfl, links⟩
        exact ⟨List.mem_cons_self, links⟩
      · rcases ih ofOthers item later with ⟨inside, links⟩
        exact ⟨List.mem_cons_of_mem _ inside, links⟩

/-- Whatever becomes of the read, it happens in the same database. -/
theorem ends_read {α : Type} {select : Database -> α} {status : String -> Status} :
    Ends (fun state => state = db) (read select status) (fun _ state => state = db) fun _ _ => True :=
  ends_weaken (ends_query fun _ _ _ => trivial) (fun _ given => given) (fun _ _ both => both.1)
    fun _ _ (_ : True) => trivial

theorem ends_feedCreators (memos : List Memo) (user : Option User) :
    Ends (fun state => state = db) (feedCreators memos user) (fun _ state => state = db)
      fun _ _ => True := by
  cases user with
  | none => exact ends_read
  | some user => exact ends_pure fun _ given => given

theorem ends_feedUser (username : Option String) :
    Ends (fun state => state = db) (feedUser username) (fun _ state => state = db) fun _ _ => True := by
  cases username with
  | none => exact ends_pure fun _ given => given
  | some username =>
      refine ends_bind ends_read fun row => ?_
      refine ends_bind (ends_found fun _ _ _ => trivial) fun user => ?_
      exact ends_pure fun _ known => known.1

/-- The feed that is made from memos that may be shown is good. -/
theorem ends_generateRSSFromMemoList {memoList : List JoinedMemo} {baseURL : String}
    {user : Option User} (all : forall listed, listed ∈ memoList -> Shown db listed.memo) :
    Ends (fun state => state = db) (generateRSSFromMemoList rss memoList baseURL user)
      (fun result _ => GoodFeed db baseURL result.1) (fun _ _ => True) := by
  have shown : forall memo, memo ∈ (memoList.take maxRSSItemCount).map JoinedMemo.memo ->
      Shown db memo := by
    intro memo member
    rcases List.mem_map.mp member with ⟨listed, taken, rfl⟩
    exact all listed (List.mem_of_mem_take taken)
  unfold generateRSSFromMemoList
  refine ends_bind (ends_lift fun _ _ _ _ => trivial) fun heading => ?_
  cases memos : (memoList.take maxRSSItemCount).map JoinedMemo.memo with
  | nil =>
      refine ends_pure fun state _ => ⟨?_, rfl, ?_⟩
      · exact fun _ impossible => absurd impossible List.not_mem_nil
      · exact fun _ impossible => absurd impossible List.not_mem_nil
  | cons first others =>
      rw [memos] at shown
      simp only
      refine ends_bind (ends_weaken ends_read (fun _ known => known.1) (fun _ _ given => given)
        fun _ _ _ => trivial) fun attachments => ?_
      refine ends_bind (ends_feedCreators _ user) fun creators => ?_
      refine ends_bind (ends_lift fun _ _ _ _ => trivial) fun items => ?_
      refine ends_pure fun state known => ⟨?_, rfl, ?_⟩
      · exact fun item member => shown _ (mapM_generateItem known.2 item member).1
      · exact fun item member => (mapM_generateItem known.2 item member).2

theorem ends_makeFeed (sound : db.Sound) (request : FeedRequest) :
    Ends (fun state => state = db) (makeFeed rss request)
      (fun result _ => GoodFeed db request.origin result.1) (fun _ _ => True) := by
  unfold makeFeed
  refine ends_bind (ends_feedUser request.username) fun user => ?_
  refine ends_bind (ends_query fun _ _ _ => trivial) fun memoList => ?_
  have known : forall state, state = db ∧
      Store.listMemos rss.engine rss.rules rss.now state (feedFind user) = .ok memoList ->
      Store.listMemos rss.engine rss.rules rss.now db (feedFind user) = .ok memoList := by
    rintro state ⟨rfl, success⟩
    exact success
  refine ends_given known fun success => ?_
  exact ends_weaken (ends_generateRSSFromMemoList fun listed member => shown_of_listed sound success member)
    (fun _ both => both.1) (fun _ _ holds => holds) fun _ _ _ => trivial

variable {plans : List (List (Option String))} {request : FeedRequest}

/-- What a miss serves is good. -/
theorem makeFeed_good (sound : db.Sound) {feed : Feed} {lastModified : Option Int}
    (made : (makeFeed rss request ⟨db, plans⟩).1 = .ok (feed, lastModified)) :
    GoodFeed db request.origin feed := by
  have ends := @ends_makeFeed rss db sound request ⟨db, plans⟩ rfl
  rcases ran : makeFeed rss request ⟨db, plans⟩ with ⟨outcome, after⟩
  rw [ran] at made ends
  subst made
  exact ends

/-! ## What is kept -/

/-- The cache is never too large, and the links of a cached feed are those of
the origin that it was made for. -/
structure CacheInvariant (cache : FeedCache) : Prop where
  bounded : cache.length ≤ maxCacheSize
  keys : forall pair, pair ∈ cache -> pair.1 ≠ ""
  links : forall pair, pair ∈ cache ->
    forall item, item ∈ pair.2.content.items -> ItemLinks pair.2.content.link item

variable {cache : FeedCache}

theorem CacheInvariant.sublist {other : FeedCache} (invariant : CacheInvariant cache)
    (less : other.Sublist cache) : CacheInvariant other where
  bounded := less.length_le.trans invariant.bounded
  keys := fun pair member => invariant.keys pair (less.subset member)
  links := fun pair member => invariant.links pair (less.subset member)

theorem getFromCache_sublist (key : String) : (getFromCache rss cache key).2.Sublist cache := by
  unfold getFromCache
  split
  · exact List.Sublist.refl _
  · split
    · exact List.filter_sublist
    · exact List.Sublist.refl _

theorem getFromCache_mem {key : String} {entry : CacheEntry}
    (found : (getFromCache rss cache key).1 = some entry) :
    Exists fun name => (name, entry) ∈ cache := by
  unfold getFromCache at found
  split at found
  · exact absurd found (by simp)
  · next name other located =>
      split at found
      · exact absurd found (by simp)
      · exact ⟨name, Option.some.inj found ▸ List.mem_of_find?_eq_some located⟩

/-- The loop ends with the key of one of the entries. -/
theorem foldl_olderKey {entries : FeedCache} (keys : forall pair, pair ∈ entries -> pair.1 ≠ "")
    (oldest : String × Int) :
    (entries.foldl olderKey oldest).1 = oldest.1 ∧ (entries = [] ∨ oldest.1 ≠ "") ∨
      (entries.foldl olderKey oldest).1 ∈ entries.map Prod.fst := by
  induction entries generalizing oldest with
  | nil => exact Or.inl ⟨rfl, Or.inl rfl⟩
  | cons pair entries ih =>
      have others := ih (fun other member => keys other (List.mem_cons_of_mem _ member))
        (olderKey oldest pair)
      rw [List.foldl_cons]
      rcases others with ⟨same, _⟩ | member
      · rw [same]
        unfold olderKey
        split
        next => exact Or.inr List.mem_cons_self
        next kept =>
          rw [not_or] at kept
          exact Or.inl ⟨rfl, Or.inr kept.1⟩
      · exact Or.inr (List.mem_cons_of_mem _ member)

/-- There is an oldest entry in a cache that is not empty. -/
theorem oldestKey_mem (invariant : CacheInvariant cache) (some_entry : cache ≠ []) :
    oldestKey rss cache ∈ cache.map Prod.fst := by
  have perm := rss.iterate_perm cache
  have keys : forall pair, pair ∈ rss.iterate cache -> pair.1 ≠ "" :=
    fun pair member => invariant.keys pair (perm.mem_iff.mp member)
  rcases foldl_olderKey keys ("", 0) with ⟨_, none | impossible⟩ | member
  · rw [none] at perm
    exact absurd perm.nil_eq.symm some_entry
  · exact absurd rfl impossible
  · exact (perm.map Prod.fst).mem_iff.mp member

theorem putInCache_invariant (invariant : CacheInvariant cache) {key : String} (named : key ≠ "")
    {content : Feed} {lastModified : Option Int}
    (links : forall item, item ∈ content.items -> ItemLinks content.link item) :
    CacheInvariant (putInCache rss cache key content lastModified) := by
  have room : Exists fun kept : FeedCache => kept.Sublist cache ∧ kept.length < maxCacheSize ∧
      putInCache rss cache key content lastModified =
        (key, ⟨content, rss.hash content, lastModified, rss.now⟩) :: kept.filter fun pair => pair.1 ≠ key := by
    unfold putInCache
    by_cases full : maxCacheSize ≤ cache.length
    · have some_entry : cache ≠ [] := by
        rintro rfl
        exact absurd full (by decide)
      have member := @oldestKey_mem rss cache invariant some_entry
      rcases List.mem_map.mp member with ⟨pair, inside, same⟩
      have oldest : oldestKey rss cache ≠ "" := by
        rw [← same]
        exact invariant.keys pair inside
      refine ⟨cache.filter fun pair => pair.1 ≠ oldestKey rss cache, List.filter_sublist, ?_, ?_⟩
      · have less : (cache.filter fun pair => pair.1 ≠ oldestKey rss cache).length < cache.length :=
          List.length_filter_lt_length_iff_exists.mpr ⟨pair, inside, by simp [same]⟩
        exact Nat.lt_of_lt_of_le less invariant.bounded
      · simp only [if_pos full, if_pos oldest]
    · exact ⟨cache, List.Sublist.refl _, Nat.lt_of_not_le full, by simp only [if_neg full]⟩
  rcases room with ⟨kept, less, short, same⟩
  have rest : CacheInvariant (kept.filter fun pair => pair.1 ≠ key) :=
    (invariant.sublist less).sublist List.filter_sublist
  rw [same]
  refine ⟨?_, ?_, ?_⟩
  · exact Nat.succ_le_of_lt (Nat.lt_of_le_of_lt (List.length_filter_le _ _) short)
  · intro pair member
    rcases List.mem_cons.mp member with rfl | member
    · exact named
    · exact rest.keys pair member
  · intro pair member
    rcases List.mem_cons.mp member with rfl | member
    · exact links
    · exact rest.links pair member

theorem cacheKey_ne_empty (request : FeedRequest) : request.cacheKey ≠ "" := by
  unfold FeedRequest.cacheKey
  split
  · decide
  · intro impossible
    have long := congrArg String.length impossible
    rw [String.length_append] at long
    exact absurd long (by simp)

/-! ## Runs -/

/-- The database and the cached feeds. -/
structure Server where
  db : Database
  cache : FeedCache

/-- A request that may write, a request for a feed, or a restart of the server. -/
inductive Action where
  | operate (backend : Backend) (userId : Nat) (operation : Operation)
      (plans : List (List (Option String)))
  | feed (rss : RssBackend) (plans : List (List (Option String))) (request : FeedRequest)
  | restart

def Server.step (server : Server) : Action -> Option Server
  | .operate backend userId operation plans =>
      some ⟨(perform backend userId operation ⟨server.db, plans⟩).2.state, server.cache⟩
  | .feed rss plans request => some ⟨server.db, (serve rss server.db plans server.cache request).2⟩
  | .restart => some ⟨server.db, []⟩

/-- The feed that is served, if one is, is good, and the cache is not too large. -/
def ServesGood (server : Server) (action : Action) (next : Server) : Prop :=
  next.cache.length ≤ maxCacheSize ∧
    match action with
    | .feed rss plans request => forall feed,
        (serve rss server.db plans server.cache request).1 = .served feed ->
          GoodFeed server.db request.origin feed
    | _ => True

/-- A feed that is found in the cache and sent has been made for the origin of
the request, and its memos may still be shown. -/
def HitsFresh (server : Server) (action : Action) (_ : Server) : Prop :=
  match action with
  | .feed rss _ request => forall entry,
      (getFromCache rss server.cache request.cacheKey).1 = some entry ->
        request.ifNoneMatch ≠ entry.etag ->
          entry.content.link = request.origin ∧
            forall item, item ∈ entry.content.items -> Shown server.db item.memo
  | _ => True

/-- The database has been reached by requests, and the cache is in order. -/
structure ServerInvariant (server : Server) : Prop where
  reached : Reaches (fun _ _ => True) {} server.db
  cache : CacheInvariant server.cache

theorem ServerInvariant.sound {server : Server} (invariant : ServerInvariant server) :
    server.db.Sound := (reaches_forest invariant.reached).1

theorem serve_of_hit {entry : CacheEntry} (found : (getFromCache rss cache request.cacheKey).1 = some entry) :
    serve rss db plans cache request =
      (if request.ifNoneMatch = entry.etag then .notModified else .served entry.content,
        (getFromCache rss cache request.cacheKey).2) := by
  unfold serve
  rcases looked : getFromCache rss cache request.cacheKey with ⟨entries, after⟩
  rw [looked] at found
  simp only at found
  subst found
  simp only
  split <;> rfl

theorem serve_of_miss (missed : (getFromCache rss cache request.cacheKey).1 = none) :
    serve rss db plans cache request =
      match (makeFeed rss request ⟨db, plans⟩).1 with
      | .error status => (.failed status, (getFromCache rss cache request.cacheKey).2)
      | .ok (feed, lastModified) =>
          (.served feed, putInCache rss (getFromCache rss cache request.cacheKey).2 request.cacheKey feed
            lastModified) := by
  unfold serve
  rcases looked : getFromCache rss cache request.cacheKey with ⟨entries, after⟩
  rw [looked] at missed
  simp only at missed
  subst missed
  rfl

/-- Whatever is asked for, the cache stays in order. -/
theorem serve_invariant (sound : db.Sound) (invariant : CacheInvariant cache)
    (plans : List (List (Option String))) (request : FeedRequest) :
    CacheInvariant (serve rss db plans cache request).2 := by
  have kept := invariant.sublist (@getFromCache_sublist rss cache request.cacheKey)
  cases found : (getFromCache rss cache request.cacheKey).1 with
  | some entry =>
      rw [serve_of_hit found]
      exact kept
  | none =>
      rw [serve_of_miss found]
      cases made : (makeFeed rss request ⟨db, plans⟩).1 with
      | error status => exact kept
      | ok result =>
          have good := makeFeed_good sound made
          refine putInCache_invariant kept (cacheKey_ne_empty request) ?_
          intro item member
          rw [good.link]
          exact good.items item member

/-- A miss serves a good feed. -/
theorem goodFeed_of_miss (sound : db.Sound) (missed : (getFromCache rss cache request.cacheKey).1 = none)
    {feed : Feed} (served : (serve rss db plans cache request).1 = .served feed) :
    GoodFeed db request.origin feed := by
  rw [serve_of_miss missed] at served
  cases made : (makeFeed rss request ⟨db, plans⟩).1 with
  | error status =>
      rw [made] at served
      cases served
  | ok result =>
      rw [made] at served
      cases served
      exact makeFeed_good sound made

theorem ServerInvariant.step {server next : Server} {action : Action} (invariant : ServerInvariant server)
    (steps : server.step action = some next) : ServerInvariant next := by
  cases action with
  | operate backend userId operation plans =>
      cases steps
      exact ⟨invariant.reached.tail ⟨backend, userId, operation, plans, trivial, rfl⟩, invariant.cache⟩
  | feed rss plans request =>
      cases steps
      exact ⟨invariant.reached, serve_invariant invariant.sound invariant.cache plans request⟩
  | restart =>
      cases steps
      refine ⟨invariant.reached, ⟨Nat.zero_le _, ?_, ?_⟩⟩
      · exact fun _ impossible => absurd impossible List.not_mem_nil
      · exact fun _ impossible => absurd impossible List.not_mem_nil

/-- In one step: what is served is good if and only if what is found is fresh. -/
theorem servesGood_iff_hitsFresh {server next : Server} {action : Action}
    (invariant : ServerInvariant server) (steps : server.step action = some next) :
    ServesGood server action next ↔ HitsFresh server action next := by
  have bounded := (invariant.step steps).cache.bounded
  cases action with
  | operate backend userId operation plans => exact ⟨fun _ => trivial, fun _ => ⟨bounded, trivial⟩⟩
  | restart => exact ⟨fun _ => trivial, fun _ => ⟨bounded, trivial⟩⟩
  | feed rss plans request =>
      constructor
      · rintro ⟨_, good⟩ entry found changed
        have fresh := good entry.content (by rw [serve_of_hit found, if_neg changed])
        exact ⟨fresh.link, fresh.shown⟩
      · intro fresh
        refine ⟨bounded, ?_⟩
        intro feed served
        cases found : (getFromCache rss server.cache request.cacheKey).1 with
        | none => exact goodFeed_of_miss invariant.sound found served
        | some entry =>
            rw [serve_of_hit found] at served
            by_cases same : request.ifNoneMatch = entry.etag
            · rw [if_pos same] at served
              cases served
            · rw [if_neg same] at served
              cases served
              rcases fresh entry found same with ⟨link, shown⟩
              rcases getFromCache_mem found with ⟨name, member⟩
              refine ⟨shown, link, ?_⟩
              rw [← link]
              exact invariant.cache.links _ member

theorem serverInvariant_empty : ServerInvariant ⟨{}, []⟩ where
  reached := Relation.ReflTransGen.refl
  cache := ⟨Nat.zero_le _, fun _ impossible => absurd impossible List.not_mem_nil,
    fun _ impossible => absurd impossible List.not_mem_nil⟩

/-- A run in which every feed is good is one in which no feed is sent from the
cache that was made for another origin or that lists a memo that may no longer
be shown.  The cache is never too large. -/
theorem servesGood_iff (actions : List Action) :
    Throughout Server.step ServesGood (⟨{}, []⟩ : Server) actions ↔
      Throughout Server.step HitsFresh (⟨{}, []⟩ : Server) actions :=
  throughout_iff (fun _ _ _ => servesGood_iff_hitsFresh) (fun _ _ _ invariant steps _ => invariant.step steps)
    serverInvariant_empty actions

/-! ## A memo that was public -/

/-- A service that never fails. -/
def quietRss : RssBackend where
  now := 0
  heading := .ok ⟨"Memos", ""⟩
  itemText := fun content => .ok ⟨"Memo", content⟩
  filename := fun _ => ""
  hash := fun _ => "etag"
  iterate := id
  iterate_perm := fun _ => List.Perm.refl _
  engine := unfilteredEnvironment.engine
  rules := binaryRules

/-- A request for all public memos. -/
def exploreRequest (host : String) : FeedRequest := ⟨none, "https", host, ""⟩

def onePublic : List Operation :=
  [.changeAccounts [alice] [] [], .createMemo "a" { content := "", visibility := .isPublic }]

/-- The memo is made private. -/
def hideMemo : Operation :=
  .updateMemo "memos/a" ["visibility"] { content := "", visibility := .isPrivate }

/-- The feed with the memo. -/
def publicFeed : Feed where
  heading := ⟨"Memos", ""⟩
  link := "https://a"
  items := [⟨(publicMemo 1 "a").memo, ⟨"Memo", ""⟩, "https://a/memos/a", some alice, none⟩]

theorem makeFeed_onePublic :
    (makeFeed quietRss (exploreRequest "a") ⟨runFrom {} onePublic, []⟩).1 = .ok (publicFeed, some 1) := by
  have joined : (runFrom {} onePublic).joinedMemos = [publicMemo 1 "a"] := by decide +kernel
  have files : listAttachmentsOf (runFrom {} onePublic) [1] = [] := by
    have none : ((runFrom {} onePublic).attachments.filter fun attachment =>
        attachment.memoId.any fun id => id ∈ [1]) = [] := by decide +kernel
    rw [listAttachmentsOf, none, List.mergeSort_nil]
  have creators : ((runFrom {} onePublic).users.filter fun creator => creator.id ∈ [1]) = [alice] := by
    decide +kernel
  have listed : Store.listMemos quietRss.engine quietRss.rules quietRss.now (runFrom {} onePublic)
      (feedFind none) = .ok [publicMemo 1 "a"] := by
    have selected : Store.listMemos quietRss.engine quietRss.rules quietRss.now (runFrom {} onePublic)
        (feedFind none) = .ok (((feedFind none).page ([publicMemo 1 "a"].mergeSort
          (feedFind none).before)).map id) := by
      refine listMemos_of_rows _ rfl rfl ?_
      rw [joined]
      rfl
    rw [selected, List.mergeSort_singleton]
    rfl
  have ofAttachments : (read (fun db => listAttachmentsOf db [1]) (internal "Failed to generate rss") :
      Request (List Attachment)) ⟨runFrom {} onePublic, []⟩ = (.ok [], ⟨runFrom {} onePublic, []⟩) :=
    call_quiet (query_quiet (congrArg Except.ok files))
  have ofCreators : feedCreators [(publicMemo 1 "a").memo] none ⟨runFrom {} onePublic, []⟩ =
      (.ok [alice], ⟨runFrom {} onePublic, []⟩) := by
    have queried : Transaction.query (fun db : Database => .ok (db.users.filter fun creator =>
        creator.id ∈ [1])) ⟨runFrom {} onePublic, []⟩ = .ok ([alice], ⟨runFrom {} onePublic, []⟩) :=
      query_quiet (congrArg Except.ok creators)
    have called : call (Transaction.query fun db : Database => .ok (db.users.filter fun creator =>
        creator.id ∈ [1])) (internal "Failed to generate rss") ⟨runFrom {} onePublic, []⟩ =
          (.ok [alice], ⟨runFrom {} onePublic, []⟩) := call_quiet queried
    exact called
  have generated : generateRSSFromMemoList quietRss [publicMemo 1 "a"] "https://a" none
      ⟨runFrom {} onePublic, []⟩ = (.ok (publicFeed, some 1), ⟨runFrom {} onePublic, []⟩) := by
    unfold generateRSSFromMemoList
    change (do
      let attachments ← (read (fun db => listAttachmentsOf db [1]) (internal "Failed to generate rss") :
        Request (List Attachment))
      let creators ← feedCreators [(publicMemo 1 "a").memo] none
      let items ← lift ([(publicMemo 1 "a").memo].mapM
        (generateItem quietRss "https://a" attachments creators)) (internal "Failed to generate rss")
      return ((⟨⟨"Memos", ""⟩, "https://a", items⟩ : Feed), some (publicMemo 1 "a").memo.updatedTs)) _ = _
    rw [bind_of_ok ofAttachments, bind_of_ok ofCreators]
    rfl
  have made : makeFeed quietRss (exploreRequest "a") ⟨runFrom {} onePublic, []⟩ =
      (.ok (publicFeed, some 1), ⟨runFrom {} onePublic, []⟩) := by
    have user : feedUser (exploreRequest "a").username ⟨runFrom {} onePublic, []⟩ =
        (.ok none, ⟨runFrom {} onePublic, []⟩) := rfl
    have queried : Transaction.query (fun db => Store.listMemos quietRss.engine quietRss.rules
        quietRss.now db (feedFind none)) ⟨runFrom {} onePublic, []⟩ =
          .ok ([publicMemo 1 "a"], ⟨runFrom {} onePublic, []⟩) := query_quiet listed
    rw [makeFeed, bind_of_ok user, bind_of_ok (call_quiet queried)]
    exact generated
  rw [made]

theorem step_operate (operations : List Operation) (operation : Operation) (cache : FeedCache) :
    Server.step ⟨runFrom {} operations, cache⟩ (.operate quietBackend 1 operation []) =
      some ⟨runFrom {} (operations ++ [operation]), cache⟩ := by
  unfold runFrom
  rw [List.foldl_append]
  rfl

theorem serve_onePublic : (serve quietRss (runFrom {} onePublic) [] [] (exploreRequest "a")).2 =
    [("explore", ⟨publicFeed, "etag", some 1, 0⟩)] := by
  have missed : (getFromCache quietRss [] (exploreRequest "a").cacheKey).1 = none := rfl
  rw [serve_of_miss missed, makeFeed_onePublic]
  rfl

/-- The feed is still served after the memo has been made private, and to a
request for another host. -/
theorem privateMemo_served :
    ¬ Throughout Server.step ServesGood (⟨{}, []⟩ : Server)
      [.operate quietBackend 1 (.changeAccounts [alice] [] []) [],
        .operate quietBackend 1 (.createMemo "a" { content := "", visibility := .isPublic }) [],
        .feed quietRss [] (exploreRequest "a"), .operate quietBackend 1 hideMemo [],
        .feed quietRss [] (exploreRequest "b")] := by
  intro good
  have afterAccounts := ((throughout_cons (step_operate [] _ [])).mp good).2
  have afterCreation := ((throughout_cons (step_operate [.changeAccounts [alice] [] []] _ [])).mp
    afterAccounts).2
  have requested : Server.step ⟨runFrom {} onePublic, []⟩ (.feed quietRss [] (exploreRequest "a")) =
      some ⟨runFrom {} onePublic, [("explore", ⟨publicFeed, "etag", some 1, 0⟩)]⟩ := by
    rw [Server.step, serve_onePublic]
  have afterRequest := ((throughout_cons requested).mp afterCreation).2
  have afterUpdate := ((throughout_cons (step_operate onePublic hideMemo _)).mp afterRequest).2
  have last := ((throughout_cons rfl).mp afterUpdate).1.2
  rcases (last publicFeed rfl).shown _ List.mem_cons_self with ⟨stored, inTable, _, visible, _⟩
  have hidden : forall memo, memo ∈ (runFrom {} (onePublic ++ [hideMemo])).memos ->
      memo.visibility ≠ .isPublic := by decide +kernel
  exact hidden stored inTable visible

end Rss
end Service
end Memos
