import Mathlib.Data.List.TakeWhile
import Memos.Library.Paging
import Memos.Service.ListMemos
import Memos.Store.Relation

namespace Memos
namespace Service
namespace AttachmentPages

open Library Memos.Filter Store

/-!
# Pages of attachments

`ListAttachments` of the service sorts the attachments of the caller by
`updated_ts` alone and returns a page by its offset, which is also the token
of the page.  `ListMemos` breaks ties by the id, this handler does not: among
attachments with equal timestamps the database may choose another order in
every request.
-/

structure ListAttachmentsRequest where
  pageSize : Int := 0
  pageToken : String := ""
  filter : String := ""

structure ListAttachmentsResponse where
  attachments : List Attachment := []
  nextPageToken : String := ""
  totalSize : Nat := 0

/-- The code around the handler: the CEL compiler and the database, with the
order it chooses in one request. -/
structure AttachmentBackend where
  celCompile : String -> Except String Expr
  dialect : DialectName
  /-- Whether the conditions of the filters hold of a row. -/
  holds : Where -> Attachment -> Bool
  /-- `ORDER BY attachment.updated_ts DESC` -/
  order : List Attachment -> List Attachment

/-- `DefaultAttachmentEngine` -/
def AttachmentBackend.engine (backend : AttachmentBackend) : Engine :=
  ⟨newAttachmentSchema, backend.celCompile⟩

/-! ## The page token -/

/-- `SkipSpace` of the scanner: a newline in the input does not match the
format. -/
def skipSpace : List Char -> Option (List Char)
  | [] => some []
  | c :: rest =>
      if c = '\n' then none else if isSpace c then skipSpace rest else some (c :: rest)

/-- `accept(sign)` -/
def acceptSign : List Char -> Bool × List Char
  | '-' :: rest => (true, rest)
  | '+' :: rest => (false, rest)
  | rest => (false, rest)

/-- `fmt.Sscanf` with the format `%d`: the text behind the digits is
ignored. -/
def sscanfInt (text : String) : Option Int := do
  let rest ← skipSpace text.toList
  let (negative, rest) := acceptSign rest
  let digits := rest.takeWhile Char.isDigit
  if digits.isEmpty then none
  else
    let magnitude : Int := Nat.ofDigitChars 10 digits 0
    let value := if negative then -magnitude else magnitude
    if -2 ^ 63 ≤ value ∧ value < 2 ^ 63 then some value else none

/-! ## The handler -/

def attachmentPageSize (pageSize : Int) : Nat :=
  if pageSize ≤ 0 then 50 else if 1000 < pageSize then 1000 else pageSize.toNat

def attachmentOffset (pageToken : String) : Except Status Int :=
  if pageToken = "" then .ok 0
  else
    match sscanfInt pageToken with
    | some offset => .ok offset
    | none => .error ⟨.invalidArgument, "invalid page token"⟩

section Handler

variable (backend : AttachmentBackend) (now : Int) (db : Database)

def validateAttachmentFilter (filter : String) : Except String Unit :=
  if filter = "" then .error "filter cannot be empty"
  else
    match backend.engine.compileToStatement now filter backend.dialect 0 with
    | .error cause => .error ("failed to compile filter: " ++ cause)
    | .ok _ => .ok ()

/-- The filters of the query: the one of the request, if it has one. -/
def attachmentFilters (filter : String) : Except Status (List String) :=
  if filter = "" then .ok []
  else do
    orStatus .invalidArgument "invalid filter: " (validateAttachmentFilter backend now filter)
    return [filter]

/-- The attachments of a creator that the filters keep.  The creator is the
first argument of the query. -/
def matchingAttachments (creatorId : Nat) (filters : List String) :
    Except String (List Attachment) :=
  match appendConditions backend.engine now backend.dialect ⟨[], [idArg creatorId]⟩ filters with
  | .error cause => .error ("failed to append filter conditions: " ++ cause)
  | .ok clause => .ok (db.attachments.filter fun attachment =>
      attachment.creatorId = creatorId &&
        (clause.conjuncts.isEmpty || backend.holds clause attachment))

/-- `ListAttachments` of the drivers.  SQLite reads a negative offset as
zero, the others refuse it. -/
def listAttachmentRows (creatorId : Nat) (filters : List String) (limit : Nat) (offset : Int) :
    Except String (List Attachment) := do
  let rows ← matchingAttachments backend now db creatorId filters
  if offset < 0 ∧ backend.dialect ≠ .sqlite then .error "OFFSET must not be negative"
  else return pageRows limit offset.toNat (backend.order rows)

/-- `ListAttachments` of the service. -/
def listAttachments (userId : Nat) (request : ListAttachmentsRequest) :
    Except Status ListAttachmentsResponse := do
  let viewer ← orStatus .internal "failed to get current user: " (fetchCurrentUser db userId)
  match viewer with
  | none => .error ⟨.unauthenticated, "user not authenticated"⟩
  | some user =>
      let pageSize := attachmentPageSize request.pageSize
      let offset ← attachmentOffset request.pageToken
      let filters ← attachmentFilters backend now request.filter
      let attachments ← orStatus .internal "failed to list attachments: "
        (listAttachmentRows backend now db user.id filters pageSize offset)
      return {
        attachments
        nextPageToken :=
          if attachments.length = pageSize then toString (offset + pageSize) else ""
        totalSize := attachments.length }

/-- A client that follows the tokens from one page on and puts the pages
together.  Each request has an order of its own.  There is no result when the
requests allowed are used up. -/
def followAttachmentPages (orders : Nat -> List Attachment -> List Attachment) (userId : Nat)
    (request : ListAttachmentsRequest) : Nat -> Nat -> String ->
    Except Status (Option (List Attachment))
  | 0, _, _ => .ok none
  | fuel + 1, index, pageToken => do
      let response ← listAttachments { backend with order := orders index } now db userId
        { request with pageToken }
      if response.nextPageToken = "" then return some response.attachments
      else
        let rest ← followAttachmentPages orders userId request fuel (index + 1) response.nextPageToken
        return rest.map (response.attachments ++ ·)

end Handler

/-! ## The token of a page is read back -/

theorem not_isDigit_of_isSpace {c : Char} (space : isSpace c = true) : ¬ c.isDigit = true := by
  intro digit
  unfold isSpace at space
  rcases (Bool.or_eq_true _ _).mp space with listed | range
  · simp only [decide_eq_true_eq, List.mem_cons, List.not_mem_nil, or_false] at listed
    rcases listed with rfl | rfl | rfl | rfl | rfl | rfl | rfl | rfl | rfl | rfl | rfl | rfl |
      rfl | rfl <;> exact absurd digit (by decide)
  · have above : '\u2000' ≤ c := by
      simp only [Bool.and_eq_true, decide_eq_true_eq] at range
      exact range.1
    have below : c ≤ '9' := by
      simp only [Char.isDigit, Bool.and_eq_true, decide_eq_true_eq] at digit
      exact digit.2
    exact absurd (Char.le_trans above below) (by decide)

theorem skipSpace_digits {digits : List Char} (all : forall c, c ∈ digits -> c.isDigit = true) :
    skipSpace digits = some digits := by
  cases digits with
  | nil => rfl
  | cons c rest =>
      have digit := all c List.mem_cons_self
      have newline : c ≠ '\n' := by
        rintro rfl
        exact absurd digit (by decide)
      rw [skipSpace, if_neg newline, if_neg fun space => not_isDigit_of_isSpace space digit]

theorem acceptSign_digits {digits : List Char} (all : forall c, c ∈ digits -> c.isDigit = true) :
    acceptSign digits = (false, digits) := by
  cases digits with
  | nil => rfl
  | cons c rest =>
      have digit := all c List.mem_cons_self
      unfold acceptSign
      split
      · rename_i same
        rw [(List.cons.inj same).1] at digit
        exact absurd digit (by decide)
      · rename_i same
        rw [(List.cons.inj same).1] at digit
        exact absurd digit (by decide)
      · rfl

theorem sscanfInt_toString {number : Nat} (small : number < 2 ^ 63) :
    sscanfInt (toString number) = some (number : Int) := by
  have all : forall c, c ∈ Nat.toDigits 10 number -> c.isDigit = true :=
    fun c member => Nat.isDigit_of_mem_toDigits (by decide) (by decide) member
  have text : (toString number).toList = Nat.toDigits 10 number := Nat.toList_repr
  have whole : (Nat.toDigits 10 number).takeWhile Char.isDigit = Nat.toDigits 10 number :=
    List.takeWhile_eq_self_iff.mpr all
  unfold sscanfInt
  rw [text, skipSpace_digits all]
  simp only [Option.bind_eq_bind, Option.bind_some, acceptSign_digits all, whole,
    Nat.ofDigitChars_ten_toDigits]
  rw [if_neg (by simp [Nat.toDigits_ne_nil])]
  simp only [Bool.false_eq_true, if_false]
  rw [if_pos ⟨by omega, by omega⟩]

/-! ## One page -/

/-- The caller of a request is logged in and its filter is accepted: these
are the attachments that match. -/
def Lists (backend : AttachmentBackend) (now : Int) (db : Database) (userId : Nat)
    (request : ListAttachmentsRequest) (rows : List Attachment) : Prop :=
  Exists fun user => Exists fun filters =>
    fetchCurrentUser db userId = .ok (some user) ∧
      attachmentFilters backend now request.filter = .ok filters ∧
      matchingAttachments backend now db user.id filters = .ok rows

section Pages

variable {backend : AttachmentBackend} {now : Int} {db : Database} {userId : Nat}
  {request : ListAttachmentsRequest} {rows : List Attachment}

theorem orStatus_ok {α : Type} (code : Code) (context : String) (value : α) :
    orStatus code context (.ok value) = .ok value := rfl

/-- A page of the rows in the order of the request. -/
theorem Lists.page (lists : Lists backend now db userId request rows)
    (order : List Attachment -> List Attachment) {pageToken : String} {offset : Nat}
    (token : attachmentOffset pageToken = .ok offset) :
    listAttachments { backend with order } now db userId { request with pageToken } = .ok {
      attachments := pageRows (attachmentPageSize request.pageSize) offset (order rows)
      nextPageToken :=
        if (pageRows (attachmentPageSize request.pageSize) offset (order rows)).length =
          attachmentPageSize request.pageSize
        then toString (offset + attachmentPageSize request.pageSize) else ""
      totalSize :=
        (pageRows (attachmentPageSize request.pageSize) offset (order rows)).length } := by
  rcases lists with ⟨user, filters, caller, accepted, selected⟩
  have acceptedHere : attachmentFilters { backend with order } now request.filter = .ok filters :=
    accepted
  have selectedHere : listAttachmentRows { backend with order } now db user.id filters
      (attachmentPageSize request.pageSize) offset =
      .ok (pageRows (attachmentPageSize request.pageSize) offset (order rows)) := by
    unfold listAttachmentRows
    have same : matchingAttachments { backend with order } now db user.id filters = .ok rows :=
      selected
    rw [same, ok_bind, if_neg (by omega)]
    rfl
  unfold listAttachments
  rw [caller, orStatus_ok, ok_bind]
  dsimp only
  rw [token, ok_bind, acceptedHere, ok_bind, selectedHere, orStatus_ok, ok_bind]
  rfl

/-- A request that succeeds returns a page of the rows, whatever its token. -/
theorem Lists.page_of_ok (lists : Lists backend now db userId request rows)
    (order : List Attachment -> List Attachment) {pageToken : String} {response : ListAttachmentsResponse}
    (success : listAttachments { backend with order } now db userId { request with pageToken } =
      .ok response) :
    Exists fun offset =>
      response.attachments = pageRows (attachmentPageSize request.pageSize) offset (order rows) := by
  rcases lists with ⟨user, filters, caller, accepted, selected⟩
  have acceptedHere : attachmentFilters { backend with order } now request.filter = .ok filters :=
    accepted
  have same : matchingAttachments { backend with order } now db user.id filters = .ok rows :=
    selected
  unfold listAttachments at success
  rw [caller, orStatus_ok, ok_bind] at success
  rcases bind_eq_ok.mp success with ⟨offset, _, fetched⟩
  rw [acceptedHere, ok_bind] at fetched
  rcases bind_eq_ok.mp fetched with ⟨attachments, read, finished⟩
  have listed := orStatus_eq_ok read
  unfold listAttachmentRows at listed
  rw [same, ok_bind] at listed
  cases finished
  split at listed
  · cases listed
  · cases listed
    exact ⟨offset.toNat, rfl⟩

/-! ## All pages -/

/-- The token of a page, empty for the first one. -/
def pageTokenAt (size index : Nat) : String := if index = 0 then "" else toString (index * size)

theorem toString_ne_empty (number : Nat) : toString number ≠ "" := by
  intro empty
  have digits : Nat.toDigits 10 number = [] :=
    Nat.toList_repr.symm.trans (congrArg String.toList empty)
  exact Nat.toDigits_ne_nil digits

theorem attachmentOffset_pageTokenAt {size index : Nat} (small : index * size < 2 ^ 63) :
    attachmentOffset (pageTokenAt size index) = .ok ((index * size : Nat) : Int) := by
  unfold attachmentOffset pageTokenAt
  by_cases first : index = 0
  · rw [if_pos first, if_pos rfl, first, Nat.zero_mul]
    rfl
  · rw [if_neg first, if_neg (toString_ne_empty _), sscanfInt_toString small]

theorem attachmentPageSize_pos (pageSize : Int) : 0 < attachmentPageSize pageSize := by
  unfold attachmentPageSize
  split
  · decide
  · split
    · decide
    · omega

theorem length_pageRows {α : Type} (size offset : Nat) (order : List α) :
    (pageRows size offset order).length = min size (order.length - offset) := by
  rw [pageRows, List.length_take, List.length_drop]

/-- From a page on, the tokens lead through all pages that are left.  The
induction is on the requests the client may make. -/
theorem Lists.follow (lists : Lists backend now db userId request rows)
    {orders : Nat -> List Attachment -> List Attachment}
    (complete : forall index, (orders index rows).length = rows.length)
    (small : rows.length < 2 ^ 63) {size : Nat} (sized : attachmentPageSize request.pageSize = size)
    (fuel index : Nat) (inside : index ≤ rows.length / size) :
    (rows.length / size - index < fuel ∧ Exists fun rest =>
      followAttachmentPages backend now db orders userId request fuel index (pageTokenAt size index) =
        .ok (some rest) ∧
      pagesOf size (fun query => orders query rows) index ++ rest =
        pagesOf size (fun query => orders query rows) (rows.length / size + 1)) ∨
    (fuel ≤ rows.length / size - index ∧
      followAttachmentPages backend now db orders userId request fuel index (pageTokenAt size index) =
        .ok none) := by
  have positive : 0 < size := sized ▸ attachmentPageSize_pos request.pageSize
  induction fuel generalizing index with
  | zero => exact .inr ⟨Nat.zero_le _, rfl⟩
  | succ fuel ih =>
      have offsetBound : index * size ≤ rows.length :=
        (Nat.mul_le_mul_right size inside).trans (Nat.div_mul_le_self _ _)
      have page := lists.page (orders index)
        (attachmentOffset_pageTokenAt (Nat.lt_of_le_of_lt offsetBound small))
      rw [sized] at page
      have length := length_pageRows size (index * size) (orders index rows)
      rw [complete index] at length
      unfold followAttachmentPages
      rw [page, ok_bind]
      dsimp only
      by_cases last : index = rows.length / size
      · have short : (pageRows size (index * size) (orders index rows)).length ≠ size := by
          rw [length, last]
          have remainder := Nat.mod_lt rows.length positive
          have whole := Nat.div_add_mod' rows.length size
          omega
        rw [if_neg short, if_pos rfl]
        refine .inl ⟨by omega, _, rfl, ?_⟩
        rw [← last]
        rfl
      · have full : (pageRows size (index * size) (orders index rows)).length = size := by
          have next := Nat.mul_le_mul_right size (Nat.lt_of_le_of_ne inside last)
          have below := Nat.div_mul_le_self rows.length size
          rw [Nat.succ_mul] at next
          omega
        have token : toString (index * size + size) = pageTokenAt size (index + 1) := by
          rw [pageTokenAt, if_neg (Nat.succ_ne_zero index), Nat.add_mul, Nat.one_mul]
        rw [if_pos full, token, if_neg (by
          rw [pageTokenAt, if_neg (Nat.succ_ne_zero index)]
          exact toString_ne_empty _)]
        rcases ih (index + 1) (by omega) with
          ⟨enough, rest, followed, whole⟩ | ⟨few, stopped⟩
        · refine .inl ⟨by omega, pageRows size (index * size) (orders index rows) ++ rest, ?_, ?_⟩
          · rw [followed, ok_bind]
            rfl
          · rw [← whole, pagesOf, List.append_assoc]
        · exact .inr ⟨by omega, by
            rw [stopped, ok_bind]
            rfl⟩

/-! ## The pages partition the attachments -/

theorem descending_byUpdatedTs (rows : List Attachment) :
    Descending Attachment.updatedTs rows (byUpdatedTs rows) where
  perm := List.mergeSort_perm rows _
  sorted := by
    have sorted : (byUpdatedTs rows).Pairwise fun first second =>
        decide (second.updatedTs ≤ first.updatedTs) = true := by
      apply List.pairwise_mergeSort
      · intro first second third below above
        simp only [decide_eq_true_eq] at below above ⊢
        exact above.trans below
      · intro first second
        simp only [Bool.or_eq_true, decide_eq_true_eq]
        exact le_total _ _
    exact sorted.imp fun below => of_decide_eq_true below

/-- An order that the database may choose in a request. -/
def MayChoose (order : List Attachment -> List Attachment) : Prop :=
  forall rows, Descending Attachment.updatedTs rows (order rows)

/-- The tokens lead to the end, and the pages have every row once. -/
def Partitions (backend : AttachmentBackend) (now : Int) (db : Database) (userId : Nat)
    (request : ListAttachmentsRequest) (rows : List Attachment) : Prop :=
  forall orders, (forall index, MayChoose (orders index)) ->
    Exists fun fuel => Exists fun pages =>
      followAttachmentPages backend now db orders userId request fuel 0 "" = .ok (some pages) ∧
        pages.Perm rows

/-- Any token is refused or yields a page of the rows. -/
def TokensHarmless (backend : AttachmentBackend) (now : Int) (db : Database) (userId : Nat)
    (request : ListAttachmentsRequest) (rows : List Attachment) : Prop :=
  forall order, MayChoose order -> forall pageToken,
    (Exists fun status =>
      listAttachments { backend with order } now db userId { request with pageToken } =
        .error status) ∨
    Exists fun response => Exists fun offset =>
      listAttachments { backend with order } now db userId { request with pageToken } =
        .ok response ∧
      response.attachments = pageRows (attachmentPageSize request.pageSize) offset (order rows)

theorem Lists.tokensHarmless (lists : Lists backend now db userId request rows) :
    TokensHarmless backend now db userId request rows := by
  intro order _ pageToken
  cases outcome : listAttachments { backend with order } now db userId { request with pageToken } with
  | error status => exact .inl ⟨status, rfl⟩
  | ok response =>
      rcases lists.page_of_ok order outcome with ⟨offset, page⟩
      exact .inr ⟨response, offset, rfl, page⟩

/-- Distinct ids that fit the column leave the rows few. -/
theorem length_lt_of_ids {attachments : List Attachment} (distinct : (attachments.map Attachment.id).Nodup)
    (bounded : forall attachment, attachment ∈ attachments -> attachment.id < 2 ^ 31) :
    attachments.length ≤ 2 ^ 31 := by
  have inside : (attachments.map Attachment.id).Subset (List.range (2 ^ 31)) := by
    intro id member
    rcases List.mem_map.mp member with ⟨attachment, here, rfl⟩
    exact List.mem_range.mpr (bounded attachment here)
  have counted := (List.subperm_of_subset distinct inside).length_le
  rwa [List.length_map, List.length_range] at counted

theorem Lists.sublist (lists : Lists backend now db userId request rows) :
    rows.Sublist db.attachments := by
  rcases lists with ⟨user, filters, _, _, selected⟩
  unfold matchingAttachments at selected
  split at selected
  · cases selected
  · cases selected
    exact List.filter_sublist

/-- Where the tokens lead: to all pages, once the requests suffice. -/
theorem Lists.follow_first (lists : Lists backend now db userId request rows)
    {orders : Nat -> List Attachment -> List Attachment}
    (chosen : forall index, MayChoose (orders index)) (small : rows.length < 2 ^ 63) (fuel : Nat) :
    followAttachmentPages backend now db orders userId request fuel 0 "" = .ok (
      if rows.length / attachmentPageSize request.pageSize < fuel then
        some (pagesOf (attachmentPageSize request.pageSize) (fun query => orders query rows)
          (rows.length / attachmentPageSize request.pageSize + 1))
      else none) := by
  have complete : forall index, (orders index rows).length = rows.length :=
    fun index => (chosen index rows).perm.length_eq
  rcases lists.follow complete small rfl fuel 0 (Nat.zero_le _) with
    ⟨enough, rest, followed, whole⟩ | ⟨few, stopped⟩
  · rw [Nat.sub_zero] at enough
    rw [pagesOf, List.nil_append] at whole
    rw [if_pos enough, ← whole]
    exact followed
  · rw [Nat.sub_zero] at few
    rw [if_neg (Nat.not_lt.mpr few)]
    exact stopped

/-- Following the tokens partitions the attachments of the caller that match,
in whichever order the database returns those with equal timestamps, exactly
when no two of them with equal timestamps stand on the two sides of a page
boundary.  Tokens that the server did not issue are harmless in any case. -/
theorem attachment_pages_partition_iff (lists : Lists backend now db userId request rows)
    (distinct : (db.attachments.map Attachment.id).Nodup)
    (bounded : forall attachment, attachment ∈ db.attachments -> attachment.id < 2 ^ 31) :
    (Partitions backend now db userId request rows ∧
      TokensHarmless backend now db userId request rows) ↔
    forall page, ¬ TieAt Attachment.updatedTs ((page + 1) * attachmentPageSize request.pageSize)
      (byUpdatedTs rows) := by
  have positive := attachmentPageSize_pos request.pageSize
  have few := lists.sublist.length_le.trans (length_lt_of_ids distinct bounded)
  have small : rows.length < 2 ^ 63 := by omega
  have sorted := descending_byUpdatedTs rows
  constructor
  · rintro ⟨partitions, _⟩ page tied
    rcases sorted.repeated tied positive with ⟨orders, descending, twice⟩
    -- The orders that show a row twice, for these rows only.
    have chosen : forall index, MayChoose fun list =>
        if list = rows then orders index else byUpdatedTs list := by
      intro index list
      dsimp only
      split
      · rename_i same
        rw [same]
        exact descending index
      · exact descending_byUpdatedTs list
    rcases partitions _ chosen with ⟨fuel, pages, followed, complete⟩
    rw [lists.follow_first chosen small fuel] at followed
    split at followed
    · cases followed
      simp only [if_true] at complete
      have inside : (page + 1) * attachmentPageSize request.pageSize < rows.length := by
        rcases tied with ⟨_, _, second, _, found, _⟩
        rcases List.getElem?_eq_some_iff.mp found with ⟨bound, _⟩
        rwa [sorted.perm.length_eq] at bound
      have below := (Nat.le_div_iff_mul_le positive).mpr (Nat.le_of_lt inside)
      refine twice _ (Nat.succ_le_succ below) (complete.nodup_iff.mpr ?_)
      exact List.Nodup.of_map _ (distinct.sublist (lists.sublist.map _))
    · cases followed
  · intro untied
    refine ⟨?_, lists.tokensHarmless⟩
    intro orders chosen
    have result := lists.follow_first chosen small
      (rows.length / attachmentPageSize request.pageSize + 1)
    rw [if_pos (Nat.lt_succ_self _)] at result
    refine ⟨_, _, result, ?_⟩
    have boundaries : forall page,
        ¬ TieAt Attachment.updatedTs (page * attachmentPageSize request.pageSize)
          (byUpdatedTs rows) := by
      intro page
      cases page with
      | zero =>
          rintro ⟨impossible, _⟩
          rw [Nat.zero_mul] at impossible
          exact Nat.lt_irrefl 0 impossible
      | succ page => exact untied page
    have whole := pagesOf_perm (fun query => chosen query rows) sorted
      (rows.length / attachmentPageSize request.pageSize + 1) fun page _ => boundaries page
    rw [List.take_of_length_le] at whole
    · exact whole.trans sorted.perm
    · rw [sorted.perm.length_eq, Nat.mul_comm]
      exact Nat.le_of_lt (Nat.lt_mul_div_succ rows.length positive)

end Pages

def pagesUser : User := ⟨1, .normal, "ada", .user⟩

/-- An attachment without a memo, with its id and timestamp. -/
def uploaded (id : Nat) (updatedTs : Int) : Attachment where
  id := id
  uid := "photo" ++ toString id
  creatorId := 1
  updatedTs := updatedTs
  memoId := none

/-- A SQLite database whose requests have no filter. -/
def pagesBackend : AttachmentBackend where
  celCompile := fun _ => .error "no filter"
  dialect := .sqlite
  holds := fun _ _ => true
  order := byUpdatedTs

def pagesDatabase (attachments : List Attachment) : Database :=
  { users := [pagesUser], attachments }

theorem lists_uploaded {attachments : List Attachment} (pageSize : Int)
    (own : forall attachment, attachment ∈ attachments -> attachment.creatorId = 1) :
    Lists pagesBackend 0 (pagesDatabase attachments) 1 { pageSize } attachments := by
  refine ⟨pagesUser, [], rfl, rfl, ?_⟩
  apply congrArg Except.ok
  apply List.filter_eq_self.mpr
  intro attachment member
  have creator := own attachment member
  simp [creator, pagesUser]

/-- Three photographs of different seconds, two on a page. -/
theorem attachment_pages_partition_iff_uploaded :
    (Partitions pagesBackend 0 (pagesDatabase [uploaded 3 30, uploaded 2 20, uploaded 1 10]) 1
        { pageSize := 2 } [uploaded 3 30, uploaded 2 20, uploaded 1 10] ∧
      TokensHarmless pagesBackend 0
        (pagesDatabase [uploaded 3 30, uploaded 2 20, uploaded 1 10]) 1
        { pageSize := 2 } [uploaded 3 30, uploaded 2 20, uploaded 1 10]) ↔
    forall page, ¬ TieAt Attachment.updatedTs ((page + 1) * attachmentPageSize 2)
      (byUpdatedTs [uploaded 3 30, uploaded 2 20, uploaded 1 10]) :=
  attachment_pages_partition_iff (lists_uploaded 2 (by decide)) (by decide) (by decide)

/-- Two photographs of the same second. -/
def twins : List Attachment := [uploaded 1 10, uploaded 2 10]

/-- The order of two photographs with equal timestamps in a request: it
changes after the first one. -/
def twinsOrder (index : Nat) (rows : List Attachment) : List Attachment :=
  if rows = twins then if index = 0 then twins else twins.reverse else byUpdatedTs rows

theorem mayChoose_twinsOrder (index : Nat) : MayChoose (twinsOrder index) := by
  intro rows
  unfold twinsOrder
  split
  · rename_i same
    rw [same]
    split
    · exact ⟨List.Perm.refl _, by decide⟩
    · exact ⟨List.reverse_perm twins, by decide⟩
  · exact descending_byUpdatedTs rows

/-- With one photograph on a page, the first of them is on both pages and the
other on none. -/
theorem twins_not_partitioned :
    ¬ forall backend now db userId request rows, Lists backend now db userId request rows ->
      (db.attachments.map Attachment.id).Nodup ->
      (forall attachment, attachment ∈ db.attachments -> attachment.id < 2 ^ 31) ->
      Partitions backend now db userId request rows ∧
        TokensHarmless backend now db userId request rows := by
  intro claimed
  have lists : Lists pagesBackend 0 (pagesDatabase twins) 1 { pageSize := 1 } twins :=
    lists_uploaded 1 (by decide)
  rcases claimed _ _ _ _ _ _ lists (by decide) (by decide) with ⟨partitions, _⟩
  rcases partitions twinsOrder mayChoose_twinsOrder with ⟨fuel, pages, followed, complete⟩
  rw [lists.follow_first mayChoose_twinsOrder (by decide) fuel] at followed
  split at followed
  · cases followed
    have listed : uploaded 2 10 ∈ twins := by decide
    exact absurd (complete.mem_iff.mpr listed) (by decide)
  · cases followed

end AttachmentPages
end Service
end Memos
