import Mathlib.Data.List.Nodup
import Memos.Filter.Semantics

namespace Memos
namespace Store

open Memos.Filter (MemoPayload)

/-!
# The tables

The rows of the SQLite schema.  A table is the list of its rows in the order
of their insertion, and an `AUTOINCREMENT` key comes from a counter of the
database that never goes back.  Columns that no modelled function reads or
writes are left out.
-/

/-- `RowStatus` -/
inductive RowStatus where
  | normal
  | archived
deriving DecidableEq

def RowStatus.string : RowStatus -> String
  | .normal => "NORMAL"
  | .archived => "ARCHIVED"

/-- `Visibility` -/
inductive Visibility where
  | isPublic
  | isProtected
  | isPrivate
deriving DecidableEq

def Visibility.string : Visibility -> String
  | .isPublic => "PUBLIC"
  | .isProtected => "PROTECTED"
  | .isPrivate => "PRIVATE"

theorem RowStatus.string_injective {first second : RowStatus}
    (same : first.string = second.string) : first = second := by
  revert same
  cases first <;> cases second <;> decide

theorem Visibility.string_injective {first second : Visibility}
    (same : first.string = second.string) : first = second := by
  revert same
  cases first <;> cases second <;> decide

/-- `Role` -/
inductive Role where
  | admin
  | user
deriving DecidableEq

structure User where
  id : Nat
  rowStatus : RowStatus
  username : String
  role : Role
deriving DecidableEq

structure Memo where
  id : Nat
  uid : String
  rowStatus : RowStatus
  creatorId : Nat
  createdTs : Int
  updatedTs : Int
  content : String
  visibility : Visibility
  pinned : Bool
  payload : MemoPayload
deriving DecidableEq

/-- `MemoRelationType` -/
inductive MemoRelationType where
  | reference
  | comment
deriving DecidableEq

structure MemoRelation where
  memoId : Nat
  relatedMemoId : Nat
  type : MemoRelationType
deriving DecidableEq

structure Attachment where
  id : Nat
  uid : String
  creatorId : Nat
  updatedTs : Int
  memoId : Option Nat
  storageType : String := ""
  reference : String := ""
  /-- The JSON text of the column. -/
  payload : String := "{}"
deriving DecidableEq

structure Reaction where
  id : Nat
  creatorId : Nat
  contentId : String
  reactionType : String
deriving DecidableEq

structure MemoShare where
  id : Nat
  uid : String
  memoId : Nat
  creatorId : Nat
  expiresTs : Option Int
deriving DecidableEq

/-- A row of the inbox.  The message is the JSON text of the column. -/
structure Inbox where
  id : Nat
  senderId : Nat
  receiverId : Nat
  message : String
deriving DecidableEq

structure UserIdentity where
  id : Nat
  userId : Nat
  provider : String
  externUid : String
deriving DecidableEq

structure UserSetting where
  userId : Nat
  key : String
  value : String
deriving DecidableEq

/-- The largest key that each table has given so far. -/
structure Sequences where
  memo : Nat := 0
  attachment : Nat := 0
  reaction : Nat := 0
  share : Nat := 0
  inbox : Nat := 0
deriving DecidableEq

/-- The tables that refer to memos and users. -/
structure Database where
  users : List User := []
  memos : List Memo := []
  relations : List MemoRelation := []
  attachments : List Attachment := []
  reactions : List Reaction := []
  shares : List MemoShare := []
  inbox : List Inbox := []
  identities : List UserIdentity := []
  settings : List UserSetting := []
  sequences : Sequences := {}

/-- The keys of the memo table. -/
structure Database.Keyed (db : Database) : Prop where
  memoIds : (db.memos.map Memo.id).Nodup
  memoUids : (db.memos.map Memo.uid).Nodup

/-- The keys of the tables whose rows are deleted by id. -/
structure Database.PrimaryKeys (db : Database) : Prop extends db.Keyed where
  attachmentIds : (db.attachments.map Attachment.id).Nodup
  inboxIds : (db.inbox.map Inbox.id).Nodup

theorem eq_of_nodup_map {α β : Type} {key : α -> β} {rows : List α} {first second : α}
    (unique : (rows.map key).Nodup) (left : first ∈ rows) (right : second ∈ rows)
    (same : key first = key second) : first = second :=
  List.inj_on_of_nodup_map unique left right same

end Store
end Memos
