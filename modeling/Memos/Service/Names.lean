import Memos.Library.Except
import Memos.Service.Viewer

namespace Memos
namespace Service

open Library

/-!
# Resource names

A resource name is a path of collection and identifier pairs, such as
`memos/abc` or `memos/abc/reactions/12`.
-/

/-- `strings.Split(name, "/")` -/
def nameParts (name : String) : List String :=
  (name.toList.splitOn '/').map String.ofList

/-- The identifiers of the pairs, whose collections must be the expected ones. -/
def nameTokens (name : String) : List String -> List String -> Except String (List String)
  | collection :: token :: parts, tokenPrefix :: tokenPrefixes =>
      if collection ++ "/" ≠ tokenPrefix then
        .error ("invalid prefix \"" ++ tokenPrefix ++ "\" in request \"" ++ name ++ "\"")
      else if token = "" then
        .error ("invalid request \"" ++ name ++ "\" with empty prefix \"" ++ tokenPrefix ++ "\"")
      else do
        let tokens ← nameTokens name parts tokenPrefixes
        return token :: tokens
  | _, _ => .ok []

def getNameParentTokens (name : String) (tokenPrefixes : List String) :
    Except String (List String) :=
  let parts := nameParts name
  if parts.length ≠ 2 * tokenPrefixes.length then .error ("invalid request \"" ++ name ++ "\"")
  else nameTokens name parts tokenPrefixes

/-- `MemoNamePrefix` -/
def memoNamePrefix : String := "memos/"

/-- `buildMemoName` -/
def buildMemoName (uid : String) : String := memoNamePrefix ++ uid

def extractMemoUIDFromName (name : String) : Except String String := do
  match ← getNameParentTokens name [memoNamePrefix] with
  | token :: _ => return token
  | [] => .error ("invalid request \"" ++ name ++ "\"")

def extractAttachmentUIDFromName (name : String) : Except String String := do
  match ← getNameParentTokens name ["attachments/"] with
  | token :: _ => return token
  | [] => .error ("invalid request \"" ++ name ++ "\"")

/-- `ConvertStringToInt32`: an optional sign and decimal digits. -/
def convertStringToInt32 (text : String) : Except String Int :=
  let (sign, digits) : Int × List Char := match text.toList with
    | '-' :: digits => (-1, digits)
    | '+' :: digits => (1, digits)
    | digits => (1, digits)
  let value := sign * digits.foldl (fun value digit => 10 * value + (digit.toNat - '0'.toNat)) 0
  if digits.isEmpty || !digits.all Char.isDigit then
    .error ("strconv.ParseInt: parsing \"" ++ text ++ "\": invalid syntax")
  else if value < -2147483648 ∨ 2147483647 < value then
    .error ("strconv.ParseInt: parsing \"" ++ text ++ "\": value out of range")
  else .ok value

def extractMemoReactionIDFromName (name : String) : Except String (String × Int) := do
  match ← getNameParentTokens name [memoNamePrefix, "reactions/"] with
  | memoUid :: reaction :: _ =>
      match convertStringToInt32 reaction with
      | .ok id => return (memoUid, id)
      | .error _ => .error ("invalid reaction ID \"" ++ reaction ++ "\"")
  | _ => .error ("invalid request \"" ++ name ++ "\"")

/-- An identifier that can stand in a name. -/
def PlainUid (uid : String) : Prop := uid ≠ "" ∧ '/' ∉ uid.toList

theorem nameParts_append {collection uid : String} (plain : '/' ∉ collection.toList)
    (noSlash : '/' ∉ uid.toList) : nameParts (collection ++ "/" ++ uid) = [collection, uid] := by
  have whole : (collection ++ "/" ++ uid).toList = collection.toList ++ '/' :: uid.toList := by
    rw [String.toList_append, String.toList_append, List.append_assoc]
    rfl
  rw [nameParts, whole, List.splitOn_append_cons_self_of_not_mem plain,
    List.splitOn_eq_singleton noSlash, List.map_cons, List.map_cons, List.map_nil,
    String.ofList_toList, String.ofList_toList]

theorem nameParts_buildMemoName {uid : String} (plain : '/' ∉ uid.toList) :
    nameParts (buildMemoName uid) = ["memos", uid] :=
  @nameParts_append "memos" uid (by decide) plain

/-- A name is read back to the uid it was built from. -/
theorem extractMemoUIDFromName_buildMemoName {uid : String} (plain : PlainUid uid) :
    extractMemoUIDFromName (buildMemoName uid) = .ok uid := by
  rcases plain with ⟨nonempty, noSlash⟩
  unfold extractMemoUIDFromName getNameParentTokens
  rw [nameParts_buildMemoName noSlash]
  simp only [List.length_cons, List.length_nil, ne_eq, not_true_eq_false, if_false, nameTokens,
    nonempty]
  rfl

theorem extractAttachmentUIDFromName_append {uid : String} (plain : PlainUid uid) :
    extractAttachmentUIDFromName ("attachments/" ++ uid) = .ok uid := by
  rcases plain with ⟨nonempty, noSlash⟩
  have parts : nameParts ("attachments/" ++ uid) = ["attachments", uid] :=
    @nameParts_append "attachments" uid (by decide) noSlash
  unfold extractAttachmentUIDFromName getNameParentTokens
  rw [parts]
  simp only [List.length_cons, List.length_nil, ne_eq, not_true_eq_false, if_false, nameTokens,
    nonempty]
  rfl

/-- A name with two parts is these parts around a slash. -/
theorem eq_of_nameParts {name collection token : String}
    (parts : nameParts name = [collection, token]) : name = collection ++ "/" ++ token := by
  have split : name.toList.splitOn '/' = [collection.toList, token.toList] := by
    have lists := congrArg (List.map String.toList) parts
    rw [nameParts, List.map_map] at lists
    have same : String.toList ∘ String.ofList = id := by
      funext chars
      exact String.toList_ofList
    rw [same, List.map_id] at lists
    exact lists
  have joined := (List.intercalate_splitOn '/' : ['/'].intercalate (name.toList.splitOn '/') = name.toList)
  rw [split] at joined
  apply String.toList_inj.mp
  rw [String.toList_append, String.toList_append, ← joined]
  simp [List.intercalate]

/-- A name with a single pair is the prefix and the token. -/
theorem eq_of_getNameParentTokens {name tokenPrefix : String} {tokens : List String}
    (read : getNameParentTokens name [tokenPrefix] = .ok tokens) :
    Exists fun token => tokens = [token] ∧ name = tokenPrefix ++ token := by
  have twoParts : (nameParts name).length = 2 * [tokenPrefix].length := by
    by_contra other
    rw [getNameParentTokens, if_pos other] at read
    cases read
  rw [getNameParentTokens, if_neg (not_not.mpr twoParts)] at read
  rcases List.length_eq_two.mp twoParts with ⟨collection, token, parts⟩
  rw [parts, nameTokens] at read
  split at read
  · cases read
  · rename_i sameCollection
    split at read
    · cases read
    · cases read
      refine ⟨token, rfl, ?_⟩
      rw [eq_of_nameParts parts, not_not.mp sameCollection]

/-- Only the name built from a uid is read to this uid. -/
theorem eq_buildMemoName {name uid : String} (success : extractMemoUIDFromName name = .ok uid) :
    name = buildMemoName uid := by
  rcases bind_eq_ok.mp success with ⟨tokens, read, finished⟩
  rcases eq_of_getNameParentTokens read with ⟨token, rfl, same⟩
  cases finished
  exact same

theorem eq_of_extractAttachmentUID {name uid : String} (success : extractAttachmentUIDFromName name = .ok uid) :
    name = "attachments/" ++ uid := by
  rcases bind_eq_ok.mp success with ⟨tokens, read, finished⟩
  rcases eq_of_getNameParentTokens read with ⟨token, rfl, same⟩
  cases finished
  exact same

end Service
end Memos
