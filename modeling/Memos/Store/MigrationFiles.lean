import Mathlib.Algebra.Ring.Int.Defs
import Mathlib.Data.List.Sort
import Mathlib.Data.Prod.Lex
import Mathlib.Data.String.Basic
import Memos.Library.Except

namespace Memos
namespace Store

open Library

/-!
# Migration files

The schema version of a migration script is read off its path: the directory
gives major and minor, the number before `__` the patch.  The scripts run in
the order of their paths, which are compared as strings.  Paths agree with
versions as long as their numbers have equal widths.
-/

/-! ## Versions -/

/-- `major.minor.patch` -/
structure SchemaVersion where
  major : Nat
  minor : Nat
  patch : Nat
deriving DecidableEq

def SchemaVersion.text (version : SchemaVersion) : String :=
  toString version.major ++ "." ++ toString version.minor ++ "." ++ toString version.patch

/-- The numbers of a version, in the order in which they count. -/
def SchemaVersion.numbers (version : SchemaVersion) : Nat ×ₗ Nat ×ₗ Nat :=
  toLex (version.major, toLex (version.minor, version.patch))

theorem SchemaVersion.numbers_injective : Function.Injective SchemaVersion.numbers := by
  rintro ⟨_, _, _⟩ ⟨_, _, _⟩ same
  cases same
  rfl

instance : LinearOrder SchemaVersion :=
  LinearOrder.lift' SchemaVersion.numbers SchemaVersion.numbers_injective

theorem SchemaVersion.lt_iff {first second : SchemaVersion} :
    first < second ↔ first.major < second.major ∨ first.major = second.major ∧
      (first.minor < second.minor ∨ first.minor = second.minor ∧ first.patch < second.patch) := by
  have unfolded : first < second ↔ first.numbers < second.numbers := Iff.rfl
  rw [unfolded, SchemaVersion.numbers, SchemaVersion.numbers, Prod.Lex.toLex_lt_toLex,
    Prod.Lex.toLex_lt_toLex]

/-- What `semver.Compare` does on versions with a leading `v`. -/
def SemverCompares (compare : String -> String -> Int) : Prop :=
  ∀ first second : SchemaVersion,
    compare ("v" ++ first.text) ("v" ++ second.text) =
      if first < second then -1 else if second < first then 1 else 0

section Versions

variable (compare : String -> String -> Int)

def isVersionGreaterOrEqualThan (version target : String) : Bool :=
  -1 < compare ("v" ++ version) ("v" ++ target)

def isVersionGreaterThan (version target : String) : Bool :=
  0 < compare ("v" ++ version) ("v" ++ target)

def defaultSchemaVersion : String := "0.0.0"

def getSchemaVersionOrDefault (schemaVersion : String) : String :=
  if schemaVersion = "" then defaultSchemaVersion else schemaVersion

def isVersionEmpty (schemaVersion : String) : Bool :=
  schemaVersion = "" || schemaVersion = defaultSchemaVersion

def shouldApplyMigration (fileVersion currentDBVersion targetVersion : String) : Bool :=
  isVersionGreaterThan compare fileVersion (getSchemaVersionOrDefault currentDBVersion) &&
    isVersionGreaterOrEqualThan compare targetVersion fileVersion

/-! ## The version of a script -/

/-- The sign and the digits of a number: `strconv.Atoi` accepts nothing
else. -/
def atoiParts : List Char -> Bool × List Char
  | '-' :: digits => (true, digits)
  | '+' :: digits => (false, digits)
  | digits => (false, digits)

/-- `strconv.Atoi` -/
def atoi (text : String) : Except String Int :=
  let (negative, digits) := atoiParts text.toList
  if digits.isEmpty || !digits.all Char.isDigit then
    .error ("strconv.Atoi: parsing " ++ text.quote ++ ": invalid syntax")
  else
    let magnitude : Int := Nat.ofDigitChars 10 digits 0
    let value := if negative then -magnitude else magnitude
    if -2 ^ 63 ≤ value ∧ value < 2 ^ 63 then .ok value
    else .error ("strconv.Atoi: parsing " ++ text.quote ++ ": value out of range")

/-- The next `int`, which wraps around. -/
def nextInt (value : Int) : Int := if value + 1 < 2 ^ 63 then value + 1 else -2 ^ 63

/-- The part before the first `MigrateFileNameSplit`. -/
def beforeSplit : List Char -> List Char
  | [] => []
  | c :: rest => if ['_', '_'].isPrefixOf (c :: rest) then [] else c :: beforeSplit rest

/-- `LatestSchemaFileName` -/
def latestSchemaFileName : String := "LATEST.sql"

/-- `getSchemaVersionOfMigrateScript`, given what `GetCurrentSchemaVersion`
returns. -/
def getSchemaVersionOfMigrateScript (currentSchemaVersion : Except String String)
    (filePath : String) : Except String String :=
  if latestSchemaFileName.toList.isSuffixOf filePath.toList then currentSchemaVersion
  else
    match (filePath.toList.splitOn '/').reverse with
    | file :: minorVersion :: _ =>
        let rawPatchVersion := String.ofList (beforeSplit file)
        match atoi rawPatchVersion with
        | .error cause =>
            .error ("failed to convert patch version to int: " ++ rawPatchVersion ++ ": " ++ cause)
        | .ok patchVersion =>
            .ok (String.ofList minorVersion ++ "." ++ toString (nextInt patchVersion))
    | _ => .error ("invalid file path: " ++ filePath)

/-- `GetCurrentSchemaVersion` over the paths that the pattern matches.  Called
for a script that is named like the latest schema it calls itself, until the
stack is used up. -/
def getCurrentSchemaVersion (filePaths : List String) : Nat -> Except String String
  | 0 => .error "stack overflow"
  | depth + 1 => filePaths.foldlM (fun current filePath =>
      match getSchemaVersionOfMigrateScript (getCurrentSchemaVersion filePaths depth) filePath with
      | .error cause => .error ("failed to get schema version of migrate script: " ++ cause)
      | .ok fileSchemaVersion =>
          .ok (if isVersionGreaterThan compare fileSchemaVersion current then fileSchemaVersion
            else current)) defaultSchemaVersion

end Versions

/-! ## Files that follow the naming convention -/

/-- The file `major.minor/NN__name.sql`.  The number is small enough for the
next one to exist, and the file is not named like the latest schema. -/
structure MigrationFile where
  major : Nat
  minor : Nat
  number : List Char
  name : String
  numbered : number ≠ [] ∧ number.all Char.isDigit
  small : Nat.ofDigitChars 10 number 0 + 1 < 2 ^ 63
  plain : '/' ∉ name.toList
  notLatest : ¬ "LATEST".toList.isSuffixOf name.toList
deriving DecidableEq

namespace MigrationFile

variable {compare : String -> String -> Int}

def directory (file : MigrationFile) : String := toString file.major ++ "." ++ toString file.minor

def fileName (file : MigrationFile) : String :=
  String.ofList file.number ++ "__" ++ file.name ++ ".sql"

/-- The path, after `getMigrationBasePath`. -/
def path (driver : String) (file : MigrationFile) : String :=
  "migration/" ++ driver ++ "/" ++ file.directory ++ "/" ++ file.fileName

/-- `NN` as a number -/
def value (file : MigrationFile) : Nat := Nat.ofDigitChars 10 file.number 0

def version (file : MigrationFile) : SchemaVersion := ⟨file.major, file.minor, file.value + 1⟩

/-! ## Reading the version back -/

theorem isDigit_of_mem_toString {number : Nat} {c : Char} (member : c ∈ (toString number).toList) :
    c.isDigit = true := by
  have digits : c ∈ Nat.toDigits 10 number := by
    rwa [show (toString number).toList = Nat.toDigits 10 number from Nat.toList_repr] at member
  exact Nat.isDigit_of_mem_toDigits (by decide) (by decide) digits

theorem isDigit_of_mem_number {file : MigrationFile} {c : Char} (member : c ∈ file.number) :
    c.isDigit = true :=
  List.all_eq_true.mp file.numbered.2 c member

theorem beforeSplit_append {digits rest : List Char} (plain : '_' ∉ digits) :
    beforeSplit (digits ++ '_' :: '_' :: rest) = digits := by
  induction digits with
  | nil => rfl
  | cons c digits ih =>
      have different : ¬ '_' = c := fun same => plain (same ▸ List.mem_cons_self)
      have later := ih fun member => plain (List.mem_cons_of_mem c member)
      have starts : ¬ ['_', '_'].isPrefixOf (c :: (digits ++ '_' :: '_' :: rest)) = true := by
        simp [List.isPrefixOf, different]
      rw [List.cons_append, beforeSplit, if_neg starts, later]

theorem atoi_digits {digits : List Char} (some : digits ≠ []) (all : digits.all Char.isDigit = true)
    (small : Nat.ofDigitChars 10 digits 0 < 2 ^ 63) :
    atoi (String.ofList digits) = .ok (Nat.ofDigitChars 10 digits 0 : Nat) := by
  have unsigned : atoiParts digits = (false, digits) := by
    cases digits with
    | nil => rfl
    | cons c rest =>
        have digit := List.all_eq_true.mp all c List.mem_cons_self
        unfold atoiParts
        split
        · rename_i same
          rw [(List.cons.inj same).1] at digit
          exact absurd digit (by decide)
        · rename_i same
          rw [(List.cons.inj same).1] at digit
          exact absurd digit (by decide)
        · rfl
  have shown : (digits.isEmpty || !digits.all Char.isDigit) = false := by
    simp [all, some]
  unfold atoi
  rw [String.toList_ofList, unsigned]
  simp only [shown, Bool.false_eq_true, if_false]
  rw [if_pos ⟨by omega, by omega⟩]

/-- A script is named like the latest schema only if its own name is. -/
theorem path_notLatest (driver : String) (file : MigrationFile) :
    ¬ latestSchemaFileName.toList.isSuffixOf (file.path driver).toList := by
  intro latest
  have whole : (file.path driver).toList =
      (("migration/" ++ driver ++ "/" ++ file.directory ++ "/").toList ++ file.number ++
        ['_']) ++ '_' :: file.name.toList ++ ".sql".toList := by
    simp [path, fileName]
  rw [List.isSuffixOf_iff_suffix, whole, show latestSchemaFileName.toList =
    "LATEST".toList ++ ".sql".toList from rfl, List.suffix_append_self_iff] at latest
  have own : ('_' :: file.name.toList).IsSuffix
      ((("migration/" ++ driver ++ "/" ++ file.directory ++ "/").toList ++ file.number ++
        ['_']) ++ '_' :: file.name.toList) := List.suffix_append _ _
  rcases Nat.lt_or_ge "LATEST".toList.length ('_' :: file.name.toList).length with long | short
  · -- The whole word lies in the name.
    have inside := List.suffix_of_suffix_length_le latest own (Nat.le_of_lt long)
    rcases List.suffix_cons_iff.mp inside with same | inName
    · rw [same] at long
      exact Nat.lt_irrefl _ long
    · exact file.notLatest (List.isSuffixOf_iff_suffix.mpr inName)
  · -- The underscore before the name would be a letter of the word.
    have letters := List.suffix_of_suffix_length_le own latest short
    exact absurd (letters.subset List.mem_cons_self) (by decide)

theorem splitOn_path {a : Char} {base directory file : List Char} (first : a ∉ directory)
    (second : a ∉ file) : ((base ++ a :: directory ++ a :: file).splitOn a).reverse =
      file :: directory :: (base.splitOn a).reverse := by
  rw [List.splitOn_append_cons_self, List.splitOn_append_cons_self,
    List.splitOn_eq_singleton first, List.splitOn_eq_singleton second, List.reverse_append,
    List.reverse_append]
  rfl

theorem slash_notMem_directory (file : MigrationFile) : '/' ∉ file.directory.toList := by
  intro member
  simp only [directory, String.toList_append, List.mem_append] at member
  rcases member with (major | dot) | minor
  · exact absurd (isDigit_of_mem_toString major) (by decide)
  · exact absurd dot (by decide)
  · exact absurd (isDigit_of_mem_toString minor) (by decide)

theorem slash_notMem_fileName (file : MigrationFile) : '/' ∉ file.fileName.toList := by
  intro member
  simp only [fileName, String.toList_append, List.mem_append, String.toList_ofList] at member
  rcases member with ((number | split) | name) | ending
  · exact absurd (isDigit_of_mem_number number) (by decide)
  · exact absurd split (by decide)
  · exact file.plain name
  · exact absurd ending (by decide)

/-- The version of a script that follows the convention. -/
theorem getSchemaVersionOfMigrateScript_path (current : Except String String) (driver : String)
    (file : MigrationFile) :
    getSchemaVersionOfMigrateScript current (file.path driver) = .ok file.version.text := by
  have whole : (file.path driver).toList = ("migration/" ++ driver).toList ++
      '/' :: file.directory.toList ++ '/' :: file.fileName.toList := by
    simp [path]
  have name : file.fileName.toList =
      file.number ++ '_' :: '_' :: (file.name.toList ++ ".sql".toList) := by
    simp [fileName]
  have plain : '_' ∉ file.number := fun member =>
    absurd (isDigit_of_mem_number member) (by decide)
  have number : atoi (String.ofList file.number) = .ok (file.value : Nat) :=
    atoi_digits file.numbered.1 file.numbered.2 (by have small := file.small; omega)
  have next : nextInt (file.value : Nat) = ((file.value + 1 : Nat) : Int) := by
    have small : file.value + 1 < 2 ^ 63 := file.small
    unfold nextInt
    rw [if_pos (by omega)]
    rfl
  unfold getSchemaVersionOfMigrateScript
  rw [if_neg (path_notLatest driver file), whole,
    splitOn_path (slash_notMem_directory file) (slash_notMem_fileName file)]
  dsimp only
  rw [name, beforeSplit_append plain, number]
  dsimp only
  rw [next, String.ofList_toList]
  rfl

/-! ## Paths in the order of versions -/

theorem ofDigitChars_cons_zero (c : Char) (digits : List Char) :
    Nat.ofDigitChars 10 (c :: digits) 0 =
      10 ^ digits.length * (c.toNat - 48) + Nat.ofDigitChars 10 digits 0 := by
  rw [Nat.ofDigitChars_cons, Nat.ofDigitChars_eq_ofDigitChars_zero, Nat.mul_zero, Nat.zero_add]
  rfl

theorem ofDigitChars_lt {digits : List Char} (all : ∀ c, c ∈ digits -> c.isDigit = true) :
    Nat.ofDigitChars 10 digits 0 < 10 ^ digits.length := by
  induction digits with
  | nil => decide
  | cons c digits ih =>
      have later := ih fun other member => all other (List.mem_cons_of_mem c member)
      have digit : c.toNat ≤ 57 := by
        have here := all c List.mem_cons_self
        simp only [Char.isDigit, Bool.and_eq_true, decide_eq_true_eq] at here
        exact here.2
      have bound : 10 ^ digits.length * (c.toNat - 48) ≤ 10 ^ digits.length * 9 :=
        Nat.mul_le_mul_left _ (by omega)
      rw [ofDigitChars_cons_zero, List.length_cons, Nat.pow_succ]
      omega

/-- Numbers of equal width are in the order of their texts. -/
theorem digits_lt {first second firstRest secondRest : List Char}
    (allFirst : ∀ c, c ∈ first -> c.isDigit = true)
    (allSecond : ∀ c, c ∈ second -> c.isDigit = true) (width : first.length = second.length)
    (below : Nat.ofDigitChars 10 first 0 < Nat.ofDigitChars 10 second 0) :
    first ++ firstRest < second ++ secondRest := by
  induction first generalizing second with
  | nil =>
      rw [List.length_eq_zero_iff.mp width.symm] at below
      exact absurd below (Nat.lt_irrefl _)
  | cons c first ih =>
      cases second with
      | nil => cases width
      | cons d second =>
          have widths : first.length = second.length := Nat.succ.inj width
          have low := ofDigitChars_lt fun other member => allFirst other (List.mem_cons_of_mem c member)
          have high :=
            ofDigitChars_lt fun other member => allSecond other (List.mem_cons_of_mem d member)
          have digitC := allFirst c List.mem_cons_self
          have digitD := allSecond d List.mem_cons_self
          simp only [Char.isDigit, Bool.and_eq_true, decide_eq_true_eq] at digitC digitD
          have fromC : 48 ≤ c.toNat := digitC.1
          have fromD : 48 ≤ d.toNat := digitD.1
          rw [ofDigitChars_cons_zero, ofDigitChars_cons_zero, widths] at below
          rw [widths] at low
          have leading : c.toNat ≤ d.toNat := by
            by_contra above
            have more : 10 ^ second.length * (d.toNat - 48 + 1) ≤
                10 ^ second.length * (c.toNat - 48) := Nat.mul_le_mul_left _ (by omega)
            rw [Nat.mul_add, Nat.mul_one] at more
            omega
          rw [List.cons_append, List.cons_append, List.cons_lt_cons_iff]
          rcases Nat.lt_or_eq_of_le leading with less | same
          · exact .inl less
          · have equal : c = d := Char.toNat_inj.mp same
            refine .inr ⟨equal, ih
              (fun other member => allFirst other (List.mem_cons_of_mem c member))
              (fun other member => allSecond other (List.mem_cons_of_mem d member)) widths ?_⟩
            rw [equal] at below
            exact Nat.lt_of_add_lt_add_left below

/-- The numbers of two files are written with equal widths, as far as they
decide which version is the greater one. -/
def Aligned (first second : MigrationFile) : Prop :=
  (toString first.major).length = (toString second.major).length ∧
  (first.major = second.major ->
    (toString first.minor).length = (toString second.minor).length ∧
    (first.minor = second.minor -> first.number.length = second.number.length))

theorem Aligned.symm {first second : MigrationFile} (aligned : Aligned first second) :
    Aligned second first :=
  ⟨aligned.1.symm, fun major => ⟨(aligned.2 major.symm).1.symm,
    fun minor => ((aligned.2 major.symm).2 minor.symm).symm⟩⟩

theorem toString_lt {first second : Nat} {firstRest secondRest : List Char}
    (width : (toString first).length = (toString second).length) (below : first < second) :
    (toString first).toList ++ firstRest < (toString second).toList ++ secondRest := by
  apply digits_lt
  · exact fun _ member => isDigit_of_mem_toString member
  · exact fun _ member => isDigit_of_mem_toString member
  · rwa [String.length_toList, String.length_toList]
  · rw [show (toString first).toList = Nat.toDigits 10 first from Nat.toList_repr,
      show (toString second).toList = Nat.toDigits 10 second from Nat.toList_repr,
      Nat.ofDigitChars_ten_toDigits, Nat.ofDigitChars_ten_toDigits]
    exact below

/-- The path in the order in which its parts count. -/
theorem toList_path (driver : String) (file : MigrationFile) :
    (file.path driver).toList = ("migration/" ++ driver ++ "/").toList ++
      ((toString file.major).toList ++ ('.' :: ((toString file.minor).toList ++
        ('/' :: (file.number ++ ("__" ++ file.name ++ ".sql").toList))))) := by
  simp [path, directory, fileName]

theorem path_lt {driver : String} {first second : MigrationFile} (aligned : Aligned first second)
    (below : first.version < second.version) : first.path driver < second.path driver := by
  rw [String.lt_iff_toList_lt, toList_path, toList_path]
  apply List.append_left_lt
  rcases SchemaVersion.lt_iff.mp below with major | ⟨major, rest⟩
  · exact toString_lt aligned.1 major
  · have sameMajor : first.major = second.major := major
    rw [sameMajor]
    apply List.append_left_lt
    refine List.cons_lt_cons_iff.mpr (.inr ⟨rfl, ?_⟩)
    rcases rest with minor | ⟨minor, patch⟩
    · exact toString_lt (aligned.2 major).1 minor
    · have sameMinor : first.minor = second.minor := minor
      rw [sameMinor]
      apply List.append_left_lt
      refine List.cons_lt_cons_iff.mpr (.inr ⟨rfl, ?_⟩)
      exact digits_lt (fun _ member => isDigit_of_mem_number member)
        (fun _ member => isDigit_of_mem_number member) ((aligned.2 major).2 minor)
        (Nat.lt_of_succ_lt_succ patch)

/-- Aligned paths are in the order of the versions. -/
theorem version_lt {driver : String} {first second : MigrationFile} (aligned : Aligned first second)
    (distinct : first.version ≠ second.version) (ordered : first.path driver ≤ second.path driver) :
    first.version < second.version := by
  rcases lt_trichotomy first.version second.version with below | same | above
  · exact below
  · exact absurd same distinct
  · exact absurd (path_lt aligned.symm above) (not_lt_of_ge ordered)

end MigrationFile

end Store
end Memos
