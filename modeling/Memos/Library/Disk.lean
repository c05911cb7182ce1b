import Memos.Library.FilePath

namespace Memos
namespace Library

open FilePath

/-!
# Files and directories

A disk maps places below the root to files and directories.  A path is walked
component by component through directories that exist; there are no links.
Whatever is done at one place leaves a file at another one alone, as well as
the directories on the way to it.
-/

inductive Entry (Blob : Type) where
  | file (blob : Blob)
  | directory
deriving DecidableEq

inductive Errno where
  | notExist
  | notDirectory
  | isDirectory
  | notEmpty
  | refused
deriving DecidableEq

structure Disk (Blob : Type) where
  entries : List (List Text × Entry Blob) := []
deriving DecidableEq

/-- What the system refuses to do, and how much of a file it has written when
writing fails. -/
structure DiskFaults (Blob : Type) where
  create : List Text -> Bool := fun _ => false
  write : Option (Option Blob) := none
  remove : List Text -> Bool := fun _ => false

namespace Disk

variable {Blob : Type}

def look (disk : Disk Blob) (location : List Text) : Option (Entry Blob) :=
  if location = [] then some .directory else disk.entries.lookup location

def isDirectory (disk : Disk Blob) (location : List Text) : Bool :=
  match disk.look location with
  | some .directory => true
  | _ => false

def put (disk : Disk Blob) (location : List Text) (entry : Entry Blob) : Disk Blob :=
  ⟨(location, entry) :: disk.entries⟩

def erase (disk : Disk Blob) (location : List Text) : Disk Blob :=
  ⟨disk.entries.filter fun item => item.1 ≠ location⟩

/-- Whether there is something below the place. -/
def occupied (disk : Disk Blob) (location : List Text) : Bool :=
  disk.entries.any fun item => location.isPrefixOf item.1 && item.1 ≠ location

/-- Follow the components of a path. -/
def walk (disk : Disk Blob) : List Text -> List Text -> Except Errno (List Text)
  | location, [] => .ok location
  | location, component :: rest =>
      match disk.look location with
      | none => .error .notExist
      | some (.file _) => .error .notDirectory
      | some .directory => walk disk (push true location component) rest

/-- Follow an absolute path. -/
def find (disk : Disk Blob) (path : Text) : Except Errno (List Text) :=
  disk.walk [] (components path)

def stat (disk : Disk Blob) (path : Text) : Except Errno (Entry Blob) :=
  match disk.find path with
  | .error errno => .error errno
  | .ok location => (disk.look location).elim (.error .notExist) .ok

def readFile (disk : Disk Blob) (path : Text) : Except Errno Blob :=
  match disk.stat path with
  | .error errno => .error errno
  | .ok .directory => .error .isDirectory
  | .ok (.file blob) => .ok blob

/-- Create the directories of the names below a place. -/
def makeAll (faults : DiskFaults Blob) (disk : Disk Blob) (location : List Text) :
    List Text -> Except Errno Unit × Disk Blob
  | [] => (.ok (), disk)
  | name :: rest =>
      match disk.look (location ++ [name]) with
      | some .directory => makeAll faults disk (location ++ [name]) rest
      | some (.file _) => (.error .notDirectory, disk)
      | none =>
          if faults.create (location ++ [name]) then (.error .refused, disk)
          else makeAll faults (disk.put (location ++ [name]) .directory) (location ++ [name]) rest

/-- `mkdirAll` of a clean path. -/
def mkdirAll (faults : DiskFaults Blob) (disk : Disk Blob) (path : Text) :
    Except Errno Unit × Disk Blob :=
  disk.makeAll faults [] (place path)

/-- Create a file or truncate the one that is there, and write to it. -/
def writeFile (faults : DiskFaults Blob) (disk : Disk Blob) (path : Text) (blob : Blob) :
    Except Errno Unit × Disk Blob :=
  match disk.find path with
  | .error errno => (.error errno, disk)
  | .ok location =>
      if disk.isDirectory location then (.error .isDirectory, disk)
      else
        match faults.write with
        | none => (.ok (), disk.put location (.file blob))
        | some none => (.error .refused, disk)
        | some (some part) => (.error .refused, disk.put location (.file part))

/-- Remove a file or an empty directory. -/
def remove (faults : DiskFaults Blob) (disk : Disk Blob) (path : Text) :
    Except Errno Unit × Disk Blob :=
  match disk.find path with
  | .error errno => (.error errno, disk)
  | .ok location =>
      if (disk.look location).isNone then (.error .notExist, disk)
      else if faults.remove location then (.error .refused, disk)
      else if location = [] ∨ disk.occupied location then (.error .notEmpty, disk)
      else (.ok (), disk.erase location)

/-! ## Looking at a changed disk -/

theorem look_root (disk : Disk Blob) : disk.look [] = some .directory := if_pos rfl

variable {disk : Disk Blob} {location : List Text} {entry : Entry Blob} {path : Text} {blob : Blob}
  {faults : DiskFaults Blob} {other : List Text}

theorem look_put_self (below : location ≠ []) (entry : Entry Blob) :
    (disk.put location entry).look location = some entry := by
  rw [look, if_neg below, put, List.lookup_cons_self]

theorem look_put_other {location other : List Text} (different : other ≠ location) (entry : Entry Blob) :
    (disk.put location entry).look other = disk.look other := by
  simp only [look, put]
  rw [List.lookup_cons, beq_false_of_ne different]

theorem lookup_filter {entries : List (List Text × Entry Blob)} {location other : List Text}
    (different : other ≠ location) :
    (entries.filter fun item => item.1 ≠ location).lookup other = entries.lookup other := by
  induction entries with
  | nil => rfl
  | cons item rest ih =>
      rcases item with ⟨key, entry⟩
      by_cases removed : key = location
      · have skipped : (other == key) = false := by
          rw [removed]
          exact beq_false_of_ne different
        rw [List.filter_cons_of_neg (by simpa using removed), ih, List.lookup_cons,
          skipped]
      · rw [List.filter_cons_of_pos (by simpa using removed), List.lookup_cons, List.lookup_cons,
          ih]

theorem look_erase_other {location other : List Text} (different : other ≠ location) :
    (disk.erase location).look other = disk.look other := by
  simp only [look, erase]
  rw [lookup_filter different]

theorem mem_of_look (below : location ≠ []) (found : disk.look location = some entry) :
    (location, entry) ∈ disk.entries := by
  rw [look, if_neg below] at found
  rcases List.lookup_eq_some_iff.mp found with ⟨front, rest, whole, _⟩
  rw [whole]
  exact List.mem_append_right front List.mem_cons_self

/-- What is above something else is occupied. -/
theorem occupied_of_look {location other : List Text} (found : disk.look other = some entry)
    (above : location <+: other) (different : other ≠ location) (below : location ≠ []) :
    disk.occupied location = true := by
  have lower : other ≠ [] := by
    intro root
    rw [root] at above
    exact below (List.prefix_nil.mp above)
  refine List.any_eq_true.mpr ⟨_, mem_of_look lower found, ?_⟩
  simpa using ⟨above, different⟩

/-! ## Walking -/

theorem isDirectory_iff :
    disk.isDirectory location = true ↔ disk.look location = some .directory := by
  unfold isDirectory
  split
  next directory => exact iff_of_true rfl directory
  next other => exact iff_of_false (by decide) fun directory => other directory

theorem walk_cons {component : Text} {rest last : List Text} :
    disk.walk location (component :: rest) = .ok last ↔
      disk.look location = some .directory ∧ disk.walk (push true location component) rest = .ok last := by
  rw [walk]
  rcases disk.look location with _ | _ | _ <;> simp

/-- A walk ends where the components lead to. -/
theorem walk_place {components location last : List Text} (walked : disk.walk location components = .ok last) :
    last = components.foldl (push true) location := by
  induction components generalizing location with
  | nil => exact (Except.ok.inj walked).symm
  | cons component rest ih => exact ih (walk_cons.mp walked).2

theorem find_place (found : disk.find path = .ok location) : location = place path := walk_place found

/-- All that is above a place is a directory. -/
def Open (disk : Disk Blob) (location : List Text) : Prop :=
  ∀ above, above <+: location -> above ≠ location -> disk.look above = some .directory

/-- A file that can be reached. -/
def Holds (disk : Disk Blob) (location : List Text) (blob : Blob) : Prop :=
  disk.Open location ∧ disk.look location = some (.file blob)

theorem walk_of_open {front rest : List Text} (isOpen : disk.Open (front ++ rest))
    (proper : ∀ name, name ∈ rest -> Proper name) :
    disk.walk front rest = .ok (front ++ rest) := by
  induction rest generalizing front with
  | nil => rw [walk, List.append_nil]
  | cons name rest ih =>
      have onward : front ++ name :: rest = front ++ [name] ++ rest := by
        rw [List.append_assoc, List.singleton_append]
      have here := isOpen front (List.prefix_append front (name :: rest)) (by
        intro same
        exact List.cons_ne_nil _ _ (List.append_right_eq_self.mp same.symm))
      rw [walk_cons]
      refine ⟨here, ?_⟩
      rw [(proper name List.mem_cons_self).push, onward]
      rw [onward] at isOpen
      exact ih isOpen fun later member => proper later (List.mem_cons_of_mem _ member)

/-- The clean path of an open place leads to it. -/
theorem find_absolute (isOpen : disk.Open location) (proper : ∀ name, name ∈ location -> Proper name) :
    disk.find (absolute location) = .ok location := by
  rw [find, components_absolute proper, walk_cons, push_stay (Or.inl rfl)]
  refine ⟨disk.look_root, ?_⟩
  split
  next empty =>
    rw [walk_cons, push_stay (Or.inl rfl), empty]
    exact ⟨disk.look_root, rfl⟩
  next =>
    have fromRoot : disk.Open ([] ++ location) := isOpen
    have onward := walk_of_open fromRoot proper
    rwa [List.nil_append] at onward

theorem Holds.readFile (holds : disk.Holds location blob) (proper : ∀ name, name ∈ location -> Proper name) :
    disk.readFile (absolute location) = .ok blob := by
  rw [Disk.readFile, stat, find_absolute holds.1 proper]
  simp only
  rw [holds.2]
  rfl

/-! ## What the operations leave alone -/

theorem Holds.put {location other : List Text} (holds : disk.Holds other blob) (different : other ≠ location)
    (fresh : disk.isDirectory location = true -> entry = .directory) :
    (disk.put location entry).Holds other blob := by
  refine ⟨fun above isAbove isOther => ?_, ?_⟩
  · have directory := holds.1 above isAbove isOther
    by_cases here : above = location
    · by_cases root : location = []
      · rw [here, root, look_root]
      · rw [here, look_put_self root, fresh (isDirectory_iff.mpr (here ▸ directory))]
    · rw [look_put_other here, directory]
  · rw [look_put_other different, holds.2]

theorem Holds.makeAll (holds : disk.Holds other blob) (location names : List Text) :
    (disk.makeAll faults location names).2.Holds other blob := by
  induction names generalizing disk location with
  | nil => exact holds
  | cons name rest ih =>
      simp only [Disk.makeAll]
      split
      · exact ih holds _
      · exact holds
      next missing =>
        split
        · exact holds
        · have different : other ≠ location ++ [name] := by
            intro same
            rw [← same, holds.2] at missing
            cases missing
          exact ih (holds.put different fun _ => rfl) _

theorem Holds.mkdirAll (holds : disk.Holds other blob) (path : Text) : (disk.mkdirAll faults path).2.Holds other blob :=
  holds.makeAll [] (place path)

theorem Holds.writeFile (holds : disk.Holds other blob) (different : other ≠ place path) (content : Blob) :
    (disk.writeFile faults path content).2.Holds other blob := by
  unfold Disk.writeFile
  split
  · exact holds
  next location found =>
    rw [← find_place found] at different
    split
    · exact holds
    next free =>
      have fresh : ∀ entry : Entry Blob, disk.isDirectory location = true -> entry = .directory :=
        fun _ directory => absurd directory free
      split
      · exact holds.put different (fresh _)
      · exact holds
      · exact holds.put different (fresh _)

theorem Holds.remove (holds : disk.Holds other blob) (different : other ≠ place path) :
    (disk.remove faults path).2.Holds other blob := by
  unfold Disk.remove
  split
  · exact holds
  next location found =>
    rw [← find_place found] at different
    split
    · exact holds
    · split
      · exact holds
      · split
        · exact holds
        next free =>
          rcases not_or.mp free with ⟨below, empty⟩
          refine ⟨fun above isAbove isOther => ?_, ?_⟩
          · have here : above ≠ location := by
              intro same
              rw [same] at isAbove
              exact empty (occupied_of_look holds.2 isAbove different below)
            rw [look_erase_other here, holds.1 above isAbove isOther]
          · rw [look_erase_other different, holds.2]

/-! ## Writing below fresh directories -/

theorem look_makeAll (found : disk.look other = some entry) (location names : List Text) :
    (disk.makeAll faults location names).2.look other = some entry := by
  induction names generalizing disk location with
  | nil => exact found
  | cons name rest ih =>
      simp only [makeAll]
      split
      · exact ih found _
      · exact found
      next missing =>
        split
        · exact found
        · have different : other ≠ location ++ [name] := by
            intro same
            rw [← same, found] at missing
            cases missing
          exact ih (by rw [look_put_other different, found]) _

theorem makeAll_ok {location names : List Text} (made : (disk.makeAll faults location names).1 = .ok ())
    {front : List Text} (below : front <+: names) (proper : front ≠ []) :
    (disk.makeAll faults location names).2.look (location ++ front) = some .directory := by
  induction names generalizing disk location front with
  | nil => exact absurd (List.prefix_nil.mp below) proper
  | cons name rest ih =>
      rcases front with _ | ⟨first, front⟩
      · exact absurd rfl proper
      rcases List.cons_prefix_cons.mp below with ⟨rfl, shorter⟩
      have onward : location ++ first :: front = location ++ [first] ++ front := by
        rw [List.append_assoc, List.singleton_append]
      have later : ∀ middle : Disk Blob,
          middle.look (location ++ [first]) = some .directory ->
          (middle.makeAll faults (location ++ [first]) rest).1 = .ok () ->
          (middle.makeAll faults (location ++ [first]) rest).2.look (location ++ first :: front) =
            some .directory := by
        intro middle here made
        by_cases last : front = []
        · rw [last]
          exact look_makeAll here _ _
        · rw [onward]
          exact ih made shorter last
      simp only [makeAll] at made ⊢
      split at made
      next here => exact later disk here made
      next => cases made
      next =>
        split at made
        · cases made
        next allowed =>
          rw [if_neg allowed]
          exact later _ (look_put_self (by simp) _) made

theorem mkdirAll_ok (made : (disk.mkdirAll faults path).1 = .ok ()) {above : List Text}
    (isAbove : above <+: place path) :
    (disk.mkdirAll faults path).2.look above = some .directory := by
  by_cases root : above = []
  · rw [root, look_root]
  · have below := makeAll_ok made isAbove root
    rwa [List.nil_append] at below

/-- A file written into a directory that has just been made can be reached. -/
theorem Holds.of_written (faults : DiskFaults Blob) (disk : Disk Blob) (content : Blob) (rooted : isAbs path = true)
    (made : (disk.mkdirAll faults (dir path)).1 = .ok ())
    (written : ((disk.mkdirAll faults (dir path)).2.writeFile faults path content).1 = .ok ()) :
    ((disk.mkdirAll faults (dir path)).2.writeFile faults path content).2.Holds (place path) content := by
  rcases split_last rooted with ⟨parent, name, whole, slashless, kept⟩
  have folder := place_dir rooted whole kept
  have directories : ∀ above, above <+: place parent ->
      (disk.mkdirAll faults (dir path)).2.look above = some .directory := fun above isAbove =>
    mkdirAll_ok made (folder ▸ isAbove)
  generalize (disk.mkdirAll faults (dir path)).2 = middle at written directories ⊢
  unfold Disk.writeFile at written ⊢
  split at written
  · cases written
  next location found =>
    split at written
    · cases written
    next free =>
      have target : location = push true (place parent) name := by
        rw [find_place found, whole, place_child slashless]
      -- The last component names a file: `.` and `..` lead to directories.
      have nonempty : ¬(name = [] ∨ name = dot) := by
        intro stay
        rw [push_stay stay] at target
        exact free (isDirectory_iff.mpr (directories location (target ▸ List.prefix_refl _)))
      have notUp : name ≠ dotdot := by
        intro up
        rw [up, push_up] at target
        exact free (isDirectory_iff.mpr (directories location (target ▸ List.dropLast_prefix _)))
      rcases not_or.mp nonempty with ⟨nonempty, notDot⟩
      rw [push_down nonempty notDot notUp] at target
      have reached : place path = place parent ++ [name] := (find_place found).symm.trans target
      split at written
      next =>
        rw [if_neg free, reached, target]
        refine ⟨fun above isAbove isOther => ?_, look_put_self (by simp) _⟩
        rw [look_put_other isOther]
        rcases List.prefix_concat_iff.mp isAbove with same | below
        · exact absurd same isOther
        · exact directories above below
      · cases written
      · cases written

theorem Open.push (isOpen : disk.Open location) (directory : disk.look location = some .directory) (component : Text) :
    disk.Open (push true location component) := by
  by_cases stay : component = [] ∨ component = dot
  · rwa [push_stay stay]
  · rcases not_or.mp stay with ⟨nonempty, notDot⟩
    by_cases up : component = dotdot
    · rw [up, push_up]
      intro above isAbove isOther
      have higher := isAbove.trans (List.dropLast_prefix location)
      refine isOpen above higher fun same => isOther ?_
      exact (isAbove.eq_of_length_le (by rw [same, List.length_dropLast]; omega))
    · rw [push_down nonempty notDot up]
      intro above isAbove isOther
      rcases List.prefix_concat_iff.mp isAbove with same | below
      · exact absurd same isOther
      · by_cases here : above = location
        · rw [here, directory]
        · exact isOpen above below here

/-- Only open directories are walked through. -/
theorem walk_concat {components location last : List Text} {component : Text} (isOpen : disk.Open location)
    (walked : disk.walk location (components ++ [component]) = .ok last) :
    disk.Open (components.foldl (FilePath.push true) location) ∧
      disk.look (components.foldl (FilePath.push true) location) = some .directory := by
  induction components generalizing location with
  | nil => exact ⟨isOpen, (walk_cons.mp walked).1⟩
  | cons first rest ih =>
      rcases walk_cons.mp walked with ⟨directory, walked⟩
      exact ih (isOpen.push directory first) walked

theorem find_parent {path parent name : Text} (whole : path = parent ++ '/' :: name) (slashless : '/' ∉ name)
    (found : disk.find path = .ok location) :
    disk.Open (place parent) ∧ disk.look (place parent) = some .directory := by
  rw [find, whole, components, List.splitOn_append_cons_self, List.splitOn_eq_singleton slashless] at found
  have root : disk.Open [] := fun above isAbove isOther => absurd (List.prefix_nil.mp isAbove) isOther
  exact walk_concat root found

theorem makeAll_same {location names : List Text}
    (directories : ∀ above, above <+: location ++ names -> disk.look above = some .directory) :
    disk.makeAll faults location names = (.ok (), disk) := by
  induction names generalizing location with
  | nil => rfl
  | cons name rest ih =>
      have onward : location ++ name :: rest = location ++ [name] ++ rest := by
        rw [List.append_assoc, List.singleton_append]
      rw [onward] at directories
      simp only [makeAll]
      rw [directories _ (List.prefix_append _ _)]
      exact ih directories

/-- Writing to a path at which nothing is found spoils no file, whatever other
path leads to it. -/
theorem Holds.write_free (faults : DiskFaults Blob) (content : Blob) (holds : disk.Holds other blob)
    (rooted : isAbs path = true) (free : (disk.stat path).isOk = false) :
    ((disk.mkdirAll faults (dir path)).2.writeFile faults path content).2.Holds other blob := by
  have made : (disk.mkdirAll faults (dir path)).2.Holds other blob := holds.mkdirAll _
  by_cases different : other = place path
  · rcases split_last rooted with ⟨parent, name, whole, slashless, kept⟩
    have target : other = push true (place parent) name := by
      rw [different, whole, place_child slashless]
    rcases result : (disk.mkdirAll faults (dir path)).2.find path with errno | location
    · rw [Disk.writeFile, result]
      exact made
    · rcases find_parent whole slashless result with ⟨isOpen, directory⟩
      -- The file is not above its own directory, so the last component is its name.
      have notAbove : ¬(other <+: place parent) := by
        intro above
        have isFile := made.2
        by_cases here : other = place parent
        · rw [here, directory] at isFile
          cases isFile
        · rw [isOpen other above here] at isFile
          cases isFile
      by_cases stay : name = [] ∨ name = dot
      · rw [target, push_stay stay] at notAbove
        exact absurd (List.prefix_refl _) notAbove
      · rcases not_or.mp stay with ⟨nonempty, notDot⟩
        by_cases up : name = dotdot
        · rw [target, up, push_up] at notAbove
          exact absurd (List.dropLast_prefix _) notAbove
        · rw [push_down nonempty notDot up] at target
          -- The directories above a file exist, so none is made and the path was found before.
          have same : disk.mkdirAll faults (dir path) = (.ok (), disk) := by
            refine makeAll_same fun above isAbove => holds.1 above ?_ ?_
            · rw [List.nil_append, place_dir rooted whole kept] at isAbove
              rw [target]
              exact isAbove.trans (List.prefix_append _ _)
            · intro equal
              rw [List.nil_append, place_dir rooted whole kept] at isAbove
              exact notAbove (equal ▸ isAbove)
          rw [same] at result
          rw [stat, result, find_place result, ← different] at free
          simp only [holds.2] at free
          exact Bool.noConfusion free
  · exact made.writeFile different content

end Disk
end Library
end Memos
