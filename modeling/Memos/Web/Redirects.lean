import Memos.Library.UrlResolution

namespace Memos
namespace Web
namespace Redirects

open Library.UrlResolution

/-!
# Where a redirect after sign-in leads

A redirect target is checked by how it is spelled: one slash at the beginning,
and nothing of the auth routes behind it.  The browser resolves the target to
something else when it removes a tab, takes a backslash for a slash, works off
dot segments or cuts off a fragment.
-/

def ROUTES.AUTH : Text := "/auth".toList

def startsWith (path start : Text) : Bool := start.isPrefixOf path

/-- `path === AUTH`, or it begins with `AUTH/` or `AUTH?`. -/
def isAuthFamily (path : Text) : Bool :=
  path = ROUTES.AUTH || startsWith path (ROUTES.AUTH ++ ['/']) || startsWith path (ROUTES.AUTH ++ ['?'])

def getSafeRedirectPath (path : Option Text) : Option Text :=
  match path with
  | none => none
  | some path =>
      if path = [] then none
      else if !startsWith path ['/'] || startsWith path ['/', '/'] then none
      else if isAuthFamily path then none
      else some path

/-! ## What the check is for -/

/-- The first segment of a path, as it is written. -/
def firstSegment (rest : Text) : Text := rest.takeWhile fun c => !(c = '/' || endsPath c)

/-- A path of the same origin outside auth, as it is written. -/
def PlainPath (path : Text) : Prop :=
  Exists fun rest => path = '/' :: rest ∧ rest.head? ≠ some '/' ∧
    firstSegment rest ≠ "auth".toList

variable {Origin : Type}

/-- An accepted target resolves to the own origin outside auth, and every plain
path is accepted as it is. -/
def RedirectsSafely (authority : Text -> Option Origin) (own : Origin) (path : Option Text) : Prop :=
  (∀ target, getSafeRedirectPath path = some target ->
      Exists fun url => resolve authority own target = some url ∧ url.origin = own ∧
        url.path.head? ≠ some "auth".toList) ∧
    ∀ plain, path = some plain -> PlainPath plain -> getSafeRedirectPath path = some plain

/-! ## What is accepted -/

/-- One slash at the beginning, and no auth route. -/
def Admissible (path : Text) : Prop :=
  startsWith path ['/'] = true ∧ startsWith path ['/', '/'] = false ∧ isAuthFamily path = false

theorem getSafeRedirectPath_eq_some_iff (path : Option Text) (target : Text) :
    getSafeRedirectPath path = some target ↔ path = some target ∧ Admissible target := by
  cases path with
  | none =>
      constructor
      · intro accepted
        contradiction
      · rintro ⟨given, _⟩
        contradiction
  | some path =>
      unfold getSafeRedirectPath Admissible
      constructor
      · intro accepted
        dsimp only at accepted
        split at accepted
        · contradiction
        · split at accepted
          · contradiction
          · split at accepted
            · contradiction
            · rename_i rooted notAuth
              obtain rfl := Option.some.inj accepted
              simp only [Bool.or_eq_true, Bool.not_eq_true', not_or, Bool.not_eq_true,
                Bool.not_eq_false] at rooted notAuth
              exact ⟨rfl, rooted.1, rooted.2, notAuth⟩
      · rintro ⟨given, rooted, single, notAuth⟩
        obtain rfl := Option.some.inj given
        have nonempty : path ≠ [] := by
          rintro rfl
          contradiction
        simp only [nonempty, rooted, single, notAuth, if_false, Bool.not_true, Bool.or_false,
          Bool.false_eq_true]

theorem Admissible.cons {path : Text} (admissible : Admissible path) :
    Exists fun rest => path = '/' :: rest := by
  cases path with
  | nil => exact absurd admissible.1 (by decide)
  | cons c rest =>
      have isSlash := admissible.1
      simp only [startsWith, List.isPrefixOf, Bool.and_true, beq_iff_eq] at isSlash
      exact ⟨rest, by rw [← isSlash]⟩

/-- A path of the auth routes is no plain path. -/
theorem firstSegment_of_isAuthFamily {rest : Text} (auth : isAuthFamily ('/' :: rest) = true) :
    firstSegment rest = "auth".toList := by
  have spelled : Exists fun more => rest = "auth".toList ++ more ∧
      (more = [] ∨ more.head? = some '/' ∨ more.head? = some '?') := by
    unfold isAuthFamily startsWith at auth
    simp only [Bool.or_eq_true, decide_eq_true_eq, List.isPrefixOf_iff_prefix] at auth
    rcases auth with (same | ⟨more, path_eq⟩) | ⟨more, path_eq⟩
    · exact ⟨[], (List.cons.inj same).2, Or.inl rfl⟩
    · exact ⟨'/' :: more, (List.cons.inj path_eq).2.symm, Or.inr (Or.inl rfl)⟩
    · exact ⟨'?' :: more, (List.cons.inj path_eq).2.symm, Or.inr (Or.inr rfl)⟩
  rcases spelled with ⟨more, rfl, ends⟩
  cases more with
  | nil => rfl
  | cons c more =>
      rcases ends with empty | slash | question
      · contradiction
      · obtain rfl := Option.some.inj slash
        rfl
      · obtain rfl := Option.some.inj question
        rfl

theorem admissible_of_plainPath {path : Text} (plain : PlainPath path) : Admissible path := by
  rcases plain with ⟨rest, rfl, single, outside⟩
  refine ⟨rfl, ?_, ?_⟩
  · cases rest with
    | nil => rfl
    | cons c rest =>
        rw [startsWith, Bool.eq_false_iff]
        intro double
        simp only [List.isPrefixOf, Bool.and_true, Bool.true_and, beq_self_eq_true, beq_iff_eq] at double
        exact single (by rw [← double]; rfl)
  · rw [Bool.eq_false_iff]
    exact fun auth => outside (firstSegment_of_isAuthFamily auth)

/-- A redirect is safe exactly when an accepted target names no other authority
and does not lead to auth. -/
theorem redirectsSafely_iff (authority : Text -> Option Origin) (own : Origin) (path : Option Text) :
    RedirectsSafely authority own path ↔
      ∀ target, path = some target -> Admissible target ->
        KeepsOrigin authority own target ∧
          ¬ LeadsTo "auth".toList (segments (pathText target)) := by
  constructor
  · rintro ⟨sound, _⟩ target given admissible
    rcases admissible.cons with ⟨rest, rfl⟩
    exact (resolve_apart_iff authority own rest (by decide) (by decide)).mp
      (sound _ ((getSafeRedirectPath_eq_some_iff path _).mpr ⟨given, admissible⟩))
  · intro leads
    constructor
    · intro target accepted
      rcases (getSafeRedirectPath_eq_some_iff path target).mp accepted with ⟨given, admissible⟩
      rcases admissible.cons with ⟨rest, rfl⟩
      exact (resolve_apart_iff authority own rest (by decide) (by decide)).mpr
        (leads _ given admissible)
    · intro plain given isPlain
      exact (getSafeRedirectPath_eq_some_iff path plain).mpr
        ⟨given, admissible_of_plainPath isPlain⟩

/-- A backslash leads to another origin, and a fragment back to auth. -/
theorem backslash_not_redirectsSafely :
    ¬ RedirectsSafely some "memos.local".toList (some "/\\evil.example".toList) ∧
      ¬ RedirectsSafely some "memos.local".toList (some "/auth#x".toList) := by
  constructor
  · rintro ⟨sound, _⟩
    rcases sound "/\\evil.example".toList (by decide) with ⟨url, resolved, sameOrigin, _⟩
    have elsewhere : resolve some "memos.local".toList "/\\evil.example".toList =
        some { origin := "evil.example".toList, path := [[]] } := by decide +kernel
    rw [elsewhere] at resolved
    obtain rfl := Option.some.inj resolved
    exact absurd sameOrigin (by decide)
  · rintro ⟨sound, _⟩
    rcases sound "/auth#x".toList (by decide) with ⟨url, resolved, _, apart⟩
    have back : resolve some "memos.local".toList "/auth#x".toList =
        some { origin := "memos.local".toList, path := ["auth".toList] } := by decide +kernel
    rw [back] at resolved
    obtain rfl := Option.some.inj resolved
    exact apart rfl

end Redirects
end Web
end Memos
