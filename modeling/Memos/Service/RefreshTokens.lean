import Memos.Library.Knowledge
import Memos.Service.Viewer
import Memos.Store.Settings

namespace Memos
namespace Service
namespace RefreshTokens

open Library Store

/-!
# The rotation of refresh tokens

A refresh token is exchanged for a new one.  The list of the tokens of a user
is one setting, and an exchange reads it to check the token, writes it with the
new token and writes it again without the old one.  Nothing keeps other calls
out between these steps.
-/

/-! ## The steps -/

/-- What a call reads or writes the list for. -/
inductive Purpose where
  | authenticate
  | exchange (presented : String) (token : RefreshToken)
  | retire (presented : String)
  | signOut (presented : String)
deriving DecidableEq

/-- The list that is written for a purpose. -/
def Purpose.compute (purpose : Purpose) (tokens : List RefreshToken) : List RefreshToken :=
  match purpose with
  | .authenticate => tokens
  | .exchange _ token => tokens ++ [token]
  | .retire presented => tokens.filter fun token => token.tokenId ≠ presented
  | .signOut presented => tokens.filter fun token => token.tokenId ≠ presented

/-- The setting of a user and its entry in the cache.  Beside them stand the
tokens that were given out so far, which token was exchanged for which, and
the tokens whose exchange has not removed them. -/
structure Tokens where
  stored : Option (List RefreshToken)
  cache : Option (List RefreshToken)
  issued : List String
  exchanges : List (String × String) := []
  rotating : List String := []

inductive TokenOperation where
  | cacheGet
  | listUserSettings (purpose : Purpose)
  | cacheSet (tokens : List RefreshToken)
  | upsertUserSetting (purpose : Purpose) (tokens : List RefreshToken)
  | now
  | getUser

def TokenReply : TokenOperation -> Type
  | .cacheGet => Option (List RefreshToken)
  | .listUserSettings _ => Except String (Option (List RefreshToken))
  | .cacheSet _ => Unit
  | .upsertUserSetting _ _ => Except String Unit
  | .now => Int
  | .getUser => Except String (Option RowStatus)

abbrev TokenProgram (α : Type) : Type := Program TokenOperation TokenReply α

/-- The tokens after a write. -/
def Tokens.write (tokens : Tokens) (purpose : Purpose) (list : List RefreshToken) : Tokens :=
  match purpose with
  | .authenticate => { tokens with stored := some list }
  | .exchange presented token =>
      { tokens with
        stored := some list
        issued := tokens.issued ++ [token.tokenId]
        exchanges := tokens.exchanges ++ [(presented, token.tokenId)]
        rotating := presented :: tokens.rotating }
  | .retire presented =>
      { tokens with
        stored := some list
        rotating := tokens.rotating.filter fun other => other ≠ presented }
  | .signOut _ => { tokens with stored := some list }

/-- What a step does.  An entry of the cache may expire; a statement that fails
changes nothing. -/
def TokenEffect : Pool.Effect Tokens TokenOperation TokenReply
  | before, .cacheGet, reply, after => after = before ∧ (reply = before.cache ∨ reply = none)
  | before, .listUserSettings _, reply, after => after = before ∧
      forall row, reply = .ok row -> row = before.stored
  | before, .cacheSet list, _, after => after = { before with cache := some list }
  | before, .upsertUserSetting purpose list, .ok (), after => after = before.write purpose list
  | before, .upsertUserSetting _ _, .error _, after => after = before
  | before, .now, _, after => after = before
  | before, .getUser, _, after => after = before

def step (operation : TokenOperation) : TokenProgram (TokenReply operation) := .perform operation .done

/-! ## The store -/

/-- `GetUserSetting`; the list is put into the cache twice when it is read. -/
def getUserSetting (purpose : Purpose) : TokenProgram (Except String (Option (List RefreshToken))) := do
  match ← step .cacheGet with
  | some tokens => return .ok (some tokens)
  | none =>
      match ← step (.listUserSettings purpose) with
      | .error cause => return .error cause
      | .ok none => return .ok none
      | .ok (some tokens) => do
          step (.cacheSet tokens)
          step (.cacheSet tokens)
          return .ok (some tokens)

def getUserRefreshTokens (purpose : Purpose) : TokenProgram (Except String (List RefreshToken)) := do
  match ← getUserSetting purpose with
  | .error cause => return .error cause
  | .ok setting => return .ok (setting.getD [])

def upsertUserSetting (purpose : Purpose) (tokens : List RefreshToken) :
    TokenProgram (Except String Unit) := do
  match ← step (.upsertUserSetting purpose tokens) with
  | .error cause => return .error cause
  | .ok () => do
      step (.cacheSet tokens)
      return .ok ()

/-- `AddUserRefreshToken` and `RemoveUserRefreshToken`: the list is read, changed
and written. -/
def changeUserRefreshTokens (purpose : Purpose) : TokenProgram (Except String Unit) := do
  match ← getUserRefreshTokens purpose with
  | .error cause => return .error cause
  | .ok tokens => upsertUserSetting purpose (purpose.compute tokens)

def getUserRefreshTokenByID (tokenId : String) : TokenProgram (Except String (Option RefreshToken)) := do
  match ← getUserRefreshTokens .authenticate with
  | .error cause => return .error cause
  | .ok tokens => return .ok (tokens.find? fun token => token.tokenId = tokenId)

/-! ## The calls -/

/-- The checks of `AuthenticateByRefreshToken` on the user. -/
def authenticateUser (tokenId : String) : TokenProgram (Except String String) := do
  match ← step .getUser with
  | .error cause => return .error ("failed to get user: " ++ cause)
  | .ok none => return .error "user not found"
  | .ok (some .archived) => return .error "user is archived"
  | .ok (some .normal) => return .ok tokenId

/-- The id of the token in the cookie, if it parses and everything else is in
order. -/
def authenticateByRefreshToken (presented : Option String) : TokenProgram (Except String String) := do
  match presented with
  | none => return .error "invalid refresh token"
  | some tokenId =>
      match ← getUserRefreshTokenByID tokenId with
      | .error cause => return .error ("failed to get refresh token: " ++ cause)
      | .ok none => return .error "refresh token revoked"
      | .ok (some token) =>
          match token.expiresAt with
          | none => authenticateUser tokenId
          | some expiresAt => do
              let now : Int ← step .now
              if expiresAt < now then return .error "refresh token expired"
              else authenticateUser tokenId

/-- `RefreshToken`, with the record of the new token, whose id it returns.  An
old token that cannot be removed stays. -/
def refreshToken (generated : RefreshToken) (presented : Option String) :
    TokenProgram (Except Status String) := do
  match ← authenticateByRefreshToken presented with
  | .error cause => return .error ⟨.unauthenticated, "invalid refresh token: " ++ cause⟩
  | .ok oldTokenID =>
      match ← changeUserRefreshTokens (.exchange oldTokenID generated) with
      | .error cause => return .error ⟨.internal, "failed to store refresh token: " ++ cause⟩
      | .ok () => do
          let _ ← changeUserRefreshTokens (.retire oldTokenID)
          return .ok generated.tokenId

/-- `SignOut`.  Without the claims of an access token nothing is removed, and a
failure is passed over. -/
def signOut (hasClaims : Bool) (presented : Option String) : TokenProgram Unit := do
  if hasClaims then
    match presented with
    | none => return ()
    | some tokenId => do
        let _ ← changeUserRefreshTokens (.signOut tokenId)
        return ()
  else return ()

inductive Call where
  | refreshToken (presented : Option String)
  | signOut (hasClaims : Bool) (presented : Option String)
deriving DecidableEq

inductive Result where
  | refreshed (result : Except Status String)
  | signedOut

def program (call : Call) (generated : RefreshToken) : TokenProgram Result :=
  match call with
  | .refreshToken presented => do
      let result ← refreshToken generated presented
      return .refreshed result
  | .signOut hasClaims presented => do
      signOut hasClaims presented
      return .signedOut

/-! ## Runs -/

def tokenIds (list : Option (List RefreshToken)) : List String :=
  (list.getD []).map RefreshToken.tokenId

/-- The tokens before the first call: those in the list have been given out. -/
structure Session where
  stored : Option (List RefreshToken)
  cache : Option (List RefreshToken)
  issued : List String
  storedIssued : tokenIds stored ⊆ issued

/-- The tokens that the calls generate, which are new. -/
structure Generator (ι : Type) (session : Session) where
  token : ι -> RefreshToken
  distinct : forall first second, (token first).tokenId = (token second).tokenId -> first = second
  unissued : forall call, (token call).tokenId ∉ session.issued

variable {ι : Type} {session : Session}

abbrev TokenPool (ι : Type) : Type := Pool Tokens ι TokenOperation TokenReply Result

/-- All calls before their first step. -/
def pending (calls : ι -> Call) (generator : Generator ι session) : TokenPool ι where
  shared := { stored := session.stored, cache := session.cache, issued := session.issued }
  programs := fun call => program (calls call) (generator.token call)

/-- A write goes over the list that it was computed from.  The token that an
exchange presents is still in it, and no exchange that has not removed the
token has been made.  The token of a sign-out was given out and not exchanged,
and no step of the sign-out fails. -/
def Careful : Tokens -> (operation : TokenOperation) -> TokenReply operation -> Prop
  | tokens, .upsertUserSetting purpose list, .ok () =>
      list = purpose.compute (tokens.stored.getD []) ∧
        match purpose with
        | .exchange presented _ => presented ∈ tokenIds tokens.stored ∧ presented ∉ tokens.rotating
        | .signOut presented => presented ∈ tokens.issued ∧
            forall exchange, exchange ∈ tokens.exchanges -> exchange.1 ≠ presented
        | _ => True
  | _, .upsertUserSetting (.signOut _) _, .error _ => False
  | _, .listUserSettings (.signOut _), .error _ => False
  | _, _, _ => True

/-- A run of calls. -/
def Run [DecidableEq ι] (permitted : Tokens -> (operation : TokenOperation) -> TokenReply operation -> Prop)
    (start last : TokenPool ι) : Prop :=
  Pool.Run TokenEffect (fun _ _ => False)
    (fun pool _ operation reply _ => permitted pool.shared operation reply) start last

/-- The token came out of an exchange of the other, or of several. -/
def Descends (tokens : Tokens) : String -> String -> Prop :=
  Relation.TransGen fun presented token => (presented, token) ∈ tokens.exchanges

/-- `AuthenticateByRefreshToken` finds the token in the list that it reads. -/
def Accepts (tokens : Tokens) (tokenId : String) : Prop :=
  Exists fun token => token ∈ tokens.cache.getD (tokens.stored.getD []) ∧ token.tokenId = tokenId

/-- At most one call succeeds for a token, and nothing that came out of an
exchange of a token is accepted after a sign-out with it has returned. -/
structure SingleUse (calls : ι -> Call) (pool : TokenPool ι) : Prop where
  once : forall first second presented firstNew secondNew,
    calls first = .refreshToken (some presented) -> calls second = .refreshToken (some presented) ->
    pool.programs first = .done (.refreshed (.ok firstNew)) ->
    pool.programs second = .done (.refreshed (.ok secondNew)) -> first = second
  final : forall call hasClaims presented, calls call = .signOut hasClaims (some presented) ->
    pool.programs call = .done .signedOut ->
    forall token, Descends pool.shared presented token -> ¬ Accepts pool.shared token

/-! ## What stays true of the tokens -/

/-- Tokens in the list and tokens that were exchanged have been given out.  A
token that was exchanged is gone from the list or waits for its removal, and it
was exchanged once. -/
structure Sound (tokens : Tokens) : Prop where
  storedIssued : tokenIds tokens.stored ⊆ tokens.issued
  exchangedIssued : forall exchange, exchange ∈ tokens.exchanges -> exchange.1 ∈ tokens.issued
  exchangedGone : forall exchange, exchange ∈ tokens.exchanges ->
    exchange.1 ∈ tokens.rotating ∨ exchange.1 ∉ tokenIds tokens.stored
  exchangedOnce : (tokens.exchanges.map Prod.fst).Nodup

/-- The token was signed out before anybody exchanged it. -/
structure SignedOut (tokens : Tokens) (presented : String) : Prop where
  issued : presented ∈ tokens.issued
  gone : presented ∉ tokenIds tokens.stored
  unexchanged : forall exchange, exchange ∈ tokens.exchanges -> exchange.1 ≠ presented

variable {tokens after : Tokens} {purpose : Purpose}

theorem mem_tokenIds_removed {list : Option (List RefreshToken)} {presented tokenId : String} :
    tokenId ∈ tokenIds (some ((list.getD []).filter fun token => token.tokenId ≠ presented)) ↔
      tokenId ∈ tokenIds list ∧ tokenId ≠ presented := by
  simp only [tokenIds, Option.getD_some, List.mem_map, List.mem_filter, decide_eq_true_eq]
  constructor
  · rintro ⟨token, ⟨member, other⟩, rfl⟩
    exact ⟨⟨token, member, rfl⟩, other⟩
  · rintro ⟨⟨token, member, rfl⟩, other⟩
    exact ⟨token, ⟨member, other⟩, rfl⟩

variable {token : RefreshToken} {presented : String}

theorem mem_tokenIds_added {list : Option (List RefreshToken)} {tokenId : String} :
    tokenId ∈ tokenIds (some (list.getD [] ++ [token])) ↔
      tokenId ∈ tokenIds list ∨ tokenId = token.tokenId := by
  simp [tokenIds]

/-- A token in the list whose exchange is not under way was not exchanged. -/
theorem Sound.unexchanged (sound : Sound tokens) (stored : presented ∈ tokenIds tokens.stored)
    (idle : presented ∉ tokens.rotating) :
    forall exchange, exchange ∈ tokens.exchanges -> exchange.1 ≠ presented := by
  rintro exchange member rfl
  rcases sound.exchangedGone exchange member with rotating | gone
  · exact idle rotating
  · exact gone stored

theorem Sound.exchange (sound : Sound tokens) (stored : presented ∈ tokenIds tokens.stored)
    (idle : presented ∉ tokens.rotating) (fresh : token.tokenId ∉ tokens.issued) :
    Sound (tokens.write (.exchange presented token) (tokens.stored.getD [] ++ [token])) := by
  have unexchanged := sound.unexchanged stored idle
  refine ⟨?_, ?_, ?_, ?_⟩
  · intro tokenId member
    rcases mem_tokenIds_added.mp member with old | rfl
    · exact List.mem_append_left _ (sound.storedIssued old)
    · exact List.mem_append_right _ (List.mem_singleton.mpr rfl)
  · intro exchange member
    rcases List.mem_append.mp member with old | new
    · exact List.mem_append_left _ (sound.exchangedIssued exchange old)
    · rw [List.mem_singleton.mp new]
      exact List.mem_append_left _ (sound.storedIssued stored)
  · intro exchange member
    rcases List.mem_append.mp member with old | new
    · rcases sound.exchangedGone exchange old with rotating | gone
      · exact Or.inl (List.mem_cons_of_mem _ rotating)
      · right
        intro again
        rcases mem_tokenIds_added.mp again with listed | isNew
        · exact gone listed
        · exact fresh (isNew ▸ sound.exchangedIssued exchange old)
    · rw [List.mem_singleton.mp new]
      exact Or.inl List.mem_cons_self
  · have added : (tokens.exchanges ++ [(presented, token.tokenId)]).map Prod.fst =
        tokens.exchanges.map Prod.fst ++ [presented] := by simp
    change ((tokens.exchanges ++ [(presented, token.tokenId)]).map Prod.fst).Nodup
    rw [added, List.nodup_append]
    refine ⟨sound.exchangedOnce, List.nodup_singleton _, ?_⟩
    intro old oldMember new newMember same
    rcases List.mem_map.mp oldMember with ⟨exchange, member, rfl⟩
    exact unexchanged exchange member (same.trans (List.mem_singleton.mp newMember))

/-- A token is removed by its exchange or by a sign-out. -/
theorem Sound.remove (sound : Sound tokens) (purposed : purpose = .retire presented ∨ purpose = .signOut presented) :
    Sound (tokens.write purpose ((tokens.stored.getD []).filter fun token => token.tokenId ≠ presented)) := by
  have kept : forall exchange, exchange ∈ tokens.exchanges -> exchange.1 ≠ presented ->
      exchange.1 ∈ tokens.rotating ∨ exchange.1 ∉ tokenIds (some ((tokens.stored.getD []).filter
        fun token => token.tokenId ≠ presented)) := by
    intro exchange member _
    rcases sound.exchangedGone exchange member with rotating | gone
    · exact Or.inl rotating
    · exact Or.inr fun listed => gone (mem_tokenIds_removed.mp listed).1
  have issued : tokenIds (some ((tokens.stored.getD []).filter fun token => token.tokenId ≠ presented)) ⊆
      tokens.issued := fun tokenId member => sound.storedIssued (mem_tokenIds_removed.mp member).1
  have removed : presented ∉ tokenIds (some ((tokens.stored.getD []).filter
      fun token => token.tokenId ≠ presented)) := fun member => (mem_tokenIds_removed.mp member).2 rfl
  rcases purposed with rfl | rfl
  · refine ⟨issued, sound.exchangedIssued, fun exchange member => ?_, sound.exchangedOnce⟩
    by_cases same : exchange.1 = presented
    · exact Or.inr (same ▸ removed)
    · rcases kept exchange member same with rotating | gone
      · exact Or.inl (List.mem_filter.mpr ⟨rotating, decide_eq_true same⟩)
      · exact Or.inr gone
  · refine ⟨issued, sound.exchangedIssued, fun exchange member => ?_, sound.exchangedOnce⟩
    by_cases same : exchange.1 = presented
    · exact Or.inr (same ▸ removed)
    · exact kept exchange member same

/-- After a removal there is nothing in the list that was not there before. -/
theorem SignedOut.remove {signedOut other : String} (out : SignedOut tokens signedOut)
    (purposed : purpose = .retire other ∨ purpose = .signOut other) :
    SignedOut (tokens.write purpose ((tokens.stored.getD []).filter fun token => token.tokenId ≠ other))
      signedOut := by
  have gone : signedOut ∉ tokenIds (some ((tokens.stored.getD []).filter
      fun token => token.tokenId ≠ other)) := fun member => out.gone (mem_tokenIds_removed.mp member).1
  rcases purposed with rfl | rfl
  · exact ⟨out.issued, gone, out.unexchanged⟩
  · exact ⟨out.issued, gone, out.unexchanged⟩

/-- An exchange presents a token of the list, so it is not one that was signed
out; nor is the new token. -/
theorem SignedOut.exchange {signedOut presented : String} (out : SignedOut tokens signedOut)
    (stored : presented ∈ tokenIds tokens.stored) (fresh : token.tokenId ∉ tokens.issued) :
    SignedOut (tokens.write (.exchange presented token) (tokens.stored.getD [] ++ [token])) signedOut where
  issued := List.mem_append_left _ out.issued
  gone := fun member => by
    rcases mem_tokenIds_added.mp member with old | new
    · exact out.gone old
    · exact fresh (new ▸ out.issued)
  unexchanged := fun exchange member => by
    rcases List.mem_append.mp member with old | new
    · exact out.unexchanged exchange old
    · rw [List.mem_singleton.mp new]
      intro same
      exact out.gone (same ▸ stored)

/-- The sign-out itself. -/
theorem signedOut_of_signOut (issued : presented ∈ tokens.issued)
    (unexchanged : forall exchange, exchange ∈ tokens.exchanges -> exchange.1 ≠ presented) :
    SignedOut (tokens.write (.signOut presented)
      ((tokens.stored.getD []).filter fun token => token.tokenId ≠ presented)) presented :=
  ⟨issued, fun member => (mem_tokenIds_removed.mp member).2 rfl, unexchanged⟩

/-- Nothing descends from a token that was not exchanged. -/
theorem SignedOut.no_descendant {presented token : String} (out : SignedOut tokens presented) :
    ¬ Descends tokens presented token := by
  intro descends
  rcases Relation.TransGen.head'_iff.mp descends with ⟨_, exchanged, _⟩
  exact out.unexchanged _ exchanged rfl

/-! ## What a call knows -/

/-- Whether its exchange has been written, and its sign-out. -/
structure Known where
  exchanged : Bool := false
  signedOut : Bool := false

def Demands (call : Call) (generated : RefreshToken) (known : Known) : TokenOperation -> Prop
  | .upsertUserSetting .authenticate _ => False
  | .upsertUserSetting (.exchange presented token) _ =>
      call = .refreshToken (some presented) ∧ token = generated ∧ known.exchanged = false
  | .upsertUserSetting (.signOut presented) _ =>
      Exists fun hasClaims => call = .signOut hasClaims (some presented)
  | _ => True

def Expects : (operation : TokenOperation) -> TokenReply operation -> Prop
  | .listUserSettings (.signOut _), .error _ => False
  | .upsertUserSetting (.signOut _) _, .error _ => False
  | _, _ => True

def learn (known : Known) : (operation : TokenOperation) -> TokenReply operation -> Known
  | .upsertUserSetting (.exchange _ _) _, .ok () => { known with exchanged := true }
  | .upsertUserSetting (.signOut _) _, .ok () => { known with signedOut := true }
  | _, _ => known

def tokenGuide (call : Call) (generated : RefreshToken) : Guide TokenOperation TokenReply Known where
  demands := Demands call generated
  expects := Expects
  learn := learn

/-- What a call knows is true. -/
structure Holds (call : Call) (generated : RefreshToken) (tokens : Tokens) (known : Known) : Prop where
  fresh : known.exchanged = false -> generated.tokenId ∉ tokens.issued
  exchanged : known.exchanged = true -> forall presented, call = .refreshToken (some presented) ->
    (presented, generated.tokenId) ∈ tokens.exchanges
  signedOut : known.signedOut = true -> forall hasClaims presented,
    call = .signOut hasClaims (some presented) -> SignedOut tokens presented

variable {call : Call} {generated : RefreshToken} {known : Known}

/-- The cache says nothing about what a call knows. -/
theorem Holds.cached (holds : Holds call generated tokens known) (list : List RefreshToken) :
    Holds call generated { tokens with cache := some list } known :=
  ⟨holds.fresh, holds.exchanged, fun flag hasClaims presented same =>
    let out := holds.signedOut flag hasClaims presented same
    ⟨out.issued, out.gone, out.unexchanged⟩⟩

theorem Holds.remove {other : String} (holds : Holds call generated tokens known)
    (purposed : purpose = .retire other ∨ purpose = .signOut other) :
    Holds call generated (tokens.write purpose
      ((tokens.stored.getD []).filter fun token => token.tokenId ≠ other)) known := by
  refine ⟨?_, ?_, fun flag hasClaims presented same =>
    (holds.signedOut flag hasClaims presented same).remove purposed⟩
  · rcases purposed with rfl | rfl
    · exact holds.fresh
    · exact holds.fresh
  · rcases purposed with rfl | rfl
    · exact holds.exchanged
    · exact holds.exchanged

/-- Another call writes its exchange. -/
theorem Holds.exchange (holds : Holds call generated tokens known) (other : generated.tokenId ≠ token.tokenId)
    (stored : presented ∈ tokenIds tokens.stored) (fresh : token.tokenId ∉ tokens.issued) :
    Holds call generated (tokens.write (.exchange presented token) (tokens.stored.getD [] ++ [token]))
      known where
  fresh := fun flag member => by
    rcases List.mem_append.mp member with old | new
    · exact holds.fresh flag old
    · exact other (List.mem_singleton.mp new)
  exchanged := fun flag shown same => List.mem_append_left _ (holds.exchanged flag shown same)
  signedOut := fun flag hasClaims shown same =>
    (holds.signedOut flag hasClaims shown same).exchange stored fresh

/-- The call writes its exchange itself. -/
theorem Holds.ownExchange (stored : presented ∈ tokenIds tokens.stored) (fresh : generated.tokenId ∉ tokens.issued)
    (holds : Holds (.refreshToken (some presented)) generated tokens known) :
    Holds (.refreshToken (some presented)) generated
      (tokens.write (.exchange presented generated) (tokens.stored.getD [] ++ [generated]))
      { known with exchanged := true } where
  fresh := fun impossible => by cases impossible
  exchanged := fun _ shown same => by
    cases same
    exact List.mem_append_right _ (List.mem_singleton.mpr rfl)
  signedOut := fun flag hasClaims shown same =>
    (holds.signedOut flag hasClaims shown same).exchange stored fresh

/-- The call writes its sign-out itself. -/
theorem Holds.ownSignOut {hasClaims : Bool} (issued : presented ∈ tokens.issued)
    (unexchanged : forall exchange, exchange ∈ tokens.exchanges -> exchange.1 ≠ presented)
    (holds : Holds (.signOut hasClaims (some presented)) generated tokens known) :
    Holds (.signOut hasClaims (some presented)) generated (tokens.write (.signOut presented)
      ((tokens.stored.getD []).filter fun token => token.tokenId ≠ presented))
      { known with signedOut := true } where
  fresh := holds.fresh
  exchanged := fun _ _ impossible => by cases impossible
  signedOut := fun _ _ _ same => by
    cases same
    exact signedOut_of_signOut issued unexchanged

/-- What a step that meets the condition does to the tokens, to what is expected
of its reply and to what its call and the other calls know. -/
structure Stepped (call : Call) (generated : RefreshToken) (known : Known) (before after : Tokens)
    (operation : TokenOperation) (reply : TokenReply operation) : Prop where
  sound : Sound after
  expected : Expects operation reply
  learnt : Holds call generated after (learn known operation reply)
  others : forall otherCall otherGenerated otherKnown, generated.tokenId ≠ otherGenerated.tokenId ->
    Holds otherCall otherGenerated before otherKnown -> Holds otherCall otherGenerated after otherKnown

/-- A step that changes nothing. -/
theorem Stepped.read {operation : TokenOperation} {reply : TokenReply operation} (sound : Sound tokens)
    (expected : Expects operation reply) (learnt : Holds call generated tokens (learn known operation reply)) :
    Stepped call generated known tokens tokens operation reply :=
  ⟨sound, expected, learnt, fun _ _ _ _ other => other⟩

theorem stepped_upsert {before : Tokens} {list : List RefreshToken}
    {reply : TokenReply (.upsertUserSetting purpose list)} (sound : Sound before)
    (holds : Holds call generated before known)
    (demanded : Demands call generated known (.upsertUserSetting purpose list))
    (effective : TokenEffect before (.upsertUserSetting purpose list) reply after)
    (careful : Careful before (.upsertUserSetting purpose list) reply) :
    Stepped call generated known before after (.upsertUserSetting purpose list) reply := by
  match purpose, reply with
  | .authenticate, _ => exact demanded.elim
  | .exchange presented token, .error cause =>
      cases effective
      exact .read sound trivial holds
  | .retire presented, .error cause =>
      cases effective
      exact .read sound trivial holds
  | .signOut presented, .error cause => exact careful.elim
  | .exchange presented token, .ok () =>
      rcases demanded with ⟨rfl, rfl, waiting⟩
      rcases careful with ⟨rfl, stored, idle⟩
      cases effective
      have fresh := holds.fresh waiting
      exact ⟨sound.exchange stored idle fresh, trivial, holds.ownExchange stored fresh,
        fun _ _ _ other holds => holds.exchange other.symm stored fresh⟩
  | .retire presented, .ok () =>
      rcases careful with ⟨rfl, _⟩
      cases effective
      exact ⟨sound.remove (Or.inl rfl), trivial, holds.remove (Or.inl rfl),
        fun _ _ _ _ other => other.remove (Or.inl rfl)⟩
  | .signOut presented, .ok () =>
      rcases demanded with ⟨hasClaims, rfl⟩
      rcases careful with ⟨rfl, issued, unexchanged⟩
      cases effective
      exact ⟨sound.remove (Or.inr rfl), trivial, holds.ownSignOut issued unexchanged,
        fun _ _ _ _ other => other.remove (Or.inr rfl)⟩

theorem stepped {before : Tokens} {operation : TokenOperation} {reply : TokenReply operation}
    (sound : Sound before) (holds : Holds call generated before known)
    (demanded : Demands call generated known operation)
    (effective : TokenEffect before operation reply after) (careful : Careful before operation reply) :
    Stepped call generated known before after operation reply := by
  cases operation with
  | cacheGet =>
      rcases effective with ⟨rfl, _⟩
      exact .read sound trivial holds
  | listUserSettings purpose =>
      rcases effective with ⟨rfl, _⟩
      match purpose, reply with
      | .signOut presented, .error cause => exact careful.elim
      | .signOut presented, .ok row => exact .read sound trivial holds
      | .authenticate, _ => exact .read sound trivial holds
      | .exchange presented token, _ => exact .read sound trivial holds
      | .retire presented, _ => exact .read sound trivial holds
  | cacheSet list =>
      cases effective
      exact ⟨⟨sound.storedIssued, sound.exchangedIssued, sound.exchangedGone, sound.exchangedOnce⟩,
        trivial, holds.cached list, fun _ _ _ _ other => other.cached list⟩
  | upsertUserSetting purpose list => exact stepped_upsert sound holds demanded effective careful
  | now =>
      cases effective
      exact .read sound trivial holds
  | getUser =>
      cases effective
      exact .read sound trivial holds

/-- A step that is taken with care. -/
def CarefulEffect : Pool.Effect Tokens TokenOperation TokenReply := fun before operation reply after =>
  TokenEffect before operation reply after ∧ Careful before operation reply

theorem guards [DecidableEq ι] (calls : ι -> Call) (generator : Generator ι session) :
    Pool.Guards CarefulEffect (fun index => tokenGuide (calls index) (generator.token index)) Sound
      (fun tokens index known => Holds (calls index) (generator.token index) tokens known) where
  preserved := by
    intro before after index known operation reply sound holds demanded effective
    exact (stepped sound holds demanded effective.1 effective.2).sound
  expected := by
    intro before after index known operation reply sound holds demanded effective
    exact (stepped sound holds demanded effective.1 effective.2).expected
  learnt := by
    intro before after index known operation reply sound holds demanded effective
    exact (stepped sound holds demanded effective.1 effective.2).learnt
  unspoilt := by
    intro before after index known operation reply sound holds demanded effective other knownOther
      different holdsOther
    exact (stepped sound holds demanded effective.1 effective.2).others _ _ _
      (fun same => different (generator.distinct index other same).symm) holdsOther

/-! ## The calls are guided -/

/-- What is known when the list has been read: as much as before, and a
sign-out does not fail. -/
def Fetched {α : Type} (purpose : Purpose) (before later : Known) (result : Except String α) : Prop :=
  later = before ∧ forall presented, purpose = .signOut presented -> Exists fun value => result = .ok value

theorem fetched_ok {α : Type} (value : α) : Fetched purpose known known (.ok value) :=
  ⟨rfl, fun _ _ => ⟨value, rfl⟩⟩

theorem guided_getUserSetting :
    (getUserSetting purpose).Guided (tokenGuide call generated) (Fetched purpose known) known := by
  refine Program.Guided.perform_bind trivial fun reply _ => ?_
  match reply with
  | some list => exact fetched_ok _
  | none =>
      refine Program.Guided.perform_bind trivial fun row expected => ?_
      match row with
      | .error cause =>
          refine ⟨rfl, fun presented same => ?_⟩
          subst same
          exact False.elim expected
      | .ok none => exact fetched_ok _
      | .ok (some list) =>
          refine Program.Guided.perform_bind trivial fun _ _ => ?_
          refine Program.Guided.perform_bind trivial fun _ _ => ?_
          exact fetched_ok _

theorem guided_getUserRefreshTokens :
    (getUserRefreshTokens purpose).Guided (tokenGuide call generated) (Fetched purpose known) known := by
  refine guided_getUserSetting.bind fun later result fetched => ?_
  rcases fetched with ⟨rfl, listed⟩
  match result with
  | .error cause =>
      refine ⟨rfl, fun presented same => ?_⟩
      rcases listed presented same with ⟨_, impossible⟩
      cases impossible
  | .ok setting => exact fetched_ok _

/-- What is known when the list has been written. -/
def Written (purpose : Purpose) (before later : Known) : Except String Unit -> Prop
  | .ok () => forall list, later = learn before (.upsertUserSetting purpose list) (.ok ())
  | .error _ => later = before ∧ forall presented, purpose ≠ .signOut presented

theorem guided_changeUserRefreshTokens
    (demanded : forall list, Demands call generated known (.upsertUserSetting purpose list)) :
    (changeUserRefreshTokens purpose).Guided (tokenGuide call generated) (Written purpose known) known := by
  refine guided_getUserRefreshTokens.bind fun later result fetched => ?_
  rcases fetched with ⟨rfl, listed⟩
  match result with
  | .error cause =>
      refine ⟨rfl, fun presented same => ?_⟩
      rcases listed presented same with ⟨_, impossible⟩
      cases impossible
  | .ok list =>
      refine Program.Guided.perform_bind (demanded _) fun reply expected => ?_
      match reply with
      | .error cause =>
          refine ⟨?_, fun presented same => ?_⟩
          · cases purpose <;> rfl
          · subst same
            exact expected
      | .ok () =>
          refine Program.Guided.perform_bind trivial fun _ _ => ?_
          intro other
          cases purpose <;> rfl

/-- The token that was presented is the one that is authenticated. -/
def Authenticated (presented : Option String) (before later : Known) (result : Except String String) : Prop :=
  later = before ∧ forall tokenId, result = .ok tokenId -> presented = some tokenId

theorem authenticated_error {presented : Option String} (cause : String) :
    Authenticated presented known known (.error cause) :=
  ⟨rfl, fun _ impossible => by cases impossible⟩

theorem guided_authenticateUser (tokenId : String) :
    (authenticateUser tokenId).Guided (tokenGuide call generated) (Authenticated (some tokenId) known)
      known := by
  refine Program.Guided.perform_bind trivial fun reply _ => ?_
  match reply with
  | .error cause => exact authenticated_error _
  | .ok none => exact authenticated_error _
  | .ok (some .archived) => exact authenticated_error _
  | .ok (some .normal) => exact ⟨rfl, fun _ same => congrArg some (Except.ok.inj same)⟩

theorem guided_getUserRefreshTokenByID (tokenId : String) :
    (getUserRefreshTokenByID tokenId).Guided (tokenGuide call generated) (fun later _ => later = known)
      known := by
  refine guided_getUserRefreshTokens.bind fun later result fetched => ?_
  match result with
  | .error cause => exact fetched.1
  | .ok list => exact fetched.1

theorem guided_authenticateByRefreshToken (presented : Option String) :
    (authenticateByRefreshToken presented).Guided (tokenGuide call generated) (Authenticated presented known)
      known := by
  match presented with
  | none => exact authenticated_error _
  | some tokenId =>
      refine (guided_getUserRefreshTokenByID tokenId).bind fun later result same => ?_
      subst same
      match result with
      | .error cause => exact authenticated_error _
      | .ok none => exact authenticated_error _
      | .ok (some token) =>
          dsimp only
          split
          · exact guided_authenticateUser tokenId
          · refine Program.Guided.perform_bind trivial fun now _ => ?_
            split
            · exact authenticated_error _
            · exact guided_authenticateUser tokenId

/-- A refresh that succeeded has written its exchange, and a sign-out that
returned has written its removal. -/
structure Wanted (call : Call) (generated : RefreshToken) (known : Known) (result : Result) : Prop where
  exchanged : forall presented token, call = .refreshToken (some presented) ->
    result = .refreshed (.ok token) -> known.exchanged = true
  signedOut : forall presented, call = .signOut true (some presented) -> known.signedOut = true

theorem guided_refreshToken (presented : Option String) (waiting : known.exchanged = false) :
    (refreshToken generated presented).Guided (tokenGuide (.refreshToken presented) generated)
      (fun later result => forall token, result = .ok token -> later.exchanged = true) known := by
  refine (guided_authenticateByRefreshToken presented).bind fun later result authenticated => ?_
  rcases authenticated with ⟨rfl, same⟩
  match result with
  | .error cause => exact fun _ impossible => by cases impossible
  | .ok oldTokenID =>
      have allowed : forall list, Demands (.refreshToken presented) generated later
          (.upsertUserSetting (.exchange oldTokenID generated) list) :=
        fun list => ⟨congrArg Call.refreshToken (same oldTokenID rfl), rfl, waiting⟩
      refine (guided_changeUserRefreshTokens allowed).bind fun written outcome settled => ?_
      match outcome with
      | .error cause => exact fun _ impossible => by cases impossible
      | .ok () =>
          have exchanged : written.exchanged = true := by rw [settled []]; rfl
          have removable : forall list, Demands (.refreshToken presented) generated written
              (.upsertUserSetting (.retire oldTokenID) list) := fun _ => trivial
          refine (guided_changeUserRefreshTokens removable).bind fun retired removal kept => ?_
          match removal with
          | .error cause => exact fun _ _ => by rw [kept.1]; exact exchanged
          | .ok () => exact fun _ _ => by rw [kept []]; exact exchanged

theorem guided_signOut (hasClaims : Bool) (presented : Option String) :
    (signOut hasClaims presented).Guided (tokenGuide (.signOut hasClaims presented) generated)
      (fun later _ => forall tokenId, hasClaims = true -> presented = some tokenId ->
        later.signedOut = true) known := by
  match hasClaims, presented with
  | false, presented => exact fun _ impossible => by cases impossible
  | true, none => exact fun _ _ impossible => by cases impossible
  | true, some tokenId =>
      have allowed : forall list, Demands (.signOut true (some tokenId)) generated known
          (.upsertUserSetting (.signOut tokenId) list) := fun _ => ⟨true, rfl⟩
      refine (guided_changeUserRefreshTokens allowed).bind fun written outcome settled => ?_
      match outcome with
      | .error cause => exact absurd rfl (settled.2 tokenId)
      | .ok () => exact fun _ _ _ => by rw [settled []]; rfl

theorem guided_program (call : Call) (generated : RefreshToken) :
    (program call generated).Guided (tokenGuide call generated) (Wanted call generated) {} := by
  match call with
  | .refreshToken presented =>
      refine (guided_refreshToken presented rfl).bind fun later result settled => ?_
      refine ⟨fun shown token _ same => ?_, fun _ impossible => Call.noConfusion impossible⟩
      exact settled token (Result.refreshed.inj same)
  | .signOut hasClaims presented =>
      refine (guided_signOut hasClaims presented).bind fun later result settled => ?_
      refine ⟨fun _ _ impossible => Call.noConfusion impossible, fun shown same => ?_⟩
      cases same
      exact settled shown rfl rfl

/-! ## Single use -/

theorem pending_sound (calls : ι -> Call) (generator : Generator ι session) :
    Sound (pending calls generator).shared where
  storedIssued := session.storedIssued
  exchangedIssued := fun _ impossible => absurd impossible List.not_mem_nil
  exchangedGone := fun _ impossible => absurd impossible List.not_mem_nil
  exchangedOnce := List.nodup_nil

/-- Each call of a pool goes on as its guide wants. -/
def Guided (calls : ι -> Call) (generator : Generator ι session) (pool : TokenPool ι) : Prop :=
  pool.Guided (fun index => tokenGuide (calls index) (generator.token index))
    (fun tokens index known => Holds (calls index) (generator.token index) tokens known)
    fun index => Wanted (calls index) (generator.token index)

theorem pending_guided (calls : ι -> Call) (generator : Generator ι session) :
    Guided calls generator (pending calls generator) := fun index =>
  ⟨{}, ⟨fun _ => generator.unissued index, fun impossible => Bool.noConfusion impossible,
    fun impossible => Bool.noConfusion impossible⟩, guided_program _ _⟩

/-- The exchange of a refresh that has succeeded. -/
theorem Guided.exchanged {calls : ι -> Call} {generator : Generator ι session} {pool : TokenPool ι}
    (guided : Guided calls generator pool) {index : ι} {presented token : String}
    (refresh : calls index = .refreshToken (some presented))
    (returned : pool.programs index = .done (.refreshed (.ok token))) :
    (presented, (generator.token index).tokenId) ∈ pool.shared.exchanges := by
  rcases guided index with ⟨known, holds, wanted⟩
  rw [returned] at wanted
  have settled : Wanted (calls index) (generator.token index) known (.refreshed (.ok token)) := wanted
  exact holds.exchanged (settled.exchanged presented token refresh rfl) presented refresh

/-- The token of a sign-out that has returned. -/
theorem Guided.signedOut {calls : ι -> Call} {generator : Generator ι session} {pool : TokenPool ι}
    (guided : Guided calls generator pool) {index : ι} (signOut : calls index = .signOut true (some presented))
    (returned : pool.programs index = .done .signedOut) : SignedOut pool.shared presented := by
  rcases guided index with ⟨known, holds, wanted⟩
  rw [returned] at wanted
  have settled : Wanted (calls index) (generator.token index) known .signedOut := wanted
  exact holds.signedOut (settled.signedOut presented signOut) true presented signOut

/-- If every step of a run is taken with care, and nobody signs out without an
access token, a token is exchanged at most once and a sign-out is final. -/
theorem rotation_single_use [DecidableEq ι] (calls : ι -> Call) (generator : Generator ι session)
    {last : TokenPool ι}
    (claims : forall index hasClaims presented,
      calls index = .signOut hasClaims presented -> hasClaims = true)
    (run : Run Careful (pending calls generator) last) : SingleUse calls last := by
  have careful : Pool.Run CarefulEffect (fun _ _ => False) (fun _ _ _ _ _ => True)
      (pending calls generator) last :=
    Pool.Run.strengthen run fun _ _ _ _ _ effective allowed => ⟨effective, allowed⟩
  rcases Pool.Run.guided careful (guards calls generator) (pending_sound calls generator)
    (pending_guided calls generator) with ⟨sound, guided⟩
  refine ⟨?_, ?_⟩
  · intro first second presented firstNew secondNew firstCall secondCall firstDone secondDone
    have firstExchange := Guided.exchanged guided firstCall firstDone
    have secondExchange := Guided.exchanged guided secondCall secondDone
    have same := List.inj_on_of_nodup_map sound.exchangedOnce firstExchange secondExchange rfl
    exact generator.distinct first second (Prod.mk.inj same).2
  · intro index hasClaims presented signOut returned token descends _
    cases claims index hasClaims (some presented) signOut
    exact (Guided.signedOut guided signOut returned).no_descendant descends

/-! ## Two tabs -/

def oldToken : RefreshToken := { tokenId := "old" }

/-- A session with one token. -/
def oneToken : Session where
  stored := some [oldToken]
  cache := some [oldToken]
  issued := ["old"]
  storedIssued := by decide

def newTokens : Generator Bool oneToken where
  token := fun second => { tokenId := if second then "second" else "first" }
  distinct := by decide
  unissued := by decide

/-- Two tabs refresh with the token at the same time. -/
def twoTabs : Bool -> Call := fun _ => .refreshToken (some "old")

/-- The first tab alone. -/
theorem rotation_single_use_oneTab :
    Exists fun last : TokenPool Bool => last.programs false = .done (.refreshed (.ok "first")) ∧
      last.shared.stored = some [{ tokenId := "first" }] ∧ SingleUse twoTabs last := by
  have begun : Run Careful (pending twoTabs newTokens) (pending twoTabs newTokens) := .refl
  have found := begun.operation false rfl (some [oldToken]) _ ⟨rfl, Or.inl rfl⟩ trivial
  have known := found.operation false rfl (.ok (some .normal)) _ rfl trivial
  have read := known.operation false rfl (some [oldToken]) _ ⟨rfl, Or.inl rfl⟩ trivial
  have added := read.operation false rfl (.ok ()) _ rfl ⟨rfl, by decide, by decide⟩
  have cached := added.operation false rfl () _ rfl trivial
  have again := cached.operation false rfl (some [oldToken, { tokenId := "first" }]) _ ⟨rfl, Or.inl rfl⟩
    trivial
  have removed := again.operation false rfl (.ok ()) _ rfl ⟨rfl, trivial⟩
  have returned := removed.operation false rfl () _ rfl trivial
  have single := rotation_single_use twoTabs newTokens (fun _ _ _ impossible => Call.noConfusion impossible)
    returned
  exact ⟨_, rfl, by decide, single⟩

/-- Both tabs find the token in the list before either of them has removed it,
and each is given a new one. -/
theorem both_tabs_refreshed :
    ¬ forall (calls : Bool -> Call) (generator : Generator Bool oneToken) (last : TokenPool Bool),
      Run (fun _ _ _ => True) (pending calls generator) last -> SingleUse calls last := by
  intro single
  have begun : Run (fun _ _ _ => True) (pending twoTabs newTokens) (pending twoTabs newTokens) := .refl
  have firstFound := begun.operation false rfl (some [oldToken]) _ ⟨rfl, Or.inl rfl⟩ trivial
  have secondFound := firstFound.operation true rfl (some [oldToken]) _ ⟨rfl, Or.inl rfl⟩ trivial
  have firstKnown := secondFound.operation false rfl (.ok (some .normal)) _ rfl trivial
  have secondKnown := firstKnown.operation true rfl (.ok (some .normal)) _ rfl trivial
  have firstRead := secondKnown.operation false rfl (some [oldToken]) _ ⟨rfl, Or.inl rfl⟩ trivial
  have firstAdded := firstRead.operation false rfl (.ok ()) _ rfl trivial
  have firstCached := firstAdded.operation false rfl () _ rfl trivial
  have firstAgain := firstCached.operation false rfl (some [oldToken, { tokenId := "first" }]) _
    ⟨rfl, Or.inl rfl⟩ trivial
  have firstRemoved := firstAgain.operation false rfl (.ok ()) _ rfl trivial
  have firstReturned := firstRemoved.operation false rfl () _ rfl trivial
  have secondRead := firstReturned.operation true rfl (some [{ tokenId := "first" }]) _
    ⟨rfl, Or.inl rfl⟩ trivial
  have secondAdded := secondRead.operation true rfl (.ok ()) _ rfl trivial
  have secondCached := secondAdded.operation true rfl () _ rfl trivial
  have secondAgain := secondCached.operation true rfl
    (some [{ tokenId := "first" }, { tokenId := "second" }]) _ ⟨rfl, Or.inl rfl⟩ trivial
  have secondRemoved := secondAgain.operation true rfl (.ok ()) _ rfl trivial
  have secondReturned := secondRemoved.operation true rfl () _ rfl trivial
  exact Bool.noConfusion ((single twoTabs newTokens _ secondReturned).once false true "old" "first"
    "second" rfl rfl rfl rfl)

end RefreshTokens
end Service
end Memos
