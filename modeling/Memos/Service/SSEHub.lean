import Memos.Library.Channel
import Memos.Store.Tables

namespace Memos
namespace Service

open Library Memos.Filter Store

/-!
# The hub of server-sent events

Clients subscribe to a hub, which sends each event to the channels of the
clients that may receive it.  A channel is closed when its client leaves, when
the hub closes, or at once when the client comes after that.  The hub's mutex
makes each operation one step; a handler takes events from the channel of its
client at any time and writes them to the response.
-/

/-- `SSEEventType` -/
inductive SSEEventType where
  | memoCreated
  | memoUpdated
  | memoDeleted
  | memoCommentCreated
  | reactionUpserted
  | reactionDeleted
deriving DecidableEq

def SSEEventType.string : SSEEventType -> String
  | .memoCreated => "memo.created"
  | .memoUpdated => "memo.updated"
  | .memoDeleted => "memo.deleted"
  | .memoCommentCreated => "memo.comment.created"
  | .reactionUpserted => "reaction.upserted"
  | .reactionDeleted => "reaction.deleted"

structure SSEEvent where
  type : SSEEventType
  name : String
  parent : String := ""
  /-- Only for the delivery, as is the creator. -/
  visibility : String := ""
  creatorId : Nat := 0
deriving DecidableEq

/-- `encoding/json` also escapes the characters of HTML and two separators. -/
def escapeHtmlChar (c : Char) : List Char :=
  if c = '<' then "\\u003c".toList
  else if c = '>' then "\\u003e".toList
  else if c = '&' then "\\u0026".toList
  else if c = '\u2028' then "\\u2028".toList
  else if c = '\u2029' then "\\u2029".toList
  else escapeChar c

/-- A string as `json.Marshal` writes it. -/
def marshalString (value : String) : String :=
  String.ofList ('"' :: value.toList.flatMap escapeHtmlChar ++ ['"'])

/-- `SSEEvent.JSON`, which leaves out an empty parent. -/
def SSEEvent.json (event : SSEEvent) : String :=
  "\x7b\"type\":" ++ marshalString event.type.string ++
    ",\"name\":" ++ marshalString event.name ++
    (if event.parent = "" then "" else ",\"parent\":" ++ marshalString event.parent) ++ "\x7d"

/-- The events that wait for a slow client. -/
def sseBufferSize : Nat := 32

/-- A client, with what its handler has written to the response. -/
structure SSEClient where
  events : Channel String sseBufferSize := .make
  userId : Nat
  role : Role
  written : List String := []

def SSEClient.canReceive (client : SSEClient) (event : SSEEvent) : Bool :=
  if event.visibility = Visibility.isPrivate.string then
    client.userId = event.creatorId || client.role = .admin
  else
    event.visibility = Visibility.isPublic.string ||
      event.visibility = Visibility.isProtected.string || event.visibility = ""

/-- What a client has got: written to the response, or waiting. -/
def SSEClient.held (client : SSEClient) : List String := client.written ++ client.events.buffer

/-- The hub and the clients that were ever subscribed, by their addresses. -/
structure SSEHub where
  clients : List Nat := []
  closed : Bool := false
  allocated : Nat := 0
  heap : Nat -> SSEClient := fun _ => { userId := 0, role := .user }

namespace SSEHub

/-- Close the channel of a client. -/
def closeChannel (client : SSEClient) : Except ChannelPanic SSEClient := do
  let events ← client.events.close
  return { client with events := events }

/-- Send an event to a client that may receive it. -/
def deliver (event : SSEEvent) (client : SSEClient) : Except ChannelPanic SSEClient :=
  if client.canReceive event then do
    let events ← client.events.trySend event.json
    return { client with events := events }
  else .ok client

def subscribe (userId : Nat) (role : Role) (hub : SSEHub) : Except ChannelPanic SSEHub := do
  let client : SSEClient := { userId := userId, role := role }
  if hub.closed then
    let closedClient ← closeChannel client
    return { hub with
      allocated := hub.allocated + 1
      heap := Function.update hub.heap hub.allocated closedClient }
  else
    return { hub with
      clients := hub.allocated :: hub.clients
      allocated := hub.allocated + 1
      heap := Function.update hub.heap hub.allocated client }

def unsubscribe (client : Nat) (hub : SSEHub) : Except ChannelPanic SSEHub :=
  if client ∈ hub.clients then do
    let heap ← modifyAt closeChannel hub.heap client
    return { hub with clients := hub.clients.filter fun other => other ≠ client, heap := heap }
  else .ok hub

def close (hub : SSEHub) : Except ChannelPanic SSEHub :=
  if hub.closed then .ok hub
  else do
    let heap ← hub.clients.foldlM (modifyAt closeChannel) hub.heap
    return { hub with clients := [], closed := true, heap := heap }

def broadcast (event : SSEEvent) (hub : SSEHub) : Except ChannelPanic SSEHub :=
  if event.json = "" then .ok hub
  else do
    let heap ← hub.clients.foldlM (modifyAt (deliver event)) hub.heap
    return { hub with heap := heap }

/-- The handler of a client takes an event, if there is one. -/
def drain (client : Nat) (hub : SSEHub) : SSEHub :=
  let received := (hub.heap client).events.receive
  { hub with heap := Function.update hub.heap client { hub.heap client with
      events := received.2, written := (hub.heap client).written ++ received.1.toList } }

end SSEHub

/-- What can happen to a hub. -/
inductive HubAction where
  | subscribe (userId : Nat) (role : Role)
  | unsubscribe (client : Nat)
  | broadcast (event : SSEEvent)
  | close
  | drain (client : Nat)
deriving DecidableEq

namespace SSEHub

def step (hub : SSEHub) : HubAction -> Except ChannelPanic SSEHub
  | .subscribe userId role => hub.subscribe userId role
  | .unsubscribe client => hub.unsubscribe client
  | .broadcast event => hub.broadcast event
  | .close => hub.close
  | .drain client => .ok (hub.drain client)

/-- The actions in the order in which they take the mutex. -/
def run (hub : SSEHub) (actions : List HubAction) : Except ChannelPanic SSEHub :=
  actions.foldlM step hub

/-! ## The invariant -/

/-- The registered clients are those with an open channel. -/
structure Valid (hub : SSEHub) : Prop where
  registered : forall client, client < hub.allocated ->
    (client ∈ hub.clients ↔ (hub.heap client).events.closed = false)
  allocated : forall client, client ∈ hub.clients -> client < hub.allocated
  distinct : hub.clients.Nodup
  closed : hub.closed = true -> hub.clients = []

theorem valid_empty : Valid {} where
  registered := fun _ impossible => absurd impossible (Nat.not_lt_zero _)
  allocated := fun _ impossible => absurd impossible List.not_mem_nil
  distinct := List.nodup_nil
  closed := fun _ => rfl

variable {hub : SSEHub}

theorem Valid.isOpen (valid : hub.Valid) {client : Nat} (member : client ∈ hub.clients) :
    (hub.heap client).events.closed = false :=
  (valid.registered client (valid.allocated client member)).mp member

theorem closeChannel_open {client : SSEClient} (isOpen : client.events.closed = false) :
    closeChannel client =
      .ok { client with events := { client.events with closed := true } } := by
  unfold closeChannel
  rw [Channel.close_open isOpen]
  rfl

/-- The clients that an event is sent to stay open, and their buffers grow by
the event at most. -/
theorem deliver_open {client : SSEClient} (isOpen : client.events.closed = false) (event : SSEEvent) :
    Exists fun sent => deliver event client = .ok sent ∧ sent.events.closed = false ∧
      sent.userId = client.userId ∧ sent.role = client.role ∧ sent.written = client.written ∧
      (sent.events.buffer = client.events.buffer ∨
        client.canReceive event = true ∧
          sent.events.buffer = client.events.buffer ++ [event.json]) := by
  unfold deliver
  cases permitted : client.canReceive event with
  | false => exact ⟨client, rfl, isOpen, rfl, rfl, rfl, .inl rfl⟩
  | true =>
      rcases Channel.trySend_open isOpen event.json with ⟨events, sent, stillOpen, buffered⟩
      rw [if_pos rfl, sent]
      refine ⟨{ client with events := events }, rfl, stillOpen, rfl, rfl, rfl, ?_⟩
      rcases buffered with kept | grown
      · exact .inl kept
      · exact .inr ⟨rfl, grown⟩

/-! ## One action -/

/-- The events that an action broadcasts. -/
def events : HubAction -> List SSEEvent
  | .broadcast event => [event]
  | _ => []

/-- The action ends the subscription of a client. -/
def ends (client : Nat) : HubAction -> Bool
  | .unsubscribe other => other = client
  | .close => true
  | _ => false

def subscriptions : HubAction -> Nat
  | .subscribe _ _ => 1
  | _ => 0

def closes : HubAction -> Bool
  | .close => true
  | _ => false

/-- What an action does to a client that is there already. -/
structure Changes (action : HubAction) (client : Nat) (hub after : SSEHub) : Prop where
  userId : (after.heap client).userId = (hub.heap client).userId
  role : (after.heap client).role = (hub.heap client).role
  registered : client ∈ after.clients ↔ client ∈ hub.clients ∧ ends client action = false
  held : Exists fun delivered => (after.heap client).held = (hub.heap client).held ++ delivered ∧
    (delivered = [] ∨ client ∈ hub.clients ∧
      delivered.Sublist (((events action).filter (hub.heap client).canReceive).map SSEEvent.json))

/-- What an action does to the hub. -/
structure Outcome (action : HubAction) (hub after : SSEHub) : Prop where
  valid : after.Valid
  allocated : after.allocated = hub.allocated + subscriptions action
  closed : after.closed = (hub.closed || closes action)
  changes : forall client, client < hub.allocated -> Changes action client hub after

/-- An action that leaves a client alone. -/
theorem changes_of_same {action : HubAction} {client : Nat} {after : SSEHub}
    (same : after.heap client = hub.heap client)
    (registered : client ∈ after.clients ↔ client ∈ hub.clients ∧ ends client action = false) :
    Changes action client hub after where
  userId := congrArg SSEClient.userId same
  role := congrArg SSEClient.role same
  registered := registered
  held := ⟨[], by rw [same, List.append_nil], .inl rfl⟩

/-- The address of a new client was not in use. -/
theorem Valid.fresh (valid : hub.Valid) : hub.allocated ∉ hub.clients := fun member =>
  Nat.lt_irrefl _ (valid.allocated _ member)

/-- The client that a subscription adds. -/
structure Subscribed (userId : Nat) (role : Role) (hub after : SSEHub) : Prop where
  userId : (after.heap hub.allocated).userId = userId
  role : (after.heap hub.allocated).role = role
  held : (after.heap hub.allocated).held = []
  registered : hub.allocated ∈ after.clients ↔ hub.closed = false

theorem subscribe_outcome (valid : hub.Valid) (userId : Nat) (role : Role) :
    Exists fun after => hub.subscribe userId role = .ok after ∧
      Outcome (.subscribe userId role) hub after ∧ Subscribed userId role hub after := by
  have old : forall client, client < hub.allocated -> client ≠ hub.allocated :=
    fun _ below => Nat.ne_of_lt below
  unfold subscribe
  cases closed : hub.closed with
  | true =>
      have noClients := valid.closed closed
      rw [if_pos rfl, closeChannel_open rfl]
      refine ⟨_, rfl, ⟨⟨?_, ?_, valid.distinct, fun _ => noClients⟩, rfl, ?_, ?_⟩,
        ⟨?_, ?_, ?_, ?_⟩⟩
      · intro client below
        rcases Nat.lt_or_eq_of_le (Nat.le_of_lt_succ below) with earlier | rfl
        · simp only [Function.update_of_ne (old client earlier)]
          exact valid.registered client earlier
        · simp only [Function.update_self, noClients]
          simp
      · intro client member
        exact Nat.lt_succ_of_lt (valid.allocated client member)
      · exact (Bool.or_false _).symm.trans (by rw [closed]; rfl)
      · intro client below
        apply changes_of_same
        · exact Function.update_of_ne (old client below) _ _
        · exact ⟨fun member => ⟨member, rfl⟩, And.left⟩
      · simp only [Function.update_self]
      · simp only [Function.update_self]
      · simp only [Function.update_self]
        rfl
      · simp [noClients, closed]
  | false =>
      rw [if_neg Bool.false_ne_true]
      refine ⟨_, rfl, ⟨⟨?_, ?_, ?_, ?_⟩, rfl, ?_, ?_⟩, ⟨?_, ?_, ?_, ?_⟩⟩
      · intro client below
        rcases Nat.lt_or_eq_of_le (Nat.le_of_lt_succ below) with earlier | rfl
        · simp only [Function.update_of_ne (old client earlier), List.mem_cons,
            old client earlier, false_or]
          exact valid.registered client earlier
        · simp only [Function.update_self, List.mem_cons, true_or]
          exact ⟨fun _ => rfl, fun _ => trivial⟩
      · intro client member
        rcases List.mem_cons.mp member with rfl | earlier
        · exact Nat.lt_succ_self _
        · exact Nat.lt_succ_of_lt (valid.allocated client earlier)
      · exact List.nodup_cons.mpr ⟨valid.fresh, valid.distinct⟩
      · intro impossible
        cases impossible
      · exact (Bool.or_false _).symm.trans (by rw [closed]; rfl)
      · intro client below
        apply changes_of_same
        · exact Function.update_of_ne (old client below) _ _
        · simp only [List.mem_cons, old client below, false_or]
          exact ⟨fun member => ⟨member, rfl⟩, And.left⟩
      · simp only [Function.update_self]
      · simp only [Function.update_self]
      · simp only [Function.update_self]
        rfl
      · exact ⟨fun _ => closed, fun _ => List.mem_cons_self⟩

theorem unsubscribe_outcome (valid : hub.Valid) (client : Nat) :
    Exists fun after => hub.unsubscribe client = .ok after ∧
      Outcome (.unsubscribe client) hub after := by
  unfold unsubscribe
  by_cases member : client ∈ hub.clients
  · have changed : modifyAt closeChannel hub.heap client = .ok (Function.update hub.heap client
        { hub.heap client with events := { (hub.heap client).events with closed := true } }) := by
      unfold modifyAt
      rw [closeChannel_open (valid.isOpen member)]
      rfl
    rw [if_pos member, changed]
    have remains : forall other, other ∈ hub.clients.filter (fun other => other ≠ client) ↔
        other ∈ hub.clients ∧ other ≠ client := by
      intro other
      rw [List.mem_filter, decide_eq_true_iff]
    refine ⟨_, rfl, ⟨⟨?_, ?_, valid.distinct.filter _, ?_⟩, rfl, ?_, ?_⟩⟩
    · intro other below
      rw [remains]
      by_cases same : other = client
      · subst same
        simp
      · simp only [Function.update_of_ne same, ne_eq, same, not_false_eq_true, and_true]
        exact valid.registered other below
    · intro other left
      exact valid.allocated other ((remains other).mp left).1
    · intro closed
      rw [valid.closed closed]
      rfl
    · exact (Bool.or_false _).symm
    · intro other below
      by_cases same : other = client
      · subst same
        refine ⟨by simp, by simp, ?_, [], ?_, .inl rfl⟩
        · rw [remains]
          simp [ends]
        · simp [SSEClient.held]
      · apply changes_of_same
        · exact Function.update_of_ne same _ _
        · have apart : client ≠ other := fun equal => same equal.symm
          rw [remains]
          simp [ends, same, apart]
  · rw [if_neg member]
    refine ⟨hub, rfl, ⟨valid, rfl, (Bool.or_false _).symm, ?_⟩⟩
    intro other below
    apply changes_of_same rfl
    refine ⟨fun registered => ⟨registered, ?_⟩, And.left⟩
    have apart : client ≠ other := fun same => member (same ▸ registered)
    exact decide_eq_false apart

theorem close_outcome (valid : hub.Valid) :
    Exists fun after => hub.close = .ok after ∧ Outcome .close hub after := by
  unfold close
  cases closed : hub.closed with
  | true =>
      rw [if_pos rfl]
      refine ⟨hub, rfl, ⟨valid, rfl, by rw [closed]; rfl, ?_⟩⟩
      intro client below
      apply changes_of_same rfl
      rw [valid.closed closed]
      simp [ends]
  | false =>
      have all : hub.clients.foldlM (modifyAt closeChannel) hub.heap = .ok fun client =>
          if client ∈ hub.clients then { hub.heap client with
            events := { (hub.heap client).events with closed := true } } else hub.heap client :=
        foldlM_modifyAt valid.distinct fun client member => closeChannel_open (valid.isOpen member)
      rw [if_neg Bool.false_ne_true, all]
      refine ⟨_, rfl, ⟨⟨?_, ?_, List.nodup_nil, fun _ => rfl⟩, rfl, by rw [closed]; rfl, ?_⟩⟩
      · intro client below
        by_cases member : client ∈ hub.clients
        · simp [member]
        · have already := (not_congr (valid.registered client below)).mp member
          simpa [member] using already
      · intro client impossible
        exact absurd impossible List.not_mem_nil
      · intro client below
        by_cases member : client ∈ hub.clients
        · exact ⟨by simp [member], by simp [member], by simp [ends],
            [], by simp [member, SSEClient.held], .inl rfl⟩
        · apply changes_of_same
          · simp [member]
          · simp [ends]

theorem broadcast_outcome (valid : hub.Valid) (event : SSEEvent) :
    Exists fun after => hub.broadcast event = .ok after ∧
      Outcome (.broadcast event) hub after := by
  unfold broadcast
  by_cases empty : event.json = ""
  · rw [if_pos empty]
    refine ⟨hub, rfl, ⟨valid, rfl, (Bool.or_false _).symm, ?_⟩⟩
    intro client below
    exact changes_of_same rfl ⟨fun member => ⟨member, rfl⟩, And.left⟩
  · -- What each registered client becomes.
    have deliveries : Exists fun outcome : Nat -> SSEClient => forall client,
        client ∈ hub.clients -> deliver event (hub.heap client) = .ok (outcome client) ∧
          (outcome client).events.closed = false ∧
          (outcome client).userId = (hub.heap client).userId ∧
          (outcome client).role = (hub.heap client).role ∧
          (outcome client).written = (hub.heap client).written ∧
          ((outcome client).events.buffer = (hub.heap client).events.buffer ∨
            (hub.heap client).canReceive event = true ∧
              (outcome client).events.buffer =
                (hub.heap client).events.buffer ++ [event.json]) := by
      have each : forall client, Exists fun sent : SSEClient => client ∈ hub.clients ->
          deliver event (hub.heap client) = .ok sent ∧ sent.events.closed = false ∧
          sent.userId = (hub.heap client).userId ∧ sent.role = (hub.heap client).role ∧
          sent.written = (hub.heap client).written ∧
          (sent.events.buffer = (hub.heap client).events.buffer ∨
            (hub.heap client).canReceive event = true ∧
              sent.events.buffer = (hub.heap client).events.buffer ++ [event.json]) := by
        intro client
        by_cases member : client ∈ hub.clients
        · rcases deliver_open (valid.isOpen member) event with ⟨sent, facts⟩
          exact ⟨sent, fun _ => facts⟩
        · exact ⟨hub.heap client, fun impossible => absurd impossible member⟩
      exact ⟨fun client => (each client).choose, fun client => (each client).choose_spec⟩
    rcases deliveries with ⟨outcome, delivered⟩
    have all : hub.clients.foldlM (modifyAt (deliver event)) hub.heap = .ok fun client =>
        if client ∈ hub.clients then outcome client else hub.heap client :=
      foldlM_modifyAt valid.distinct fun client member => (delivered client member).1
    rw [if_neg empty, all]
    refine ⟨_, rfl, ⟨⟨?_, valid.allocated, valid.distinct, valid.closed⟩, rfl,
      (Bool.or_false _).symm, ?_⟩⟩
    · intro client below
      by_cases member : client ∈ hub.clients
      · simp [member, (delivered client member).2.1]
      · simpa [member] using valid.registered client below
    · intro client below
      by_cases member : client ∈ hub.clients
      · rcases delivered client member with ⟨_, _, userId, role, written, buffered⟩
        refine ⟨by simp [member, userId], by simp [member, role], by simp [ends], ?_⟩
        rcases buffered with kept | ⟨permitted, grown⟩
        · exact ⟨[], by simp [member, SSEClient.held, written, kept], .inl rfl⟩
        · refine ⟨[event.json], by simp [member, SSEClient.held, written, grown], .inr ⟨member, ?_⟩⟩
          simp [events, permitted]
      · apply changes_of_same
        · simp [member]
        · simp [ends]

theorem drain_outcome (valid : hub.Valid) (client : Nat) :
    Outcome (.drain client) hub (hub.drain client) where
  valid := by
    refine ⟨?_, valid.allocated, valid.distinct, valid.closed⟩
    intro other below
    unfold drain
    by_cases same : other = client
    · subst same
      simpa [Channel.receive] using valid.registered other below
    · simpa [Function.update_of_ne same] using valid.registered other below
  allocated := rfl
  closed := (Bool.or_false _).symm
  changes := by
    intro other below
    by_cases same : other = client
    · subst same
      refine ⟨by simp [drain], by simp [drain], by simp [drain, ends], [], ?_, .inl rfl⟩
      have front := Channel.receive_append (hub.heap other).events
      simp only [drain, Function.update_self, SSEClient.held, List.append_assoc, front,
        List.append_nil]
    · apply changes_of_same
      · exact Function.update_of_ne same _ _
      · simp [drain, ends]

/-- No action of a valid hub panics. -/
theorem step_outcome (valid : hub.Valid) (action : HubAction) :
    Exists fun after => hub.step action = .ok after ∧ Outcome action hub after := by
  cases action with
  | subscribe userId role =>
      rcases subscribe_outcome valid userId role with ⟨after, success, outcome, _⟩
      exact ⟨after, success, outcome⟩
  | unsubscribe client => exact unsubscribe_outcome valid client
  | broadcast event => exact broadcast_outcome valid event
  | close => exact close_outcome valid
  | drain client => exact ⟨_, rfl, drain_outcome valid client⟩

/-! ## Runs -/

theorem run_nil : hub.run [] = .ok hub := rfl

theorem run_cons {action : HubAction} {rest : List HubAction} {after : SSEHub}
    (first : hub.step action = .ok after) : hub.run (action :: rest) = after.run rest := by
  unfold run
  rw [List.foldlM_cons, first]
  rfl

theorem run_append (first second : List HubAction) :
    hub.run (first ++ second) = hub.run first >>= fun middle => middle.run second := by
  unfold run
  exact List.foldlM_append

/-- The events broadcast until the subscription of a client ends. -/
def offered (client : Nat) (actions : List HubAction) : List SSEEvent :=
  (actions.takeWhile fun action => !ends client action).flatMap events

theorem offered_cons (client : Nat) (action : HubAction) (rest : List HubAction) :
    offered client (action :: rest) =
      if ends client action then [] else events action ++ offered client rest := by
  unfold offered
  rw [List.takeWhile_cons]
  cases ends client action <;> rfl

/-- The events that end a subscription are no broadcasts. -/
theorem events_of_ends {client : Nat} {action : HubAction} (ending : ends client action = true) :
    events action = [] := by
  cases action with
  | broadcast event => cases ending
  | subscribe userId role => rfl
  | unsubscribe other => rfl
  | close => rfl
  | drain other => rfl

/-- The JSON texts of the events that a client may receive. -/
def eligible (client : SSEClient) (offers : List SSEEvent) : List String :=
  (offers.filter client.canReceive).map SSEEvent.json

theorem canReceive_congr {first second : SSEClient} (userId : second.userId = first.userId)
    (role : second.role = first.role) : second.canReceive = first.canReceive := by
  funext event
  unfold SSEClient.canReceive
  rw [userId, role]

/-- What a run does to a client that is there already. -/
structure Lasts (actions : List HubAction) (client : Nat) (hub last : SSEHub) : Prop where
  userId : (last.heap client).userId = (hub.heap client).userId
  role : (last.heap client).role = (hub.heap client).role
  held : Exists fun delivered => (last.heap client).held = (hub.heap client).held ++ delivered ∧
    (client ∉ hub.clients -> delivered = []) ∧
    delivered.Sublist (eligible (hub.heap client) (offered client actions))

/-- A run of a valid hub does not panic, and what its clients get in addition
is a subsequence of what they are offered. -/
theorem run_outcome (valid : hub.Valid) (actions : List HubAction) :
    Exists fun last => hub.run actions = .ok last ∧ last.Valid ∧
      last.allocated = hub.allocated + (actions.map subscriptions).sum ∧
      last.closed = (hub.closed || actions.any closes) ∧
      forall client, client < hub.allocated -> Lasts actions client hub last := by
  induction actions generalizing hub with
  | nil =>
      refine ⟨hub, run_nil, valid, rfl, (Bool.or_false _).symm, ?_⟩
      intro client _
      exact ⟨rfl, rfl, [], (List.append_nil _).symm, fun _ => rfl, List.nil_sublist _⟩
  | cons action rest ih =>
      rcases step_outcome valid action with ⟨after, stepped, outcome⟩
      rcases ih outcome.valid with ⟨last, ran, lastValid, count, closed, lasts⟩
      refine ⟨last, (run_cons stepped).trans ran, lastValid, ?_, ?_, ?_⟩
      · rw [count, outcome.allocated, List.map_cons, List.sum_cons, Nat.add_assoc]
      · rw [closed, outcome.closed, List.any_cons, Bool.or_assoc]
      · intro client below
        have changes := outcome.changes client below
        have later := lasts client (by rw [outcome.allocated]; omega)
        rcases changes.held with ⟨first, firstHeld, firstOffered⟩
        rcases later.held with ⟨second, secondHeld, unregistered, secondOffered⟩
        have same : eligible (after.heap client) = eligible (hub.heap client) := by
          unfold eligible
          rw [canReceive_congr changes.userId changes.role]
        rw [same] at secondOffered
        refine ⟨later.userId.trans changes.userId, later.role.trans changes.role,
          first ++ second, ?_, ?_, ?_⟩
        · rw [secondHeld, firstHeld, List.append_assoc]
        · intro absent
          have stillAbsent : client ∉ after.clients :=
            fun present => absent (changes.registered.mp present).1
          rcases firstOffered with none | ⟨present, _⟩
          · rw [none, unregistered stillAbsent]
            rfl
          · exact absurd present absent
        · rw [offered_cons]
          cases ending : ends client action with
          | true =>
              have gone : client ∉ after.clients := by
                intro present
                have continuing := (changes.registered.mp present).2
                rw [ending] at continuing
                cases continuing
              have nothing : first = [] := by
                rcases firstOffered with none | ⟨_, some⟩
                · exact none
                · rw [events_of_ends ending] at some
                  exact List.sublist_nil.mp some
              rw [nothing, unregistered gone]
              exact List.nil_sublist _
          | false =>
              have firstEligible : first.Sublist (eligible (hub.heap client) (events action)) := by
                rcases firstOffered with rfl | ⟨_, some⟩
                · exact List.nil_sublist _
                · exact some
              have both := firstEligible.append secondOffered
              unfold eligible at both ⊢
              rw [if_neg Bool.false_ne_true, List.filter_append, List.map_append]
              exact both

/-- Whatever the order of the actions on a new hub, nothing panics, the
registered clients are those with an open channel, there are none after the
hub is closed, and every client gets, in order and at most once, some of the
events that it may receive among those broadcast during its subscription. -/
theorem hub_safety (actions : List HubAction) :
    Exists fun hub => run {} actions = .ok hub ∧
      (forall client, client < hub.allocated ->
        (client ∈ hub.clients ↔ (hub.heap client).events.closed = false)) ∧
      (forall client, client ∈ hub.clients -> client < hub.allocated) ∧
      (.close ∈ actions -> hub.clients = []) ∧
      forall before userId role after, actions = before ++ .subscribe userId role :: after ->
        let client := (before.map subscriptions).sum
        client < hub.allocated ∧ (hub.heap client).userId = userId ∧
          (hub.heap client).role = role ∧
          ((hub.heap client).written ++ (hub.heap client).events.buffer).Sublist
            (if .close ∈ before then []
             else eligible (hub.heap client) (offered client after)) := by
  have isClose : forall list : List HubAction, list.any closes = true ↔ .close ∈ list := by
    intro list
    rw [List.any_eq_true]
    constructor
    · rintro ⟨action, member, closing⟩
      cases action <;> first | exact member | cases closing
    · intro member
      exact ⟨.close, member, rfl⟩
  rcases run_outcome valid_empty actions with ⟨hub, ran, valid, _, closed, _⟩
  refine ⟨hub, ran, valid.registered, valid.allocated, ?_, ?_⟩
  · intro member
    apply valid.closed
    rw [closed, (isClose actions).mpr member, Bool.or_true]
  · rintro before userId role after rfl
    dsimp only
    -- The run passes the hub of the moment and the hub with the new client.
    rcases run_outcome valid_empty before with ⟨start, started, startValid, count, startClosed, _⟩
    rcases subscribe_outcome startValid userId role with ⟨next, subscribed, outcome, added⟩
    rcases run_outcome outcome.valid after with ⟨last, continued, _, total, _, lasts⟩
    have stepped : start.step (.subscribe userId role) = .ok next := subscribed
    have whole : run {} (before ++ .subscribe userId role :: after) = .ok last := by
      rw [run_append, started]
      exact (run_cons stepped).trans continued
    have same : last = hub := Except.ok.inj (whole.symm.trans ran)
    subst same
    have address : (before.map subscriptions).sum = start.allocated := by
      rw [count]
      exact (Nat.zero_add _).symm
    rw [address]
    have below : start.allocated < next.allocated := by
      rw [outcome.allocated]
      exact Nat.lt_succ_self _
    have lasting := lasts start.allocated below
    have userIds := lasting.userId.trans added.userId
    have roles := lasting.role.trans added.role
    refine ⟨by rw [total]; omega, userIds, roles, ?_⟩
    rcases lasting.held with ⟨delivered, held, unregistered, sublist⟩
    have all : (last.heap start.allocated).written ++
        (last.heap start.allocated).events.buffer = delivered := by
      rw [added.held] at held
      exact held
    rw [all]
    by_cases member : .close ∈ before
    · have gone : start.allocated ∉ next.clients := by
        intro present
        have notClosed := added.registered.mp present
        rw [startClosed, (isClose before).mpr member] at notClosed
        cases notClosed
      rw [if_pos member, unregistered gone]
    · have same : eligible (last.heap start.allocated) = eligible (next.heap start.allocated) := by
        unfold eligible
        rw [canReceive_congr lasting.userId lasting.role]
      rw [if_neg member, same]
      exact sublist

end SSEHub

end Service
end Memos
