import Mathlib.Data.List.Basic
import Mathlib.Logic.Function.Basic
import Memos.Library.Except

namespace Memos
namespace Library

/-!
# Buffered channels

A channel has a buffer of fixed capacity and can be closed.  Sending to a
closed channel and closing it again are panics.  A sender that does not wait
drops its value when the buffer is full; what is in the buffer when the
channel is closed can still be received.
-/

inductive ChannelPanic where
  | sendOnClosed
  | closeOfClosed
deriving DecidableEq

structure Channel (α : Type) (capacity : Nat) where
  buffer : List α := []
  closed : Bool := false
  bounded : buffer.length ≤ capacity

namespace Channel

variable {α : Type} {capacity : Nat}

/-- `make(chan α, capacity)` -/
def make : Channel α capacity := ⟨[], false, Nat.zero_le _⟩

/-- Send unless the buffer is full. -/
def trySend (value : α) (channel : Channel α capacity) :
    Except ChannelPanic (Channel α capacity) :=
  if channel.closed then .error .sendOnClosed
  else if room : channel.buffer.length < capacity then
    .ok ⟨channel.buffer ++ [value], channel.closed, by
      rw [List.length_append]
      exact room⟩
  else .ok channel

def close (channel : Channel α capacity) : Except ChannelPanic (Channel α capacity) :=
  if channel.closed then .error .closeOfClosed else .ok { channel with closed := true }

/-- The first value of the buffer, if there is one. -/
def receive (channel : Channel α capacity) : Option α × Channel α capacity :=
  (channel.buffer.head?,
    ⟨channel.buffer.tail, channel.closed, by
      have bounded := channel.bounded
      rw [List.length_tail]
      omega⟩)

theorem trySend_open {channel : Channel α capacity} (isOpen : channel.closed = false) (value : α) :
    Exists fun sent => channel.trySend value = .ok sent ∧ sent.closed = false ∧
      (sent.buffer = channel.buffer ∨ sent.buffer = channel.buffer ++ [value]) := by
  unfold trySend
  rw [isOpen]
  by_cases room : channel.buffer.length < capacity
  · rw [dif_pos room]
    exact ⟨_, rfl, rfl, .inr rfl⟩
  · rw [dif_neg room]
    exact ⟨channel, rfl, isOpen, .inl rfl⟩

theorem close_open {channel : Channel α capacity} (isOpen : channel.closed = false) :
    channel.close = .ok { channel with closed := true } := by
  unfold close
  rw [isOpen]
  rfl

/-- Receiving takes a value off the front. -/
theorem receive_append (channel : Channel α capacity) :
    channel.receive.1.toList ++ channel.receive.2.buffer = channel.buffer := by
  rcases channel with ⟨buffer, closed, bounded⟩
  cases buffer <;> rfl

end Channel

/-! ## A heap of objects -/

variable {ι ε α : Type} [DecidableEq ι]

/-- Change the object at an address. -/
def modifyAt (action : α -> Except ε α) (heap : ι -> α) (address : ι) : Except ε (ι -> α) := do
  let object ← action (heap address)
  return Function.update heap address object

/-- Change the objects at distinct addresses. -/
theorem foldlM_modifyAt {action : α -> Except ε α} {outcome : ι -> α} {addresses : List ι}
    (distinct : addresses.Nodup) {heap : ι -> α}
    (succeeds : ∀ address, address ∈ addresses ->
      action (heap address) = .ok (outcome address)) :
    addresses.foldlM (modifyAt action) heap =
      .ok fun address => if address ∈ addresses then outcome address else heap address := by
  induction addresses generalizing heap with
  | nil => simp [pure, Except.pure]
  | cons first rest ih =>
      rcases List.nodup_cons.mp distinct with ⟨fresh, others⟩
      have changed : modifyAt action heap first =
          .ok (Function.update heap first (outcome first)) := by
        unfold modifyAt
        rw [succeeds first List.mem_cons_self]
        rfl
      have later : ∀ address, address ∈ rest ->
          action (Function.update heap first (outcome first) address) = .ok (outcome address) := by
        intro address member
        have apart : address ≠ first := fun same => fresh (same ▸ member)
        rw [Function.update_of_ne apart]
        exact succeeds address (List.mem_cons_of_mem _ member)
      rw [List.foldlM_cons, changed]
      change rest.foldlM (modifyAt action) (Function.update heap first (outcome first)) = _
      rw [ih others later]
      apply congrArg Except.ok
      funext address
      by_cases same : address = first
      · subst same
        simp [fresh]
      · simp [same]

end Library
end Memos
