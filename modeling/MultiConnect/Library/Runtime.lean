/-
Module: MultiConnect.Library.Runtime
Layer: Library
Purpose: The two pieces of an asynchronous runtime that the development rests on: one-shot timers that
  can be armed, disarmed and asked whether they will fire, and bounded first-in first-out channels
  whose sender never waits. Instants and durations are natural numbers of nanoseconds.
Trusted boundary: the behaviour of the runtime's timer and channel, as documented
Main exports: Timer, Channel, Channel.items_trySend, Channel.trySend_snd, Channel.tryRecv_eq_some
-/
import Mathlib.Data.List.Basic

universe u

/-- A point in time, in nanoseconds. -/
abbrev Instant := Nat

/-- A length of time, in nanoseconds. -/
abbrev Duration := Nat

/-- A duration given in milliseconds. -/
def Duration.fromMillis (millis : UInt64) : Duration := millis.toNat * 1000000

/-! ### Timers -/

/-- A one-shot timer: the instant it is armed for, or `none` when it is disarmed. -/
structure Timer where
  fireAt : Option Instant
deriving DecidableEq, Repr

namespace Timer

/-- A timer armed to fire after a duration. -/
def after (now : Instant) (duration : Duration) : Timer := ⟨some (now + duration)⟩

/-- A timer that never fires. -/
def never : Timer := ⟨none⟩

/-- Rearm a timer to fire after a duration, whatever it was armed for. -/
def setAfter (_timer : Timer) (now : Instant) (duration : Duration) : Timer := after now duration

/-- Whether the timer is armed. -/
def willFire (timer : Timer) : Bool := timer.fireAt.isSome

/-- Whether the timer is armed and its instant has come. -/
def isDue (timer : Timer) (now : Instant) : Bool := timer.fireAt.any (· ≤ now)

theorem isDue_after {armed now : Instant} {duration : Duration} :
    (after armed duration).isDue now = true ↔ armed + duration ≤ now := by
  simp [after, isDue]

end Timer

/-! ### Bounded channels -/

/-- A channel that holds at most `capacity` values, oldest first. -/
structure Channel (α : Type u) where
  capacity : Nat
  items : List α
  bounded : items.length ≤ capacity
deriving DecidableEq

namespace Channel

variable {α : Type u}

/-- An empty channel. -/
def withCapacity (capacity : Nat) : Channel α := ⟨capacity, [], Nat.zero_le _⟩

/-- Append a value without waiting. The flag says whether it fitted; a value that did not is lost. -/
def trySend (channel : Channel α) (value : α) : Channel α × Bool :=
  if h : channel.items.length < channel.capacity then
    (⟨channel.capacity, channel.items ++ [value], by simpa using Nat.succ_le_of_lt h⟩, true)
  else (channel, false)

/-- Take the oldest value, if there is one. -/
def tryRecv (channel : Channel α) : Option (α × Channel α) :=
  match h : channel.items with
  | [] => none
  | value :: rest =>
      some (value, ⟨channel.capacity, rest,
        Nat.le_trans (by simp [h]) channel.bounded⟩)

@[simp] theorem capacity_trySend (channel : Channel α) (value : α) :
    (channel.trySend value).1.capacity = channel.capacity := by
  unfold trySend
  split <;> rfl

/-- A value that fitted is the newest one; a value that did not leaves the channel as it was. -/
theorem items_trySend (channel : Channel α) (value : α) :
    (channel.trySend value).1.items =
      channel.items ++ (if (channel.trySend value).2 then [value] else []) := by
  unfold trySend
  split <;> simp

/-- A value fits exactly when there is room for one more. -/
theorem trySend_snd (channel : Channel α) (value : α) :
    (channel.trySend value).2 = decide (channel.items.length < channel.capacity) := by
  unfold trySend
  split
  · rename_i hroom
    exact (decide_eq_true hroom).symm
  · rename_i hfull
    exact (decide_eq_false hfull).symm

/-- Only a full channel refuses a value. -/
theorem full_of_trySend {channel : Channel α} {value : α} (h : (channel.trySend value).2 = false) :
    channel.items.length = channel.capacity := by
  unfold trySend at h
  split at h
  · cases h
  · exact Nat.le_antisymm channel.bounded (Nat.le_of_not_lt ‹_›)

theorem tryRecv_eq_some {channel rest : Channel α} {value : α}
    (h : channel.tryRecv = some (value, rest)) :
    channel.items = value :: rest.items ∧ rest.capacity = channel.capacity := by
  unfold tryRecv at h
  split at h
  · cases h
  · rename_i first others heq
    obtain ⟨rfl, rfl⟩ := Prod.mk.inj (Option.some.inj h)
    exact ⟨heq, rfl⟩

theorem tryRecv_of_cons {channel : Channel α} {value : α} {rest : List α}
    (h : channel.items = value :: rest) :
    ∃ left, channel.tryRecv = some (value, left) ∧ left.items = rest := by
  unfold tryRecv
  split
  · rename_i hempty
    rw [hempty] at h
    cases h
  · rename_i first others hfirst
    obtain ⟨rfl, rfl⟩ := List.cons.inj (hfirst.symm.trans h)
    exact ⟨_, rfl, rfl⟩

end Channel
