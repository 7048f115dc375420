/-
Module: MultiConnect.PathLatency
Layer: Model
Purpose: The record of hello arrival times of `path_latency.rs`. The delay estimate drawn from it is a
  floating-point number that only reaches the debug log; of it the model has the arrivals compared and
  their differences, up to the point where they become floating-point numbers.
Trusted boundary: none
Main exports: PathLatency, PathLatency.insertNewTimestamp, PathLatency.comparedArrivals,
  PathLatency.delayDifferences
-/
import MultiConnect.Library.OrdMap
import MultiConnect.Messages

namespace MultiConnect

/-- The number of sequence numbers that a record keeps. -/
def maxTimestamps : Nat := 100

structure PathLatency where
  ackTimestamps : OrdMap UInt64 (List Instant)
deriving DecidableEq

namespace PathLatency

def new : PathLatency := ⟨OrdMap.empty⟩

/-- Note an arrival under a sequence number, behind the earlier ones. -/
def push (ackTimestamps : OrdMap UInt64 (List Instant)) (seq : UInt64) (now : Instant) :
    OrdMap UInt64 (List Instant) :=
  match ackTimestamps.get? seq with
  | some timestamps => ackTimestamps.insert seq (timestamps ++ [now])
  | none => ackTimestamps.insert seq [now]

/-- Note the arrival of a hello. A full record gives up its least sequence number first, whether or
    not the new one is already present. -/
def insertNewTimestamp (latency : PathLatency) (seq : UInt64) (now : Instant) : PathLatency :=
  if latency.ackTimestamps.size < maxTimestamps then
    ⟨push latency.ackTimestamps seq now⟩
  else
    ⟨push latency.ackTimestamps.popFirst seq now⟩

/-- What `estimate_path_delay_difference` compares: under each sequence number that arrived more than
    once, the first and the last arrival. -/
def comparedArrivals (latency : PathLatency) : List (UInt64 × Instant × Instant) :=
  latency.ackTimestamps.entries.filterMap fun entry =>
    match entry.2.head?, entry.2.getLast? with
    | some first, some last => if 2 ≤ entry.2.length then some (entry.1, first, last) else none
    | _, _ => none

/-- The differences that `estimate_path_delay_difference` sums; `none` where it panics, because the
    clock showed less at the last arrival than at the first. -/
def delayDifferences (latency : PathLatency) : Option (List Duration) :=
  latency.comparedArrivals.mapM fun (_, first, last) =>
    if first ≤ last then some (last - first) else none

end PathLatency

end MultiConnect
