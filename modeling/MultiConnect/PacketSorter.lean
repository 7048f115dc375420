/-
Module: MultiConnect.PacketSorter
Layer: Model
Purpose: The reorder buffer of `packet_sorter.rs`. Packets wait in `packetQueue` under their sequence
  number until `nextSeq` reaches them; they are then handed to a bounded channel by a `try_send` that
  drops when the channel is full. A deadline timer, or an arrival more than 100 numbers past the last
  waiting packet, lets `nextSeq` jump to the first waiting packet. Both ends of the channel belong to
  the sorter, so it is never closed. `nextSeq` is a `u64` that wraps, as in a release build.
Trusted boundary: the runtime's timer and channel
Main exports: PacketSorter, PacketSorter.insertPacket, PacketSorter.advanceQueue, Handed,
  HandsNext, Settled, advanceQueue_induction, insertPacket_induction
-/
import MultiConnect.Library.OrdMap
import MultiConnect.Library.Run
import MultiConnect.Messages

namespace MultiConnect

structure QueuedPacket where
  packet : Packet
  timestamp : Instant
deriving DecidableEq

structure PacketSorter where
  packetQueue : OrdMap UInt64 QueuedPacket
  nextSeq : UInt64
  deadline : Duration
  deadlineTimer : Timer
  sortedPacketQueue : Channel Packet
deriving DecidableEq

/-- One `try_send` on the sorted channel: the packet, how many packets the channel held at that
    moment, and whether it took the packet. -/
structure Handed where
  packet : Packet
  backlog : Nat
  sent : Bool
deriving DecidableEq

/-- `u64::checked_sub`. -/
def checkedSub (a b : UInt64) : Option UInt64 := if b ≤ a then some (a - b) else none

namespace PacketSorter

def new (deadline : Duration) (now : Instant) : PacketSorter where
  packetQueue := OrdMap.empty
  nextSeq := 0
  deadline := deadline
  deadlineTimer := Timer.after now deadline
  sortedPacketQueue := Channel.withCapacity 1000

def getNextPacket (sorter : PacketSorter) (now : Instant) : Option (PacketSorter × Packet) :=
  match sorter.packetQueue.first? with
  | some (key, queued) =>
      if key = sorter.nextSeq then
        some ({ sorter with
          nextSeq := sorter.nextSeq + 1
          packetQueue := sorter.packetQueue.popFirst
          deadlineTimer := sorter.deadlineTimer.setAfter now sorter.deadline }, queued.packet)
      else none
  | none => none

/-- One turn of the loop of `enqueue_sorted_packets`. -/
def handNext (now : Instant) (sorter : PacketSorter) : Option (PacketSorter × Handed) :=
  match sorter.getNextPacket now with
  | some (rest, packet) =>
      let (channel, sent) := rest.sortedPacketQueue.trySend packet
      some ({ rest with sortedPacketQueue := channel },
        ⟨packet, rest.sortedPacketQueue.items.length, sent⟩)
  | none => none

/-- Hand on packets for as long as the first waiting one is the next in sequence. Each turn takes one
    packet out of the queue, so the queue's size bounds the turns. -/
def enqueueSortedPackets (sorter : PacketSorter) (now : Instant) : PacketSorter × List Handed :=
  Run.whileSome (handNext now) sorter.packetQueue.size sorter

/-- How `advance_queue` leaves the deadline timer once it has handed packets on. -/
def rearmAfterAdvance (sorter : PacketSorter) (now : Instant) : PacketSorter :=
  match sorter.packetQueue.first? with
  | none => { sorter with deadlineTimer := Timer.never }
  | some (_, queued) =>
      let timeWaitedInQueue := now - queued.timestamp
      if sorter.deadline ≤ timeWaitedInQueue then
        { sorter with deadlineTimer := sorter.deadlineTimer.setAfter now 0 }
      else
        { sorter with
          deadlineTimer := sorter.deadlineTimer.setAfter now (sorter.deadline - timeWaitedInQueue) }

/-- Skip to the first waiting packet and hand on what is then in sequence. -/
def advanceQueue (sorter : PacketSorter) (now : Instant) : PacketSorter × List Handed :=
  match sorter.packetQueue.first? with
  | some (key, _) =>
      let drained := { sorter with nextSeq := key }.enqueueSortedPackets now
      (drained.1.rearmAfterAdvance now, drained.2)
  | none => ({ sorter with deadlineTimer := Timer.never }, [])

/-- Queue a packet under its number unless that number already waits. -/
def queuePacket (sorter : PacketSorter) (pkt : Packet) (now : Instant) : PacketSorter :=
  { sorter with packetQueue := sorter.packetQueue.orInsert pkt.seq ⟨pkt, now⟩ }

/-- Whether a packet lies more than 100 numbers past the last waiting one. -/
def isLargeJump (sorter : PacketSorter) (sequenceNumber : UInt64) : Bool :=
  match sorter.packetQueue.last? with
  | some (tail, _) =>
      match checkedSub sequenceNumber tail with
      | some diff => 100 < diff
      | none => false
  | none => false

/-- Start the deadline timer when it is not running. -/
def startDeadline (sorter : PacketSorter) (now : Instant) : PacketSorter :=
  if sorter.deadlineTimer.willFire then sorter
  else { sorter with deadlineTimer := sorter.deadlineTimer.setAfter now sorter.deadline }

/-- Queue a packet that is not late; a large sequence jump clears the packet queue by advancing it. -/
def enterQueue (sorter : PacketSorter) (pkt : Packet) (now : Instant) : PacketSorter × List Handed :=
  if sorter.isLargeJump pkt.seq then (sorter.queuePacket pkt now).advanceQueue now
  else (sorter.queuePacket pkt now, [])

/-- Take in a packet. The first component is the sorter after the call, the second lists the packets
    that the call handed to the sorted channel. -/
def insertPacket (sorter : PacketSorter) (pkt : Packet) (now : Instant) :
    PacketSorter × List Handed :=
  if sorter.nextSeq ≤ pkt.seq then
    let entered := sorter.enterQueue pkt now
    let drained := entered.1.enqueueSortedPackets now
    (drained.1.startDeadline now, entered.2 ++ drained.2)
  else (sorter, [])

/-- A read from the sorted channel. -/
def awaitHaveNextPacket (sorter : PacketSorter) : Option (PacketSorter × Packet) :=
  match sorter.sortedPacketQueue.tryRecv with
  | some (packet, channel) => some ({ sorter with sortedPacketQueue := channel }, packet)
  | none => none

/-- The deadline timer fires: it is disarmed until it is set again. -/
def awaitDeadline (sorter : PacketSorter) (now : Instant) : Option PacketSorter :=
  if sorter.deadlineTimer.isDue now then some { sorter with deadlineTimer := Timer.never } else none

def getQueueLength (sorter : PacketSorter) : Nat := sorter.packetQueue.size

/-! ### What one turn of the loop does -/

/-- A packet is next in sequence exactly when the first waiting number is `nextSeq`. -/
theorem getNextPacket_eq_some {sorter rest : PacketSorter} {now : Instant} {packet : Packet}
    (h : sorter.getNextPacket now = some (rest, packet)) :
    ∃ queued, sorter.packetQueue.first? = some (sorter.nextSeq, queued) ∧
      packet = queued.packet ∧ rest.packetQueue = sorter.packetQueue.popFirst ∧
      rest.nextSeq = sorter.nextSeq + 1 ∧ rest.sortedPacketQueue = sorter.sortedPacketQueue ∧
      rest.deadline = sorter.deadline := by
  unfold getNextPacket at h
  split at h
  · rename_i key queued hfirst
    split at h
    · rename_i hkey
      subst hkey
      obtain ⟨rfl, rfl⟩ := Prod.mk.inj (Option.some.inj h)
      exact ⟨queued, hfirst, rfl, rfl, rfl, rfl, rfl⟩
    · cases h
  · cases h

theorem getNextPacket_eq_none {sorter : PacketSorter} (now : Instant) :
    sorter.getNextPacket now = none ↔
      ∀ queued, sorter.packetQueue.first? ≠ some (sorter.nextSeq, queued) := by
  unfold getNextPacket
  constructor
  · intro h queued hfirst
    rw [hfirst] at h
    simp at h
  · intro h
    split
    · rename_i key queued hfirst
      rw [if_neg]
      rintro rfl
      exact h queued hfirst
    · rfl

/-- Everything one turn of the loop does: the first waiting packet, numbered `nextSeq`, leaves the
    queue for the channel. -/
structure HandsNext (sorter next : PacketSorter) (handed : Handed) : Prop where
  first : ∃ queued, sorter.packetQueue.first? = some (sorter.nextSeq, queued) ∧
    handed.packet = queued.packet
  queue : next.packetQueue = sorter.packetQueue.popFirst
  nextSeq : next.nextSeq = sorter.nextSeq + 1
  backlog : handed.backlog = sorter.sortedPacketQueue.items.length
  lost : handed.sent = false → handed.backlog = sorter.sortedPacketQueue.capacity
  channel : next.sortedPacketQueue.items =
    sorter.sortedPacketQueue.items ++ (if handed.sent then [handed.packet] else [])
  capacity : next.sortedPacketQueue.capacity = sorter.sortedPacketQueue.capacity

theorem handNext_eq_some {sorter next : PacketSorter} {now : Instant} {handed : Handed}
    (h : handNext now sorter = some (next, handed)) : HandsNext sorter next handed := by
  unfold handNext at h
  split at h
  · rename_i rest packet hnext
    obtain ⟨queued, hfirst, rfl, hqueue, hseq, hchannel, -⟩ := getNextPacket_eq_some hnext
    obtain ⟨rfl, rfl⟩ := Prod.mk.inj (Option.some.inj h)
    constructor
    · exact ⟨queued, hfirst, rfl⟩
    · exact hqueue
    · exact hseq
    · rw [← hchannel]
    · intro hsent
      rw [← hchannel]
      exact Channel.full_of_trySend hsent
    · rw [← hchannel]
      exact Channel.items_trySend _ _
    · rw [← hchannel]
      exact Channel.capacity_trySend _ _
  · cases h

/-- A turn starts the full deadline again, and the channel takes the packet when it has room. -/
theorem handNext_timer {sorter next : PacketSorter} {now : Instant} {handed : Handed}
    (h : handNext now sorter = some (next, handed)) :
    next.deadlineTimer = Timer.after now sorter.deadline ∧ next.deadline = sorter.deadline ∧
      handed.sent = decide (sorter.sortedPacketQueue.items.length <
        sorter.sortedPacketQueue.capacity) := by
  unfold handNext getNextPacket at h
  cases hfirst : sorter.packetQueue.first? with
  | none => simp [hfirst] at h
  | some first =>
      by_cases hkey : first.1 = sorter.nextSeq
      · simp only [hfirst, if_pos hkey, Option.some.injEq, Prod.mk.injEq] at h
        obtain ⟨rfl, rfl⟩ := h
        exact ⟨rfl, rfl, Channel.trySend_snd _ _⟩
      · simp [hfirst, if_neg hkey] at h

theorem handNext_eq_none {sorter : PacketSorter} {now : Instant} :
    handNext now sorter = none ↔
      ∀ queued, sorter.packetQueue.first? ≠ some (sorter.nextSeq, queued) := by
  rw [← getNextPacket_eq_none now]
  unfold handNext
  split
  · rename_i hnext
    simp [hnext]
  · rename_i hnext
    simp [hnext]

/-! ### The loop -/

/-- No waiting packet is numbered `nextSeq`: there is nothing to hand on. -/
def Settled (sorter : PacketSorter) : Prop :=
  ∀ queued, sorter.packetQueue.first? ≠ some (sorter.nextSeq, queued)

/-- The loop ends with nothing left to hand on. -/
theorem enqueueSortedPackets_settled (sorter : PacketSorter) (now : Instant) :
    (sorter.enqueueSortedPackets now).1.Settled := by
  refine handNext_eq_none.mp (Run.whileSome_stops (m := fun s => s.packetQueue.size) ?_
    sorter.packetQueue.size (Nat.le_refl _))
  intro s next handed h
  obtain ⟨queued, hfirst, -⟩ := (handNext_eq_some h).first
  rw [(handNext_eq_some h).queue]
  exact OrdMap.size_popFirst_lt hfirst

/-- With nothing to hand on the loop does nothing. -/
theorem enqueueSortedPackets_of_settled {sorter : PacketSorter} (now : Instant)
    (h : sorter.Settled) : sorter.enqueueSortedPackets now = (sorter, []) :=
  Run.whileSome_of_none _ (handNext_eq_none.mpr h)

/-- A loop invariant of `enqueue_sorted_packets`, over the sorter and the packets handed so far. -/
theorem enqueueSortedPackets_induction {P : PacketSorter → List Handed → Prop}
    (succ : ∀ sorter next handed out, P sorter out → HandsNext sorter next handed →
      P next (out ++ [handed]))
    {sorter : PacketSorter} {out : List Handed} (now : Instant) (base : P sorter out) :
    P (sorter.enqueueSortedPackets now).1 (out ++ (sorter.enqueueSortedPackets now).2) :=
  Run.whileSome_induction
    (fun s out next handed hP h => succ s next handed out hP (handNext_eq_some h)) _ base

/-! ### The two operations as sequences of small steps -/

theorem rearmAfterAdvance_eq (sorter : PacketSorter) (now : Instant) :
    ∃ timer, sorter.rearmAfterAdvance now = { sorter with deadlineTimer := timer } := by
  unfold rearmAfterAdvance
  split
  · exact ⟨_, rfl⟩
  · dsimp only
    split <;> exact ⟨_, rfl⟩

@[simp] theorem packetQueue_rearmAfterAdvance (sorter : PacketSorter) (now : Instant) :
    (sorter.rearmAfterAdvance now).packetQueue = sorter.packetQueue := by
  obtain ⟨timer, htimer⟩ := rearmAfterAdvance_eq sorter now
  rw [htimer]

@[simp] theorem nextSeq_rearmAfterAdvance (sorter : PacketSorter) (now : Instant) :
    (sorter.rearmAfterAdvance now).nextSeq = sorter.nextSeq := by
  obtain ⟨timer, htimer⟩ := rearmAfterAdvance_eq sorter now
  rw [htimer]

@[simp] theorem deadline_rearmAfterAdvance (sorter : PacketSorter) (now : Instant) :
    (sorter.rearmAfterAdvance now).deadline = sorter.deadline := by
  obtain ⟨timer, htimer⟩ := rearmAfterAdvance_eq sorter now
  rw [htimer]

theorem startDeadline_eq (sorter : PacketSorter) (now : Instant) :
    ∃ timer, sorter.startDeadline now = { sorter with deadlineTimer := timer } := by
  unfold startDeadline
  split <;> exact ⟨_, rfl⟩

@[simp] theorem packetQueue_startDeadline (sorter : PacketSorter) (now : Instant) :
    (sorter.startDeadline now).packetQueue = sorter.packetQueue := by
  obtain ⟨timer, htimer⟩ := startDeadline_eq sorter now
  rw [htimer]

section Induction

variable {P : PacketSorter → List Handed → Prop}
  (hands : ∀ sorter next handed out, P sorter out → HandsNext sorter next handed →
    P next (out ++ [handed]))
  (skips : ∀ sorter key queued out, P sorter out →
    sorter.packetQueue.first? = some (key, queued) → P { sorter with nextSeq := key } out)
  (rearms : ∀ sorter timer out, P sorter out → P { sorter with deadlineTimer := timer } out)
  {sorter : PacketSorter} {out : List Handed}

include hands skips rearms

/-- Advancing skips to the first waiting number, hands packets on and sets the timer. -/
theorem advanceQueue_induction (now : Instant) (base : P sorter out) :
    P (sorter.advanceQueue now).1 (out ++ (sorter.advanceQueue now).2) := by
  unfold advanceQueue
  split
  · rename_i key queued hfirst
    obtain ⟨timer, htimer⟩ := rearmAfterAdvance_eq
      ({ sorter with nextSeq := key }.enqueueSortedPackets now).1 now
    dsimp only
    rw [htimer]
    exact rearms _ timer _
      (enqueueSortedPackets_induction hands now (skips sorter key queued out base hfirst))
  · simpa using rearms sorter Timer.never out base

/-- Inserting a packet that is not late queues it, and then advances, hands packets on and sets the
    timer. -/
theorem insertPacket_induction {pkt : Packet} (now : Instant) (notLate : sorter.nextSeq ≤ pkt.seq)
    (base : P (sorter.queuePacket pkt now) out) :
    P (sorter.insertPacket pkt now).1 (out ++ (sorter.insertPacket pkt now).2) := by
  obtain ⟨timer, htimer⟩ := startDeadline_eq
    ((sorter.enterQueue pkt now).1.enqueueSortedPackets now).1 now
  simp only [insertPacket, if_pos notLate, htimer, ← List.append_assoc]
  refine rearms _ timer _ (enqueueSortedPackets_induction hands now ?_)
  unfold enterQueue
  split
  · exact advanceQueue_induction hands skips rearms now base
  · simpa using base

end Induction

theorem insertPacket_of_late {sorter : PacketSorter} {pkt : Packet} (now : Instant)
    (late : pkt.seq < sorter.nextSeq) : sorter.insertPacket pkt now = (sorter, []) := by
  rw [insertPacket, if_neg (not_le_of_gt late)]

theorem insertPacket_settled {sorter : PacketSorter} (pkt : Packet) (now : Instant)
    (h : sorter.Settled) : (sorter.insertPacket pkt now).1.Settled := by
  unfold insertPacket
  split
  · obtain ⟨timer, htimer⟩ := startDeadline_eq
      ((sorter.enterQueue pkt now).1.enqueueSortedPackets now).1 now
    simp only [htimer]
    exact enqueueSortedPackets_settled _ now
  · exact h

theorem advanceQueue_settled (sorter : PacketSorter) (now : Instant) :
    (sorter.advanceQueue now).1.Settled := by
  unfold advanceQueue
  split
  · rename_i key queued hfirst
    obtain ⟨timer, htimer⟩ := rearmAfterAdvance_eq
      ({ sorter with nextSeq := key }.enqueueSortedPackets now).1 now
    dsimp only
    rw [htimer]
    exact enqueueSortedPackets_settled _ now
  · rename_i hnone
    intro queued hfirst
    simp [hnone] at hfirst

end PacketSorter

end MultiConnect
