/-
Module: MultiConnect.Proofs.SorterDrains
Layer: Proofs
Purpose: The sorter never stalls. An expiry is the deadline timer firing and the queue advancing. When
  nothing more is inserted, the expiries alone drain the queue: while packets wait the timer is armed,
  each expiry hands on the first of them at least, and the waiting packets leave in the order of their
  numbers. One expiry of an empty queue disarms the timer.
Trusted boundary: the runtime's timer
Main exports: PacketSorter.expire, DrainedBy, sorter_drains
-/
import MultiConnect.Proofs.SorterEffects

namespace MultiConnect

open PacketSorter

/-- The deadline timer fires and the queue advances; `none` when the timer is not due. -/
def PacketSorter.expire (sorter : PacketSorter) (now : Instant) :
    Option (PacketSorter × List Handed) :=
  (sorter.awaitDeadline now).map fun fired => fired.advanceQueue now

/-- The packets that wait, in the order of their numbers. -/
def PacketSorter.waitingPackets (sorter : PacketSorter) : List Packet :=
  sorter.packetQueue.entries.map (·.2.packet)

theorem length_waitingPackets (sorter : PacketSorter) :
    sorter.waitingPackets.length = sorter.getQueueLength := List.length_map _

/-- The numbers of the waiting packets increase. -/
theorem Steady.increasing {sorter : PacketSorter} (steady : Steady sorter) :
    (sorter.waitingPackets.map (·.seq)).Pairwise (· < ·) := by
  have hkeys : sorter.waitingPackets.map (·.seq) = sorter.packetQueue.entries.map (·.1) := by
    rw [waitingPackets, List.map_map]
    exact List.map_congr_left steady.numbered
  rw [hkeys]
  exact List.pairwise_map.mpr sorter.packetQueue.sorted

/-! ### One expiry -/

/-- What an advance hands on are the first of the waiting packets; the others go on waiting. -/
theorem waitingPackets_advanceQueue (sorter : PacketSorter) (now : Instant) :
    (sorter.advanceQueue now).2.map (·.packet) ++ (sorter.advanceQueue now).1.waitingPackets =
      sorter.waitingPackets := by
  cases hfirst : sorter.packetQueue.first? with
  | none =>
      rw [advanceQueue_of_empty now hfirst]
      rfl
  | some first =>
      obtain ⟨drained, handed, hdrained, -, heq⟩ := advanceQueue_drains now hfirst
      rw [heq, waitingPackets, packetQueue_rearmAfterAdvance, hdrained.queue, hdrained.packets,
        ← List.map_append, inSequence, behindGap, takeRun_append_dropRun]
      rfl

/-- The sorter when its timer has fired. -/
def PacketSorter.fired (sorter : PacketSorter) : PacketSorter :=
  { sorter with deadlineTimer := Timer.never }

theorem expire_eq_some {sorter next : PacketSorter} {now : Instant} {handed : List Handed}
    (h : sorter.expire now = some (next, handed)) :
    (next, handed) = sorter.fired.advanceQueue now := by
  obtain ⟨fired, hfired, heq⟩ := Option.map_eq_some_iff.mp h
  unfold awaitDeadline at hfired
  split at hfired
  · obtain rfl := Option.some.inj hfired
    exact heq.symm
  · cases hfired

theorem expire_of_isDue {sorter : PacketSorter} {now : Instant}
    (due : sorter.deadlineTimer.isDue now = true) :
    sorter.expire now = some (sorter.fired.advanceQueue now) := by
  rw [expire, awaitDeadline, if_pos due]
  rfl

/-- An expiry while packets wait hands on one of them at least. -/
theorem handed_ne_nil_of_expire {sorter next : PacketSorter} {now : Instant} {handed : List Handed}
    (waiting : sorter.packetQueue.entries ≠ []) (h : sorter.expire now = some (next, handed)) :
    handed ≠ [] := by
  have heq := expire_eq_some h
  cases hfirst : sorter.packetQueue.first? with
  | none => exact absurd (OrdMap.first?_eq_none_iff.mp hfirst) waiting
  | some first =>
      have hfired : sorter.fired.packetQueue.first? = some first := hfirst
      obtain ⟨drained, more, -, hmore, hadvance⟩ := advanceQueue_drains now hfired
      rw [hadvance] at heq
      obtain ⟨-, rfl⟩ := Prod.mk.inj heq
      exact hmore

/-- An expiry of an empty queue disarms the timer. -/
theorem expire_of_empty {sorter next : PacketSorter} {now : Instant} {handed : List Handed}
    (empty : sorter.packetQueue.entries = []) (h : sorter.expire now = some (next, handed)) :
    next = sorter.fired ∧ handed = [] := by
  have heq := expire_eq_some h
  have hfired : sorter.fired.packetQueue.first? = none := OrdMap.first?_eq_none_iff.mpr empty
  rw [advanceQueue_of_empty now hfired] at heq
  exact Prod.mk.inj heq

theorem steady_expire {sorter next : PacketSorter} {now : Instant} {handed : List Handed}
    (steady : Steady sorter) (h : sorter.expire now = some (next, handed)) : Steady next := by
  rw [show next = _ from congrArg Prod.fst (expire_eq_some h)]
  exact steady_advanceQueue now steady.numbered steady.capacity

theorem waitingPackets_expire {sorter next : PacketSorter} {now : Instant} {handed : List Handed}
    (h : sorter.expire now = some (next, handed)) :
    handed.map (·.packet) ++ next.waitingPackets = sorter.waitingPackets := by
  have hadvance := waitingPackets_advanceQueue sorter.fired now
  rw [← expire_eq_some h] at hadvance
  exact hadvance

/-! ### Expiries alone -/

/-- What expiries alone lead to, from a sorter to a later one, with what they handed on. While packets
    wait the timer is armed, and an expiry hands on one packet at least, so there were no more expiries
    than packets that left. The packets left in order. An expiry of an empty queue disarms the timer. -/
structure DrainedBy (sorter : PacketSorter) (expiries : Nat) (next : PacketSorter)
    (handed : List Handed) : Prop where
  armed : next.packetQueue.entries ≠ [] → next.deadlineTimer.willFire = true
  expires : next.packetQueue.entries ≠ [] → ∀ now, next.deadlineTimer.isDue now = true →
    ∃ after more, next.expire now = some (after, more) ∧ more ≠ []
  bounded : next.packetQueue.entries ≠ [] →
    expiries + next.getQueueLength ≤ sorter.getQueueLength
  passed : handed.map (·.packet) ++ next.waitingPackets = sorter.waitingPackets
  increasing : (handed.map (·.packet.seq)).Pairwise (· < ·)
  disarms : next.packetQueue.entries = [] → ∀ now after more,
    next.expire now = some (after, more) → after.deadlineTimer.willFire = false ∧ more = []

/-- While packets wait each expiry has taken one of them at least. -/
theorem expiries_bounded {sorter next : PacketSorter} {instants : List Instant}
    {handed : List Handed}
    (h : Run.run PacketSorter.expire sorter instants = some (next, handed))
    (waiting : next.packetQueue.entries ≠ []) :
    instants.length + next.getQueueLength ≤ sorter.getQueueLength := by
  refine (Run.run_induction (C := fun _ _ _ => True)
    (P := fun past mid _ => mid.packetQueue.entries ≠ [] →
      past.length + mid.getQueueLength ≤ sorter.getQueueLength) ?_ ?_
    (fun _ _ _ _ _ _ _ _ _ _ => trivial) h) waiting
  · intro _
    simp
  · intro past now mid before after more _ ih _ hstep hafter
    have hpackets := congrArg List.length (waitingPackets_expire hstep)
    simp only [List.length_append, List.length_map, length_waitingPackets] at hpackets
    have hmid : mid.packetQueue.entries ≠ [] := by
      intro hempty
      rw [(expire_of_empty hempty hstep).1] at hafter
      exact hafter hempty
    have hmore := List.length_pos_iff.mpr (handed_ne_nil_of_expire hmid hstep)
    have hbefore := ih hmid
    rw [List.length_append, List.length_singleton]
    omega

theorem drainedBy_run {sorter next : PacketSorter} {instants : List Instant} {handed : List Handed}
    (steady : Steady sorter)
    (h : Run.run PacketSorter.expire sorter instants = some (next, handed)) :
    DrainedBy sorter instants.length next handed := by
  have hnext : Steady next :=
    Run.run_invariant (fun _ _ _ _ hmid hstep => steady_expire hmid hstep) steady h
  have hpassed : handed.map (·.packet) ++ next.waitingPackets = sorter.waitingPackets := by
    refine Run.run_induction (C := fun _ _ _ => True) (P := fun _ mid out =>
      out.map (·.packet) ++ mid.waitingPackets = sorter.waitingPackets) rfl ?_
      (fun _ _ _ _ _ _ _ _ _ _ => trivial) h
    intro past now mid before after more _ ih _ hstep
    rw [List.map_append, List.append_assoc, waitingPackets_expire hstep, ih]
  constructor
  · exact hnext.armed
  · intro waiting now due
    have hexpire := expire_of_isDue due
    exact ⟨_, _, hexpire, handed_ne_nil_of_expire waiting hexpire⟩
  · exact expiries_bounded h
  · exact hpassed
  · have hincreasing := steady.increasing
    rw [← hpassed, List.map_append, List.map_map] at hincreasing
    exact (List.pairwise_append.mp hincreasing).1
  · intro empty now after more hexpire
    obtain ⟨rfl, rfl⟩ := expire_of_empty empty hexpire
    exact ⟨rfl, rfl⟩

/-- Expiries at the instants that the timer is armed for empty the queue. -/
theorem exists_drained {sorter : PacketSorter} (steady : Steady sorter) :
    ∃ instants next handed, instants.length ≤ sorter.getQueueLength ∧
      Run.run PacketSorter.expire sorter instants = some (next, handed) ∧
      next.packetQueue.entries = [] := by
  generalize hn : sorter.getQueueLength = n
  induction n using Nat.strongRecOn generalizing sorter with
  | ind n ih =>
      by_cases hempty : sorter.packetQueue.entries = []
      · exact ⟨[], sorter, [], Nat.zero_le _, rfl, hempty⟩
      · obtain ⟨instant, harmed⟩ := Option.isSome_iff_exists.mp (steady.armed hempty)
        have hdue : sorter.deadlineTimer.isDue instant = true := by simp [Timer.isDue, harmed]
        obtain ⟨⟨mid, first⟩, hexpire⟩ : ∃ result, sorter.expire instant = some result :=
          ⟨_, expire_of_isDue hdue⟩
        have hpackets := congrArg List.length (waitingPackets_expire hexpire)
        simp only [List.length_append, List.length_map, length_waitingPackets] at hpackets
        have hfirst := List.length_pos_iff.mpr (handed_ne_nil_of_expire hempty hexpire)
        obtain ⟨instants, next, handed, hlength, hrun, hnext⟩ :=
          ih mid.getQueueLength (by omega) (steady_expire steady hexpire) rfl
        refine ⟨instant :: instants, next, first ++ handed, ?_, ?_, hnext⟩
        · rw [List.length_cons]
          omega
        · exact Run.run_cons_eq_some.mpr ⟨mid, first, handed, hexpire, hrun, rfl⟩

/-- The sorter always drains: from every state that a run reaches, expiries alone hand on the waiting
    packets, each expiry one at least, and no more expiries than packets wait empty the queue. -/
theorem sorter_drains (deadline : Duration) (start : Instant) (ops : List SorterOp)
    (sorter : PacketSorter) (outs : List SorterOutput)
    (reached : Run.run sorterStep (PacketSorter.new deadline start) ops = some (sorter, outs)) :
    (∀ instants next handed, Run.run PacketSorter.expire sorter instants = some (next, handed) →
      DrainedBy sorter instants.length next handed) ∧
    ∃ instants next handed, instants.length ≤ sorter.getQueueLength ∧
      Run.run PacketSorter.expire sorter instants = some (next, handed) ∧
      next.packetQueue.entries = [] :=
  ⟨fun _ _ _ h => drainedBy_run (steady_run reached) h, exists_drained (steady_run reached)⟩

/-- Packets behind two gaps, one of them let in by a jump. -/
theorem sorter_drains_two_gaps :
    ∃ sorter outs,
      Run.run sorterStep (PacketSorter.new 100 0)
        [.insertPacket ⟨2, 7, [2]⟩ 0, .insertPacket ⟨5, 7, [5]⟩ 3, .insertPacket ⟨200, 7, [0]⟩ 4] =
          some (sorter, outs) ∧
      ∃ instants next handed, instants.length ≤ sorter.getQueueLength ∧
        Run.run PacketSorter.expire sorter instants = some (next, handed) ∧
        next.packetQueue.entries = [] :=
  Run.exists_of_isSome (by decide) fun sorter outs reached =>
    (sorter_drains 100 0 _ sorter outs reached).2

end MultiConnect
