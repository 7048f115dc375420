/-
Module: MultiConnect.Proofs.LatencyRecords
Layer: Proofs
Purpose: What the latency records of an endpoint hold (`latency_records_hold_latest`). Whatever
  operations have come before, a record holds at most 100 sequence numbers, each with the latest of its
  arrivals: a hello, or an acknowledgement, read from a connected socket for the endpoint that the
  message names. The estimate drawn from the record after each arrival therefore panics only when the
  clock went back between two arrivals of one message.
Trusted boundary: none
Main exports: PathLatency.arrivalsOf, LatestArrivals, ManagerOp.arrival, notes_of_apply,
  latency_records_hold_latest
-/
import MultiConnect.Proofs.CleanUp
import MultiConnect.Proofs.LatencyWindow

namespace MultiConnect

open ConnectionManager

namespace PathLatency

/-! ### The record after some arrivals -/

/-- The record after one more arrival, if there is one. -/
def noted (latency : PathLatency) : Option (UInt64 × Instant) → PathLatency
  | some arrival => latency.insertNewTimestamp arrival.1 arrival.2
  | none => latency

theorem after_append_toList (arrivals : List (UInt64 × Instant)) (arrival : Option (UInt64 × Instant)) :
    after (arrivals ++ arrival.toList) = (after arrivals).noted arrival := by
  cases arrival with
  | none => rw [Option.toList_none, List.append_nil, noted]
  | some arrival => rw [Option.toList_some, after, List.foldl_concat, noted, ← after]

/-- When one sequence number arrived. -/
def arrivalsOf (seq : UInt64) (arrivals : List (UInt64 × Instant)) : List Instant :=
  arrivals.filterMap fun arrival => if arrival.1 = seq then some arrival.2 else none

/-- An arrival is added to those of its own sequence number. -/
theorem arrivalsOf_concat (seq : UInt64) (arrivals : List (UInt64 × Instant))
    (arrival : UInt64 × Instant) :
    arrivalsOf seq (arrivals ++ [arrival]) =
      arrivalsOf seq arrivals ++ if arrival.1 = seq then [arrival.2] else [] := by
  rw [arrivalsOf, List.filterMap_append, ← arrivalsOf]
  split <;> simp [*]

/-- One arrival brings at most one new sequence number. -/
theorem size_push_le (ackTimestamps : OrdMap UInt64 (List Instant)) (seq : UInt64) (now : Instant) :
    (push ackTimestamps seq now).size ≤ ackTimestamps.size + 1 := by
  unfold push
  split <;> exact OrdMap.length_insertEntry_le ..

/-- A record never holds more than its limit. -/
theorem size_after_le (arrivals : List (UInt64 × Instant)) :
    (after arrivals).ackTimestamps.size ≤ maxTimestamps := by
  induction arrivals using List.reverseRecOn with
  | nil => exact Nat.zero_le _
  | append_singleton past arrival ih =>
      rw [after, List.foldl_concat, ← after, insertNewTimestamp]
      split
      · rename_i room
        exact (size_push_le ..).trans room
      · rename_i full
        obtain ⟨oldest, hfirst⟩ := exists_first_of_full full
        exact (size_push_le ..).trans ((OrdMap.size_popFirst_lt hfirst).trans_le ih)

/-- What is recorded for a sequence number is the latest of its arrivals. -/
theorem suffix_of_after {arrivals : List (UInt64 × Instant)} {seq : UInt64} {timestamps : List Instant}
    (found : (after arrivals).ackTimestamps.get? seq = some timestamps) :
    timestamps <:+ arrivalsOf seq arrivals := by
  induction arrivals using List.reverseRecOn generalizing timestamps with
  | nil => cases found
  | append_singleton past arrival ih =>
      rw [after, List.foldl_concat, ← after] at found
      rw [arrivalsOf_concat]
      by_cases hseq : arrival.1 = seq
      · -- the arrival stands behind what is left of the earlier ones
        have hbehind : ∃ before, timestamps = before ++ [arrival.2] ∧
            before <:+ arrivalsOf seq past := by
          by_cases room : (after past).ackTimestamps.size < maxTimestamps
          · rw [get?_insertNewTimestamp_of_room room, if_pos hseq.symm] at found
            refine ⟨_, (Option.some.inj found).symm, ?_⟩
            rw [hseq]
            cases hold : (after past).ackTimestamps.get? seq with
            | none => exact List.nil_suffix
            | some old => exact ih hold
          · obtain ⟨oldest, hfirst⟩ := exists_first_of_full room
            rw [get?_insertNewTimestamp_of_full room hfirst, if_pos hseq.symm] at found
            refine ⟨_, (Option.some.inj found).symm, ?_⟩
            rw [hseq]
            split
            · exact List.nil_suffix
            · cases hold : (after past).ackTimestamps.get? seq with
              | none => exact List.nil_suffix
              | some old => exact ih hold
        obtain ⟨before, rfl, hsuffix⟩ := hbehind
        rw [if_pos hseq]
        exact List.suffix_append_self_iff.mpr hsuffix
      · rw [if_neg hseq, List.append_nil]
        by_cases room : (after past).ackTimestamps.size < maxTimestamps
        · rw [get?_insertNewTimestamp_of_room room, if_neg (Ne.symm hseq)] at found
          exact ih found
        · obtain ⟨oldest, hfirst⟩ := exists_first_of_full room
          rw [get?_insertNewTimestamp_of_full room hfirst, if_neg (Ne.symm hseq)] at found
          split at found
          · cases found
          · exact ih found

/-- The estimate panics where a last arrival is earlier than the first one. -/
theorem delayDifferences_isSome_iff {latency : PathLatency} :
    latency.delayDifferences.isSome = true ↔
      ∀ compared ∈ latency.comparedArrivals, compared.2.1 ≤ compared.2.2 := by
  unfold delayDifferences
  induction latency.comparedArrivals with
  | nil => simp
  | cons compared rest ih =>
      obtain ⟨seq, first, last⟩ := compared
      rw [List.mapM_cons, List.forall_mem_cons, ← ih]
      dsimp only
      by_cases hordered : first ≤ last
      · rw [if_pos hordered, and_iff_right hordered]
        cases rest.mapM (m := Option) _ <;> rfl
      · rw [if_neg hordered]
        exact iff_of_false Bool.false_ne_true fun h => hordered h.1

/-- What the estimate compares is the first and the last arrival under a number of the record. -/
theorem of_mem_comparedArrivals {latency : PathLatency} {compared : UInt64 × Instant × Instant}
    (h : compared ∈ latency.comparedArrivals) :
    ∃ timestamps, latency.ackTimestamps.get? compared.1 = some timestamps ∧
      timestamps.head? = some compared.2.1 ∧ timestamps.getLast? = some compared.2.2 := by
  obtain ⟨entry, hentry, hcompared⟩ := List.mem_filterMap.mp h
  split at hcompared
  · rename_i first last hfirst hlast
    split at hcompared
    · obtain rfl := Option.some.inj hcompared
      exact ⟨entry.2, OrdMap.get?_eq_some_iff.mpr hentry, hfirst, hlast⟩
    · cases hcompared
  · cases hcompared

/-- In an ordered list the first entry is not above the last. -/
theorem le_of_head?_getLast? {instants : List Instant} (ordered : instants.Pairwise (· ≤ ·))
    {first last : Instant} (hfirst : instants.head? = some first)
    (hlast : instants.getLast? = some last) : first ≤ last := by
  obtain ⟨rest, rfl⟩ := List.head?_eq_some_iff.mp hfirst
  rcases List.mem_cons.mp (List.mem_of_getLast? hlast) with rfl | hrest
  · exact le_refl last
  · exact List.rel_of_pairwise_cons ordered hrest

end PathLatency

/-- A record holds no more sequence numbers than it may, each with the latest of some arrivals; and the
    estimate works unless the clock went back between two arrivals of one sequence number. -/
structure LatestArrivals (arrivals : List (UInt64 × Instant)) (latency : PathLatency) : Prop where
  bounded : latency.ackTimestamps.size ≤ maxTimestamps
  latest : ∀ seq timestamps, latency.ackTimestamps.get? seq = some timestamps →
    timestamps ≠ [] ∧ timestamps <:+ PathLatency.arrivalsOf seq arrivals
  estimates : (∀ seq, (PathLatency.arrivalsOf seq arrivals).Pairwise (· ≤ ·)) →
    latency.delayDifferences.isSome = true

/-- A record of the latest arrivals holds, under each number, arrivals without a gap, ending with the
    last. -/
theorem latestArrivals_after {arrivals latest : List (UInt64 × Instant)} (suffix : latest <:+ arrivals) :
    LatestArrivals arrivals (PathLatency.after latest) := by
  have hlatest : ∀ seq timestamps,
      (PathLatency.after latest).ackTimestamps.get? seq = some timestamps →
        timestamps <:+ PathLatency.arrivalsOf seq arrivals := fun seq timestamps found =>
    (PathLatency.suffix_of_after found).trans (suffix.filterMap _)
  refine ⟨PathLatency.size_after_le latest, fun seq timestamps found =>
    ⟨PathLatency.recorded_after latest seq timestamps found, hlatest seq timestamps found⟩, ?_⟩
  intro ordered
  refine PathLatency.delayDifferences_isSome_iff.mpr fun compared hcompared => ?_
  obtain ⟨timestamps, found, hfirst, hlast⟩ := PathLatency.of_mem_comparedArrivals hcompared
  exact PathLatency.le_of_head?_getLast?
    ((ordered compared.1).sublist (hlatest _ _ found).sublist) hfirst hlast

/-! ### What an operation notes -/

/-- The number of a hello for an endpoint. -/
def helloSeqFor (k : EndpointId) : Messages → Option UInt64
  | .hello hello => if hello.id = k then some hello.helloSeq else none
  | _ => none

/-- The number of a hello acknowledgement for an endpoint. -/
def helloAckSeqFor (k : EndpointId) : Messages → Option UInt64
  | .helloAck helloAck => if helloAck.id = k then some helloAck.helloAckSeq else none
  | _ => none

/-- What arrives on a connected socket in an operation, under its number, and when. -/
def ManagerOp.arrival (number : Messages → Option UInt64) : ManagerOp → Option (UInt64 × Instant)
  | .handleEstablishedMessage readInfo _ _ now =>
      (readInfo.packetBytes.bind number).map fun seq => (seq, now)
  | _ => none

/-- An endpoint with records that are still empty. -/
def Endpoint.Unrecorded (e : Endpoint) : Prop :=
  e.helloPathLatency = PathLatency.new ∧ e.helloAckPathLatency = PathLatency.new

/-- Two versions of an endpoint with the same latency records. -/
def SameRecords (e e' : Endpoint) : Prop :=
  e'.helloPathLatency = e.helloPathLatency ∧ e'.helloAckPathLatency = e.helloAckPathLatency

/-- The records of every endpoint are those that it had, or those of a fresh endpoint. -/
def KeepsRecords (manager next : ConnectionManager) : Prop :=
  ∀ k e', next.endpoints.get? k = some e' →
    e'.Unrecorded ∨ ∃ e, manager.endpoints.get? k = some e ∧ SameRecords e e'

section Keeps

variable {manager mid next : ConnectionManager} {outs : List Output} {k : EndpointId}

theorem KeepsRecords.refl (manager : ConnectionManager) : KeepsRecords manager manager :=
  fun _ e' found => Or.inr ⟨e', found, rfl, rfl⟩

theorem KeepsRecords.trans (h : KeepsRecords manager mid) (h' : KeepsRecords mid next) :
    KeepsRecords manager next := by
  intro k e'' found
  obtain fresh | ⟨e', found', same⟩ := h' k e'' found
  · exact Or.inl fresh
  · obtain fresh | ⟨e, found, same'⟩ := h k e' found'
    · exact Or.inl ⟨same.1.trans fresh.1, same.2.trans fresh.2⟩
    · exact Or.inr ⟨e, found, same.1.trans same'.1, same.2.trans same'.2⟩

/-- Replacing an endpoint keeps the records when it comes with empty ones or with those that it had. -/
theorem KeepsRecords.insert {id : EndpointId} {e' : Endpoint}
    (insert : next.endpoints = manager.endpoints.insert id e')
    (h : e'.Unrecorded ∨ ∃ e, manager.endpoints.get? id = some e ∧ SameRecords e e') :
    KeepsRecords manager next := by
  intro k changed found
  rw [insert, OrdMap.get?_insert] at found
  split at found
  · rename_i hk
    obtain rfl := Option.some.inj found
    exact hk ▸ h
  · exact Or.inr ⟨changed, found, rfl, rfl⟩

theorem KeepsRecords.setEndpoint {id : EndpointId} {e e' : Endpoint}
    (found : manager.endpoints.get? id = some e) (same : SameRecords e e') :
    KeepsRecords manager (manager.setEndpoint id e') :=
  KeepsRecords.insert rfl (Or.inr ⟨e, found, same⟩)

/-- A loop over all endpoints keeps the records when each turn does. -/
theorem KeepsRecords.mapVals {f : EndpointId → Endpoint → Endpoint}
    (same : ∀ k e, SameRecords e (f k e)) :
    KeepsRecords manager { manager with endpoints := manager.endpoints.mapVals f } := by
  intro k e' found
  rw [OrdMap.get?_mapVals] at found
  obtain ⟨e, hold, rfl⟩ := Option.map_eq_some_iff.mp found
  exact Or.inr ⟨e, hold, same k e⟩

/-- Connections are no part of the records. -/
theorem sameRecords_addConnection {e added : Endpoint} {sourceAddress localAddress : SocketAddr}
    {interfaceName : String} {connectionTimeout : UInt64} {openSocket : OpenSocket} {now : Instant}
    (h : e.addConnection sourceAddress interfaceName localAddress connectionTimeout openSocket now =
      .ok added) : SameRecords e added := by
  unfold Endpoint.addConnection at h
  split at h
  · obtain rfl := Except.ok.inj h
    exact ⟨rfl, rfl⟩
  · split at h
    · cases h
    · obtain rfl := Except.ok.inj h
      exact ⟨rfl, rfl⟩

/-! ### The operations -/

theorem keepsRecords_admitHello {hello : Hello} {sourceAddress : SocketAddr} {interfaceName : String}
    {openSocket : OpenSocket} {firstAck lastAck : Nat → SendResult} {now : Instant} :
    KeepsRecords manager (manager.admitHello hello sourceAddress interfaceName openSocket firstAck
      lastAck now).1 := by
  unfold admitHello
  split
  · exact KeepsRecords.refl manager
  · rename_i e found
    refine KeepsRecords.insert rfl (Or.inr ⟨e, found, ?_⟩)
    unfold addAndAcknowledge
    split
    · rename_i hadd
      have same := sameRecords_addConnection hadd
      exact ⟨same.1, same.2⟩
    · exact ⟨rfl, rfl⟩

/-- A hello on the listening socket is not noted: at most it installs an endpoint with empty records.
    -/
theorem keepsRecords_handleHello {message : Option Messages} {sourceAddress : SocketAddr}
    {interfaceName : String} {openSocket : OpenSocket} {firstAck lastAck : Nat → SendResult}
    {now : Instant} :
    KeepsRecords manager (manager.handleHello message sourceAddress interfaceName openSocket firstAck
      lastAck now).1 := by
  by_cases hhello : ∃ hello, message = some (.hello hello)
  · obtain ⟨hello, rfl⟩ := hhello
    rcases manager.handleHello_cases hello sourceAddress interfaceName openSocket firstAck lastAck now
      with ⟨-, hafter⟩ | ⟨e, -, -, hafter⟩ | ⟨-, -, -, -, hafter⟩
    · rw [hafter]
      have hinstalled : KeepsRecords manager (manager.installFresh hello now) :=
        KeepsRecords.insert rfl (Or.inl ⟨rfl, rfl⟩)
      exact hinstalled.trans keepsRecords_admitHello
    · rw [hafter]
      exact keepsRecords_admitHello
    · rw [hafter]
      exact KeepsRecords.refl manager
  · unfold handleHello
    split
    · exact absurd ⟨_, rfl⟩ hhello
    · exact KeepsRecords.refl manager

/-- An attempt to connect may create its endpoint, with empty records. -/
theorem keepsRecords_tryLink {attempt : ConnectionInfo × Dial}
    (h : manager.tryLink attempt = some (next, outs)) : KeepsRecords manager next := by
  obtain ⟨result, hopen⟩ := tryLink_eq_some h
  have hensured : (manager.ensureDestination attempt.1.destinationEndpointId attempt.2).2.Unrecorded ∨
      ∃ e, manager.endpoints.get? attempt.1.destinationEndpointId = some e ∧
        SameRecords e (manager.ensureDestination attempt.1.destinationEndpointId attempt.2).2 := by
    unfold ensureDestination
    split
    · rename_i e found
      exact Or.inr ⟨e, found, rfl, rfl⟩
    · exact Or.inl ⟨rfl, rfl⟩
  have hset : ∀ e', SameRecords
      (manager.ensureDestination attempt.1.destinationEndpointId attempt.2).2 e' →
      KeepsRecords manager ((manager.ensureDestination attempt.1.destinationEndpointId
        attempt.2).1.setEndpoint attempt.1.destinationEndpointId e') := by
    intro e' same k changed found
    rw [get?_ensureDestination] at found
    split at found
    · rename_i hk
      obtain rfl := Option.some.inj found
      obtain fresh | ⟨e, hold, hsame⟩ := hensured
      · exact Or.inl ⟨same.1.trans fresh.1, same.2.trans fresh.2⟩
      · exact Or.inr ⟨e, hk ▸ hold, same.1.trans hsame.1, same.2.trans hsame.2⟩
    · exact Or.inr ⟨changed, found, rfl, rfl⟩
  obtain ⟨-, rfl, -⟩ | ⟨localAddr, -, ⟨error, -, rfl, -⟩ | ⟨sent, entry, -, -, rfl, -⟩⟩ :=
    openLink_cases hopen
  · exact KeepsRecords.refl _
  · exact hset _ ⟨rfl, rfl⟩
  · exact hset _ ⟨rfl, rfl⟩

/-- What each turn of a loop keeps, the loop keeps. -/
theorem keepsRecords_run {ε : Type}
    {step : ConnectionManager → ε → Option (ConnectionManager × List Output)} {es : List ε}
    (turn : ∀ mid e after now, step mid e = some (after, now) → KeepsRecords mid after)
    (h : Run.run step manager es = some (next, outs)) : KeepsRecords manager next :=
  Run.run_invariant (P := KeepsRecords manager)
    (fun mid e after now hmid hstep => hmid.trans (turn mid e after now hstep))
    (KeepsRecords.refl manager) h

theorem keepsRecords_tunnelTo {bytes : List UInt8} {sends : EndpointId → Nat → SendResult}
    {id : EndpointId} (h : tunnelTo bytes sends manager id = some (next, outs)) :
    KeepsRecords manager next := by
  unfold tunnelTo at h
  split at h
  · rename_i found
    obtain ⟨rfl, -⟩ := Prod.mk.inj (Option.some.inj h)
    exact KeepsRecords.setEndpoint found ⟨rfl, rfl⟩
  · cases h

/-- Endpoints that stay after a removal keep their records. -/
theorem keepsRecords_removed {keys : EndpointId → List (String × SocketAddr)}
    (removed : ∀ k, next.endpoints.get? k =
      ((manager.endpoints.get? k).map (Endpoint.withoutKeys (keys k))).filter Endpoint.hasConnections) :
    KeepsRecords manager next := by
  intro k e' found
  rw [removed] at found
  obtain ⟨found, -⟩ := Option.filter_eq_some_iff.mp found
  obtain ⟨e, hold, rfl⟩ := Option.map_eq_some_iff.mp found
  exact Or.inr ⟨e, hold, rfl, rfl⟩

theorem keepsRecords_removeDisconnected : KeepsRecords manager manager.removeDisconnected := by
  by_cases broken : manager.disconnected = []
  · rw [removeDisconnected, broken]
    exact KeepsRecords.refl manager
  · exact keepsRecords_removed fun k => get?_removeDisconnected broken

/-- Only a message on a connected socket is noted. -/
theorem keepsRecords_of_apply {op : ManagerOp}
    (unheard : ∀ readInfo openSocket ack now, op ≠ .handleEstablishedMessage readInfo openSocket ack now)
    (h : ManagerOp.apply manager op = some (next, outs)) : KeepsRecords manager next := by
  cases op with
  | handleHello =>
      obtain ⟨rfl, -⟩ := Prod.mk.inj (Option.some.inj h)
      exact keepsRecords_handleHello
  | handleEstablishedMessage => exact absurd rfl (unheard _ _ _ _)
  | createNewConnection => exact keepsRecords_tryLink h
  | handlePacketFromTun sliced bytes sends =>
      change manager.handlePacketFromTun sliced bytes sends = _ at h
      unfold handlePacketFromTun at h
      split at h
      · exact keepsRecords_run (fun _ _ _ _ hstep => keepsRecords_tunnelTo hstep) h
      · exact (Prod.mk.inj (Option.some.inj h)).1 ▸ KeepsRecords.refl manager
  | removeConnection id interfaceName address =>
      obtain ⟨rfl, -⟩ := Prod.mk.inj (Option.some.inj h)
      exact keepsRecords_removed fun k => get?_removeConnection (id, interfaceName, address)
  | removeDisconnected =>
      obtain ⟨rfl, -⟩ := Prod.mk.inj (Option.some.inj h)
      exact keepsRecords_removeDisconnected
  | greetAllEndpoints =>
      obtain ⟨rfl, -⟩ := Prod.mk.inj (Option.some.inj h)
      exact KeepsRecords.mapVals fun _ _ => ⟨rfl, rfl⟩
  | ensureEndpointConnections id connectionInfos dials =>
      change manager.ensureEndpointConnections id connectionInfos dials = _ at h
      unfold ensureEndpointConnections at h
      split at h
      · exact keepsRecords_run (fun _ _ _ _ hstep => keepsRecords_tryLink hstep) h
      · exact (Prod.mk.inj (Option.some.inj h)).1 ▸ KeepsRecords.refl manager
  | handleSelectiveDuplicationCommand duplicationCommand =>
      obtain ⟨rfl, -⟩ := Prod.mk.inj (Option.some.inj h)
      unfold handleSelectiveDuplicationCommand
      split
      · refine KeepsRecords.mapVals fun _ _ => ?_
        split <;> exact ⟨rfl, rfl⟩
      · exact KeepsRecords.refl manager
  | handlePacketSorterDeadline =>
      obtain ⟨rfl, -⟩ := Prod.mk.inj (Option.some.inj h)
      unfold handlePacketSorterDeadline
      split
      · rename_i found
        exact KeepsRecords.setEndpoint found ⟨rfl, rfl⟩
      · exact KeepsRecords.refl manager
  | awaitTimeout =>
      obtain ⟨-, e, entry, found, -, rfl⟩ := apply_awaitTimeout h
      exact KeepsRecords.setEndpoint found ⟨rfl, rfl⟩
  | awaitPacketSorters =>
      obtain ⟨-, e, found, rfl⟩ := apply_awaitPacketSorters h
      exact KeepsRecords.setEndpoint found ⟨rfl, rfl⟩
  | awaitEndpointSortedPackets =>
      obtain ⟨e, sorter, packet, found, -, -, rfl⟩ := apply_awaitEndpointSortedPackets h
      exact KeepsRecords.setEndpoint found ⟨rfl, rfl⟩

/-- An operation notes its arrivals in the records of the endpoint that they are for, and changes no
    record otherwise. -/
def Notes (op : ManagerOp) (manager next : ConnectionManager) : Prop :=
  ∀ k e', next.endpoints.get? k = some e' → e'.Unrecorded ∨
    ∃ e, manager.endpoints.get? k = some e ∧
      e'.helloPathLatency = e.helloPathLatency.noted (op.arrival (helloSeqFor k)) ∧
      e'.helloAckPathLatency = e.helloAckPathLatency.noted (op.arrival (helloAckSeqFor k))

/-- An operation that keeps the records and brings no arrival has noted all that it had to. -/
theorem KeepsRecords.notes {op : ManagerOp} (keeps : KeepsRecords manager next)
    (hello : ∀ k e, next.endpoints.get? k = some e → op.arrival (helloSeqFor k) = none)
    (helloAck : ∀ k e, next.endpoints.get? k = some e → op.arrival (helloAckSeqFor k) = none) :
    Notes op manager next := by
  intro k e' found
  obtain fresh | ⟨e, hold, same⟩ := keeps k e' found
  · exact Or.inl fresh
  · refine Or.inr ⟨e, hold, ?_⟩
    rw [hello k e' found, helloAck k e' found]
    exact same

/-- A hello and an acknowledgement on a connection are noted under the endpoint that they name, each in
    its own record. -/
theorem notes_handleEstablishedMessage {readInfo : ReadInfo} {openSocket : OpenSocket}
    {ack : Nat → SendResult} {now : Instant}
    (h : manager.handleEstablishedMessage readInfo openSocket ack now = some (next, outs)) :
    Notes (.handleEstablishedMessage readInfo openSocket ack now) manager next := by
  have hsame : ∀ {outs'}, some (manager, outs') = some (next, outs) → KeepsRecords manager next :=
    fun heq => (Prod.mk.inj (Option.some.inj heq)).1 ▸ KeepsRecords.refl manager
  unfold handleEstablishedMessage at h
  split at h
  · rename_i packet hread
    have hkeeps : KeepsRecords manager next := by
      split at h
      · rename_i found
        obtain ⟨rfl, -⟩ := Prod.mk.inj (Option.some.inj h)
        exact KeepsRecords.setEndpoint found ⟨rfl, rfl⟩
      · exact hsame h
    refine hkeeps.notes (fun k e _ => ?_) (fun k e _ => ?_) <;>
      simp [ManagerOp.arrival, hread, helloSeqFor, helloAckSeqFor]
  · rename_i hello hread
    split at h
    · rename_i e found
      dsimp only at h
      split at h
      · rename_i added hadd
        obtain ⟨rfl, -⟩ := Prod.mk.inj (Option.some.inj h)
        have same := sameRecords_addConnection hadd
        intro k e' hafter
        rw [setEndpoint, OrdMap.get?_insert] at hafter
        split at hafter
        · rename_i hk
          subst hk
          obtain rfl := Option.some.inj hafter
          refine Or.inr ⟨e, found, same.1.trans ?_, same.2.trans ?_⟩ <;>
            simp [ManagerOp.arrival, hread, helloSeqFor, helloAckSeqFor, PathLatency.noted]
        · rename_i hk
          refine Or.inr ⟨e', hafter, ?_⟩
          simp [ManagerOp.arrival, hread, helloSeqFor, helloAckSeqFor, PathLatency.noted, Ne.symm hk]
      · cases h
    · rename_i absent
      refine (hsame h).notes (fun k e found => ?_) (fun k e _ => ?_)
      · have hother : hello.id ≠ k := fun hk => by
          obtain ⟨rfl, -⟩ := Prod.mk.inj (Option.some.inj h)
          rw [← hk, absent] at found
          cases found
        simp [ManagerOp.arrival, hread, helloSeqFor, hother]
      · simp [ManagerOp.arrival, hread, helloAckSeqFor]
  · rename_i helloAck hread
    split at h
    · rename_i e found
      obtain ⟨rfl, -⟩ := Prod.mk.inj (Option.some.inj h)
      intro k e' hafter
      rw [OrdMap.get?_insert] at hafter
      split at hafter
      · rename_i hk
        subst hk
        obtain rfl := Option.some.inj hafter
        refine Or.inr ⟨e, found, ?_⟩
        simp [ManagerOp.arrival, hread, helloSeqFor, helloAckSeqFor, PathLatency.noted]
      · rename_i hk
        refine Or.inr ⟨e', hafter, ?_⟩
        simp [ManagerOp.arrival, hread, helloSeqFor, helloAckSeqFor, PathLatency.noted, Ne.symm hk]
    · rename_i absent
      refine (hsame h).notes (fun k e _ => ?_) (fun k e found => ?_)
      · simp [ManagerOp.arrival, hread, helloSeqFor]
      · have hother : helloAck.id ≠ k := fun hk => by
          obtain ⟨rfl, -⟩ := Prod.mk.inj (Option.some.inj h)
          rw [← hk, absent] at found
          cases found
        simp [ManagerOp.arrival, hread, helloAckSeqFor, hother]
  · rename_i hread
    refine (hsame h).notes (fun k e _ => ?_) (fun k e _ => ?_) <;> simp [ManagerOp.arrival, hread]

/-- What an operation does to the latency records. -/
theorem notes_of_apply {op : ManagerOp} (h : ManagerOp.apply manager op = some (next, outs)) :
    Notes op manager next := by
  by_cases hheard : ∃ readInfo openSocket ack now,
      op = .handleEstablishedMessage readInfo openSocket ack now
  · obtain ⟨readInfo, openSocket, ack, now, rfl⟩ := hheard
    exact notes_handleEstablishedMessage h
  · have unheard : ∀ number, op.arrival number = none := fun number => by
      unfold ManagerOp.arrival
      split
      · exact absurd ⟨_, _, _, _, rfl⟩ hheard
      · rfl
    exact (keepsRecords_of_apply (fun readInfo openSocket ack now heq =>
      hheard ⟨readInfo, openSocket, ack, now, heq⟩) h).notes (fun _ _ _ => unheard _)
      fun _ _ _ => unheard _

end Keeps

/-! ### Runs -/

/-- The arrivals of a run of operations. -/
def arrivalsIn (number : Messages → Option UInt64) (ops : List ManagerOp) : List (UInt64 × Instant) :=
  ops.filterMap (ManagerOp.arrival number)

/-- A record is the one after the latest of some arrivals. -/
def RecordsLatest (arrivals : List (UInt64 × Instant)) (latency : PathLatency) : Prop :=
  ∃ latest, latest <:+ arrivals ∧ latency = PathLatency.after latest

/-- The record of a new endpoint holds the arrivals since it was made: none. -/
theorem recordsLatest_new (arrivals : List (UInt64 × Instant)) :
    RecordsLatest arrivals PathLatency.new :=
  ⟨[], List.nil_suffix, rfl⟩

/-- Noting the arrival of an operation, if it brings one, keeps the record in step with the run. -/
theorem RecordsLatest.noted {number : Messages → Option UInt64} {past : List ManagerOp}
    {latency : PathLatency} (h : RecordsLatest (arrivalsIn number past) latency) (op : ManagerOp) :
    RecordsLatest (arrivalsIn number (past ++ [op])) (latency.noted (op.arrival number)) := by
  obtain ⟨latest, hsuffix, rfl⟩ := h
  refine ⟨latest ++ (op.arrival number).toList, ?_, (PathLatency.after_append_toList _ _).symm⟩
  rw [arrivalsIn, List.filterMap_append, ← arrivalsIn]
  have hlast : [op].filterMap (ManagerOp.arrival number) = (op.arrival number).toList := by
    cases harrival : op.arrival number <;> simp [harrival]
  rw [hlast]
  exact List.suffix_append_self_iff.mpr hsuffix

/-- After any run both records of every endpoint hold the latest arrivals for it. -/
theorem recordsLatest_run {start manager : ConnectionManager} {ops : List ManagerOp}
    {outs : List Output} (empty : ∀ k, start.endpoints.get? k = none)
    (reached : Run.run ManagerOp.apply start ops = some (manager, outs)) :
    ∀ k e, manager.endpoints.get? k = some e →
      RecordsLatest (arrivalsIn (helloSeqFor k) ops) e.helloPathLatency ∧
      RecordsLatest (arrivalsIn (helloAckSeqFor k) ops) e.helloAckPathLatency := by
  refine Run.run_induction (C := fun _ _ _ => True)
    (P := fun done mid _ => ∀ k e, mid.endpoints.get? k = some e →
      RecordsLatest (arrivalsIn (helloSeqFor k) done) e.helloPathLatency ∧
      RecordsLatest (arrivalsIn (helloAckSeqFor k) done) e.helloAckPathLatency)
    ?_ ?_ (fun _ _ _ _ _ _ _ _ _ _ => trivial) reached
  · intro k e found
    rw [empty k] at found
    cases found
  · intro done op mid _ after _ _ hmid _ hstep k e' found
    obtain fresh | ⟨e, hold, hello, helloAck⟩ := notes_of_apply hstep k e' found
    · rw [fresh.1, fresh.2]
      exact ⟨recordsLatest_new _, recordsLatest_new _⟩
    · rw [hello, helloAck]
      exact ⟨(hmid k e hold).1.noted op, (hmid k e hold).2.noted op⟩

/-- In every state that any operations reach, the latency records of an endpoint hold the latest
    arrivals of each recorded message on established connections. -/
theorem latency_records_hold_latest (localAddress : SocketAddr) (ownId : EndpointId)
    (ownStaticRoutes : Option (List Route)) (connectionTimeout packetSorterDeadline : UInt64)
    (ops : List ManagerOp) (manager : ConnectionManager) (outs : List Output)
    (reached : Run.run ManagerOp.apply (ConnectionManager.new localAddress ownId ownStaticRoutes
      connectionTimeout packetSorterDeadline) ops = some (manager, outs)) :
    ∀ k e, manager.endpoints.get? k = some e →
      LatestArrivals (arrivalsIn (helloSeqFor k) ops) e.helloPathLatency ∧
      LatestArrivals (arrivalsIn (helloAckSeqFor k) ops) e.helloAckPathLatency := by
  intro k e found
  obtain ⟨⟨hellos, hsuffix, hrecord⟩, ⟨acks, hsuffix', hrecord'⟩⟩ :=
    recordsLatest_run (fun _ => rfl) reached k e found
  rw [hrecord, hrecord']
  exact ⟨latestArrivals_after hsuffix, latestArrivals_after hsuffix'⟩

/-- A hello arrives on one connection, and again on it, a third of a second later. -/
private def helloTwiceHeard : List ManagerOp :=
  [.handleHello (some (.hello ⟨154, 7, none, 0⟩)) (.v4 2130706433 5000) "DYN-interface"
      (fun _ _ => .ok (.v4 2130706434 40000)) (fun _ => .ok 20) (fun _ => .ok 20) 0,
    .handleEstablishedMessage
      ⟨some (.hello ⟨154, 7, none, 1⟩), .v4 2130706433 5000, "DYN-interface", 154⟩
      (fun _ _ => .ok (.v4 2130706434 40000)) (fun _ => .ok 20) 400,
    .handleEstablishedMessage
      ⟨some (.hello ⟨154, 7, none, 1⟩), .v4 2130706433 5000, "DYN-interface", 154⟩
      (fun _ _ => .ok (.v4 2130706434 40000)) (fun _ => .ok 20) 700]

theorem latency_records_hold_latest_twice :
    ∃ manager outs e, Run.run ManagerOp.apply
        (ConnectionManager.new (.v4 2130706434 40000) 1 none 10000 100) helloTwiceHeard =
          some (manager, outs) ∧
      manager.endpoints.get? 154 = some e ∧
      e.helloPathLatency.delayDifferences = some [300] ∧
      LatestArrivals (arrivalsIn (helloSeqFor 154) helloTwiceHeard) e.helloPathLatency := by
  have hrun : (Run.run ManagerOp.apply (ConnectionManager.new (.v4 2130706434 40000) 1 none 10000 100)
      helloTwiceHeard).bind (fun reached => (reached.1.endpoints.get? 154).bind fun e =>
        e.helloPathLatency.delayDifferences) = some [300] := by
    decide
  obtain ⟨⟨manager, outs⟩, hreached, hrest⟩ := Option.bind_eq_some_iff.mp hrun
  obtain ⟨e, found, hdifferences⟩ := Option.bind_eq_some_iff.mp hrest
  exact ⟨manager, outs, e, hreached, found, hdifferences,
    (latency_records_hold_latest _ _ _ _ _ _ _ _ hreached 154 e found).1⟩

end MultiConnect
