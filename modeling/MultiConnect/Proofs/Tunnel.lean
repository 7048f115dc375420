/-
Module: MultiConnect.Proofs.Tunnel
Layer: Proofs
Purpose: One direction of the tunnel within one session: a sender, a receiver and the network between
  them, which may lose, repeat, delay and reorder what the sender wrote. Both sides perform any
  operations in any order. `Linked` ties the sender's counter, the datagrams under way and the history
  of the receiver's sorter to the list of byte strings sent: a packet numbered `n` carries the `n`th of
  them. What the sorter releases is numbered increasingly, so what is delivered is a sublist of what
  was sent.
Trusted boundary: bincode decodes what it encoded; a connected socket yields its peer's datagrams only
Main exports: Tunnel, TunnelEvent, tunnelStep, FreshTunnel, Kept, Linked, tunnels_in_order
-/
import Mathlib.Algebra.Group.Nat.Defs
import MultiConnect.Proofs.EndpointSteps

namespace MultiConnect

open ConnectionManager

/-! ### The system -/

/-- A sender, a receiver, and every datagram that the sender wrote to the receiver. -/
structure Tunnel where
  sender : ConnectionManager
  receiver : ConnectionManager
  wire : List Messages

/-- One of the two performs an operation. -/
inductive TunnelEvent where
  | sender (op : ManagerOp)
  | receiver (op : ManagerOp)

/-- The IP packets that go into the tunnel, and those that come out. -/
inductive TunnelOutput where
  | sent (bytes : List UInt8)
  | delivered (bytes : List UInt8)
deriving DecidableEq

/-- The datagrams written to an endpoint. -/
def messagesTo (k : EndpointId) (outs : List Output) : List Messages :=
  outs.filterMap fun
    | .write write => if write.endpointId = k then some write.message else none
    | .sorted .. => none

/-- The packets read from the sorted channel of an endpoint. -/
def readFrom (k : EndpointId) (outs : List Output) : List Packet :=
  outs.filterMap fun
    | .write _ => none
    | .sorted endpointId packet => if endpointId = k then some packet else none

/-- The IP packet that an operation routes to an endpoint. -/
def routedTo (k : EndpointId) (manager : ConnectionManager) : ManagerOp → List (List UInt8)
  | .handlePacketFromTun sliced bytes _ =>
      if k ∈ (manager.getRoute sliced).getD [] then [bytes] else []
  | _ => []

/-- What a connection of an endpoint yields is on the wire, or does not decode. -/
def carries (wire : List Messages) (k : EndpointId) : ManagerOp → Bool
  | .handleEstablishedMessage readInfo .. =>
      match readInfo.packetBytes with
      | some message => readInfo.endpointId != k || decide (message ∈ wire)
      | none => true
  | _ => true

/-- One operation of one side. The network keeps whatever was written, so a datagram may arrive at any
    later time, any number of times, or never. -/
def tunnelStep (senderId receiverId : EndpointId) (tunnel : Tunnel) :
    TunnelEvent → Option (Tunnel × List TunnelOutput)
  | .sender op =>
      match ManagerOp.apply tunnel.sender op with
      | some (sender, outs) =>
          some ({ tunnel with sender := sender, wire := tunnel.wire ++ messagesTo receiverId outs },
            (routedTo receiverId tunnel.sender op).map .sent)
      | none => none
  | .receiver op =>
      if carries tunnel.wire senderId op then
        match ManagerOp.apply tunnel.receiver op with
        | some (receiver, outs) =>
            some ({ tunnel with receiver := receiver },
              (readFrom senderId outs).map fun packet => .delivered packet.bytes)
        | none => none
      else none

/-- The byte strings sent, in order. -/
def sentBytes (outs : List TunnelOutput) : List (List UInt8) :=
  outs.filterMap fun | .sent bytes => some bytes | _ => none

/-- The byte strings delivered, in order. -/
def deliveredBytes (outs : List TunnelOutput) : List (List UInt8) :=
  outs.filterMap fun | .delivered bytes => some bytes | _ => none

@[simp] theorem sentBytes_append (xs ys : List TunnelOutput) :
    sentBytes (xs ++ ys) = sentBytes xs ++ sentBytes ys :=
  List.filterMap_append

@[simp] theorem deliveredBytes_append (xs ys : List TunnelOutput) :
    deliveredBytes (xs ++ ys) = deliveredBytes xs ++ deliveredBytes ys :=
  List.filterMap_append

@[simp] theorem sentBytes_sent (bytes : List (List UInt8)) : sentBytes (bytes.map .sent) = bytes := by
  induction bytes with
  | nil => rfl
  | cons first rest ih => simp [sentBytes]

@[simp] theorem deliveredBytes_sent (bytes : List (List UInt8)) :
    deliveredBytes (bytes.map .sent) = [] := by
  induction bytes with
  | nil => rfl
  | cons first rest ih => simp [deliveredBytes]

@[simp] theorem sentBytes_delivered (packets : List Packet) :
    sentBytes (packets.map fun packet => .delivered packet.bytes) = [] := by
  induction packets with
  | nil => rfl
  | cons first rest ih => simp [sentBytes]

@[simp] theorem deliveredBytes_delivered (packets : List Packet) :
    deliveredBytes (packets.map fun packet => .delivered packet.bytes) = packets.map (·.bytes) := by
  induction packets with
  | nil => rfl
  | cons first rest ih => simp [deliveredBytes]

/-! ### What a side does to the endpoint of the other -/

theorem mem_messagesTo {k : EndpointId} {outs : List Output} {message : Messages} :
    message ∈ messagesTo k outs ↔
      ∃ write, .write write ∈ outs ∧ write.endpointId = k ∧ write.message = message := by
  simp only [messagesTo, List.mem_filterMap]
  constructor
  · rintro ⟨out, hmem, hout⟩
    cases out with
    | write write => exact ⟨write, hmem, by simpa using hout⟩
    | sorted => cases hout
  · rintro ⟨write, hmem, rfl, rfl⟩
    exact ⟨_, hmem, if_pos rfl⟩

@[simp] theorem messagesTo_outputsFor (k : EndpointId) (outs : List Output) :
    messagesTo k (outputsFor k outs) = messagesTo k outs := by
  rw [messagesTo, outputsFor, List.filterMap_filter]
  refine List.filterMap_congr fun out _ => ?_
  cases out <;> grind [Output.endpointId]

@[simp] theorem readFrom_outputsFor (k : EndpointId) (outs : List Output) :
    readFrom k (outputsFor k outs) = readFrom k outs := by
  rw [readFrom, outputsFor, List.filterMap_filter]
  refine List.filterMap_congr fun out _ => ?_
  cases out <;> grind [Output.endpointId]

@[simp] theorem readFrom_append (k : EndpointId) (outs outs' : List Output) :
    readFrom k (outs ++ outs') = readFrom k outs ++ readFrom k outs' :=
  List.filterMap_append

@[simp] theorem messagesTo_append (k : EndpointId) (outs outs' : List Output) :
    messagesTo k (outs ++ outs') = messagesTo k outs ++ messagesTo k outs' :=
  List.filterMap_append

@[simp] theorem messagesTo_nil (k : EndpointId) : messagesTo k [] = [] := rfl

@[simp] theorem readFrom_writes (k : EndpointId) (writes : List Write) :
    readFrom k (writes.map .write) = [] := by
  induction writes with
  | nil => rfl
  | cons first rest ih => simp [readFrom]

@[simp] theorem readFrom_sorted (k : EndpointId) (packets : List Packet) :
    readFrom k (packets.map (.sorted k)) = packets := by
  induction packets with
  | nil => rfl
  | cons first rest ih => simp [readFrom]

/-- One turn numbers the packet for one endpoint and writes it there. -/
theorem tunnelTo_eq_some {bytes : List UInt8} {sends : EndpointId → Nat → SendResult}
    {manager next : ConnectionManager} {id : EndpointId} {outs : List Output} (keyed : Keyed manager)
    (h : manager.tunnelTo bytes sends id = some (next, outs)) :
    ∃ e, manager.endpoints.get? id = some e ∧
      next = manager.setEndpoint id (e.tunnel bytes (sends id)).1 ∧ Keyed next ∧
      ∀ k, outputsFor k outs = if id = k then (e.tunnel bytes (sends id)).2.map .write else [] := by
  unfold tunnelTo at h
  split at h
  case h_2 => cases h
  rename_i e found
  obtain ⟨rfl, rfl⟩ := Prod.mk.inj (Option.some.inj h)
  have hown : ∀ write ∈ (e.tunnel bytes (sends id)).2, write.endpointId = id :=
    fun write hwrite => (endpointId_of_mem_writes hwrite).trans (keyed id e found)
  refine ⟨e, found, rfl, fun k e' he' => ?_, fun k => outputsFor_writes k hown⟩
  rw [setEndpoint, OrdMap.get?_insert] at he'
  split at he'
  · rename_i hk
    obtain rfl := Option.some.inj he'
    exact hk ▸ keyed id e found
  · exact keyed k e' he'

/-- Every endpoint of a route takes the packet once, and no other endpoint does. -/
theorem tunnelTo_run {bytes : List UInt8} {sends : EndpointId → Nat → SendResult}
    {ids : List EndpointId} (k : EndpointId) :
    ∀ {manager next : ConnectionManager} {outs : List Output} {e : Endpoint}, ids.Nodup →
      Keyed manager → manager.endpoints.get? k = some e →
      Run.run (tunnelTo bytes sends) manager ids = some (next, outs) →
      next.endpoints.get? k = some (if k ∈ ids then (e.tunnel bytes (sends k)).1 else e) ∧
        outputsFor k outs = if k ∈ ids then (e.tunnel bytes (sends k)).2.map .write else [] := by
  induction ids with
  | nil =>
      intro manager next outs e _ _ found hrun
      obtain ⟨rfl, rfl⟩ := Prod.mk.inj (Option.some.inj hrun)
      simpa using found
  | cons id ids ih =>
      intro manager next outs e nodup keyed found hrun
      obtain ⟨hnew, hnodup⟩ := List.nodup_cons.mp nodup
      obtain ⟨mid, first, rest, hfirst, hrest, rfl⟩ := Run.run_cons_eq_some.mp hrun
      obtain ⟨target, htarget, rfl, hkeyed, hown⟩ := tunnelTo_eq_some keyed hfirst
      rw [outputsFor_append, hown]
      by_cases hk : k = id
      · subst hk
        obtain rfl := Option.some.inj (found.symm.trans htarget)
        obtain ⟨hnext, hwritten⟩ := ih hnodup hkeyed (OrdMap.get?_insert_self ..) hrest
        simp only [hnew, if_false] at hnext hwritten
        simp [hnext, hwritten]
      · have hkept := OrdMap.get?_insert_of_ne manager.endpoints (target.tunnel bytes (sends id)).1 hk
        obtain ⟨hnext, hwritten⟩ := ih hnodup hkeyed (hkept.trans found) hrest
        simp [hnext, hwritten, hk, Ne.symm hk]

/-- A packet from the TUN device is numbered once for an endpoint that it is routed to, and written on
    its enabled connections; the other endpoints stay as they are. -/
theorem handlePacketFromTun_eq_some {manager next : ConnectionManager} {sliced : SlicedPacket}
    {bytes : List UInt8} {sends : EndpointId → Nat → SendResult} {outs : List Output}
    {k : EndpointId} {e : Endpoint} (keyed : Keyed manager)
    (found : manager.endpoints.get? k = some e)
    (h : manager.handlePacketFromTun sliced bytes sends = some (next, outs)) :
    let ids := (manager.getRoute sliced).getD []
    next.endpoints.get? k = some (if k ∈ ids then (e.tunnel bytes (sends k)).1 else e) ∧
      outputsFor k outs = if k ∈ ids then (e.tunnel bytes (sends k)).2.map .write else [] := by
  unfold handlePacketFromTun at h
  cases hroute : manager.getRoute sliced with
  | none =>
      rw [hroute] at h
      obtain ⟨rfl, rfl⟩ := Prod.mk.inj (Option.some.inj h)
      simpa using found
  | some ids =>
      rw [hroute] at h
      have hnodup : ids.Nodup := by
        unfold getRoute at hroute
        split at hroute
        · cases hroute
        · obtain rfl := Option.some.inj hroute
          exact Router.nodup_lookup _ _
        · cases hroute
        · cases hroute
      exact tunnelTo_run k hnodup keyed found h

/-- Only packets from the TUN device are numbered and written as packets, and each takes one number. -/
theorem sends_of_apply {manager next : ConnectionManager} {op : ManagerOp} {outs : List Output}
    {k : EndpointId} {e e' : Endpoint} (keyed : Keyed manager)
    (found : manager.endpoints.get? k = some e) (found' : next.endpoints.get? k = some e')
    (session : e'.sessionId = e.sessionId) (h : ManagerOp.apply manager op = some (next, outs)) :
    (routedTo k manager op = [] ∧ e'.txCounter = e.txCounter ∧
      ∀ packet, .packet packet ∉ messagesTo k outs) ∨
    ∃ bytes, routedTo k manager op = [bytes] ∧ e'.txCounter = e.txCounter + 1 ∧
      ∀ packet, .packet packet ∈ messagesTo k outs → packet.seq = e.txCounter ∧
        packet.bytes = bytes := by
  by_cases htun : ∃ sliced bytes sends, op = .handlePacketFromTun sliced bytes sends
  · obtain ⟨sliced, bytes, sends, rfl⟩ := htun
    obtain ⟨hnext, hwritten⟩ := handlePacketFromTun_eq_some keyed found h
    obtain rfl := Option.some.inj (hnext.symm.trans found')
    rw [← messagesTo_outputsFor, hwritten]
    by_cases hk : k ∈ (manager.getRoute sliced).getD []
    · refine Or.inr ⟨bytes, by simp [routedTo, hk], by simp [hk, Endpoint.tunnel], ?_⟩
      intro packet hpacket
      rw [if_pos hk] at hpacket
      obtain ⟨write, hmem, -, hmessage⟩ := mem_messagesTo.mp hpacket
      obtain ⟨write', hwrite, heq⟩ := List.mem_map.mp hmem
      obtain rfl := Output.write.inj heq
      obtain ⟨entry, -, -, rfl⟩ := Endpoint.mem_writes.mp hwrite
      obtain rfl := Messages.packet.inj hmessage
      exact ⟨rfl, rfl⟩
    · exact Or.inl ⟨by simp [routedTo, hk], by simp [hk], by simp [hk]⟩
  · have hrouted : routedTo k manager op = [] := by
      unfold routedTo
      split
      · exact absurd ⟨_, _, _, rfl⟩ htun
      · rfl
    refine Or.inl ⟨hrouted, ?_⟩
    have hsteps := (decomposes_of_apply keyed h).steps k
    rw [found'] at hsteps
    rw [← messagesTo_outputsFor]
    refine hsteps.kept (Q := fun now outs => now.txCounter = e.txCounter ∧
      ∀ packet, .packet packet ∉ messagesTo k outs) found session ⟨rfl, by simp [messagesTo]⟩ ?_
    rintro o last mid after before more ho hlast ⟨hcounter, hsilent⟩ step hsame
    suffices hstep : after.txCounter = mid.txCounter ∧
        ∀ packet, .packet packet ∉ messagesTo k more by
      refine ⟨hstep.1.trans hcounter, fun packet hpacket => ?_⟩
      rw [messagesTo_append] at hpacket
      exact (List.mem_append.mp hpacket).elim (hsilent packet) (hstep.2 packet)
    cases step with
    | install _ _ installs =>
        obtain rfl := Option.some.inj hlast
        exact absurd hsame.symm (installs mid ho).1
    | create => cases ho
    | remove => cases hlast
    | tunnel hop => exact absurd ⟨_, _, _, hop⟩ htun
    | signal touched sent =>
        obtain rfl := Option.some.inj ho
        obtain rfl := Option.some.inj hlast
        refine ⟨touched.txCounter, fun packet hpacket => ?_⟩
        obtain ⟨write, hmem, -, hmessage⟩ := mem_messagesTo.mp hpacket
        obtain ⟨write', hwrite, heq⟩ := List.mem_map.mp hmem
        obtain rfl := Output.write.inj heq
        have hsignal := (sent write' hwrite).message
        rw [hmessage] at hsignal
        exact hsignal
    | switch =>
        obtain rfl := Option.some.inj ho
        obtain rfl := Option.some.inj hlast
        refine ⟨?_, by simp [messagesTo]⟩
        split <;> rfl
    | sort =>
        obtain rfl := Option.some.inj ho
        obtain rfl := Option.some.inj hlast
        exact ⟨rfl, by simp [messagesTo]⟩
    | acceptListening | acceptEstablished | dial | fire | drop =>
        obtain rfl := Option.some.inj ho
        obtain rfl := Option.some.inj hlast
        exact ⟨rfl, by simp [messagesTo]⟩

/-- What an operation does to the sorter of an endpoint that stays: it continues the history of the
    sorter, accepts only what the operation takes in, and reads what the operation puts out. -/
theorem sorts_of_apply {manager next : ConnectionManager} {op : ManagerOp} {outs : List Output}
    {k : EndpointId} {e e' : Endpoint} {history : List SorterOutput} (keyed : Keyed manager)
    (found : manager.endpoints.get? k = some e) (found' : next.endpoints.get? k = some e')
    (session : e'.sessionId = e.sessionId) (h : ManagerOp.apply manager op = some (next, outs))
    (bounded : ∀ sop, Sorts op k sop → sop.Bounded) (sound : SorterSound e.packetSorter history) :
    ∃ more, SorterSound e'.packetSorter (history ++ more) ∧
      (∀ pkt ∈ acceptedPackets more, ∃ now, Sorts op k (.insertPacket pkt now)) ∧
      receivedPackets more = readFrom k outs := by
  have hsteps := (decomposes_of_apply keyed h).steps k
  rw [found'] at hsteps
  rw [← readFrom_outputsFor]
  refine (hsteps.kept (Q := fun now outs => now.id = k ∧ ∃ more,
    SorterSound now.packetSorter (history ++ more) ∧
      (∀ pkt ∈ acceptedPackets more, ∃ now, Sorts op k (.insertPacket pkt now)) ∧
      receivedPackets more = readFrom k outs) found session
    ⟨keyed k e found, [], by simpa using sound, by simp [acceptedPackets], rfl⟩ ?_).2
  rintro o last mid after before more ho hlast ⟨hid, past, hsound, haccepted, hreceived⟩ step hsame
  -- a step that leaves the sorter alone reads nothing
  have hsilent : SorterSound after.packetSorter (history ++ past) → after.id = mid.id →
      readFrom k more = [] → after.id = k ∧ ∃ past, SorterSound after.packetSorter (history ++ past) ∧
        (∀ pkt ∈ acceptedPackets past, ∃ now, Sorts op k (.insertPacket pkt now)) ∧
        receivedPackets past = readFrom k (before ++ more) := fun hsorter hkept hnone =>
    ⟨hkept.trans hid, past, hsorter, haccepted, by simp [hnone, hreceived]⟩
  cases step with
  | install _ _ installs =>
      obtain rfl := Option.some.inj hlast
      exact absurd hsame.symm (installs mid ho).1
  | create => cases ho
  | remove => cases hlast
  | signal touched =>
      obtain rfl := Option.some.inj ho
      obtain rfl := Option.some.inj hlast
      exact hsilent (touched.packetSorter ▸ hsound) touched.id (readFrom_writes ..)
  | tunnel =>
      obtain rfl := Option.some.inj ho
      obtain rfl := Option.some.inj hlast
      exact hsilent hsound rfl (readFrom_writes ..)
  | switch =>
      obtain rfl := Option.some.inj ho
      obtain rfl := Option.some.inj hlast
      refine hsilent ?_ ?_ rfl
      · split <;> exact hsound
      · split <;> rfl
  | fire =>
      obtain rfl := Option.some.inj ho
      obtain rfl := Option.some.inj hlast
      exact hsilent ⟨hsound.ordered, hsound.keyed, hsound.settled, hsound.delivered⟩ rfl rfl
  | sort sorts _ sorted =>
      obtain rfl := Option.some.inj ho
      obtain rfl := Option.some.inj hlast
      have hafter := sorterSound_step hsound (bounded _ sorts) sorted
      refine ⟨hid, past ++ _, by rw [← List.append_assoc]; exact hafter, fun pkt hpkt => ?_, ?_⟩
      · rw [acceptedPackets_append] at hpkt
        rcases List.mem_append.mp hpkt with hpkt | hpkt
        · exact haccepted pkt hpkt
        · obtain ⟨now, rfl⟩ := eq_insertPacket_of_accepted sorted hpkt
          exact ⟨now, sorts⟩
      · rw [receivedPackets_append, readFrom_append, hid, readFrom_sorted, hreceived]
  | acceptListening | acceptEstablished | dial | drop =>
      obtain rfl := Option.some.inj ho
      obtain rfl := Option.some.inj hlast
      exact hsilent hsound rfl rfl

/-! ### The invariant -/

/-- Some run of operations leads to the manager. -/
def Reached (manager : ConnectionManager) : Prop :=
  ∃ localAddress ownId ownStaticRoutes connectionTimeout packetSorterDeadline ops outs,
    Run.run ManagerOp.apply (ConnectionManager.new localAddress ownId ownStaticRoutes
      connectionTimeout packetSorterDeadline) ops = some (manager, outs)

/-- Each side has a fresh endpoint for the other, and no packet is under way. -/
structure FreshTunnel (senderId receiverId : EndpointId) (tunnel : Tunnel) : Prop where
  senderReached : Reached tunnel.sender
  receiverReached : Reached tunnel.receiver
  sender : ∃ e, tunnel.sender.endpoints.get? receiverId = some e ∧ e.txCounter = 0
  receiver : ∃ e, tunnel.receiver.endpoints.get? senderId = some e ∧ e.packetSorter.nextSeq = 0 ∧
    e.packetSorter.packetQueue = OrdMap.empty ∧
    e.packetSorter.sortedPacketQueue = Channel.withCapacity 1000
  wire : ∀ packet, .packet packet ∉ tunnel.wire

/-- Both endpoints are there, under the sessions that they had in the beginning. -/
structure Kept (senderId receiverId : EndpointId) (start tunnel : Tunnel) : Prop where
  sender : (tunnel.sender.endpoints.get? receiverId).map (·.sessionId) =
    (start.sender.endpoints.get? receiverId).map (·.sessionId)
  receiver : (tunnel.receiver.endpoints.get? senderId).map (·.sessionId) =
    (start.receiver.endpoints.get? senderId).map (·.sessionId)

/-- The packet carries the byte string sent under its number. -/
def Numbered (outs : List TunnelOutput) (packet : Packet) : Prop :=
  (sentBytes outs)[packet.seq.toNat]? = some packet.bytes

/-- What a run of the tunnel keeps between its two sides. -/
structure Linked (senderId receiverId : EndpointId) (tunnel : Tunnel) (outs : List TunnelOutput) :
    Prop where
  senderKeyed : Keyed tunnel.sender
  receiverKeyed : Keyed tunnel.receiver
  counter : ∃ e, tunnel.sender.endpoints.get? receiverId = some e ∧
    e.txCounter.toNat = (sentBytes outs).length
  numbered : ∀ packet, .packet packet ∈ tunnel.wire → Numbered outs packet
  sorted : ∃ e history, tunnel.receiver.endpoints.get? senderId = some e ∧
    SorterSound e.packetSorter history ∧ (∀ pkt ∈ acceptedPackets history, Numbered outs pkt) ∧
    (receivedPackets history).map (·.bytes) = deliveredBytes outs

theorem Numbered.append {outs : List TunnelOutput} {packet : Packet} (h : Numbered outs packet)
    (more : List TunnelOutput) : Numbered (outs ++ more) packet := by
  rw [Numbered, sentBytes_append,
    List.getElem?_append_left (List.getElem?_eq_some_iff.mp h).1]
  exact h

theorem Reached.keyed {manager : ConnectionManager} (h : Reached manager) : Keyed manager := by
  obtain ⟨_, _, _, _, _, ops, outs, hrun⟩ := h
  exact keyed_run (keyed_new _ _ _ _ _) hrun

/-- An endpoint whose session is known is there under it. -/
theorem exists_of_map_sessionId {o o' : Option Endpoint} {e : Endpoint}
    (h : o'.map (·.sessionId) = o.map (·.sessionId)) (found : o = some e) :
    ∃ e', o' = some e' ∧ e'.sessionId = e.sessionId := by
  rw [found] at h
  exact Option.map_eq_some_iff.mp h

/-- A packet that an operation takes in was on the wire. -/
theorem mem_wire_of_sorts {wire : List Messages} {k : EndpointId} {op : ManagerOp} {pkt : Packet}
    {now : Instant} (carried : carries wire k op = true)
    (sorts : Sorts op k (.insertPacket pkt now)) : .packet pkt ∈ wire := by
  cases sorts with
  | packet openSocket ack now decoded => simpa [carries, decoded] using carried

section Step

variable {senderId receiverId : EndpointId} {start tunnel next : Tunnel} {op : ManagerOp}
  {outs more : List TunnelOutput}

/-- An operation of the sender: it sends at most one packet, under the next number. -/
theorem linked_sender (linked : Linked senderId receiverId tunnel outs)
    (kept : (next.sender.endpoints.get? receiverId).map (·.sessionId) =
      (tunnel.sender.endpoints.get? receiverId).map (·.sessionId))
    (few : (sentBytes (outs ++ more)).length < 2 ^ 64 - 1)
    (h : tunnelStep senderId receiverId tunnel (.sender op) = some (next, more)) :
    Linked senderId receiverId next (outs ++ more) := by
  simp only [tunnelStep] at h
  split at h
  case h_2 => cases h
  rename_i sender written happly
  obtain ⟨rfl, rfl⟩ := Prod.mk.inj (Option.some.inj h)
  obtain ⟨e, hfound, hcounter⟩ := linked.counter
  obtain ⟨e', hfound', hsession⟩ := exists_of_map_sessionId kept hfound
  obtain ⟨x, history, hx, hsound, haccepted, hdelivered⟩ := linked.sorted
  rcases sends_of_apply linked.senderKeyed hfound hfound' hsession happly with
    ⟨hrouted, hsame, hsilent⟩ | ⟨bytes, hrouted, hnext, hwritten⟩
  · rw [hrouted, List.map_nil, List.append_nil]
    refine ⟨keyed_of_apply linked.senderKeyed happly, linked.receiverKeyed,
      ⟨e', hfound', hsame ▸ hcounter⟩, fun packet hpacket => ?_,
      ⟨x, history, hx, hsound, haccepted, hdelivered⟩⟩
    rcases List.mem_append.mp hpacket with hpacket | hpacket
    · exact linked.numbered packet hpacket
    · exact absurd hpacket (hsilent packet)
  · rw [hrouted] at few ⊢
    rw [sentBytes_append, sentBytes_sent, List.length_append, List.length_singleton] at few
    refine ⟨keyed_of_apply linked.senderKeyed happly, linked.receiverKeyed,
      ⟨e', hfound', ?_⟩, fun packet hpacket => ?_, ⟨x, history, hx, hsound,
        fun pkt hpkt => (haccepted pkt hpkt).append _, ?_⟩⟩
    · rw [hnext, UInt64.toNat_add, hcounter, sentBytes_append, sentBytes_sent, List.length_append]
      exact Nat.mod_eq_of_lt (by simpa using by omega)
    · rcases List.mem_append.mp hpacket with hpacket | hpacket
      · exact (linked.numbered packet hpacket).append _
      · obtain ⟨hseq, hbytes⟩ := hwritten packet hpacket
        rw [Numbered, sentBytes_append, sentBytes_sent, hseq, hcounter, hbytes]
        exact List.getElem?_concat_length
    · rw [deliveredBytes_append, deliveredBytes_sent, List.append_nil]
      exact hdelivered

/-- An operation of the receiver: its sorter goes on with packets of the wire. -/
theorem linked_receiver (linked : Linked senderId receiverId tunnel outs)
    (kept : (next.receiver.endpoints.get? senderId).map (·.sessionId) =
      (tunnel.receiver.endpoints.get? senderId).map (·.sessionId))
    (few : (sentBytes outs).length < 2 ^ 64 - 1)
    (h : tunnelStep senderId receiverId tunnel (.receiver op) = some (next, more)) :
    Linked senderId receiverId next (outs ++ more) := by
  simp only [tunnelStep] at h
  split at h
  case isFalse => cases h
  rename_i carried
  split at h
  case h_2 => cases h
  rename_i receiver read happly
  obtain ⟨rfl, rfl⟩ := Prod.mk.inj (Option.some.inj h)
  obtain ⟨x, history, hfound, hsound, haccepted, hdelivered⟩ := linked.sorted
  obtain ⟨x', hfound', hsession⟩ := exists_of_map_sessionId kept hfound
  have hbounded : ∀ sop, Sorts op senderId sop → sop.Bounded := by
    intro sop sorts
    cases sop with
    | insertPacket pkt now =>
        have hplace := linked.numbered pkt (mem_wire_of_sorts carried sorts)
        have hlt := (List.getElem?_eq_some_iff.mp hplace).1
        rw [SorterOp.Bounded, UInt64.lt_iff_toNat_lt, toNat_u64Max]
        omega
    | advanceQueue | awaitHaveNextPacket => trivial
  obtain ⟨later, hsound', haccepted', hread⟩ :=
    sorts_of_apply linked.receiverKeyed hfound hfound' hsession happly hbounded hsound
  obtain ⟨e, he, hcounter⟩ := linked.counter
  refine ⟨linked.senderKeyed, keyed_of_apply linked.receiverKeyed happly,
    ⟨e, he, by simpa using hcounter⟩, fun packet hpacket => (linked.numbered packet hpacket).append _,
    ⟨x', history ++ later, hfound', hsound', fun pkt hpkt => ?_, ?_⟩⟩
  · rw [acceptedPackets_append] at hpkt
    rcases List.mem_append.mp hpkt with hpkt | hpkt
    · exact (haccepted pkt hpkt).append _
    · obtain ⟨now, sorts⟩ := haccepted' pkt hpkt
      exact (linked.numbered pkt (mem_wire_of_sorts carried sorts)).append _
  · rw [receivedPackets_append, List.map_append, hdelivered, hread, deliveredBytes_append,
      deliveredBytes_delivered]

end Step

/-- What was delivered is numbered increasingly, so it is a sublist of what was sent. -/
theorem Linked.delivered_sublist {senderId receiverId : EndpointId} {tunnel : Tunnel}
    {outs : List TunnelOutput} (linked : Linked senderId receiverId tunnel outs) :
    (deliveredBytes outs).Sublist (sentBytes outs) := by
  obtain ⟨e, history, -, hsound, haccepted, hdelivered⟩ := linked.sorted
  have hhistory := hsound.conservesAndOrders
  -- what was read is among what was handed on
  have hread : (receivedPackets history).Sublist ((handedPackets history).map (·.packet)) := by
    refine (List.sublist_append_left _ e.packetSorter.sortedPacketQueue.items).trans ?_
    rw [hhistory.fifo]
    exact List.filter_sublist.map _
  have hincreasing : ((handedPackets history).map (·.packet)).Pairwise
      fun a b => a.seq < b.seq := by
    have hseqs := hhistory.increasing
    rw [List.pairwise_map] at hseqs ⊢
    exact hseqs
  have hnumbered : ∀ packet ∈ receivedPackets history, Numbered outs packet := by
    intro packet hpacket
    refine haccepted packet (hhistory.conserved.mem_iff.mp ?_)
    exact List.mem_append_left _ (hread.subset hpacket)
  rw [← hdelivered]
  have hsublist : (((receivedPackets history).map fun packet => (packet.seq, packet.bytes)).map
      (·.2)).Sublist (sentBytes outs) :=
    Reorder.sublist_of_increasing UInt64.toNat (fun _ _ => UInt64.lt_iff_toNat_lt.mp)
      (List.pairwise_map.mpr (hincreasing.sublist hread)) (by simpa [Numbered] using hnumbered)
  rw [List.map_map] at hsublist
  exact hsublist

/-- The run lemma: as long as few packets are sent and both endpoints stay, the sides are linked. -/
theorem linked_run {senderId receiverId : EndpointId} {start final : Tunnel}
    {events : List TunnelEvent} {outs : List TunnelOutput}
    (fresh : FreshTunnel senderId receiverId start)
    (kept : Run.Throughout (tunnelStep senderId receiverId) (Kept senderId receiverId start) start
      events)
    (h : Run.run (tunnelStep senderId receiverId) start events = some (final, outs))
    (few : (sentBytes outs).length < 2 ^ 64 - 1) : Linked senderId receiverId final outs := by
  refine Run.run_induction
    (C := fun past tunnel event => Kept senderId receiverId start tunnel ∧
      ∀ next now, tunnelStep senderId receiverId tunnel event = some (next, now) →
        Kept senderId receiverId start next)
    (P := fun _ tunnel outs => (sentBytes outs).length < 2 ^ 64 - 1 →
      Linked senderId receiverId tunnel outs) ?_ ?_ ?_ h few
  · intro _
    obtain ⟨e, hfound, hcounter⟩ := fresh.sender
    obtain ⟨x, hx, hseq, hqueue, hchannel⟩ := fresh.receiver
    exact ⟨fresh.senderReached.keyed, fresh.receiverReached.keyed,
      ⟨e, hfound, by simp [hcounter, sentBytes]⟩,
      fun packet hpacket => absurd hpacket (fresh.wire packet),
      ⟨x, [], hx, sorterSound_of_fresh hseq hqueue hchannel, by simp [acceptedPackets], rfl⟩⟩
  · rintro past event mid before next now - hmid ⟨hkept, hnext⟩ hstep few
    have hfew : (sentBytes before).length < 2 ^ 64 - 1 := by
      rw [sentBytes_append, List.length_append] at few
      omega
    have hkept' := hnext next now hstep
    cases event with
    | sender op =>
        exact linked_sender (hmid hfew) (hkept'.sender.trans hkept.sender.symm) few hstep
    | receiver op =>
        exact linked_receiver (hmid hfew) (hkept'.receiver.trans hkept.receiver.symm) hfew hstep
  · intro past event future mid before next now heq hrun hstep
    refine ⟨kept past (event :: future) mid before heq hrun, fun next now hstep => ?_⟩
    exact kept (past ++ [event]) future next (before ++ now) (by simp [heq])
      (Run.run_concat_eq_some.mpr ⟨mid, before, now, hrun, hstep, rfl⟩)

/-- In-order at-most-once tunnelling within one session: whatever the two sides do, and whatever the
    network does to what is written, the byte strings that the receiver reads from its sorted channel
    are a sublist of those routed to it, in sending order. -/
theorem tunnels_in_order (senderId receiverId : EndpointId) (start final : Tunnel)
    (events : List TunnelEvent) (outs : List TunnelOutput)
    (fresh : FreshTunnel senderId receiverId start)
    (run : Run.run (tunnelStep senderId receiverId) start events = some (final, outs))
    (kept : Run.Throughout (tunnelStep senderId receiverId) (Kept senderId receiverId start) start
      events)
    (few : (sentBytes outs).length < 2 ^ 64 - 1) :
    (deliveredBytes outs).Sublist (sentBytes outs) :=
  (linked_run fresh kept run few).delivered_sublist

/-- A sender greets its peer and is told a route. -/
def sampleSender : List ManagerOp :=
  [.createNewConnection ⟨"eth0", .v4 2130706433 0, .v4 2130706434 40000, 2⟩
      ⟨.bound, .ok (), .ok (.v4 2130706433 5000), 7, .ok 20, 0⟩,
    .handleEstablishedMessage ⟨some (.helloAck ⟨2, 7, some [⟨0, 0⟩], 0⟩), .v4 2130706434 40000,
      "eth0", 2⟩ (fun _ _ => .error .other) (fun _ => .ok 20) 1]

/-- A receiver takes the hello in. -/
def sampleReceiver : List ManagerOp :=
  [.handleHello (some (.hello ⟨1, 7, none, 0⟩)) (.v4 2130706433 5000) "DYN-interface"
    (fun _ _ => .ok (.v4 2130706434 40000)) (fun _ => .ok 20) (fun _ => .ok 20) 0]

/-- The two of them. -/
def sampleTunnel : Tunnel where
  sender := ((Run.run ManagerOp.apply (ConnectionManager.new (.v4 2130706433 0) 1 none 10000 100)
    sampleSender).get (by decide)).1
  receiver := ((Run.run ManagerOp.apply
    (ConnectionManager.new (.v4 2130706434 40000) 2 none 10000 100) sampleReceiver).get (by decide)).1
  wire := []

/-- Two packets arrive in the wrong order, the first of them twice, and are read in the right one. -/
theorem tunnels_in_order_reordered :
    ∃ final outs, Run.run (tunnelStep 1 2) sampleTunnel
        [.sender (.handlePacketFromTun (.ipv4 167772161) [65] fun _ _ => .ok 20),
          .sender (.handlePacketFromTun (.ipv4 167772161) [66] fun _ _ => .error .wouldBlock),
          .receiver (.handleEstablishedMessage ⟨some (.packet ⟨1, 2, [66]⟩), .v4 2130706433 5000,
            "DYN-interface", 1⟩ (fun _ _ => .error .other) (fun _ => .ok 20) 3),
          .receiver (.handleEstablishedMessage ⟨some (.packet ⟨1, 2, [66]⟩), .v4 2130706433 5000,
            "DYN-interface", 1⟩ (fun _ _ => .error .other) (fun _ => .ok 20) 4),
          .receiver (.handleEstablishedMessage ⟨some (.packet ⟨0, 2, [65]⟩), .v4 2130706433 5000,
            "DYN-interface", 1⟩ (fun _ _ => .error .other) (fun _ => .ok 20) 5),
          .receiver (.awaitEndpointSortedPackets 1), .receiver (.awaitEndpointSortedPackets 1)] =
        some (final, outs) ∧
      outs = [.sent [65], .sent [66], .delivered [65], .delivered [66]] ∧
      (deliveredBytes outs).Sublist (sentBytes outs) := by
  have fresh : FreshTunnel 1 2 sampleTunnel :=
    ⟨⟨_, _, _, _, _, sampleSender, _, (Option.some_get (by decide)).symm⟩,
      ⟨_, _, _, _, _, sampleReceiver, _, (Option.some_get (by decide)).symm⟩,
      ⟨_, rfl, rfl⟩,
      ⟨_, rfl, rfl, rfl, rfl⟩, fun _ => List.not_mem_nil⟩
  refine Run.exists_of_isSome (by decide) fun final outs run => ?_
  have houts : outs = [.sent [65], .sent [66], .delivered [65], .delivered [66]] := by
    refine Option.some.inj ((congrArg (Option.map Prod.snd) run).symm.trans ?_)
    decide
  refine ⟨houts, tunnels_in_order 1 2 _ _ _ _ fresh run ?_ (by simp [houts, sentBytes])⟩
  exact Run.throughout_of_everyState (c := fun tunnel => decide
      ((tunnel.sender.endpoints.get? 2).map (·.sessionId) = some 7 ∧
        (tunnel.receiver.endpoints.get? 1).map (·.sessionId) = some 7))
    (fun tunnel hkept => ⟨(of_decide_eq_true hkept).1, (of_decide_eq_true hkept).2⟩) (by decide)

end MultiConnect
