/-
Module: MultiConnect.Proofs.Provenance
Layer: Proofs
Purpose: Where everything comes from that a manager holds and hands out. The peer addresses of its
  connections, the packets in its sorters and the entries of its routing table were handed to one of
  its operations (`traces_of_apply`); the messages that it writes are its own greetings and
  acknowledgements, and the packets of its TUN device for the endpoints of their route
  (`authored_of_apply`). Both hold of one operation, and so of the operations of an event.
Trusted boundary: none
Main exports: PacketSorter.Holds, Origins, Traces, Offers, traces_of_run, Authored, authored_of_run
-/
import MultiConnect.Proofs.Counters
import MultiConnect.Proofs.RouteSessions
import MultiConnect.Proofs.SorterEffects

namespace MultiConnect

open ConnectionManager

/-! ### The packets in a sorter -/

/-- Every packet that waits in the sorter, or in its channel, is of a kind. -/
structure PacketSorter.Holds (P : Packet → Prop) (sorter : PacketSorter) : Prop where
  waiting : ∀ entry ∈ sorter.packetQueue.entries, P entry.2.packet
  sorted : ∀ packet ∈ sorter.sortedPacketQueue.items, P packet

section Sorter

variable {P : Packet → Prop} {sorter next : PacketSorter}

theorem holds_new (deadline : Duration) (now : Instant) : (PacketSorter.new deadline now).Holds P :=
  ⟨by simp [PacketSorter.new, OrdMap.empty], by simp [PacketSorter.new, Channel.withCapacity]⟩

theorem PacketSorter.Holds.handNext {handed : Handed} (holds : sorter.Holds P)
    (hands : PacketSorter.HandsNext sorter next handed) : next.Holds P := by
  obtain ⟨queued, hfirst, hpacket⟩ := hands.first
  refine ⟨fun entry hmem => ?_, fun packet hmem => ?_⟩
  · rw [hands.queue] at hmem
    exact holds.waiting entry (OrdMap.mem_of_mem_popFirst hmem)
  · rw [hands.channel] at hmem
    rcases List.mem_append.mp hmem with hmem | hmem
    · exact holds.sorted packet hmem
    · split at hmem
      · obtain rfl := List.mem_singleton.mp hmem
        exact hpacket ▸ holds.waiting _ (OrdMap.mem_of_first? hfirst)
      · cases hmem

/-- A sorter holds and yields only what was put in. -/
theorem holds_sorterStep {op : SorterOp} {outs : List SorterOutput} (holds : sorter.Holds P)
    (inserted : ∀ pkt now, op = .insertPacket pkt now → P pkt)
    (hstep : sorterStep sorter op = some (next, outs)) :
    next.Holds P ∧ ∀ pkt ∈ receivedPackets outs, P pkt := by
  have hands : ∀ (sorter next : PacketSorter) (handed : Handed) (out : List Handed),
      sorter.Holds P → PacketSorter.HandsNext sorter next handed → next.Holds P :=
    fun _ _ _ _ h hands => h.handNext hands
  have skips : ∀ (sorter : PacketSorter) (key : UInt64) (queued : QueuedPacket) (out : List Handed),
      sorter.Holds P → sorter.packetQueue.first? = some (key, queued) →
      PacketSorter.Holds P { sorter with nextSeq := key } := fun _ _ _ _ h _ =>
    ⟨h.waiting, h.sorted⟩
  cases op with
  | insertPacket pkt now =>
      obtain ⟨rfl, rfl⟩ := Prod.mk.inj (Option.some.inj hstep)
      refine ⟨?_, fun got hgot => ?_⟩
      · by_cases notLate : sorter.nextSeq ≤ pkt.seq
        · refine @PacketSorter.insertPacket_induction (fun s _ => s.Holds P) hands skips
            (fun _ _ _ h => ⟨h.waiting, h.sorted⟩) sorter [] pkt now notLate ⟨?_, holds.sorted⟩
          intro entry hmem
          cases hwaits : sorter.packetQueue.get? pkt.seq with
          | some queued =>
              rw [PacketSorter.queuePacket,
                OrdMap.orInsert_of_contains _ (OrdMap.contains_iff.mpr ⟨queued, hwaits⟩)] at hmem
              exact holds.waiting entry hmem
          | none =>
              rw [PacketSorter.queuePacket, OrdMap.orInsert_of_get?_none _ hwaits] at hmem
              rcases OrdMap.mem_insertEntry hmem with rfl | hmem
              · exact inserted pkt now rfl
              · exact holds.waiting entry hmem
        · rw [PacketSorter.insertPacket_of_late now (lt_of_not_ge notLate)]
          exact holds
      · rw [receivedPackets_append, receivedPackets_handed, List.append_nil] at hgot
        split at hgot <;> simp [receivedPackets] at hgot
  | advanceQueue now =>
      obtain ⟨rfl, rfl⟩ := Prod.mk.inj (Option.some.inj hstep)
      refine ⟨?_, fun got hgot => by simp at hgot⟩
      exact @PacketSorter.advanceQueue_induction (fun s _ => s.Holds P) hands skips
        (fun _ _ _ h => ⟨h.waiting, h.sorted⟩) sorter [] now holds
  | awaitHaveNextPacket =>
      simp only [sorterStep] at hstep
      split at hstep
      · rename_i after pkt hread
        obtain ⟨rfl, rfl⟩ := Prod.mk.inj (Option.some.inj hstep)
        obtain ⟨channel, hrecv, rfl⟩ := awaitHaveNextPacket_eq_some hread
        obtain ⟨hitems, -⟩ := Channel.tryRecv_eq_some hrecv
        refine ⟨⟨holds.waiting, fun packet hmem => ?_⟩, fun got hgot => ?_⟩
        · exact holds.sorted packet (hitems ▸ List.mem_cons_of_mem _ hmem)
        · obtain rfl : got = pkt := by simpa [receivedPackets] using hgot
          exact holds.sorted _ (hitems ▸ List.mem_cons_self)
      · obtain ⟨rfl, rfl⟩ := Prod.mk.inj (Option.some.inj hstep)
        exact ⟨holds, fun got hgot => by simp [receivedPackets] at hgot⟩

end Sorter

/-! ### What a manager is made of -/

/-- Where the contents of a manager may come from: the addresses of the client, seen from a side that
    writes in a direction, to which an endpoint has connections; the packets that come from an
    endpoint; the entries of the routing table; and whether hellos, and acknowledgements of them, come
    in at all. -/
structure Origins where
  direction : Direction
  hears : Prop
  acked : Prop
  address : EndpointId → SocketAddr → Prop
  packet : EndpointId → Packet → Prop
  route : AddressEndpointMapping → Prop

/-- What the manager holds is of its origins. -/
structure Traces (origins : Origins) (manager : ConnectionManager) : Prop where
  keyed : Keyed manager
  address : ∀ k e, manager.endpoints.get? k = some e → ∀ entry ∈ e.connections,
    origins.address k (origins.direction.clientAddr entry)
  packet : ∀ k e, manager.endpoints.get? k = some e → e.packetSorter.Holds (origins.packet k)
  route : ∀ aem ∈ manager.routes.routes, origins.route aem

/-- What an operation hands out is of its manager's origins. -/
def Yields (origins : Origins) : Output → Prop
  | .write write => origins.address write.endpointId (origins.direction.clientAddr write.entry)
  | .sorted endpointId packet => origins.packet endpointId packet

/-- What an operation is handed is of the origins: the packet and the routes that it reads, and the
    addresses of the connections that it opens. -/
structure Offers (origins : Origins) (op : ManagerOp) : Prop where
  hears : ∀ hello, op.received = some (.hello hello) → origins.hears
  packet : ∀ readInfo packet, op.reading = some readInfo →
    readInfo.packetBytes = some (.packet packet) → origins.packet readInfo.endpointId packet
  listened : ∀ hello sourceAddress interfaceName openSocket firstAck lastAck now, op =
    .handleHello (some (.hello hello)) sourceAddress interfaceName openSocket firstAck lastAck now →
    (∀ localAddr timeout now, origins.address hello.id (origins.direction.clientAddr
      (Endpoint.incomingEntry sourceAddress interfaceName localAddr timeout now))) ∧
    ∀ route ∈ hello.staticRoutes.getD [], origins.route ⟨route, hello.id⟩
  greeted : ∀ readInfo hello, op.reading = some readInfo →
    readInfo.packetBytes = some (.hello hello) → ∀ localAddr timeout now,
    origins.address hello.id (origins.direction.clientAddr (Endpoint.incomingEntry
      readInfo.sourceAddress readInfo.interfaceName localAddr timeout now))
  acknowledged : ∀ helloAck, op.readAck = some helloAck → origins.acked ∧
    ∀ route ∈ helloAck.staticRoutes.getD [], origins.route ⟨route, helloAck.id⟩
  dialled : ∀ manager info dial localAddr, Dials manager op info dial → dial.Reaches localAddr →
    ∀ timeout now, origins.address info.destinationEndpointId (origins.direction.clientAddr
      (outgoingEntry info.interfaceName info.destinationAddress localAddr timeout now))

/-- What is of some origins is of any that allow for more. -/
theorem Traces.mono {origins more : Origins} {manager : ConnectionManager}
    (traces : Traces origins manager) (direction : more.direction = origins.direction)
    (address : ∀ k addr, origins.address k addr → more.address k addr)
    (packet : ∀ k packet, origins.packet k packet → more.packet k packet)
    (route : ∀ aem, origins.route aem → more.route aem) : Traces more manager where
  keyed := traces.keyed
  address k e found entry hmem := by
    rw [direction]
    exact address k _ (traces.address k e found entry hmem)
  packet k e found :=
    ⟨fun entry hmem => packet k _ ((traces.packet k e found).waiting entry hmem),
      fun pkt hmem => packet k _ ((traces.packet k e found).sorted pkt hmem)⟩
  route aem haem := route aem (traces.route aem haem)

theorem traces_new (origins : Origins) (localAddress : SocketAddr) (ownId : EndpointId)
    (ownStaticRoutes : Option (List Route)) (connectionTimeout packetSorterDeadline : UInt64) :
    Traces origins (ConnectionManager.new localAddress ownId ownStaticRoutes connectionTimeout
      packetSorterDeadline) where
  keyed := keyed_new localAddress ownId ownStaticRoutes connectionTimeout packetSorterDeadline
  address k e found := by cases found
  packet k e found := by cases found
  route aem haem := by cases haem

/-- What an endpoint holds is of the origins under its id. -/
structure EndpointTraces (origins : Origins) (k : EndpointId) (e : Endpoint) : Prop where
  id : e.id = k
  address : ∀ entry ∈ e.connections, origins.address k (origins.direction.clientAddr entry)
  packet : e.packetSorter.Holds (origins.packet k)

section Step

variable {origins : Origins} {m₀ : ConnectionManager} {op : ManagerOp} {k : EndpointId}
  {e e' : Endpoint}

theorem endpointTraces_new (k : EndpointId) (session : Uuid) (packetSorterDeadline : UInt64)
    (now : Instant) :
    EndpointTraces origins k (Endpoint.new k session packetSorterDeadline now) where
  id := rfl
  address entry hmem := by cases hmem
  packet := holds_new ..

theorem EndpointTraces.touched (traces : EndpointTraces origins k e) (touched : Touched e e') :
    EndpointTraces origins k e' where
  id := touched.id.trans traces.id
  address entry hmem := by
    obtain ⟨old, hold, hlink⟩ := touched.exists_entry hmem
    exact clientAddr_of_link hlink _ ▸ traces.address old hold
  packet := touched.packetSorter ▸ traces.packet

theorem EndpointTraces.connect {entry : ConnectionEntry} (traces : EndpointTraces origins k e)
    (address : origins.address k (origins.direction.clientAddr entry)) :
    EndpointTraces origins k { e with connections := e.connections ++ [entry] } where
  id := traces.id
  address other hmem := by
    rcases List.mem_append.mp hmem with hmem | hmem
    · exact traces.address other hmem
    · exact List.mem_singleton.mp hmem ▸ address
  packet := traces.packet

theorem EndpointTraces.switch (traces : EndpointTraces origins k e) (state : InterfaceState) :
    EndpointTraces origins k (if state.enabled then e.enableInterface state.interfaceName
      else e.disableInterface state.interfaceName) := by
  have hswitch : ∀ switch : Connection → Connection,
      (∀ connection, (switch connection).socket = connection.socket ∧
        (switch connection).peerAddr = connection.peerAddr) →
      EndpointTraces origins k (e.setInterface switch state.interfaceName) := by
    intro switch same
    refine ⟨traces.id, fun entry hmem => ?_, traces.packet⟩
    obtain ⟨old, hold, rfl⟩ := List.mem_map.mp hmem
    have haddress := traces.address old hold
    split
    · cases hdirection : origins.direction with
      | toServer => simpa [hdirection, Direction.clientAddr, (same _).1] using haddress
      | toClient => simpa [hdirection, Direction.clientAddr, (same _).2] using haddress
    · exact haddress
  split
  · exact hswitch Connection.enable fun _ => ⟨rfl, rfl⟩
  · exact hswitch Connection.disable fun _ => ⟨rfl, rfl⟩

/-- A step on an endpoint keeps it to its origins, and yields only what is of them. -/
theorem traced_endpointStep {o next : Option Endpoint} {outs : List Output}
    (offers : Offers origins op) (traces : ∀ e, o = some e → EndpointTraces origins k e)
    (step : EndpointStep m₀ op k o outs next) :
    (∀ e, next = some e → EndpointTraces origins k e) ∧ ∀ out ∈ outs, Yields origins out := by
  have hkeep : ∀ {kept : Endpoint}, EndpointTraces origins k kept →
      (∀ e, some kept = some e → EndpointTraces origins k e) ∧
        ∀ out ∈ ([] : List Output), Yields origins out := fun hkept =>
    ⟨fun _ heq => Option.some.inj heq ▸ hkept, fun _ hout => by cases hout⟩
  cases step with
  | @signal old _ writes touched sent =>
      have hold := traces _ rfl
      refine ⟨(hkeep (hold.touched touched)).1, fun out hout => ?_⟩
      obtain ⟨write, hwrite, rfl⟩ := List.mem_map.mp hout
      have hsent := sent write hwrite
      rw [Yields, hsent.endpointId, hold.id]
      exact hold.address write.entry hsent.entry
  | install hop key installs => exact hkeep (endpointTraces_new ..)
  | acceptListening hop key session unknown opened =>
      exact hkeep ((traces _ rfl).connect
        (key ▸ (offers.listened _ _ _ _ _ _ _ hop).1 _ _ _))
  | acceptEstablished hop decoded key found unknown opened =>
      exact hkeep ((traces _ rfl).connect
        (key ▸ offers.greeted _ _ (by rw [hop]; rfl) decoded _ _ _))
  | create dials key reaches => exact hkeep (endpointTraces_new ..)
  | dial dials key reaches greeted =>
      exact hkeep ((traces _ rfl).connect (key ▸ offers.dialled _ _ _ _ dials reaches _ _))
  | switch hop => exact hkeep ((traces _ rfl).switch _)
  | @tunnel sliced bytes sends old hop =>
      have hold := traces _ rfl
      refine ⟨(hkeep ((EndpointTraces.mk (e := { old with txCounter := old.txCounter + 1 })
        hold.id hold.address hold.packet).touched (Endpoint.touched_tunnel ..))).1,
        fun out hout => ?_⟩
      obtain ⟨write, hwrite, rfl⟩ := List.mem_map.mp hout
      obtain ⟨entry, hentry, -, rfl⟩ := Endpoint.mem_writes.mp hwrite
      rw [Yields, hold.id]
      exact hold.address entry hentry
  | @sort sop sorter outs old sorts found sorted =>
      have hold := traces _ rfl
      have hinserted : ∀ pkt now, sop = .insertPacket pkt now → origins.packet k pkt := by
        intro pkt now heq
        subst heq
        cases sorts with
        | packet openSocket ack now decoded => exact offers.packet _ _ rfl decoded
      obtain ⟨hholds, hreceived⟩ := holds_sorterStep hold.packet hinserted sorted
      have hafter : EndpointTraces origins k { old with packetSorter := sorter } :=
        ⟨hold.id, hold.address, hholds⟩
      refine ⟨(hkeep hafter).1, fun out hout => ?_⟩
      obtain ⟨packet, hpacket, rfl⟩ := List.mem_map.mp hout
      rw [Yields, hold.id]
      exact hreceived packet hpacket
  | @fire now timer old hop =>
      have hold := traces _ rfl
      exact hkeep ⟨hold.id, hold.address, hold.packet.waiting, hold.packet.sorted⟩
  | @drop old removes p =>
      have hold := traces _ rfl
      exact hkeep ⟨hold.id, fun entry hmem => hold.address entry (List.mem_of_mem_eraseP hmem),
        hold.packet⟩
  | remove removes emptied =>
      refine ⟨fun e heq => ?_, fun _ hout => absurd hout List.not_mem_nil⟩
      cases heq

/-- The routes of a table after an operation were there before, or were announced to it. -/
theorem mem_routes_of_apply {manager next : ConnectionManager} {outs : List Output}
    {aem : AddressEndpointMapping} (offers : Offers origins op)
    (route : ∀ aem ∈ manager.routes.routes, origins.route aem)
    (h : ManagerOp.apply manager op = some (next, outs)) (haem : aem ∈ next.routes.routes) :
    origins.route aem := by
  have hannounced : ∀ {routes : List Route} {id : EndpointId},
      (∀ address ∈ routes, origins.route ⟨address, id⟩) →
      next.routes = manager.routes.insertRoutes routes id → origins.route aem := by
    intro routes id announced hroutes
    rw [hroutes] at haem
    rcases Router.mem_insertRoutes.mp haem with ⟨hid, haddress⟩ | hold
    · subst hid
      exact announced aem.address haddress
    · exact route aem hold
  cases hlistens : op.listeningHello with
  | some hello =>
      obtain ⟨sourceAddress, interfaceName, openSocket, firstAck, lastAck, now, rfl⟩ :=
        eq_of_listeningHello hlistens
      obtain ⟨rfl, -⟩ := Prod.mk.inj (Option.some.inj h)
      rcases handleHello_routes manager hello sourceAddress interfaceName openSocket firstAck lastAck
        now with ⟨-, hroutes, -⟩ | ⟨-, hsame⟩
      · exact hannounced (offers.listened _ _ _ _ _ _ _ rfl).2 hroutes
      · exact route aem (hsame ▸ haem)
  | none =>
      cases hack : op.readAck with
      | some helloAck =>
          rcases apply_readAck hack h with ⟨-, rfl⟩ | ⟨_, _, -, -, -, hroutes⟩
          · exact route aem haem
          · exact hannounced (offers.acknowledged helloAck hack).2 hroutes
      | none => exact route aem (routes_subset_of_apply hlistens hack h haem)

/-- An operation that is handed only what is of the origins keeps its manager to them, and yields only
    what is of them. -/
theorem traces_of_apply {manager next : ConnectionManager} {outs : List Output}
    (traces : Traces origins manager) (offers : Offers origins op)
    (h : ManagerOp.apply manager op = some (next, outs)) :
    Traces origins next ∧ ∀ out ∈ outs, Yields origins out := by
  have hdecomposes := decomposes_of_apply traces.keyed h
  have hsteps : ∀ k, (∀ e, next.endpoints.get? k = some e → EndpointTraces origins k e) ∧
      ∀ out ∈ outputsFor k outs, Yields origins out := fun k =>
    (hdecomposes.steps k).invariant
      (P := fun o before => (∀ e, o = some e → EndpointTraces origins k e) ∧
        ∀ out ∈ before, Yields origins out)
      (fun mid before more after hmid step => by
        obtain ⟨hafter, hmore⟩ := traced_endpointStep offers hmid.1 step
        exact ⟨hafter, List.forall_mem_append.mpr ⟨hmid.2, hmore⟩⟩)
      ⟨fun e found => ⟨traces.keyed k e found, traces.address k e found, traces.packet k e found⟩,
        by simp⟩
  refine ⟨⟨hdecomposes.keyed traces.keyed, fun k e found => ((hsteps k).1 e found).address,
    fun k e found => ((hsteps k).1 e found).packet,
    fun aem => mem_routes_of_apply offers traces.route h⟩, fun out hout => ?_⟩
  exact (hsteps out.endpointId).2 out (List.mem_filter.mpr ⟨hout, by simp⟩)

/-- The operations of an event, all of the origins. -/
theorem traces_of_run {manager next : ConnectionManager} {ops : List ManagerOp} {outs : List Output}
    (traces : Traces origins manager) (offers : ∀ op ∈ ops, Offers origins op)
    (h : Run.run ManagerOp.apply manager ops = some (next, outs)) :
    Traces origins next ∧ ∀ out ∈ outs, Yields origins out := by
  refine Run.run_induction (C := fun _ _ op => Offers origins op)
    (P := fun _ mid before => Traces origins mid ∧ ∀ out ∈ before, Yields origins out)
    ⟨traces, by simp⟩ ?_ (Run.eachStep_of_forall fun op hop _ => offers op hop) h
  intro past op mid before after now hpast hmid hoffers hstep
  obtain ⟨hafter, hnow⟩ := traces_of_apply hmid.1 hoffers hstep
  exact ⟨hafter, List.forall_mem_append.mpr ⟨hmid.2, hnow⟩⟩

end Step

/-! ### What is written -/

/-- What a manager writes to an endpoint in an operation: a packet that it routes there, its own hello
    when it greets, and its own acknowledgement of a hello that it received. -/
def Authored (manager : ConnectionManager) (op : ManagerOp) (k : EndpointId) : Messages → Prop
  | .packet packet => ∃ destination sends,
      op = .handlePacketFromTun (.ipv4 destination) packet.bytes sends ∧
        k ∈ manager.routes.lookup destination
  | .hello hello => op.greets = true ∧ hello.id = manager.ownId ∧
      hello.staticRoutes = manager.ownStaticRoutes
  | .helloAck helloAck => (∃ hello, op.received = some (.hello hello)) ∧
      helloAck.id = manager.ownId ∧ helloAck.staticRoutes = manager.ownStaticRoutes

section Written

variable {manager next : ConnectionManager} {op : ManagerOp} {outs : List Output}

theorem Authored.tunnels {k : EndpointId} {packet : Packet}
    (h : Authored manager op k (.packet packet)) : op.tunnels = true := by
  obtain ⟨_, _, rfl, -⟩ := h
  rfl

theorem authored_of_mem_acknowledge {e : Endpoint} {hello : Hello} {sessionId : Uuid}
    {sends : Nat → SendResult} {write : Write} (received : op.received = some (.hello hello))
    (h : write ∈ (e.acknowledge manager.ownId sessionId manager.ownStaticRoutes sends).2) :
    Authored manager op write.endpointId write.message := by
  obtain ⟨entry, -, -, rfl⟩ := Endpoint.mem_writes.mp h
  exact ⟨⟨hello, received⟩, rfl, rfl⟩

theorem authored_admitHello {m₀ : ConnectionManager} {hello : Hello} {sourceAddress : SocketAddr}
    {interfaceName : String} {openSocket : OpenSocket} {firstAck lastAck : Nat → SendResult}
    {now : Instant} {write : Write} (continues : Continues m₀ manager)
    (received : op.received = some (.hello hello))
    (h : .write write ∈ (manager.admitHello hello sourceAddress interfaceName openSocket firstAck
      lastAck now).2) : Authored m₀ op write.endpointId write.message := by
  have hack : ∀ {e : Endpoint} {sessionId : Uuid} {sends : Nat → SendResult},
      write ∈ (e.acknowledge manager.ownId sessionId manager.ownStaticRoutes sends).2 →
      Authored m₀ op write.endpointId write.message := fun hmem => by
    rw [continues.ownId, continues.ownStaticRoutes] at hmem
    exact authored_of_mem_acknowledge received hmem
  unfold admitHello at h
  split at h
  · cases h
  · obtain ⟨_, hwrite, heq⟩ := List.mem_map.mp h
    obtain rfl := Output.write.inj heq
    unfold addAndAcknowledge at hwrite
    split at hwrite
    · exact (List.mem_append.mp hwrite).elim hack hack
    · exact hack hwrite

theorem authored_handleHello {message : Option Messages} {sourceAddress : SocketAddr}
    {interfaceName : String} {openSocket : OpenSocket} {firstAck lastAck : Nat → SendResult}
    {now : Instant} {write : Write}
    (h : .write write ∈ (manager.handleHello message sourceAddress interfaceName openSocket firstAck
      lastAck now).2) :
    Authored manager (.handleHello message sourceAddress interfaceName openSocket firstAck lastAck
      now) write.endpointId write.message := by
  have hother : ∀ (other : Option Messages), (∀ hello, other ≠ some (.hello hello)) →
      (manager.handleHello other sourceAddress interfaceName openSocket firstAck lastAck now).2 =
        [] := by
    intro other hother
    unfold handleHello
    split
    · exact absurd rfl (hother _)
    · rfl
  cases hmessage : message with
  | none =>
      rw [hmessage, hother none (by simp)] at h
      cases h
  | some m =>
      cases m with
      | hello hello =>
          rw [hmessage] at h
          rcases handleHello_cases manager hello sourceAddress interfaceName openSocket firstAck
            lastAck now with ⟨-, heq⟩ | ⟨_, -, -, heq⟩ | ⟨_, -, -, -, heq⟩
          · rw [heq] at h
            have hinstalled : Continues manager (manager.installFresh hello now) :=
              ⟨rfl, rfl, rfl, rfl, rfl, List.subset_append_left _ _⟩
            exact authored_admitHello hinstalled rfl h
          · rw [heq] at h
            exact authored_admitHello (Continues.refl manager) rfl h
          · rw [heq] at h
            cases h
      | packet | helloAck =>
          rw [hmessage, hother _ (by simp)] at h
          cases h

theorem authored_handleEstablishedMessage {readInfo : ReadInfo} {openSocket : OpenSocket}
    {ack : Nat → SendResult} {now : Instant} {write : Write}
    (h : manager.handleEstablishedMessage readInfo openSocket ack now = some (next, outs))
    (hwrite : .write write ∈ outs) :
    Authored manager (.handleEstablishedMessage readInfo openSocket ack now) write.endpointId
      write.message := by
  have hnothing : ∀ {other : ConnectionManager}, some (other, []) = some (next, outs) → False :=
    fun heq => by
      obtain ⟨-, rfl⟩ := Prod.mk.inj (Option.some.inj heq)
      cases hwrite
  unfold handleEstablishedMessage at h
  split at h
  · split at h <;> exact (hnothing h).elim
  · rename_i hello hread
    split at h
    · dsimp only at h
      split at h
      · obtain ⟨-, rfl⟩ := Prod.mk.inj (Option.some.inj h)
        obtain ⟨_, hmem, heq⟩ := List.mem_map.mp hwrite
        obtain rfl := Output.write.inj heq
        exact authored_of_mem_acknowledge hread hmem
      · cases h
    · exact (hnothing h).elim
  · split at h <;> exact (hnothing h).elim
  · exact (hnothing h).elim

theorem continues_tryLink {attempt : ConnectionInfo × Dial}
    (h : manager.tryLink attempt = some (next, outs)) : Continues manager next := by
  have hensured : ∀ dial id endpoint, Continues manager
      ((manager.ensureDestination id dial).1.setEndpoint id endpoint) := by
    intro dial id endpoint
    unfold ensureDestination
    split <;> exact ⟨rfl, rfl, rfl, rfl, rfl, List.Subset.refl _⟩
  obtain ⟨result, hopen⟩ := tryLink_eq_some h
  rcases openLink_cases hopen with ⟨-, rfl, -, -⟩ | ⟨_, -, ⟨_, -, rfl, -, -⟩ |
    ⟨_, _, -, -, rfl, -, -⟩⟩
  · exact Continues.refl next
  · exact hensured ..
  · exact hensured ..

theorem continues_of_run {ops : List ManagerOp} (keyed : Keyed manager)
    (h : Run.run ManagerOp.apply manager ops = some (next, outs)) : Continues manager next :=
  (Run.run_invariant (P := fun mid => Keyed mid ∧ Continues manager mid)
    (fun _ _ _ _ hmid hstep => ⟨keyed_of_apply hmid.1 hstep,
      hmid.2.trans (decomposes_of_apply hmid.1 hstep).continues⟩)
    ⟨keyed, Continues.refl manager⟩ h).2

theorem authored_tryLink {m₀ : ConnectionManager} {attempt : ConnectionInfo × Dial} {write : Write}
    (continues : Continues m₀ manager) (greets : op.greets = true)
    (h : manager.tryLink attempt = some (next, outs)) (hwrite : .write write ∈ outs) :
    Authored m₀ op write.endpointId write.message := by
  obtain ⟨result, hopen⟩ := tryLink_eq_some h
  rcases openLink_cases hopen with ⟨-, -, rfl, -⟩ | ⟨_, -, ⟨_, -, -, rfl, -⟩ |
    ⟨_, _, -, -, -, rfl, -⟩⟩
  · cases hwrite
  · cases hwrite
  · obtain rfl := Output.write.inj (List.mem_singleton.mp hwrite)
    exact ⟨greets, continues.ownId, continues.ownStaticRoutes⟩

theorem authored_ensureEndpointConnections {id : EndpointId} {connectionInfos : List ConnectionInfo}
    {dials : Nat → Dial} {write : Write}
    (h : manager.ensureEndpointConnections id connectionInfos dials = some (next, outs))
    (hwrite : .write write ∈ outs) :
    Authored manager (.ensureEndpointConnections id connectionInfos dials) write.endpointId
      write.message := by
  unfold ensureEndpointConnections at h
  split at h
  · refine (Run.run_induction (C := fun _ _ _ => True)
      (P := fun _ mid before => Continues manager mid ∧ ∀ write, .write write ∈ before →
        Authored manager (.ensureEndpointConnections id connectionInfos dials) write.endpointId
          write.message)
      ⟨Continues.refl manager, by simp⟩ ?_ (fun _ _ _ _ _ _ _ _ _ _ => trivial) h).2 write hwrite
    intro past attempt mid before after now _ hmid _ hstep
    refine ⟨hmid.1.trans (continues_tryLink hstep), fun write hmem => ?_⟩
    rcases List.mem_append.mp hmem with hmem | hmem
    · exact hmid.2 write hmem
    · exact authored_tryLink hmid.1 rfl hstep hmem
  · obtain ⟨-, rfl⟩ := Prod.mk.inj (Option.some.inj h)
    cases hwrite

theorem authored_handlePacketFromTun {sliced : SlicedPacket} {bytes : List UInt8}
    {sends : EndpointId → Nat → SendResult} {write : Write} (keyed : Keyed manager)
    (h : manager.handlePacketFromTun sliced bytes sends = some (next, outs))
    (hwrite : .write write ∈ outs) :
    Authored manager (.handlePacketFromTun sliced bytes sends) write.endpointId write.message := by
  have hnothing : some (manager, []) = some (next, outs) → False := fun heq => by
    obtain ⟨-, rfl⟩ := Prod.mk.inj (Option.some.inj heq)
    cases hwrite
  cases sliced with
  | ipv4 destination =>
      obtain ⟨past, id, future, mid, before, after, now, hids, hpast, hstep, hout⟩ :=
        Run.exists_step_of_mem h hwrite
      have hmid : Keyed mid := Run.run_invariant
        (fun _ _ _ _ hkeyed hturn => (tunnelTo_eq_some hkeyed hturn).choose_spec.2.2.1) keyed hpast
      unfold tunnelTo at hstep
      split at hstep
      · rename_i e found
        obtain ⟨-, rfl⟩ := Prod.mk.inj (Option.some.inj hstep)
        obtain ⟨_, hmem, heq⟩ := List.mem_map.mp hout
        obtain rfl := Output.write.inj heq
        obtain ⟨entry, -, -, rfl⟩ := Endpoint.mem_writes.mp hmem
        refine ⟨destination, sends, rfl, ?_⟩
        rw [hmid id e found, hids]
        exact List.mem_append_right _ List.mem_cons_self
      · cases hstep
  | error | ipv6 | noIp => exact (hnothing h).elim

theorem authored_greetAllEndpoints {sends : EndpointId → Nat → SendResult} {write : Write}
    (hwrite : .write write ∈ (manager.greetAllEndpoints sends).2) :
    Authored manager (.greetAllEndpoints sends) write.endpointId write.message := by
  obtain ⟨⟨id, e⟩, -, hgreeted⟩ := List.mem_flatMap.mp hwrite
  obtain ⟨_, hmem, heq⟩ := List.mem_map.mp hgreeted
  obtain rfl := Output.write.inj heq
  obtain ⟨entry, -, -, rfl⟩ := Endpoint.mem_writes.mp hmem
  exact ⟨rfl, rfl, rfl⟩

/-- What an operation writes is its manager's own, or is a packet for the endpoints of its route. -/
theorem authored_of_apply {write : Write} (keyed : Keyed manager)
    (h : ManagerOp.apply manager op = some (next, outs)) (hwrite : .write write ∈ outs) :
    Authored manager op write.endpointId write.message := by
  have hnothing : ∀ {other : ConnectionManager}, some (other, []) = some (next, outs) → False :=
    fun heq => by
      obtain ⟨-, rfl⟩ := Prod.mk.inj (Option.some.inj heq)
      cases hwrite
  cases op with
  | handleHello message sourceAddress interfaceName openSocket firstAck lastAck now =>
      obtain ⟨-, rfl⟩ := Prod.mk.inj (Option.some.inj h)
      exact authored_handleHello hwrite
  | handleEstablishedMessage => exact authored_handleEstablishedMessage h hwrite
  | createNewConnection => exact authored_tryLink (Continues.refl manager) rfl h hwrite
  | handlePacketFromTun => exact authored_handlePacketFromTun keyed h hwrite
  | greetAllEndpoints sends =>
      obtain ⟨-, rfl⟩ := Prod.mk.inj (Option.some.inj h)
      exact authored_greetAllEndpoints hwrite
  | ensureEndpointConnections => exact authored_ensureEndpointConnections h hwrite
  | awaitTimeout => rw [(apply_awaitTimeout h).1] at hwrite; cases hwrite
  | awaitPacketSorters => rw [(apply_awaitPacketSorters h).1] at hwrite; cases hwrite
  | awaitEndpointSortedPackets =>
      obtain ⟨_, _, _, -, -, rfl, -⟩ := apply_awaitEndpointSortedPackets h
      cases List.mem_singleton.mp hwrite
  | removeConnection | removeDisconnected | handleSelectiveDuplicationCommand
    | handlePacketSorterDeadline => exact (hnothing h).elim

/-- What the operations of an event write was written by one of them, on the way. -/
theorem authored_of_run {ops : List ManagerOp} {write : Write} (keyed : Keyed manager)
    (h : Run.run ManagerOp.apply manager ops = some (next, outs)) (hwrite : .write write ∈ outs) :
    ∃ past op future mid before, ops = past ++ op :: future ∧
      Run.run ManagerOp.apply manager past = some (mid, before) ∧ Continues manager mid ∧
      Authored mid op write.endpointId write.message := by
  obtain ⟨past, op, future, mid, before, after, now, hops, hpast, hstep, hout⟩ :=
    Run.exists_step_of_mem h hwrite
  exact ⟨past, op, future, mid, before, hops, hpast, continues_of_run keyed hpast,
    authored_of_apply (keyed_run keyed hpast) hstep hout⟩

end Written

end MultiConnect
