/-
Module: MultiConnect.Proofs.CounterAgreement
Layer: Proofs
Purpose: While the endpoints of the client and the server carry one session, the counter of each side is
  at least the number that the other side's sorter expects, in every run in which a hello brings back
  no session that the server has already numbered packets under, a reopened connection has an address
  of its own, and no counter wraps. Without the first condition it fails: a keepalive re-creates the
  endpoint that the server lost, under the old session and with its counter at zero.
Trusted boundary: that of the two peers
Main exports: CountersAgree, OwnAddresses, Careful, ClientFits, ServerFits, PeersFit, counters_agree
-/
import MultiConnect.Proofs.Counters

namespace MultiConnect

open ConnectionManager

/-! ### Agreement -/

/-- While the two sides carry one session, neither sends a number that the other has already seen. -/
def CountersAgree (settings : ClientSettings) (clientId : EndpointId) (peers : Peers) : Prop :=
  ∀ e f, peers.client.endpoints.get? settings.serverId = some e →
    peers.server.endpoints.get? clientId = some f → e.sessionId = f.sessionId →
    f.packetSorter.nextSeq ≤ e.txCounter ∧ e.packetSorter.nextSeq ≤ f.txCounter

/-- No counter wraps when the event numbers a packet. -/
def Counts (manager : ConnectionManager) (event : LoopEvent) : Prop :=
  ∀ sliced bytes sends, event = .tunnelPacket sliced bytes sends →
    ∀ k ∈ (manager.getRoute sliced).getD [], ∀ e, manager.endpoints.get? k = some e →
      e.txCounter ≠ u64Max

/-- The connections that an iteration opens have addresses of their own: nothing was written from or to
    them under another session than that of the endpoint for the server. -/
def OwnAddresses (settings : ClientSettings) (net : List Datagram) (manager : ConnectionManager)
    (event : ClientEvent) : Prop :=
  ∀ info dial localAddr, Reopens settings manager event info dial → dial.Reaches localAddr →
    ∀ d ∈ net, d.clientAddr = localAddr →
      ∃ e, manager.endpoints.get? settings.serverId = some e ∧ d.session = e.sessionId

/-- The condition for the counters to agree: the client opens connections on addresses of their own, a
    hello does not make the server install an endpoint under a session that the server has written
    packets under, and no counter wraps. -/
def Careful (settings : ClientSettings) (peers : Peers) : PeersEvent → Prop
  | .client (.loop event) => Counts peers.client event
  | .client event => OwnAddresses settings peers.net peers.client event
  | .server (.newConnection (some (.hello hello)) ..) =>
      peers.server.Installs hello.id hello.sessionId →
        ∀ packet, ¬ InFlight peers.net .toClient hello.sessionId packet
  | .server (.loop event) => Counts peers.server event
  | _ => True

/-- A check that is enough for a step to be careful: it opens no connection, no packet was written to
    the client yet, and no counter has come to its end. -/
def Peers.checksCareful (peers : Peers) (event : PeersEvent) : Bool :=
  let silent := peers.net.all fun d => d.direction == .toServer ||
    match d.message with | .packet _ => false | _ => true
  let counts := fun manager : ConnectionManager =>
    manager.endpoints.values.all fun e => e.txCounter != u64Max
  match event with
  | .client (.loop _) => counts peers.client
  | .client _ => false
  | .server (.loop _) => counts peers.server
  | .server _ => silent
  | .restartServer => true

/-! ### Managers with one endpoint -/

/-- The manager has no endpoint but that of one id. -/
def Only (k : EndpointId) (manager : ConnectionManager) : Prop :=
  ∀ id e, manager.endpoints.get? id = some e → id = k

theorem only_new {k : EndpointId} {manager : ConnectionManager} (h : manager.IsNew) :
    Only k manager := by
  obtain ⟨_, _, _, _, _, rfl⟩ := h
  intro id e found
  cases found

/-- An endpoint that is absent stays so when the operation neither listens nor dials for it. -/
theorem absent_of_steps {m₀ : ConnectionManager} {op : ManagerOp} {k : EndpointId}
    {o next : Option Endpoint} {outs : List Output}
    (steps : EndpointSteps m₀ op k o outs next) (absent : o = none)
    (installs : ∀ hello, op.listeningHello = some hello → hello.id ≠ k)
    (dials : ∀ info dial, Dials m₀ op info dial → info.destinationEndpointId ≠ k) :
    next = none ∧ outs = [] := by
  refine steps.invariant (P := fun o before => o = none ∧ before = []) ?_ ⟨absent, rfl⟩
  intro mid before more after ⟨hmid, hbefore⟩ step
  cases step with
  | install hop key => exact absurd key (installs _ (by rw [hop]; rfl))
  | create attempt key => exact absurd key (dials _ _ attempt)
  | signal | acceptListening | acceptEstablished | dial | switch | tunnel | sort | fire | drop
    | remove => cases hmid

/-- An operation that listens and dials for one id touches no other. -/
theorem only_of_apply {k : EndpointId} {manager next : ConnectionManager} {op : ManagerOp}
    {outs : List Output} (keyed : Keyed manager) (only : Only k manager)
    (installs : ∀ hello, op.listeningHello = some hello → hello.id = k)
    (dials : ∀ info dial, Dials manager op info dial → info.destinationEndpointId = k)
    (h : ManagerOp.apply manager op = some (next, outs)) :
    Only k next ∧ outputsFor k outs = outs := by
  have hother : ∀ id, id ≠ k → next.endpoints.get? id = none ∧ outputsFor id outs = [] := by
    intro id hid
    have habsent : manager.endpoints.get? id = none := by
      cases hfound : manager.endpoints.get? id with
      | none => rfl
      | some e => exact absurd (only id e hfound) hid
    exact absent_of_steps ((decomposes_of_apply keyed h).steps id) habsent
      (fun hello hlistens heq => hid (heq.symm.trans (installs hello hlistens)))
      (fun info dial attempt heq => hid (heq.symm.trans (dials info dial attempt)))
  refine ⟨fun id e found => ?_, List.filter_eq_self.mpr fun out hout => ?_⟩
  · by_contra hid
    rw [(hother id hid).1] at found
    cases found
  · refine decide_eq_true ?_
    by_contra hid
    have hmem : out ∈ outputsFor out.endpointId outs := List.mem_filter.mpr ⟨hout, by simp⟩
    rw [(hother _ hid).2] at hmem
    cases hmem

/-- A packet from the TUN device makes the one endpoint evolve, if it is there. -/
theorem evolves_of_tunnel {k : EndpointId} {manager next : ConnectionManager} {sliced : SlicedPacket}
    {bytes : List UInt8} {sends : EndpointId → Nat → SendResult} {outs : List Output}
    (keyed : Keyed manager) (only : Only k manager)
    (counts : Counts manager (.tunnelPacket sliced bytes sends))
    (h : ManagerOp.apply manager (.handlePacketFromTun sliced bytes sends) = some (next, outs)) :
    Only k next ∧
      ((manager.endpoints.get? k = none ∧ next.endpoints.get? k = none ∧ outs = []) ∨
      ∃ e e', manager.endpoints.get? k = some e ∧ next.endpoints.get? k = some e' ∧
        Evolves manager (.handlePacketFromTun sliced bytes sends) k e e' outs) := by
  obtain ⟨hnext, houtputs⟩ := only_of_apply keyed only
    (fun hello hlistens => by simp [ManagerOp.listeningHello] at hlistens)
    (fun _ _ attempt => by cases attempt) h
  refine ⟨hnext, ?_⟩
  cases hfound : manager.endpoints.get? k with
  | none =>
      obtain ⟨habsent, hnone⟩ := absent_of_steps ((decomposes_of_apply keyed h).steps k) hfound
        (fun hello hlistens => by simp [ManagerOp.listeningHello] at hlistens)
        (fun _ _ attempt => by cases attempt)
      exact Or.inl ⟨rfl, habsent, houtputs.symm.trans hnone⟩
  | some e =>
      obtain ⟨hafter, hwritten⟩ := handlePacketFromTun_eq_some keyed hfound h
      rw [houtputs] at hwritten
      refine Or.inr ⟨e, _, rfl, hafter, ?_⟩
      rw [hwritten]
      split
      · rename_i hrouted
        exact Evolves.tunnel rfl (counts _ _ _ rfl k hrouted e hfound)
      · exact Evolves.refl _ _ _ _

/-! ### Operations -/

/-- The operations that change no counter, read nothing and greet nobody. -/
structure ManagerOp.Idle (op : ManagerOp) : Prop where
  plain : op.Plain
  reading : op.reading = none
  tunnels : op.tunnels = false

theorem idle_removeDisconnected : ManagerOp.removeDisconnected.Idle :=
  ⟨plain_removeDisconnected, rfl, rfl⟩

/-- What the client's manager has to do with the network, next to an endpoint of the server. -/
structure ClientFits (serverId clientId : EndpointId) (server : Option Endpoint)
    (net : List Datagram) (manager : ConnectionManager) : Prop where
  keyed : Keyed manager
  only : Only serverId manager
  ownId : manager.ownId = clientId
  consistent : Consistent clientId net (manager.endpoints.get? serverId) server

/-- What the server's manager has to do with the network, next to an endpoint of the client. -/
structure ServerFits (clientId : EndpointId) (client : Option Endpoint) (net : List Datagram)
    (manager : ConnectionManager) : Prop where
  keyed : Keyed manager
  only : Only clientId manager
  consistent : Consistent clientId net client (manager.endpoints.get? clientId)

/-! ### Events of both loops -/

/-- An event leads to idle operations, to the reading of a connection, or to a packet to number. -/
theorem loopEvent_cases {manager : ConnectionManager} {event : LoopEvent} {ops : List ManagerOp}
    (h : event.ops manager = some ops) :
    (∀ op ∈ ops, op.Idle) ∨
    (∃ id index packetBytes openSocket ack now readInfo,
      event = .newEstablishedMessage id index packetBytes openSocket ack now ∧
      manager.awaitIncoming id index packetBytes = some readInfo ∧
      ops = [.handleEstablishedMessage readInfo openSocket ack now]) ∨
    ∃ sliced bytes sends, event = .tunnelPacket sliced bytes sends ∧
      ops = [.handlePacketFromTun sliced bytes sends] := by
  have hplain := plain_of_loopEvent h
  cases event with
  | newEstablishedMessage =>
      obtain ⟨readInfo, hread, rfl⟩ := Option.map_eq_some_iff.mp h
      exact Or.inr (Or.inl ⟨_, _, _, _, _, _, readInfo, rfl, hread, rfl⟩)
  | tunnelPacket =>
      obtain rfl := Option.some.inj h
      exact Or.inr (Or.inr ⟨_, _, _, rfl, rfl⟩)
  | connectionTimeout | packetSorter =>
      obtain ⟨awaited, -, rfl⟩ := Option.map_eq_some_iff.mp h
      refine Or.inl fun op hop => ?_
      have hidle : op.reading = none ∧ op.tunnels = false := by
        simp only [List.mem_cons, List.not_mem_nil, or_false] at hop
        rcases hop with rfl | rfl <;> exact ⟨rfl, rfl⟩
      exact ⟨hplain op hop, hidle.1, hidle.2⟩
  | establishedError | tunnelError =>
      obtain rfl := Option.some.inj h
      exact Or.inl (List.forall_mem_nil _)
  | newSortedPacket id tunSent =>
      cases tunSent with
      | error => cases h
      | ok =>
          obtain rfl := Option.some.inj h
          exact Or.inl (List.forall_mem_singleton.mpr ⟨hplain _ (by simp), rfl, rfl⟩)
  | duplicationMessage =>
      obtain rfl := Option.some.inj h
      exact Or.inl (List.forall_mem_singleton.mpr ⟨hplain _ (by simp), rfl, rfl⟩)

/-- What is read on a connection was written to it. -/
theorem read_of_delivers {net : List Datagram} {direction : Direction} {manager : ConnectionManager}
    {id : EndpointId} {index : Nat} {packetBytes : Option Messages} {openSocket : OpenSocket}
    {ack : Nat → SendResult} {now : Instant} {readInfo : ReadInfo}
    (arrives : delivers net direction manager
      (.newEstablishedMessage id index packetBytes openSocket ack now) = true)
    (h : manager.awaitIncoming id index packetBytes = some readInfo) :
    ∃ e entry, manager.endpoints.get? id = some e ∧ entry ∈ e.connections ∧
      readInfo = ⟨packetBytes, entry.connection.peerAddr, entry.connection.getInterfaceName, e.id⟩ ∧
      ∀ message, packetBytes = some message → ∃ d ∈ net, d.direction = direction ∧
        d.clientAddr = direction.back.clientAddr entry ∧ d.message = message := by
  obtain ⟨e, entry, found, hentry, rfl⟩ := awaitIncoming_eq_some h
  refine ⟨e, entry, found, List.mem_of_getElem? hentry, rfl, ?_⟩
  rintro message rfl
  simp only [delivers, found, hentry] at arrives
  obtain ⟨d, hd, hmatches⟩ := List.any_eq_true.mp arrives
  simp only [Bool.and_eq_true, beq_iff_eq] at hmatches
  exact ⟨d, hd, hmatches.1.1, hmatches.1.2, hmatches.2⟩

section Client

variable {serverId clientId : EndpointId} {server : Option Endpoint} {net : List Datagram}
  {manager next : ConnectionManager} {op : ManagerOp} {outs : List Output}

/-- An operation that neither listens nor reads nor dials fits the client. -/
theorem clientMove_of_dialless (listens : op.listeningHello = none) (reading : op.reading = none)
    (dialless : ∀ info dial, ¬ Dials manager op info dial) : ClientMove serverId net manager op where
  listens := listens
  arrives _ _ _ h := by simp [reading] at h
  known _ _ _ h := by simp [reading] at h
  destination info dial dials := absurd dials (dialless info dial)
  session info dial dials := absurd dials (dialless info dial)
  address info dial _ dials := absurd dials (dialless info dial)

theorem clientMove_of_idle (idle : op.Idle) : ClientMove serverId net manager op :=
  clientMove_of_dialless idle.plain.2 idle.reading fun _ _ dials =>
    absurd dials.greets (by simp [idle.plain.1])

/-- An operation of the client that numbers no packet. -/
theorem ClientFits.of_apply (fits : ClientFits serverId clientId server net manager)
    (move : ClientMove serverId net manager op) (tunnels : op.tunnels = false)
    (h : ManagerOp.apply manager op = some (next, outs)) :
    ClientFits serverId clientId server (net ++ datagrams .toServer outs) next ∧
      Carried manager op serverId .toServer (next.endpoints.get? serverId) outs := by
  have decomposes := decomposes_of_apply fits.keyed h
  obtain ⟨only, outputs⟩ := only_of_apply fits.keyed fits.only
    (fun hello hlistens => by simp [move.listens] at hlistens) move.destination h
  have hsteps := decomposes.steps serverId
  rw [outputs] at hsteps
  obtain ⟨consistent, carried⟩ := move.steps fits.ownId tunnels fits.consistent hsteps
  exact ⟨⟨decomposes.keyed fits.keyed, only, decomposes.continues.ownId.trans fits.ownId,
    consistent⟩, carried⟩

/-- The client numbers a packet, or has none to number. -/
theorem ClientFits.of_tunnel {sliced : SlicedPacket} {bytes : List UInt8}
    {sends : EndpointId → Nat → SendResult} (fits : ClientFits serverId clientId server net manager)
    (counts : Counts manager (.tunnelPacket sliced bytes sends))
    (h : ManagerOp.apply manager (.handlePacketFromTun sliced bytes sends) = some (next, outs)) :
    ClientFits serverId clientId server (net ++ datagrams .toServer outs) next := by
  have decomposes := decomposes_of_apply fits.keyed h
  obtain ⟨only, heffect⟩ := evolves_of_tunnel fits.keyed fits.only counts h
  refine ⟨decomposes.keyed fits.keyed, only, decomposes.continues.ownId.trans fits.ownId, ?_⟩
  rcases heffect with ⟨hfound, hafter, rfl⟩ | ⟨e, e', hfound, hafter, evolves⟩
  · simpa [hafter, hfound] using fits.consistent
  · rw [hafter]
    exact (hfound ▸ fits.consistent).client_evolves evolves fits.ownId
      (fun _ _ sorts => by cases sorts)

/-- A run of idle operations of the client. -/
theorem ClientFits.of_idle_run {ops : List ManagerOp}
    (fits : ClientFits serverId clientId server net manager) (idle : ∀ op ∈ ops, op.Idle)
    (h : Run.run ManagerOp.apply manager ops = some (next, outs)) :
    ClientFits serverId clientId server (net ++ datagrams .toServer outs) next := by
  refine Run.run_induction (C := fun _ _ op => op.Idle) (P := fun _ mid outs =>
    ClientFits serverId clientId server (net ++ datagrams .toServer outs) mid) (by simpa using fits)
    ?_ (fun _ op _ _ _ _ _ heq _ _ => idle op (by simp [heq])) h
  intro _ op mid before after now _ hmid hidle hstep
  rw [datagrams_append, ← List.append_assoc]
  exact (hmid.of_apply (clientMove_of_idle hidle) hidle.tunnels hstep).1

/-- What the client reads on its connections fits. -/
theorem clientMove_of_read {readInfo : ReadInfo} {openSocket : OpenSocket} {ack : Nat → SendResult}
    {now : Instant} {id : EndpointId} {index : Nat} {packetBytes : Option Messages}
    (fits : ClientFits serverId clientId server net manager)
    (own : ∀ e, manager.endpoints.get? serverId = some e → ∀ entry ∈ e.connections, entry.Own)
    (arrives : delivers net .toClient manager
      (.newEstablishedMessage id index packetBytes openSocket ack now) = true)
    (h : manager.awaitIncoming id index packetBytes = some readInfo) :
    ClientMove serverId net manager (.handleEstablishedMessage readInfo openSocket ack now) := by
  obtain ⟨e, entry, found, hentry, rfl, hwritten⟩ := read_of_delivers arrives h
  obtain rfl := fits.only id e found
  have hkey := fits.keyed id e found
  refine ⟨rfl, ?_, ?_, ?_, ?_, ?_⟩
  · intro readInfo packet e' reading decoded found'
    obtain rfl := Option.some.inj reading
    obtain ⟨d, hd, hdirection, haddr, hmessage⟩ := hwritten _ decoded
    obtain rfl : e = e' := Option.some.inj (found.symm.trans (hkey ▸ found'))
    exact ⟨d, hd, hdirection, fits.consistent.exclusive e found entry hentry d hd haddr, hmessage⟩
  · intro readInfo k e' reading found'
    obtain rfl := Option.some.inj reading
    obtain rfl := fits.only k e' found'
    obtain rfl : e = e' := Option.some.inj (found.symm.trans found')
    obtain ⟨hname, haddress⟩ := own e found entry hentry
    exact ⟨entry, hentry, by simp [ConnectionEntry.isFor, hname, haddress]⟩
  · intro _ _ dials
    cases dials
  · intro _ _ dials
    cases dials
  · intro _ _ _ dials
    cases dials

/-- An event of the client's loop. -/
theorem ClientFits.of_loopEvent {event : LoopEvent} {ops : List ManagerOp}
    (fits : ClientFits serverId clientId server net manager)
    (own : ∀ e, manager.endpoints.get? serverId = some e → ∀ entry ∈ e.connections, entry.Own)
    (arrives : delivers net .toClient manager event = true) (counts : Counts manager event)
    (hops : event.ops manager = some ops)
    (h : Run.run ManagerOp.apply manager ops = some (next, outs)) :
    ClientFits serverId clientId server (net ++ datagrams .toServer outs) next := by
  rcases loopEvent_cases hops with idle | ⟨_, _, _, _, _, _, readInfo, rfl, hread, rfl⟩ |
    ⟨_, _, _, rfl, rfl⟩
  · exact fits.of_idle_run idle h
  · rw [Run.run_singleton] at h
    exact (fits.of_apply (clientMove_of_read fits own arrives hread) rfl h).1
  · rw [Run.run_singleton] at h
    exact fits.of_tunnel counts h

/-- A keepalive tick of the client. -/
theorem ClientFits.of_sendKeepalive {settings : ClientSettings}
    {sends : EndpointId → Nat → SendResult} {dials : Nat → Dial}
    (fits : ClientFits settings.serverId clientId server net manager)
    (addresses : OwnAddresses settings net manager (.sendKeepalive sends dials))
    (h : Run.run ManagerOp.apply manager [.greetAllEndpoints sends,
      .ensureEndpointConnections settings.serverId settings.connectionInfo dials,
      .removeDisconnected] = some (next, outs)) :
    ClientFits settings.serverId clientId server (net ++ datagrams .toServer outs) next := by
  obtain ⟨greeted, first, _, hgreet, hrest, rfl⟩ := Run.run_cons_eq_some.mp h
  obtain ⟨ensured, second, _, hensure, hremove, rfl⟩ := Run.run_cons_eq_some.mp hrest
  have hgreets : ClientMove settings.serverId net manager (.greetAllEndpoints sends) :=
    clientMove_of_dialless rfl rfl fun _ _ attempt => nomatch attempt
  obtain ⟨hgreeted, hcarried⟩ := fits.of_apply hgreets rfl hgreet
  obtain ⟨hwritten, hstays⟩ := hcarried.resolve_left (by simp [ManagerOp.removes])
  have hensures : ClientMove settings.serverId (net ++ datagrams .toServer first) greeted
      (.ensureEndpointConnections settings.serverId settings.connectionInfo dials) := by
    refine ⟨rfl, by simp [Arrives, ManagerOp.reading], by simp [ManagerOp.reading],
      fun _ _ => destination_of_ensure, ?_, ?_⟩
    · intro info dial attempt absent
      cases attempt with
      | ensure present => simp [absent] at present
    · intro info dial localAddr attempt opens reaches d hd haddr
      rcases List.mem_append.mp hd with hd | hd
      · obtain ⟨e, he, hsession⟩ := addresses info dial localAddr
          (reopens_of_greeted hgreet attempt opens) reaches d hd haddr
        obtain ⟨e', he', hsame⟩ := hstays e he
        exact ⟨e', he', hsession.trans hsame.symm⟩
      · exact hwritten d hd
  obtain ⟨hensured, -⟩ := hgreeted.of_apply hensures rfl hensure
  have hremoved := hensured.of_idle_run (List.forall_mem_singleton.mpr idle_removeDisconnected) hremove
  simpa only [datagrams_append, List.append_assoc] using hremoved

/-- The client opens every link again, when it has no endpoint. -/
theorem ClientFits.of_restart {settings : ClientSettings} {dials : Nat → Dial}
    (fits : ClientFits settings.serverId clientId server net manager)
    (absent : manager.endpoints.get? settings.serverId = none)
    (fresh : ∀ index < settings.interfaces.length, ∀ d ∈ net, d.session ≠ (dials index).newSession)
    (addresses : OwnAddresses settings net manager (.restart dials))
    (h : Run.run ManagerOp.apply manager (settings.connectionInfo.zipIdx.map fun (info, index) =>
      .createNewConnection info (dials index)) = some (next, outs)) :
    ClientFits settings.serverId clientId server (net ++ datagrams .toServer outs) next := by
  -- what is written after the endpoint was created carries its session
  refine (Run.run_induction (C := fun _ _ op => ∃ info index,
      (info, index) ∈ settings.connectionInfo.zipIdx ∧ op = .createNewConnection info (dials index))
    (P := fun _ mid outs =>
      ClientFits settings.serverId clientId server (net ++ datagrams .toServer outs) mid ∧
      ∀ d ∈ datagrams .toServer outs, ∃ e, mid.endpoints.get? settings.serverId = some e ∧
        d.session = e.sessionId) ⟨by simpa using fits, by simp⟩ ?_ ?_ h).1
  · rintro _ _ mid before after now - ⟨hmid, hwritten⟩ ⟨info, index, listed, rfl⟩ hstep
    have hmove : ClientMove settings.serverId (net ++ datagrams .toServer before) mid
        (.createNewConnection info (dials index)) := by
      refine ⟨rfl, by simp [Arrives, ManagerOp.reading], by simp [ManagerOp.reading], ?_, ?_, ?_⟩
      · rintro _ _ ⟨⟩
        exact destination_of_listed listed
      · rintro _ _ ⟨⟩ hnone d hd
        rcases List.mem_append.mp hd with hd | hd
        · refine fresh index ?_ d hd
          simpa [ClientSettings.connectionInfo] using List.snd_lt_of_mem_zipIdx listed
        · obtain ⟨e, he, -⟩ := hwritten d hd
          simp [hnone] at he
      · rintro _ _ localAddr ⟨⟩ opens reaches d hd haddr
        rcases List.mem_append.mp hd with hd | hd
        · obtain ⟨e, he, -⟩ := addresses info _ localAddr (Reopens.restart listed opens) reaches d hd
            haddr
          simp [absent] at he
        · exact hwritten d hd
    obtain ⟨hafter, hcarried⟩ := hmid.of_apply hmove rfl hstep
    obtain ⟨hnow, hstays⟩ := hcarried.resolve_left (by simp [ManagerOp.removes])
    rw [datagrams_append, ← List.append_assoc]
    refine ⟨hafter, List.forall_mem_append.mpr ⟨fun d hd => ?_, hnow⟩⟩
    obtain ⟨e, he, hsession⟩ := hwritten d hd
    obtain ⟨e', he', hsame⟩ := hstays e he
    exact ⟨e', he', hsession.trans hsame.symm⟩
  · intro past op future mid before _ _ heq _ _
    have hop : op ∈ past ++ op :: future := by simp
    rw [← heq] at hop
    obtain ⟨⟨info, index⟩, hlisted, rfl⟩ := List.mem_map.mp hop
    exact ⟨info, index, hlisted, rfl⟩

/-- One iteration of the client. -/
theorem ClientFits.of_clientStep {settings : ClientSettings} {event : ClientEvent}
    (fits : ClientFits settings.serverId clientId server net manager)
    (own : ∀ e, manager.endpoints.get? settings.serverId = some e → ∀ entry ∈ e.connections,
      entry.Own)
    (arrives : ∀ loopEvent, event = .loop loopEvent →
      delivers net .toClient manager loopEvent = true)
    (fresh : ∀ dials, event = .restart dials → ∀ index < settings.interfaces.length,
      ∀ d ∈ net, d.session ≠ (dials index).newSession)
    (addresses : OwnAddresses settings net manager event)
    (counts : ∀ loopEvent, event = .loop loopEvent → Counts manager loopEvent)
    (h : clientStep settings manager event = some (next, outs)) :
    ClientFits settings.serverId clientId server (net ++ datagrams .toServer outs) next := by
  obtain ⟨ops, hops, hrun⟩ := clientStep_eq_some.mp h
  cases event with
  | loop event =>
      simp only [clientOps] at hops
      split at hops
      case isFalse => cases hops
      obtain ⟨eventOps, hevent, rfl⟩ := Option.map_eq_some_iff.mp hops
      obtain ⟨mid, first, rest, hfirst, hremove, rfl⟩ := Run.run_append_eq_some.mp hrun
      have hmid := fits.of_loopEvent own (arrives _ rfl) (counts _ rfl) hevent hfirst
      rw [datagrams_append, ← List.append_assoc]
      exact hmid.of_idle_run (List.forall_mem_singleton.mpr idle_removeDisconnected) hremove
  | sendKeepalive =>
      simp only [clientOps] at hops
      split at hops
      case isFalse => cases hops
      obtain rfl := Option.some.inj hops
      exact fits.of_sendKeepalive addresses hrun
  | restart dials =>
      simp only [clientOps] at hops
      split at hops
      case isTrue => cases hops
      rename_i hempty
      obtain rfl := Option.some.inj hops
      exact fits.of_restart (hasEndpoints_eq_false.mp (by simpa using hempty) _) (fresh _ rfl)
        addresses hrun

end Client

section Server

variable {clientId : EndpointId} {client : Option Endpoint} {net : List Datagram}
  {manager next : ConnectionManager} {op : ManagerOp} {outs : List Output}

theorem serverMove_of_idle (idle : op.Idle) : ServerMove clientId net manager op where
  greets := idle.plain.1
  arrives readInfo _ _ reading := by simp [idle.reading] at reading
  source readInfo _ _ reading := by simp [idle.reading] at reading
  hello hello _ _ _ _ _ _ hop := by
    have hlistens := idle.plain.2
    rw [hop] at hlistens
    cases hlistens
  unused hello hlistens := by simp [idle.plain.2] at hlistens

/-- An operation of the server that numbers no packet. -/
theorem ServerFits.of_apply (fits : ServerFits clientId client net manager)
    (move : ServerMove clientId net manager op) (tunnels : op.tunnels = false)
    (h : ManagerOp.apply manager op = some (next, outs)) :
    ServerFits clientId client (net ++ datagrams .toClient outs) next := by
  have decomposes := decomposes_of_apply fits.keyed h
  obtain ⟨only, outputs⟩ := only_of_apply fits.keyed fits.only (fun hello hlistens => by
      obtain ⟨_, _, _, _, _, _, hop⟩ := eq_of_listeningHello hlistens
      exact (move.hello _ _ _ _ _ _ _ hop).1)
    (fun _ _ dials => absurd dials.greets (by simp [move.greets])) h
  have hsteps := decomposes.steps clientId
  rw [outputs] at hsteps
  exact ⟨decomposes.keyed fits.keyed, only, move.steps tunnels fits.consistent hsteps⟩

/-- The server numbers a packet, or has none to number. -/
theorem ServerFits.of_tunnel {sliced : SlicedPacket} {bytes : List UInt8}
    {sends : EndpointId → Nat → SendResult} (fits : ServerFits clientId client net manager)
    (counts : Counts manager (.tunnelPacket sliced bytes sends))
    (h : ManagerOp.apply manager (.handlePacketFromTun sliced bytes sends) = some (next, outs)) :
    ServerFits clientId client (net ++ datagrams .toClient outs) next := by
  obtain ⟨only, heffect⟩ := evolves_of_tunnel fits.keyed fits.only counts h
  refine ⟨keyed_of_apply fits.keyed h, only, ?_⟩
  rcases heffect with ⟨hfound, hafter, rfl⟩ | ⟨e, e', hfound, hafter, evolves⟩
  · simpa [hafter, hfound] using fits.consistent
  · rw [hafter]
    exact (hfound ▸ fits.consistent).server_evolves evolves rfl (fun _ _ sorts => by cases sorts)

/-- A run of idle operations of the server. -/
theorem ServerFits.of_idle_run {ops : List ManagerOp} (fits : ServerFits clientId client net manager)
    (idle : ∀ op ∈ ops, op.Idle) (h : Run.run ManagerOp.apply manager ops = some (next, outs)) :
    ServerFits clientId client (net ++ datagrams .toClient outs) next := by
  refine Run.run_induction (C := fun _ _ op => op.Idle) (P := fun _ mid outs =>
    ServerFits clientId client (net ++ datagrams .toClient outs) mid) (by simpa using fits)
    ?_ (fun _ op _ _ _ _ _ heq _ _ => idle op (by simp [heq])) h
  intro _ op mid before after now _ hmid hidle hstep
  rw [datagrams_append, ← List.append_assoc]
  exact hmid.of_apply (serverMove_of_idle hidle) hidle.tunnels hstep

/-- What the server reads on its connections fits. -/
theorem serverMove_of_read {readInfo : ReadInfo} {openSocket : OpenSocket} {ack : Nat → SendResult}
    {now : Instant} {id : EndpointId} {index : Nat} {packetBytes : Option Messages}
    (fits : ServerFits clientId client net manager)
    (arrives : delivers net .toServer manager
      (.newEstablishedMessage id index packetBytes openSocket ack now) = true)
    (h : manager.awaitIncoming id index packetBytes = some readInfo) :
    ServerMove clientId net manager (.handleEstablishedMessage readInfo openSocket ack now) := by
  obtain ⟨f, entry, found, hentry, rfl, hwritten⟩ := read_of_delivers arrives h
  obtain rfl := fits.only id f found
  have hkey := fits.keyed id f found
  -- the client wrote from the address of the connection, under the session of its endpoint
  obtain ⟨w, hw, hwaddr, hwsession⟩ := fits.consistent.backed f found entry hentry
  refine ⟨rfl, ?_, ?_, ?_, ?_⟩
  · intro readInfo packet f' reading decoded found'
    obtain rfl := Option.some.inj reading
    obtain ⟨d, hd, hdirection, haddr, hmessage⟩ := hwritten _ decoded
    obtain rfl : f = f' := Option.some.inj (found.symm.trans (hkey ▸ found'))
    exact ⟨d, hd, hdirection,
      (fits.consistent.functional d hd w hw (haddr.trans hwaddr.symm)).trans hwsession, hmessage⟩
  · intro readInfo k f' reading found'
    obtain rfl := Option.some.inj reading
    obtain rfl := fits.only k f' found'
    obtain rfl : f = f' := Option.some.inj (found.symm.trans found')
    exact ⟨w, hw, hwaddr, hwsession⟩
  · intro _ _ _ _ _ _ _ hop
    cases hop
  · intro _ hlistens
    cases hlistens

/-- An event of the server's loop. -/
theorem ServerFits.of_loopEvent {event : LoopEvent} {ops : List ManagerOp}
    (fits : ServerFits clientId client net manager)
    (arrives : delivers net .toServer manager event = true) (counts : Counts manager event)
    (hops : event.ops manager = some ops)
    (h : Run.run ManagerOp.apply manager ops = some (next, outs)) :
    ServerFits clientId client (net ++ datagrams .toClient outs) next := by
  rcases loopEvent_cases hops with idle | ⟨_, _, _, _, _, _, readInfo, rfl, hread, rfl⟩ |
    ⟨_, _, _, rfl, rfl⟩
  · exact fits.of_idle_run idle h
  · rw [Run.run_singleton] at h
    exact fits.of_apply (serverMove_of_read fits arrives hread) rfl h
  · rw [Run.run_singleton] at h
    exact fits.of_tunnel counts h

/-- A message on the listening socket, which the client wrote. -/
theorem serverMove_of_listen {message : Option Messages} {sourceAddress : SocketAddr}
    {interfaceName : String} {openSocket : OpenSocket} {firstAck lastAck : Nat → SendResult}
    {now : Instant} (fits : ServerFits clientId client net manager)
    (written : ∀ m, message = some m → ∃ d ∈ net, d.clientAddr = sourceAddress ∧ d.message = m)
    (unused : ∀ hello, message = some (.hello hello) → manager.Installs hello.id hello.sessionId →
      ∀ packet, ¬ InFlight net .toClient hello.sessionId packet) :
    ServerMove clientId net manager
      (.handleHello message sourceAddress interfaceName openSocket firstAck lastAck now) := by
  refine ⟨rfl, by simp [Arrives, ManagerOp.reading], by simp [ManagerOp.reading], ?_, ?_⟩
  · intro hello _ _ _ _ _ _ hop
    obtain ⟨rfl, rfl, -⟩ := ManagerOp.handleHello.inj hop
    obtain ⟨d, hd, haddr, hmessage⟩ := written _ rfl
    obtain ⟨hid, hsession⟩ := fits.consistent.hellos d hd hello hmessage
    exact ⟨hid, d, hd, haddr, hsession.symm⟩
  · intro hello hlistens
    obtain ⟨_, _, _, _, _, _, hop⟩ := eq_of_listeningHello hlistens
    obtain ⟨rfl, -⟩ := ManagerOp.handleHello.inj hop
    exact unused hello rfl

/-- One iteration of the server. -/
theorem ServerFits.of_serverStep {event : ServerEvent}
    (fits : ServerFits clientId client net manager)
    (arrives : ∀ loopEvent, event = .loop loopEvent →
      delivers net .toServer manager loopEvent = true)
    (counts : ∀ loopEvent, event = .loop loopEvent → Counts manager loopEvent)
    (written : ∀ message sourceAddress openSocket firstAck lastAck now,
      event = .newConnection (some message) sourceAddress openSocket firstAck lastAck now →
      ∃ d ∈ net, d.clientAddr = sourceAddress ∧ d.message = message)
    (unused : ∀ hello sourceAddress openSocket firstAck lastAck now,
      event = .newConnection (some (.hello hello)) sourceAddress openSocket firstAck lastAck now →
      manager.Installs hello.id hello.sessionId →
      ∀ packet, ¬ InFlight net .toClient hello.sessionId packet)
    (h : serverStep manager event = some (next, outs)) :
    ServerFits clientId client (net ++ datagrams .toClient outs) next := by
  obtain ⟨ops, hops, hrun⟩ := serverStep_eq_some.mp h
  cases event with
  | newConnection message sourceAddress openSocket firstAck lastAck now =>
      have hmove : ServerMove clientId net manager (.handleHello message sourceAddress
          serverInterfaceName openSocket firstAck lastAck now) :=
        serverMove_of_listen fits (fun m hm => written m _ _ _ _ _ (by rw [hm]))
          (fun hello hm => unused hello _ _ _ _ _ (by rw [hm]))
      simp only [serverOps] at hops
      split at hops
      · obtain rfl := Option.some.inj hops
        obtain ⟨mid, first, rest, hfirst, hremove, rfl⟩ := Run.run_cons_eq_some.mp hrun
        have hmid := fits.of_apply hmove rfl hfirst
        rw [datagrams_append, ← List.append_assoc]
        exact hmid.of_idle_run (List.forall_mem_singleton.mpr idle_removeDisconnected) hremove
      · obtain rfl := Option.some.inj hops
        rw [Run.run_singleton] at hrun
        exact fits.of_apply hmove rfl hrun
  | loop event =>
      simp only [serverOps] at hops
      split at hops
      case isFalse => cases hops
      obtain ⟨eventOps, hevent, rfl⟩ := Option.map_eq_some_iff.mp hops
      obtain ⟨mid, first, rest, hfirst, hremove, rfl⟩ := Run.run_append_eq_some.mp hrun
      have hmid := fits.of_loopEvent (arrives _ rfl) (counts _ rfl) hevent hfirst
      rw [datagrams_append, ← List.append_assoc]
      exact hmid.of_idle_run (List.forall_mem_singleton.mpr idle_removeDisconnected) hremove
  | flushInterfaceLog =>
      simp only [serverOps] at hops
      split at hops
      case isFalse => cases hops
      obtain rfl := Option.some.inj hops
      exact fits.of_idle_run (List.forall_mem_singleton.mpr idle_removeDisconnected) hrun

end Server

/-! ### Steps of the two peers -/

/-- The invariant of the two peers. -/
structure PeersFit (settings : ClientSettings) (clientId : EndpointId) (peers : Peers) : Prop where
  client : ClientFits settings.serverId clientId (peers.server.endpoints.get? clientId) peers.net
    peers.client
  server : ServerFits clientId (peers.client.endpoints.get? settings.serverId) peers.net peers.server
  muted : Muted settings (DisabledAfter []) peers.client

section Peers

variable {settings : ClientSettings} {clientId : EndpointId} {peers next : Peers}
  {sent : List Datagram}

theorem keyed_of_isNew {manager : ConnectionManager} (h : manager.IsNew) : Keyed manager := by
  obtain ⟨_, _, _, _, _, rfl⟩ := h
  exact keyed_new _ _ _ _ _

theorem isNew_restarted (manager : ConnectionManager) : manager.restarted.IsNew :=
  ⟨_, _, _, _, _, rfl⟩

theorem fits_clientStep {event : ClientEvent} (fits : PeersFit settings clientId peers)
    (allowed : peers.allows settings (.client event) = true)
    (careful : Careful settings peers (.client event)) {client : ConnectionManager}
    {outs : List Output} (h : clientStep settings peers.client event = some (client, outs)) :
    PeersFit settings clientId
      { peers with client := client, net := peers.net ++ datagrams .toServer outs } := by
  have hclient := fits.client.of_clientStep ?_ ?_ ?_ ?_ ?_ h
  · have hmuted := (muted_clientStep fits.client.keyed fits.muted (fun _ _ _ => nofun) h).1
    exact ⟨hclient, ⟨fits.server.keyed, fits.server.only, hclient.consistent⟩,
      hmuted.mono fun _ => nofun⟩
  · exact fun e he entry hentry => ((fits.muted _ e he).2 entry hentry).1
  · rintro loopEvent rfl
    exact allowed
  · rintro dials rfl index hindex d hd
    have hall := List.all_eq_true.mp allowed index (List.mem_range.mpr hindex)
    simpa using List.all_eq_true.mp hall d hd
  · cases event with
    | loop => exact fun _ _ _ reopens => nomatch reopens
    | sendKeepalive | restart => exact careful
  · rintro loopEvent rfl
    exact careful

theorem fits_serverStep {event : ServerEvent} (fits : PeersFit settings clientId peers)
    (allowed : peers.allows settings (.server event) = true)
    (careful : Careful settings peers (.server event)) {server : ConnectionManager}
    {outs : List Output} (h : serverStep peers.server event = some (server, outs)) :
    PeersFit settings clientId
      { peers with server := server, net := peers.net ++ datagrams .toClient outs } := by
  have hserver := fits.server.of_serverStep ?_ ?_ ?_ ?_ h
  · exact ⟨⟨fits.client.keyed, fits.client.only, fits.client.ownId, hserver.consistent⟩, hserver,
      fits.muted⟩
  · rintro loopEvent rfl
    exact allowed
  · rintro loopEvent rfl
    exact careful
  · rintro message sourceAddress _ _ _ _ rfl
    obtain ⟨d, hd, hmatches⟩ := List.any_eq_true.mp allowed
    simp only [Bool.and_eq_true, beq_iff_eq] at hmatches
    exact ⟨d, hd, hmatches.1.2, hmatches.2⟩
  · rintro hello _ _ _ _ _ rfl
    exact careful

/-- A server that starts again knows nothing, which is consistent with everything. -/
theorem fits_restartServer (fits : PeersFit settings clientId peers) :
    PeersFit settings clientId { peers with server := peers.server.restarted } := by
  have hnew := isNew_restarted peers.server
  have hconsistent : Consistent clientId peers.net (peers.client.endpoints.get? settings.serverId)
      (peers.server.restarted.endpoints.get? clientId) :=
    { fits.client.consistent with serverSide := nofun, backed := nofun }
  exact ⟨⟨fits.client.keyed, fits.client.only, fits.client.ownId, hconsistent⟩,
    ⟨keyed_of_isNew hnew, only_new hnew, hconsistent⟩, fits.muted⟩

/-- A careful step keeps the invariant. -/
theorem fits_peersStep {event : PeersEvent} (fits : PeersFit settings clientId peers)
    (careful : Careful settings peers event)
    (h : peersStep settings peers event = some (next, sent)) : PeersFit settings clientId next := by
  unfold peersStep at h
  split at h
  case isFalse => cases h
  rename_i allowed
  cases event with
  | client event =>
      obtain ⟨⟨client, outs⟩, hstep, heq⟩ := Option.map_eq_some_iff.mp h
      obtain ⟨rfl, -⟩ := Prod.mk.inj heq
      exact fits_clientStep fits allowed careful hstep
  | server event =>
      obtain ⟨⟨server, outs⟩, hstep, heq⟩ := Option.map_eq_some_iff.mp h
      obtain ⟨rfl, -⟩ := Prod.mk.inj heq
      exact fits_serverStep fits allowed careful hstep
  | restartServer =>
      obtain ⟨rfl, -⟩ := Prod.mk.inj (Option.some.inj h)
      exact fits_restartServer fits

/-- The peers fit when the client's loop begins. -/
theorem fits_peersStart {dials : Nat → Dial} {client server : ConnectionManager}
    (clientNew : client.IsNew) (serverNew : server.IsNew)
    (h : peersStart settings dials client server = some peers) :
    PeersFit settings client.ownId peers := by
  obtain ⟨⟨start, outs⟩, hstart, rfl⟩ := Option.map_eq_some_iff.mp h
  have hrun := (clientStart_eq_some hstart).1
  have habsent : ∀ {manager : ConnectionManager}, manager.IsNew → ∀ k,
      manager.endpoints.get? k = none := by
    rintro _ ⟨_, _, _, _, _, rfl⟩ k
    rfl
  have hserver : server.endpoints.get? client.ownId = none := habsent serverNew _
  have hnone : Consistent client.ownId [] (client.endpoints.get? settings.serverId)
      (server.endpoints.get? client.ownId) := by
    rw [habsent clientNew, hserver]
    exact ⟨by simp, by simp, nofun, nofun, nofun, nofun⟩
  have hclient := ClientFits.of_restart
    ⟨keyed_of_isNew clientNew, only_new clientNew, rfl, hnone⟩ (habsent clientNew _)
    (by simp) (by simp [OwnAddresses]) hrun
  rw [List.nil_append] at hclient
  have hmuted : Muted settings (DisabledAfter []) start ∧ SilentOn (DisabledAfter []) outs :=
    muted_restart (keyed_of_isNew clientNew)
      (fun k e found => by simp [habsent clientNew k] at found) (fun _ _ _ _ => nofun) hrun
  exact ⟨hclient, ⟨keyed_of_isNew serverNew, only_new serverNew, hclient.consistent⟩, hmuted.1⟩

/-- Peers that fit agree on their counters. -/
theorem PeersFit.countersAgree (fits : PeersFit settings clientId peers) :
    CountersAgree settings clientId peers := by
  intro e f he hf session
  have consistent := fits.client.consistent
  have hserver := (consistent.serverSide f hf).sorter e.txCounter fun packet hpacket =>
    (consistent.clientSide e he).numbered packet (session ▸ hpacket)
  have hclient := (consistent.clientSide e he).sorter f.txCounter fun packet hpacket =>
    (consistent.serverSide f hf).numbered packet (session ▸ hpacket)
  exact ⟨hserver.nextSeq, hclient.nextSeq⟩

end Peers

/-- In every run of the two peers whose steps are careful, the counters agree in every state. -/
theorem counters_agree (settings : ClientSettings) (dials : Nat → Dial)
    (client server : ConnectionManager) (start : Peers) (clientNew : client.IsNew)
    (serverNew : server.IsNew) (begins : peersStart settings dials client server = some start)
    (events : List PeersEvent)
    (careful : Run.EachStep (peersStep settings) (fun _ => Careful settings) start events) :
    Run.Throughout (peersStep settings) (CountersAgree settings client.ownId) start events := by
  intro past future mid before heq hrun
  subst heq
  refine PeersFit.countersAgree (Run.run_induction (P := fun _ peers _ =>
    PeersFit settings client.ownId peers) (fits_peersStart clientNew serverNew begins) ?_
    careful.of_append hrun)
  intro _ event mid _ next sent _ hmid hcareful hstep
  exact fits_peersStep hmid hcareful hstep

theorem careful_of_checksCareful {settings : ClientSettings} {peers : Peers} {event : PeersEvent}
    (h : peers.checksCareful event = true) : Careful settings peers event := by
  have hcounts : ∀ (manager : ConnectionManager) (event : LoopEvent),
      (manager.endpoints.values.all fun e => e.txCounter != u64Max) = true → Counts manager event := by
    intro manager event hall _ _ _ _ k _ e he
    simpa using List.all_eq_true.mp hall e (List.mem_map_of_mem (OrdMap.get?_eq_some_iff.mp he))
  match event with
  | .client (.loop event) => exact hcounts _ _ h
  | .client (.sendKeepalive ..) | .client (.restart _) => cases h
  | .server (.loop event) => exact hcounts _ _ h
  | .server (.newConnection (some (.hello hello)) ..) =>
      rintro - packet ⟨d, hd, hdirection, -, hmessage⟩
      have hsilent := List.all_eq_true.mp h d hd
      simp [hdirection, hmessage] at hsilent
  | .server (.newConnection none ..) | .server (.newConnection (some (.packet _)) ..)
  | .server (.newConnection (some (.helloAck _)) ..) | .server .flushInterfaceLog
  | .restartServer => trivial

/-- The server answers the greeting of the client, and the client sends a packet that the server takes
    in. -/
theorem counters_agree_first_packet :
    let settings : ClientSettings := ⟨[⟨"eth0", .v4 2130706433 0, .v4 2130706434 40000⟩], 1⟩
    let dial : Dial := ⟨.bound, .ok (), .ok (.v4 2130706433 5000), 7, .ok 20, 0⟩
    let client := ConnectionManager.new (.v4 2130706433 0) 154 (some [⟨0, 0⟩]) 10000 100
    let server := ConnectionManager.new (.v4 2130706434 40000) 1 (some [⟨0, 0⟩]) 10000 100
    let events : List PeersEvent :=
      [.server (.newConnection (some (.hello ⟨154, 7, some [⟨0, 0⟩], 0⟩)) (.v4 2130706433 5000)
          (fun address _ => .ok address) (fun _ => .ok 20) (fun _ => .ok 20) 0),
        .client (.loop (.newEstablishedMessage 1 0 (some (.helloAck ⟨1, 7, some [⟨0, 0⟩], 0⟩))
          (fun _ _ => .error .other) (fun _ => .ok 20) 1)),
        .client (.loop (.tunnelPacket (.ipv4 167772161) [69] fun _ _ => .ok 20)),
        .server (.loop (.newEstablishedMessage 154 0 (some (.packet ⟨0, 1, [69]⟩))
          (fun _ _ => .error .other) (fun _ => .ok 20) 2))]
    ∃ start, peersStart settings (fun _ => dial) client server = some start ∧
      (Run.run (peersStep settings) start events).isSome = true ∧
      Run.Throughout (peersStep settings) (CountersAgree settings client.ownId) start events := by
  intro settings dial client server events
  refine ⟨_, rfl, by decide, ?_⟩
  refine counters_agree settings (fun _ => dial) client server _ ⟨_, _, _, _, _, rfl⟩
    ⟨_, _, _, _, _, rfl⟩ rfl events ?_
  exact Run.eachStep_of_everyStep (c := fun _ peers event => peers.checksCareful event)
    (fun _ _ _ h => careful_of_checksCareful h) (by decide)

/-- The server sends a packet that the client takes in, and starts again. The next keepalive of the
    client makes it create the endpoint anew, under the session in place and with its counter at zero,
    so the packet that it sends next is one that the client has already seen. -/
theorem keepalive_revives_session :
    ¬ ∀ settings dials client server start, client.IsNew → server.IsNew →
      peersStart settings dials client server = some start →
      ∀ events, Run.Throughout (peersStep settings) (CountersAgree settings client.ownId) start
        events := by
  intro h
  have hagree := h ⟨[⟨"eth0", .v4 2130706433 0, .v4 2130706434 40000⟩], 1⟩
    (fun _ => ⟨.bound, .ok (), .ok (.v4 2130706433 5000), 7, .ok 20, 0⟩)
    (ConnectionManager.new (.v4 2130706433 0) 154 (some [⟨0, 0⟩]) 10000 100)
    (ConnectionManager.new (.v4 2130706434 40000) 1 (some [⟨0, 0⟩]) 10000 100) _
    ⟨_, _, _, _, _, rfl⟩ ⟨_, _, _, _, _, rfl⟩ rfl
    [.server (.newConnection (some (.hello ⟨154, 7, some [⟨0, 0⟩], 0⟩)) (.v4 2130706433 5000)
        (fun address _ => .ok address) (fun _ => .ok 20) (fun _ => .ok 20) 0),
      .server (.loop (.tunnelPacket (.ipv4 167772162) [69] fun _ _ => .ok 20)),
      .client (.loop (.newEstablishedMessage 1 0 (some (.packet ⟨0, 154, [69]⟩))
        (fun _ _ => .error .other) (fun _ => .ok 20) 1)),
      .restartServer,
      .client (.sendKeepalive (fun _ _ => .ok 20)
        fun _ => ⟨.bound, .ok (), .ok (.v4 2130706433 5000), 7, .ok 20, 0⟩),
      .server (.newConnection (some (.hello ⟨154, 7, some [⟨0, 0⟩], 1⟩)) (.v4 2130706433 5000)
        (fun address _ => .ok address) (fun _ => .ok 20) (fun _ => .ok 20) 3)]
    _ [] _ _ (List.append_nil _).symm rfl _ _ rfl rfl rfl
  exact absurd hagree.2 (by decide)

end MultiConnect
