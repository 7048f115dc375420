/-
Module: MultiConnect.Proofs.Panics
Layer: Proofs
Purpose: When the handling of an event panics. In a network of the two programs an event that has come
  is handled in every state that is reached, whatever the sockets answer and however hellos, packets
  and restarts are interleaved: the routes lead to endpoints, and a hello that comes in on a connection
  finds that connection. What is left is a TUN device that fails, a log that fails, and on a client a
  link that cannot be made: one with an IPv6 address, or with a socket that cannot be made or whose
  binding to the device answers unexpectedly (`network_panics_iff`). The logs change nothing, so the
  states that are reached with them are among those that are reached without.
Trusted boundary: the waiting for an event, which can panic on its own; a connected socket has a local
  address and a peer
Main exports: LoopEvent.Comes, Attempts, LogFails, network_panics_iff
-/
import MultiConnect.Loggers
import MultiConnect.Proofs.ConnectionKeys
import MultiConnect.Proofs.Isolation
import MultiConnect.Proofs.LatencyRecords

namespace MultiConnect

open ConnectionManager

/-! ### Events that have come -/

/-- What the event waits for is there. -/
def LoopEvent.Comes (manager : ConnectionManager) : LoopEvent → Prop
  | .newEstablishedMessage id index packetBytes .. =>
      (manager.awaitIncoming id index packetBytes).isSome = true
  | .connectionTimeout id index now => (manager.awaitTimeout id index now).isSome = true
  | .packetSorter id now => (manager.awaitPacketSorters id now).isSome = true
  | .newSortedPacket id _ => (manager.awaitEndpointSortedPackets id).isSome = true
  | _ => True

/-- The loop of the server is where it can come upon the event. -/
def ServerEvent.Comes (manager : ConnectionManager) : ServerEvent → Prop
  | .newConnection .. => True
  | .loop event => manager.hasEndpoints = true ∧ event.Comes manager
  | .flushInterfaceLog => manager.hasEndpoints = true

/-- The loop of the client is where it can come upon the event. -/
def ClientEvent.Comes (manager : ConnectionManager) : ClientEvent → Prop
  | .loop event => manager.hasEndpoints = true ∧ event.Comes manager
  | .sendKeepalive .. => manager.hasEndpoints = true
  | .restart .. => manager.hasEndpoints = false

/-- A sorted packet cannot be written to the TUN device. -/
def LoopEvent.TunFails : LoopEvent → Prop
  | .newSortedPacket _ tunSent => ∃ error, tunSent = .error error
  | _ => False

def ServerEvent.TunFails : ServerEvent → Prop
  | .loop event => event.TunFails
  | _ => False

def ClientEvent.TunFails : ClientEvent → Prop
  | .loop event => event.TunFails
  | _ => False

/-- The links that an event of the client opens: those that are dead, or all of them at a restart. -/
inductive Attempts (settings : ClientSettings) (manager : ConnectionManager) :
    ClientEvent → ConnectionInfo → Dial → Prop
  | sendKeepalive {sends : EndpointId → Nat → SendResult} {dials : Nat → Dial} {info : ConnectionInfo}
      {index : Nat} {e : Endpoint} (present : manager.endpoints.get? settings.serverId = some e)
      (listed : (info, index) ∈ settings.connectionInfo.zipIdx)
      (dead : (info.interfaceName, info.destinationAddress) ∉ e.getAliveConnections) :
      Attempts settings manager (.sendKeepalive sends dials) info (dials index)
  | restart {dials : Nat → Dial} {info : ConnectionInfo} {index : Nat}
      (listed : (info, index) ∈ settings.connectionInfo.zipIdx) :
      Attempts settings manager (.restart dials) info (dials index)

/-- A link that cannot be made: it has an IPv6 address, or its socket cannot be made, or binding the
    socket to the device fails for another reason than a missing device. -/
def Unmakeable (info : ConnectionInfo) (dial : Dial) : Prop :=
  (∃ ip port flowinfo scopeId, info.localAddress = .v6 ip port flowinfo scopeId) ∨
    dial.device = .failed

/-- What makes a call of a log panic: for a line the clock or the file, for a flush the file, and for the
    estimates a last arrival that is earlier than the first. -/
def LogCall.Fails (answers : LogAnswers) : LogCall → Prop
  | .addLogLine file line => answers.timestamp = none ∨ ∃ timestamp error,
      answers.timestamp = some timestamp ∧ answers.write file (line timestamp) = .error error
  | .flush file => ∃ error, answers.flush file = .error error
  | .debugEstimates hello helloAck => ∃ latency ∈ [hello, helloAck],
      ∃ compared ∈ latency.comparedArrivals, compared.2.2 < compared.2.1

/-- One of the calls fails, and its log is there. -/
def LogFails (loggers : Loggers) (answers : LogAnswers) (calls : List LogCall) : Prop :=
  ∃ call ∈ calls, loggers.makes call = true ∧ call.Fails answers

/-! ### The logs -/

section Logs

variable {loggers : Loggers} {answers : LogAnswers}

/-- The estimates of a record can be made unless a last arrival is earlier than the first. -/
theorem delayDifferences_eq_none_iff {latency : PathLatency} :
    latency.delayDifferences = none ↔
      ∃ compared ∈ latency.comparedArrivals, compared.2.2 < compared.2.1 := by
  rw [← Option.not_isSome_iff_eq_none, PathLatency.delayDifferences_isSome_iff]
  simp

theorem perform_eq_none_iff (call : LogCall) : call.perform answers = none ↔ call.Fails answers := by
  cases call with
  | addLogLine file line =>
      cases hclock : answers.timestamp with
      | none => simp [LogCall.perform, LogCall.Fails, hclock]
      | some timestamp =>
          cases hwrite : answers.write file (line timestamp) <;>
            simp [LogCall.perform, LogCall.Fails, hclock, hwrite]
  | flush file => cases hflush : answers.flush file <;> simp [LogCall.perform, LogCall.Fails, hflush]
  | debugEstimates hello helloAck =>
      simp only [LogCall.Fails, List.mem_cons, List.not_mem_nil, or_false, exists_eq_or_imp,
        exists_eq_left, ← delayDifferences_eq_none_iff]
      cases hhello : hello.delayDifferences <;> cases hack : helloAck.delayDifferences <;>
        simp [LogCall.perform, hhello, hack]

/-- The calls succeed unless one of them fails. -/
theorem succeed_eq_false_iff {calls : List LogCall} :
    loggers.succeed answers calls = false ↔ LogFails loggers answers calls := by
  simp [Loggers.succeed, LogFails, ← perform_eq_none_iff]

/-- An iteration with logs panics where a log fails, or where the iteration itself panics. -/
theorem logged_eq_none {calls : List LogCall} {step : Option (ConnectionManager × List Output)} :
    (if loggers.succeed answers calls then step else none) = none ↔
      step = none ∨ LogFails loggers answers calls := by
  rw [← succeed_eq_false_iff]
  cases loggers.succeed answers calls <;> simp

end Logs

/-! ### The operations -/

section Operations

variable {manager : ConnectionManager} {ops : List ManagerOp}

theorem makeSocket_eq_none {dial : Dial} : makeSocket dial = none ↔ dial.device = .failed := by
  unfold makeSocket
  cases dial.device <;> simp

/-- Only a link that cannot be made panics. -/
theorem tryLink_eq_none (manager : ConnectionManager) (attempt : ConnectionInfo × Dial) :
    manager.tryLink attempt = none ↔ Unmakeable attempt.1 attempt.2 := by
  rw [tryLink, Option.map_eq_none_iff, openLink]
  unfold createNewConnection
  cases haddress : attempt.1.localAddress with
  | v6 => simp [Unmakeable, haddress]
  | v4 =>
      rw [Unmakeable, haddress, ← makeSocket_eq_none]
      dsimp only
      cases hsocket : makeSocket attempt.2 with
      | none => simp
      | some result =>
          cases result with
          | error => simp
          | ok =>
              cases attempt.2.connect with
              | error => simp
              | ok =>
                  dsimp only
                  cases attempt.2.send <;> simp

/-- A clean-up can follow any operations. -/
theorem run_removeDisconnected_eq_none :
    Run.run ManagerOp.apply manager (ops ++ [.removeDisconnected]) = none ↔
      Run.run ManagerOp.apply manager ops = none := by
  cases hrun : Run.run ManagerOp.apply manager ops with
  | none =>
      refine iff_of_true ?_ rfl
      by_contra hsome
      obtain ⟨⟨next, outs⟩, hnext⟩ := Option.ne_none_iff_exists'.mp hsome
      obtain ⟨mid, first, last, hmid, -⟩ := Run.run_concat_eq_some.mp hnext
      rw [hrun] at hmid
      cases hmid
  | some result =>
      have hnext : Run.run ManagerOp.apply manager (ops ++ [.removeDisconnected]) =
          some (result.1.removeDisconnected, result.2 ++ []) :=
        Run.run_concat_eq_some.mpr ⟨result.1, result.2, [], hrun, rfl, rfl⟩
      simp [hnext]

/-- The connection that a hello came in on is known under the id that the hello names. -/
def HelloKnown (manager : ConnectionManager) (readInfo : ReadInfo) : Prop :=
  ∀ hello, readInfo.packetBytes = some (.hello hello) → ∃ e entry,
    manager.endpoints.get? hello.id = some e ∧ entry ∈ e.connections ∧
      entry.isFor readInfo.interfaceName readInfo.sourceAddress = true

theorem handleEstablishedMessage_isSome {readInfo : ReadInfo} (known : HelloKnown manager readInfo)
    (openSocket : OpenSocket) (ack : Nat → SendResult) (now : Instant) :
    (manager.handleEstablishedMessage readInfo openSocket ack now).isSome = true := by
  unfold handleEstablishedMessage
  split
  · split <;> rfl
  · rename_i hello hread
    obtain ⟨e, entry, found, hentry, hfor⟩ := known hello hread
    rw [found]
    dsimp only
    split
    · rfl
    · rename_i error hadd
      have hunknown := (Endpoint.addConnection_eq_error.mp hadd).1 entry hentry
      rw [hfor] at hunknown
      cases hunknown
  · split <;> rfl
  · rfl

/-- An event of both loops that has come panics only where the TUN device fails. -/
theorem loopEvent_panics {event : LoopEvent} (known : RoutesKnown manager)
    (comes : event.Comes manager)
    (hellos : ∀ id index packetBytes openSocket ack now readInfo,
      event = .newEstablishedMessage id index packetBytes openSocket ack now →
      manager.awaitIncoming id index packetBytes = some readInfo → HelloKnown manager readInfo) :
    ((event.ops manager).map (· ++ [.removeDisconnected])).bind (Run.run ManagerOp.apply manager) =
      none ↔ event.TunFails := by
  have hsome : ∀ ops, (Run.run ManagerOp.apply manager ops).isSome = true →
      ((some ops).map (· ++ [.removeDisconnected])).bind (Run.run ManagerOp.apply manager) ≠ none := by
    intro ops hops
    rw [Option.map_some, Option.bind_some, ne_eq, run_removeDisconnected_eq_none]
    exact Option.isSome_iff_ne_none.mp hops
  cases event with
  | newEstablishedMessage id index packetBytes openSocket ack now =>
      obtain ⟨readInfo, hread⟩ := Option.isSome_iff_exists.mp comes
      refine iff_of_false ?_ not_false
      rw [LoopEvent.ops, hread]
      refine hsome _ ?_
      rw [Run.run_singleton]
      exact handleEstablishedMessage_isSome (hellos _ _ _ _ _ _ _ rfl hread) openSocket ack now
  | connectionTimeout id index now =>
      obtain ⟨⟨fired, timeout⟩, hfired⟩ := Option.isSome_iff_exists.mp comes
      refine iff_of_false ?_ not_false
      rw [LoopEvent.ops, hfired]
      refine hsome _ ?_
      simp [Run.run, ManagerOp.apply, hfired]
  | packetSorter id now =>
      obtain ⟨⟨fired, endpointId⟩, hfired⟩ := Option.isSome_iff_exists.mp comes
      refine iff_of_false ?_ not_false
      rw [LoopEvent.ops, hfired]
      refine hsome _ ?_
      simp [Run.run, ManagerOp.apply, hfired]
  | tunnelPacket sliced bytes sends =>
      refine iff_of_false (hsome _ ?_) not_false
      rw [Run.run_singleton]
      exact known.handlePacketFromTun_isSome sliced bytes sends
  | newSortedPacket id tunSent =>
      cases tunSent with
      | error error => exact iff_of_true rfl ⟨error, rfl⟩
      | ok =>
          obtain ⟨⟨read, sorted⟩, hread⟩ := Option.isSome_iff_exists.mp comes
          refine iff_of_false (hsome _ ?_) (by simp [LoopEvent.TunFails])
          rw [Run.run_singleton, ManagerOp.apply, hread]
          rfl
  | establishedError | tunnelError | duplicationMessage => exact iff_of_false (hsome _ rfl) not_false

end Operations

/-! ### The loops -/

/-- A hello that reaches the server on a connection of a client names this client. -/
theorem helloKnown_server {deployment : Deployment} {traffic : List Traffic} {net : List Datagram}
    {server : ConnectionManager} {id : EndpointId} {index : Nat} {packetBytes : Option Messages}
    {openSocket : OpenSocket} {ack : Nat → SendResult} {now : Instant} {readInfo : ReadInfo}
    (genuine : ∀ d ∈ net, Genuine deployment traffic d)
    (traces : Traces (serverOrigins deployment net traffic) server)
    (identified : ServerIdentified server)
    (arrives : delivers net .toServer server
      (.newEstablishedMessage id index packetBytes openSocket ack now) = true)
    (h : server.awaitIncoming id index packetBytes = some readInfo) :
    HelloKnown server readInfo := by
  obtain ⟨e, entry, found, hentry, rfl, hwritten⟩ := read_of_delivers arrives h
  intro hello hbytes
  obtain ⟨d, hd, hdirection, haddr, hsame⟩ := hwritten _ hbytes
  have hid := genuine d hd
  simp only [Genuine, hdirection, hsame] at hid
  have howner : deployment.owner d.clientAddr = id := by
    rw [haddr]
    exact (traces.address id e found entry hentry).1
  have own := (identified id).own entry (by rw [connectionsOf_of_get? found]; exact hentry)
  refine ⟨e, entry, hid.1.trans howner ▸ found, hentry, ?_⟩
  simp [ConnectionEntry.isFor, own.interfaceName, own.interfaceAddress]

/-- An event that the server can come upon panics only where the TUN device fails. -/
theorem serverStep_eq_none {deployment : Deployment} {traffic : List Traffic} {network : Network}
    {event : ServerEvent} (isolated : Isolated deployment network traffic)
    (known : RoutesKnown network.server) (identified : ServerIdentified network.server)
    (meets : ServerMeets network event) (comes : event.Comes network.server) :
    serverStep network.server event = none ↔ event.TunFails := by
  cases event with
  | newConnection message sourceAddress openSocket firstAck lastAck now =>
      refine iff_of_false ?_ not_false
      cases hendpoints : network.server.hasEndpoints <;>
        simp [serverStep, serverOps, hendpoints, Run.run, ManagerOp.apply]
  | flushInterfaceLog =>
      refine iff_of_false ?_ not_false
      have hendpoints : network.server.hasEndpoints = true := comes
      simp [serverStep, serverOps, hendpoints, Run.run, ManagerOp.apply]
  | loop event =>
      have hpanics := loopEvent_panics known comes.2
        fun id index packetBytes openSocket ack now readInfo hevent hread =>
          helloKnown_server isolated.net isolated.server.traces identified
            (hevent ▸ meets.delivers event rfl) hread
      rw [ServerEvent.TunFails, ← hpanics, serverStep, serverOps, if_pos comes.1]
      cases (event.ops network.server).map (· ++ [.removeDisconnected]) <;> rfl

/-- The links that a keepalive opens, with the endpoints greeted already. -/
theorem attempts_of_greeted {settings : ClientSettings} {manager greeted : ConnectionManager}
    {sends : EndpointId → Nat → SendResult} {dials : Nat → Dial} {outs : List Output}
    (greets : manager.greetAllEndpoints sends = (greeted, outs)) :
    greeted.ensureEndpointConnections settings.serverId settings.connectionInfo dials = none ↔
      ∃ info dial, Attempts settings manager (.sendKeepalive sends dials) info dial ∧
        Unmakeable info dial := by
  obtain ⟨rfl, -⟩ := Prod.mk.inj greets
  unfold ensureEndpointConnections
  dsimp only [greetAllEndpoints]
  rw [OrdMap.get?_mapVals]
  cases found : manager.endpoints.get? settings.serverId with
  | none =>
      refine iff_of_false (by simp) ?_
      rintro ⟨info, dial, attempts, -⟩
      cases attempts with
      | sendKeepalive present => simp [found] at present
  | some e =>
      dsimp only [Option.map_some]
      rw [Run.run_eq_none_iff tryLink_eq_none,
        getAliveConnections_of_touched (Endpoint.touched_greet e _ _ _)]
      constructor
      · rintro ⟨⟨info, dial⟩, hmem, unmakeable⟩
        obtain ⟨⟨info', index⟩, hlisted, heq⟩ := List.mem_map.mp hmem
        obtain ⟨rfl, rfl⟩ := Prod.mk.inj heq
        obtain ⟨hlisted, hdead⟩ := List.mem_filter.mp hlisted
        exact ⟨_, _, .sendKeepalive found hlisted (of_decide_eq_true hdead), unmakeable⟩
      · rintro ⟨info, dial, attempts, unmakeable⟩
        cases attempts with
        | @sendKeepalive _ _ _ index e' present hlisted dead =>
            obtain rfl := Option.some.inj (found.symm.trans present)
            exact ⟨(info, dials index), List.mem_map.mpr ⟨(info, index),
              List.mem_filter.mpr ⟨hlisted, decide_eq_true dead⟩, rfl⟩, unmakeable⟩

/-- An event that a client can come upon panics only where the TUN device fails, or where a link that it
    opens cannot be made. -/
theorem clientStep_eq_none {deployment : Deployment} {traffic : List Traffic} {network : Network}
    {id : EndpointId} {config : ClientConfig} {client : ConnectionManager} {event : ClientEvent}
    (configured : deployment.clients.get? id = some config)
    (genuine : ∀ d ∈ network.net, Genuine deployment traffic d)
    (traces : Traces (clientOrigins deployment network.net traffic id config) client)
    (known : RoutesKnown client)
    (meets : ClientMeets deployment network id config client event) (comes : event.Comes client) :
    clientStep config.toClientSettings client event = none ↔ event.TunFails ∨
      ∃ info dial, Attempts config.toClientSettings client event info dial ∧
        Unmakeable info dial := by
  cases event with
  | loop event =>
      -- no hello reaches a client
      have hhellos : ∀ k index packetBytes openSocket ack now readInfo,
          event = .newEstablishedMessage k index packetBytes openSocket ack now →
          client.awaitIncoming k index packetBytes = some readInfo → HelloKnown client readInfo := by
        rintro k index packetBytes openSocket ack now readInfo rfl hread hello hbytes
        have offers : Offers (clientOrigins deployment network.net traffic id config)
            (.handleEstablishedMessage readInfo openSocket ack now) :=
          client_reads configured genuine traces (meets.delivers _ rfl) hread
        exact (offers.hears hello hbytes).elim
      have hpanics := loopEvent_panics known comes.2 hhellos
      have hnone : ¬ ∃ info dial, Attempts config.toClientSettings client (.loop event) info dial ∧
          Unmakeable info dial := by
        rintro ⟨_, _, ⟨⟩, -⟩
      rw [ClientEvent.TunFails, or_iff_left hnone, ← hpanics, clientStep, clientOps, if_pos comes.1]
      cases (event.ops client).map (· ++ [.removeDisconnected]) <;> rfl
  | sendKeepalive sends dials =>
      have hendpoints : client.hasEndpoints = true := comes
      obtain ⟨greeted, outs, hgreets⟩ : ∃ greeted outs,
          client.greetAllEndpoints sends = (greeted, outs) := ⟨_, _, rfl⟩
      simp only [ClientEvent.TunFails, false_or, ← attempts_of_greeted hgreets, clientStep, clientOps,
        if_pos hendpoints]
      rw [Run.run, ManagerOp.apply, hgreets]
      dsimp only
      rw [Run.run, ManagerOp.apply]
      cases greeted.ensureEndpointConnections config.serverId config.connectionInfo dials with
      | none => simp
      | some ensured => simp [Run.run, ManagerOp.apply]
  | restart dials =>
      have hendpoints : client.hasEndpoints = false := comes
      have hlinks : ∀ (mid : ConnectionManager) (attempt : ConnectionInfo × Nat),
          ManagerOp.apply mid (.createNewConnection attempt.1 (dials attempt.2)) = none ↔
            Unmakeable attempt.1 (dials attempt.2) := fun mid attempt => tryLink_eq_none mid _
      simp only [ClientEvent.TunFails, false_or, clientStep, clientOps, hendpoints,
        Bool.false_eq_true, if_false]
      rw [Run.run_map, Run.run_eq_none_iff hlinks]
      constructor
      · rintro ⟨⟨info, index⟩, listed, unmakeable⟩
        exact ⟨info, dials index, .restart listed, unmakeable⟩
      · rintro ⟨info, dial, attempts, unmakeable⟩
        cases attempts with
        | restart listed => exact ⟨_, listed, unmakeable⟩

/-! ### Reachable networks -/

section Reachable

variable {deployment : Deployment} {start network : Network} {events : List NetworkEvent}
  {traffic : List Traffic}

theorem keeps_serverStep {manager next : ConnectionManager} {event : ServerEvent} {outs : List Output}
    (keeps : Keyed manager ∧ RoutesKnown manager ∧ ServerIdentified manager)
    (h : serverStep manager event = some (next, outs)) :
    Keyed next ∧ RoutesKnown next ∧ ServerIdentified next := by
  obtain ⟨keyed, known, identified⟩ := keeps
  obtain ⟨ops, -, hrun⟩ := serverStep_eq_some.mp h
  exact ⟨keyed_serverStep keyed h, routesKnown_run known hrun,
    serverIdentified_serverStep keyed identified h⟩

/-- The server of a reachable network has an endpoint for every route, and knows its connections. -/
theorem server_reached (begins : networkStart deployment = some start)
    (reached : Run.run (networkStep deployment) start events = some (network, traffic)) :
    RoutesKnown network.server ∧ ServerIdentified network.server := by
  refine (server_invariant (P := fun manager => Keyed manager ∧ RoutesKnown manager ∧
    ServerIdentified manager) ?_ (fun _ _ _ _ => keeps_serverStep) begins reached).2
  intro server hserver
  obtain ⟨tunnel, -, rfl⟩ := serverMain_eq_some hserver
  exact ⟨keyed_new _ _ _ _ _, nofun, fun k => Identified.nil _⟩

/-- A client of a reachable network has an endpoint for every route. -/
theorem client_reached (begins : networkStart deployment = some start)
    (reached : Run.run (networkStep deployment) start events = some (network, traffic)) :
    ∀ id client, network.clients.get? id = some client → RoutesKnown client := by
  refine clients_invariant (P := fun _ => RoutesKnown) ?_ ?_ begins reached
  · intro id config dials client outs _ hmain
    unfold clientMain at hmain
    split at hmain
    · rename_i manager hmanager
      obtain ⟨tunnel, localAddress, -, rfl⟩ := clientManager_eq_some hmanager
      exact routesKnown_run (fun aem haem => by cases haem) (clientStart_eq_some hmain).1
    · cases hmain
  · intro id config manager event next outs _ known hstep
    obtain ⟨ops, -, hrun⟩ := clientStep_eq_some.mp hstep
    exact routesKnown_run known hrun

end Reachable

/-- In every network that is reached, and whichever logs the programs have, the handling of an event that
    has come panics on the server exactly where the TUN device or a log fails, and on a client exactly
    there or where a link that the event opens cannot be made. -/
theorem network_panics_iff (deployment : Deployment) (start network : Network)
    (begins : networkStart deployment = some start) (events : List NetworkEvent)
    (traffic : List Traffic)
    (reached : Run.run (networkStep deployment) start events = some (network, traffic))
    (loggers : Loggers) (answers : LogAnswers) :
    (∀ event, network.allows deployment (.server event) = true → event.Comes network.server →
      (serverStepLogged loggers answers network.server event = none ↔
        event.TunFails ∨ LogFails loggers answers (event.logCalls network.server))) ∧
    ∀ id config client, deployment.clients.get? id = some config →
      network.clients.get? id = some client →
      ∀ event, network.allows deployment (.client id event) = true → event.Comes client →
        (clientStepLogged loggers answers config.toClientSettings client event = none ↔
          (event.TunFails ∨ ∃ info dial, Attempts config.toClientSettings client event info dial ∧
            Unmakeable info dial) ∨
          LogFails loggers answers (event.logCalls client)) := by
  have isolated := (isolated_run begins reached).1
  obtain ⟨known, identified⟩ := server_reached begins reached
  constructor
  · intro event allowed comes
    rw [serverStepLogged, logged_eq_none,
      serverStep_eq_none isolated known identified (serverMeets_of_allows allowed) comes]
  · intro id config client configured running event allowed comes
    obtain ⟨config', configured', runs⟩ := isolated.clients id client running
    obtain rfl := Option.some.inj (configured.symm.trans configured')
    rw [clientStepLogged, logged_eq_none, clientStep_eq_none configured isolated.net runs.traces
      (client_reached begins reached id client running)
      (clientMeets_of_allows configured running allowed) comes]

/-- The hello of a client that comes in again, on its connection. -/
private def repeatedHello : LoopEvent :=
  .newEstablishedMessage 154 0
    (some (.hello ⟨154, 7, some [⟨3232235776, 4294967040⟩, ⟨167772162, 4294967295⟩], 0⟩))
    (fun _ _ => .error .other) (fun _ => .ok 20) 2

/-- A disk that is full. -/
private def fullDisk : LogAnswers := ⟨some 0, fun _ _ => .error .other, fun _ => .error .other⟩

theorem network_panics_iff_repeated_hello :
    ∃ start network traffic, networkStart relayDeployment = some start ∧
      Run.run (networkStep relayDeployment) start (relayEvents.take 4) = some (network, traffic) ∧
      (serverStepLogged ⟨true, true, true⟩ fullDisk network.server (.loop repeatedHello) = none ↔
        (ServerEvent.loop repeatedHello).TunFails ∨ LogFails ⟨true, true, true⟩ fullDisk
          ((ServerEvent.loop repeatedHello).logCalls network.server)) ∧
      serverStepLogged ⟨true, true, true⟩ fullDisk network.server .flushInterfaceLog = none := by
  have hrun : ((networkStart relayDeployment).bind fun start =>
      (Run.run (networkStep relayDeployment) start (relayEvents.take 4)).map fun reached =>
        reached.1.allows relayDeployment (.server (.loop repeatedHello)) &&
        reached.1.server.hasEndpoints && (reached.1.server.awaitIncoming 154 0 (some (.hello
          ⟨154, 7, some [⟨3232235776, 4294967040⟩, ⟨167772162, 4294967295⟩], 0⟩))).isSome) =
      some true := by decide
  obtain ⟨start, hstart, hchecks⟩ := Option.bind_eq_some_iff.mp hrun
  obtain ⟨⟨network, traffic⟩, hreached, hcheck⟩ := Option.map_eq_some_iff.mp hchecks
  simp only [Bool.and_eq_true] at hcheck
  have hpanics := (network_panics_iff relayDeployment start network hstart _ traffic hreached
    ⟨true, true, true⟩ fullDisk).1
  exact ⟨start, network, traffic, hstart, hreached, hpanics _ hcheck.1.1 ⟨hcheck.1.2, hcheck.2⟩,
    (hpanics .flushInterfaceLog rfl hcheck.1.2).mpr
      (.inr ⟨.flush .interfaceLog, .head _, rfl, .other, rfl⟩)⟩

end MultiConnect
