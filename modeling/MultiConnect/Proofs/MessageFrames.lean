/-
Module: MultiConnect.Proofs.MessageFrames
Layer: Proofs
Purpose: Which endpoint a message on an established connection acts on. A packet acts on the endpoint of
  the connection it was read on, but a hello and its acknowledgement act on the endpoint whose id they
  carry, and nothing compares the two. So a message leaves the other endpoints alone exactly when it
  names its own endpoint or none, or happens to change nothing of the one that it names.
Trusted boundary: none
Main exports: OthersUnchanged, othersUnchanged_update_iff, FramesOthers, ActsOnOwn,
  established_message_frame_iff
-/
import MultiConnect.Proofs.LatencyWindow
import MultiConnect.Proofs.EndpointSteps

namespace MultiConnect

open ConnectionManager

/-- Every other endpoint is the same in all it holds, and so are the routes to it. -/
def OthersUnchanged (manager next : ConnectionManager) (id : EndpointId) : Prop :=
  ∀ other, other ≠ id → next.endpoints.get? other = manager.endpoints.get? other ∧
    ∀ route, ⟨route, other⟩ ∈ next.routes.routes ↔ ⟨route, other⟩ ∈ manager.routes.routes

section Update

variable {manager : ConnectionManager} {id : EndpointId} {e : Endpoint}

theorem OthersUnchanged.refl (manager : ConnectionManager) (id : EndpointId) :
    OthersUnchanged manager manager id :=
  fun _ _ => ⟨rfl, fun _ => Iff.rfl⟩

/-- Changing one endpoint and announcing its routes leaves the others alone exactly when it is the own
    one, or is not changed, and the routes are known. -/
theorem othersUnchanged_update_iff (found : manager.endpoints.get? id = some e)
    (own : EndpointId) (changed : Endpoint) (addresses : List Route) :
    OthersUnchanged manager { manager with
        endpoints := manager.endpoints.insert id changed
        routes := manager.routes.insertRoutes addresses id } own ↔
      id = own ∨ changed = e ∧ ∀ address ∈ addresses, ⟨address, id⟩ ∈ manager.routes.routes := by
  constructor
  · intro h
    by_cases hown : id = own
    · exact Or.inl hown
    · obtain ⟨hendpoint, hroutes⟩ := h id hown
      refine Or.inr ⟨?_, fun address hannounced => ?_⟩
      · rw [OrdMap.get?_insert_self, found] at hendpoint
        exact Option.some.inj hendpoint
      · exact (hroutes address).mp (Router.mem_insertRoutes.mpr (Or.inl ⟨rfl, hannounced⟩))
  · intro h other hother
    by_cases hid : other = id
    · obtain ⟨rfl, known⟩ := h.resolve_left fun hown => hother (hid.trans hown)
      subst hid
      refine ⟨by rw [OrdMap.get?_insert_self, found], fun route => ?_⟩
      rw [Router.mem_insertRoutes]
      exact ⟨fun hmem => hmem.elim (fun hnew => known route hnew.2) fun h => h, Or.inr⟩
    · refine ⟨OrdMap.get?_insert_of_ne _ _ hid, fun route => ?_⟩
      rw [Router.mem_insertRoutes]
      exact ⟨fun hmem => hmem.elim (fun hnew => absurd hnew.1 hid) fun h => h, Or.inr⟩

/-- Storing an endpoint leaves the others alone when it is the own one, or is stored as it was. -/
theorem othersUnchanged_setEndpoint_iff (found : manager.endpoints.get? id = some e)
    (own : EndpointId) (changed : Endpoint) :
    OthersUnchanged manager (manager.setEndpoint id changed) own ↔ id = own ∨ changed = e := by
  have hiff := othersUnchanged_update_iff found own changed []
  simpa [setEndpoint, Router.insertRoutes] using hiff

end Update

/-! ### The three kinds of messages -/

/-- The acknowledgement finds everything as it would leave it: its arrival is the only one of the oldest
    sequence number in a full record, each connection that it came in on is broken, or is connected with
    its timer just started, and its routes are known. -/
structure AckChangesNothing (manager : ConnectionManager) (e : Endpoint) (readInfo : ReadInfo)
    (helloAck : HelloAck) (now : Instant) : Prop where
  full : ¬ e.helloAckPathLatency.ackTimestamps.size < maxTimestamps
  oldest : e.helloAckPathLatency.ackTimestamps.first? = some (helloAck.helloAckSeq, [now])
  connections : ∀ entry ∈ e.connections,
    entry.isFor readInfo.interfaceName readInfo.sourceAddress = true →
      entry.connection.state = .disconnected ∨
        entry.connection.state = .connected ∧ entry.resetHelloTimeout now = entry
  routes : ∀ address ∈ helloAck.staticRoutes.getD [], ⟨address, helloAck.id⟩ ∈ manager.routes.routes

/-- A message acts on no endpoint but its own: it is a packet, or it carries the id of its own endpoint
    or of none that is known; or it changes nothing of the endpoint whose id it carries, where a hello
    whose connection cannot be opened ends the program. -/
def ActsOnOwn (manager : ConnectionManager) (readInfo : ReadInfo) (openSocket : OpenSocket)
    (now : Instant) : Prop :=
  match readInfo.packetBytes with
  | some (.packet _) => True
  | some (.hello hello) => hello.id = readInfo.endpointId ∨
      ∀ e, manager.endpoints.get? hello.id = some e →
        (∀ entry ∈ e.connections,
          entry.isFor readInfo.interfaceName readInfo.sourceAddress = false) ∧
        ∃ error, openSocket manager.localAddress readInfo.sourceAddress = .error error
  | some (.helloAck helloAck) => helloAck.id = readInfo.endpointId ∨
      ∀ e, manager.endpoints.get? helloAck.id = some e →
        AckChangesNothing manager e readInfo helloAck now
  | none => True

section Messages

variable {manager : ConnectionManager} {readInfo : ReadInfo} {openSocket : OpenSocket}
  {ack : Nat → SendResult} {now : Instant}

/-- The call leaves the other endpoints alone, in whatever state it returns. -/
def FramesOthers (manager : ConnectionManager) (readInfo : ReadInfo) (openSocket : OpenSocket)
    (ack : Nat → SendResult) (now : Instant) : Prop :=
  ∀ next outs, manager.handleEstablishedMessage readInfo openSocket ack now = some (next, outs) →
    OthersUnchanged manager next readInfo.endpointId

theorem framesOthers_of_some {next : ConnectionManager} {outs : List Output}
    (h : manager.handleEstablishedMessage readInfo openSocket ack now = some (next, outs)) :
    FramesOthers manager readInfo openSocket ack now ↔
      OthersUnchanged manager next readInfo.endpointId := by
  constructor
  · exact fun frames => frames next outs h
  · intro unchanged other more hother
    obtain ⟨rfl, -⟩ := Prod.mk.inj (Option.some.inj (h.symm.trans hother))
    exact unchanged

theorem framesOthers_of_same
    (h : manager.handleEstablishedMessage readInfo openSocket ack now = some (manager, [])) :
    FramesOthers manager readInfo openSocket ack now :=
  (framesOthers_of_some h).mpr (OthersUnchanged.refl _ _)

/-- A packet is sorted for the endpoint whose connection it came in on. -/
theorem framesOthers_packet {packet : Packet} (decoded : readInfo.packetBytes = some (.packet packet)) :
    FramesOthers manager readInfo openSocket ack now := by
  cases found : manager.endpoints.get? readInfo.endpointId with
  | none =>
      refine framesOthers_of_same ?_
      simp [handleEstablishedMessage, decoded, found]
  | some e =>
      have hset : manager.handleEstablishedMessage readInfo openSocket ack now =
          some (manager.setEndpoint readInfo.endpointId
            { e with packetSorter := (e.packetSorter.insertPacket packet now).1 }, []) := by
        simp [handleEstablishedMessage, decoded, found]
      exact (framesOthers_of_some hset).mpr ((othersUnchanged_setEndpoint_iff found _ _).mpr (Or.inl rfl))

/-- A hello stays within the frame when it names the endpoint that it came in for, or one that is not
    there, or when taking it in panics. -/
theorem framesOthers_hello {hello : Hello} (decoded : readInfo.packetBytes = some (.hello hello)) :
    FramesOthers manager readInfo openSocket ack now ↔ hello.id = readInfo.endpointId ∨
      ∀ e, manager.endpoints.get? hello.id = some e →
        (∀ entry ∈ e.connections,
          entry.isFor readInfo.interfaceName readInfo.sourceAddress = false) ∧
        ∃ error, openSocket manager.localAddress readInfo.sourceAddress = .error error := by
  cases found : manager.endpoints.get? hello.id with
  | none =>
      refine iff_of_true (framesOthers_of_same ?_) (Or.inr fun e hnone => by cases hnone)
      simp [handleEstablishedMessage, decoded, found]
  | some e =>
      cases hadd : Endpoint.addConnection { e with
          helloPathLatency := e.helloPathLatency.insertNewTimestamp hello.helloSeq now }
        readInfo.sourceAddress readInfo.interfaceName manager.localAddress manager.connectionTimeout
        openSocket now with
      | error error =>
          have hpanic : manager.handleEstablishedMessage readInfo openSocket ack now = none := by
            simp [handleEstablishedMessage, decoded, found, hadd]
          obtain ⟨unknown, unopened⟩ := Endpoint.addConnection_eq_error.mp hadd
          refine iff_of_true (fun next outs h => ?_) (Or.inr fun other hother => ?_)
          · rw [hpanic] at h
            cases h
          · obtain rfl := Option.some.inj hother
            exact ⟨unknown, error, unopened⟩
      | ok added =>
          have hset : manager.handleEstablishedMessage readInfo openSocket ack now =
              some (manager.setEndpoint hello.id (added.acknowledge manager.ownId added.sessionId
                  manager.ownStaticRoutes ack).1,
                (added.acknowledge manager.ownId added.sessionId manager.ownStaticRoutes
                  ack).2.map .write) := by
            simp [handleEstablishedMessage, decoded, found, hadd]
          -- the counter of the acknowledgements moves on
          have hchanged : (added.acknowledge manager.ownId added.sessionId manager.ownStaticRoutes
              ack).1 ≠ e := by
            intro heq
            have hcounter := congrArg Endpoint.helloAckCounter heq
            have hadded : added.helloAckCounter = e.helloAckCounter :=
              (Endpoint.helloAckCounter_addConnection hadd).trans rfl
            simp only [Endpoint.acknowledge, hadded] at hcounter
            exact absurd hcounter (by grind)
          rw [framesOthers_of_some hset, othersUnchanged_setEndpoint_iff found]
          refine or_congr_right (iff_of_false hchanged fun cannot => ?_)
          obtain ⟨unknown, error, unopened⟩ := cannot e rfl
          have hfails := hadd.symm.trans (Endpoint.addConnection_eq_error.mpr ⟨unknown, unopened⟩)
          cases hfails

/-- An acknowledgement leaves the connection that it came in on as it is when this is broken, or
    connected with its timer just started. -/
theorem acknowledged_eq_self_iff (entry : ConnectionEntry) :
    acknowledged readInfo now entry = entry ↔
      (entry.isFor readInfo.interfaceName readInfo.sourceAddress = true →
        entry.connection.state = .disconnected ∨
          entry.connection.state = .connected ∧ entry.resetHelloTimeout now = entry) := by
  have hfor : entry.isFor readInfo.interfaceName readInfo.sourceAddress = true ↔
      entry.interfaceAddress = readInfo.sourceAddress ∧
        entry.interfaceName = readInfo.interfaceName := by
    simp [ConnectionEntry.isFor, and_comm]
  rw [hfor]
  unfold acknowledged
  split
  · rename_i hmatch
    cases hstate : entry.connection.state with
    | startup =>
        refine iff_of_false (fun heq => ?_) (by simp [hmatch])
        have hconnected := congrArg (fun entry => entry.connection.state) heq
        simp [ConnectionEntry.setState, ConnectionEntry.resetHelloTimeout,
          Connection.resetHelloTimeout, hstate] at hconnected
    | connected => simp [hstate, hmatch]
    | disconnected => simp [hstate]
  · rename_i hother
    simp [hother]

/-- An acknowledgement changes the endpoint that it names, unless there is nothing in it to change. -/
theorem framesOthers_helloAck {helloAck : HelloAck}
    (decoded : readInfo.packetBytes = some (.helloAck helloAck)) :
    FramesOthers manager readInfo openSocket ack now ↔ helloAck.id = readInfo.endpointId ∨
      ∀ e, manager.endpoints.get? helloAck.id = some e →
        AckChangesNothing manager e readInfo helloAck now := by
  cases found : manager.endpoints.get? helloAck.id with
  | none =>
      refine iff_of_true (framesOthers_of_same ?_) (Or.inr fun e hnone => by cases hnone)
      simp [handleEstablishedMessage, decoded, found]
  | some e =>
      have hset : manager.handleEstablishedMessage readInfo openSocket ack now =
          some ({ manager with
            endpoints := manager.endpoints.insert helloAck.id { e with
              helloAckPathLatency := e.helloAckPathLatency.insertNewTimestamp helloAck.helloAckSeq now
              connections := e.connections.map (acknowledged readInfo now) }
            routes := manager.routes.insertRoutes (helloAck.staticRoutes.getD []) helloAck.id },
            []) := by
        simp [handleEstablishedMessage, decoded, found]
      rw [framesOthers_of_some hset, othersUnchanged_update_iff found]
      refine or_congr_right ?_
      have hconnections : e.connections.map (acknowledged readInfo now) = e.connections ↔
          ∀ entry ∈ e.connections, acknowledged readInfo now entry = entry := by
        simpa using List.map_inj_left (f := acknowledged readInfo now) (g := id) (l := e.connections)
      constructor
      · rintro ⟨hsame, hroutes⟩ other hother
        obtain rfl := Option.some.inj hother
        obtain ⟨full, oldest⟩ := PathLatency.insertNewTimestamp_eq_self_iff.mp
          (congrArg Endpoint.helloAckPathLatency hsame)
        have hall := hconnections.mp (congrArg Endpoint.connections hsame)
        exact ⟨full, oldest, fun entry hentry =>
          (acknowledged_eq_self_iff entry).mp (hall entry hentry), hroutes⟩
      · intro h
        obtain ⟨full, oldest, connections, routes⟩ := h e rfl
        refine ⟨?_, routes⟩
        rw [PathLatency.insertNewTimestamp_eq_self_iff.mpr ⟨full, oldest⟩, hconnections.mpr
          fun entry hentry => (acknowledged_eq_self_iff entry).mpr (connections entry hentry)]

end Messages

/-- A message on an established connection leaves every other endpoint and the routes to it alone exactly
    when it acts on its own endpoint only. -/
theorem established_message_frame_iff (manager : ConnectionManager) (readInfo : ReadInfo)
    (openSocket : OpenSocket) (ack : Nat → SendResult) (now : Instant) :
    FramesOthers manager readInfo openSocket ack now ↔ ActsOnOwn manager readInfo openSocket now := by
  unfold ActsOnOwn
  split
  · rename_i packet decoded
    exact iff_of_true (framesOthers_packet decoded) trivial
  · rename_i hello decoded
    exact framesOthers_hello decoded
  · rename_i helloAck decoded
    exact framesOthers_helloAck decoded
  · rename_i undecoded
    refine iff_of_true (framesOthers_of_same ?_) trivial
    simp [handleEstablishedMessage, undecoded]

/-- Two clients are connected. A hello on the connection of the first that carries the id of the second
    makes the address of the first a connection of the second. -/
theorem hello_acts_on_other_endpoint :
    ¬ ∀ (ops : List ManagerOp) (manager : ConnectionManager) (outs : List Output),
      Run.run ManagerOp.apply (ConnectionManager.new (.v4 2130706433 40000) 1 none 10000 100) ops =
        some (manager, outs) →
      ∀ (readInfo : ReadInfo) (openSocket : OpenSocket) (ack : Nat → SendResult) (now : Instant),
        FramesOthers manager readInfo openSocket ack now := by
  intro h
  have hframes := h
    [.handleHello (some (.hello ⟨154, 1, none, 0⟩)) (.v4 2130706434 123) "DYN-interface"
        (fun _ _ => .ok (.v4 2130706433 40000)) (fun _ => .ok 1) (fun _ => .ok 1) 0,
      .handleHello (some (.hello ⟨155, 2, none, 0⟩)) (.v4 2130706435 123) "DYN-interface"
        (fun _ _ => .ok (.v4 2130706433 40000)) (fun _ => .ok 1) (fun _ => .ok 1) 0]
    _ _ rfl ⟨some (.hello ⟨155, 2, none, 1⟩), .v4 2130706434 123, "DYN-interface", 154⟩
    (fun _ _ => .ok (.v4 2130706433 40000)) (fun _ => .ok 1) 1 _ _ rfl
  have hsame := congrArg (Option.map fun e => e.connections.length) (hframes 155 (by decide)).1
  exact absurd hsame (by decide)

end MultiConnect
