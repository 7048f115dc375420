/-
Module: MultiConnect.Proofs.LoopOps
Layer: Proofs
Purpose: Which operations the two loops perform, each with the manager that it is performed on. What an
  operation reads came in on a connection of that manager; the server listens under one name for all
  interfaces and never greets; the client never listens, and opens links in a keepalive or when it has
  no endpoint. Invariants of the loops are proved from these facts, operation by operation.
Trusted boundary: none
Main exports: Reads, OnServer, OnClient, onServer_of_serverOps, onClient_of_clientOps
-/
import MultiConnect.Proofs.SelectiveDuplication

namespace MultiConnect

open ConnectionManager

/-- What the operation reads came in on a connection. -/
def Reads (manager : ConnectionManager) (op : ManagerOp) : Prop :=
  ∀ readInfo, op.reading = some readInfo →
    ∃ id index packetBytes, manager.awaitIncoming id index packetBytes = some readInfo

/-- The interface that an operation listens on. -/
def ManagerOp.listensOn : ManagerOp → Option String
  | .handleHello _ _ interfaceName .. => some interfaceName
  | _ => none

/-- An operation as the server's loop performs it. -/
structure OnServer (manager : ConnectionManager) (op : ManagerOp) : Prop where
  greets : op.greets = false
  listens : ∀ interfaceName, op.listensOn = some interfaceName → interfaceName = serverInterfaceName
  reads : Reads manager op

/-- An operation as the client's loop performs it while there are endpoints. -/
structure OnClient (settings : ClientSettings) (manager : ConnectionManager) (op : ManagerOp) :
    Prop where
  listens : op.listeningHello = none
  reads : Reads manager op
  dials : (∀ info dial, ¬ Dials manager op info dial) ∨
    ∃ dials, op = .ensureEndpointConnections settings.serverId settings.connectionInfo dials

section Events

variable {manager : ConnectionManager} {ops : List ManagerOp}

theorem reads_of_unread {op : ManagerOp} (reading : op.reading = none) : Reads manager op :=
  fun readInfo h => by simp [reading] at h

/-- An event of both loops reads at most once, and first. -/
theorem reads_of_loopEvent {event : LoopEvent} (hops : event.ops manager = some ops) :
    Run.EachStep ManagerOp.apply (fun _ => Reads) manager ops := by
  have hunread : (∀ op ∈ ops, op.reading = none) →
      Run.EachStep ManagerOp.apply (fun _ => Reads) manager ops := fun hops =>
    Run.eachStep_of_forall fun op hop _ => reads_of_unread (hops op hop)
  cases event with
  | newEstablishedMessage id index packetBytes =>
      obtain ⟨readInfo, hread, rfl⟩ := Option.map_eq_some_iff.mp hops
      refine Run.eachStep_singleton fun readInfo' heq => ?_
      obtain rfl := Option.some.inj heq
      exact ⟨id, index, packetBytes, hread⟩
  | connectionTimeout | packetSorter =>
      obtain ⟨awaited, -, rfl⟩ := Option.map_eq_some_iff.mp hops
      exact hunread (by simp [ManagerOp.reading])
  | newSortedPacket id tunSent =>
      cases tunSent with
      | error => cases hops
      | ok =>
          obtain rfl := Option.some.inj hops
          exact hunread (by simp [ManagerOp.reading])
  | establishedError | tunnelPacket | tunnelError | duplicationMessage =>
      obtain rfl := Option.some.inj hops
      exact hunread (by simp [ManagerOp.reading])

/-- A plain operation that reads from a connection fits both loops, the server's when it does not
    listen. -/
theorem onServer_of_plain {op : ManagerOp} (plain : op.Plain) (listens : op.listensOn = none)
    (reads : Reads manager op) : OnServer manager op :=
  ⟨plain.1, by simp [listens], reads⟩

theorem onClient_of_plain {settings : ClientSettings} {op : ManagerOp} (plain : op.Plain)
    (reads : Reads manager op) : OnClient settings manager op :=
  ⟨plain.2, reads, Or.inl fun _ _ dials => absurd dials.greets (by simp [plain.1])⟩

/-- The events of both loops never listen. -/
theorem listensOn_of_loopEvent {event : LoopEvent} (hops : event.ops manager = some ops) :
    ∀ op ∈ ops, op.listensOn = none := by
  cases event with
  | newEstablishedMessage | connectionTimeout | packetSorter =>
      obtain ⟨awaited, -, rfl⟩ := Option.map_eq_some_iff.mp hops
      simp [ManagerOp.listensOn]
  | newSortedPacket id tunSent =>
      cases tunSent with
      | error => cases hops
      | ok =>
          obtain rfl := Option.some.inj hops
          simp [ManagerOp.listensOn]
  | establishedError | tunnelPacket | tunnelError | duplicationMessage =>
      obtain rfl := Option.some.inj hops
      simp [ManagerOp.listensOn]

end Events

/-! ### The iterations -/

/-- The operations of one iteration of the server. -/
theorem onServer_of_serverOps {manager : ConnectionManager} {event : ServerEvent}
    {ops : List ManagerOp} (hops : serverOps manager event = some ops) :
    Run.EachStep ManagerOp.apply (fun _ => OnServer) manager ops := by
  have hremove : ∀ mid, OnServer mid .removeDisconnected := fun mid =>
    onServer_of_plain plain_removeDisconnected rfl (reads_of_unread rfl)
  cases event with
  | newConnection message source openSocket firstAck lastAck now =>
      have hhello : OnServer manager (.handleHello message source serverInterfaceName openSocket
          firstAck lastAck now) := by
        refine ⟨rfl, ?_, reads_of_unread rfl⟩
        rintro _ ⟨⟩
        rfl
      simp only [serverOps] at hops
      split at hops
      · obtain rfl := Option.some.inj hops
        exact (Run.eachStep_singleton hhello).append fun mid _ _ => Run.eachStep_singleton (hremove mid)
      · obtain rfl := Option.some.inj hops
        exact Run.eachStep_singleton hhello
  | loop event =>
      simp only [serverOps] at hops
      split at hops
      · obtain ⟨eventOps, heventOps, rfl⟩ := Option.map_eq_some_iff.mp hops
        refine Run.EachStep.append ?_ fun mid _ _ => Run.eachStep_singleton (hremove mid)
        intro past op future mid before next now heq hrun hstep
        have hmem : op ∈ eventOps := by simp [heq]
        exact onServer_of_plain (plain_of_loopEvent heventOps op hmem)
          (listensOn_of_loopEvent heventOps op hmem)
          (reads_of_loopEvent heventOps past op future mid before next now heq hrun hstep)
      · cases hops
  | flushInterfaceLog =>
      simp only [serverOps] at hops
      split at hops
      · obtain rfl := Option.some.inj hops
        exact Run.eachStep_singleton (hremove manager)
      · cases hops

/-- The operations of one iteration of the client: without endpoints, the attempts of a restart. -/
theorem onClient_of_clientOps {settings : ClientSettings} {manager : ConnectionManager}
    {event : ClientEvent} {ops : List ManagerOp}
    (hops : clientOps settings manager event = some ops) :
    Run.EachStep ManagerOp.apply (fun _ => OnClient settings) manager ops ∨
    (manager.hasEndpoints = false ∧ ∃ dials : Nat → Dial,
      ops = settings.connectionInfo.zipIdx.map fun attempt =>
        .createNewConnection attempt.1 (dials attempt.2)) := by
  have hremove : ∀ mid, OnClient settings mid .removeDisconnected := fun mid =>
    onClient_of_plain plain_removeDisconnected (reads_of_unread rfl)
  cases event with
  | loop event =>
      simp only [clientOps] at hops
      split at hops
      · obtain ⟨eventOps, heventOps, rfl⟩ := Option.map_eq_some_iff.mp hops
        refine Or.inl (Run.EachStep.append ?_ fun mid _ _ => Run.eachStep_singleton (hremove mid))
        intro past op future mid before next now heq hrun hstep
        exact onClient_of_plain (plain_of_loopEvent heventOps op (by simp [heq]))
          (reads_of_loopEvent heventOps past op future mid before next now heq hrun hstep)
      · cases hops
  | sendKeepalive sends dials =>
      simp only [clientOps] at hops
      split at hops
      · obtain rfl := Option.some.inj hops
        have hgreet : OnClient settings manager (.greetAllEndpoints sends) :=
          ⟨rfl, reads_of_unread rfl, Or.inl fun _ _ dials => by cases dials⟩
        have hensure : ∀ mid, OnClient settings mid (.ensureEndpointConnections settings.serverId
            settings.connectionInfo dials) :=
          fun mid => ⟨rfl, reads_of_unread rfl, Or.inr ⟨dials, rfl⟩⟩
        exact Or.inl ((Run.eachStep_singleton hgreet).append fun mid _ _ =>
          (Run.eachStep_singleton (hensure mid)).append fun mid _ _ =>
            Run.eachStep_singleton (hremove mid))
      · cases hops
  | restart dials =>
      simp only [clientOps] at hops
      split at hops
      · cases hops
      · rename_i hnone
        exact Or.inr ⟨by simpa using hnone, dials, (Option.some.inj hops).symm⟩

section Loop

variable {manager mid : ConnectionManager} {event : LoopEvent} {ops : List ManagerOp}
  {outs : List Output}

/-- With endpoints the server performs the operations of an event, and then cleans up. -/
theorem serverStep_loop (running : manager.hasEndpoints = true) (hops : event.ops manager = some ops)
    (h : Run.run ManagerOp.apply manager ops = some (mid, outs)) :
    serverStep manager (.loop event) = some (mid.removeDisconnected, outs) := by
  rw [serverStep, serverOps, if_pos running, hops, Option.map_some]
  exact Run.run_concat_eq_some.mpr ⟨mid, outs, [], h, rfl, (List.append_nil outs).symm⟩

/-- And so does the client. -/
theorem clientStep_loop (settings : ClientSettings) (running : manager.hasEndpoints = true)
    (hops : event.ops manager = some ops)
    (h : Run.run ManagerOp.apply manager ops = some (mid, outs)) :
    clientStep settings manager (.loop event) = some (mid.removeDisconnected, outs) := by
  rw [clientStep, clientOps, if_pos running, hops, Option.map_some]
  exact Run.run_concat_eq_some.mpr ⟨mid, outs, [], h, rfl, (List.append_nil outs).symm⟩

end Loop

end MultiConnect
