/-
Module: MultiConnect.Proofs.EndpointSteps
Layer: Proofs
Purpose: What an operation of the manager does to one endpoint. Seen from a single id, every operation
  is a sequence of the small steps of `EndpointStep`, each with the circumstances under which the
  operation takes it; `decomposes_of_apply` says so once for all operations, and what runs preserve is
  derived from the small steps alone.
Trusted boundary: none
Main exports: Output.endpointId, outputsFor, Keyed, Continues, Dials, Sorts, EndpointStep,
  EndpointSteps, decomposes_of_apply, keyed_of_apply, keyed_run, EndpointSteps.kept
-/
import MultiConnect.ConnectionManager
import MultiConnect.Proofs.SorterRuns

namespace MultiConnect

open ConnectionManager

/-! ### Vocabulary -/

def Output.endpointId : Output → EndpointId
  | .write written => written.endpointId
  | .sorted endpointId _ => endpointId

/-- The outputs of one endpoint. -/
def outputsFor (k : EndpointId) (outs : List Output) : List Output :=
  outs.filter fun out => out.endpointId = k

/-- Every endpoint is stored under its own id. -/
def Keyed (manager : ConnectionManager) : Prop :=
  ∀ k e, manager.endpoints.get? k = some e → e.id = k

/-- The operations never change the configuration of a manager, and forget no session. -/
structure Continues (manager next : ConnectionManager) : Prop where
  localAddress : next.localAddress = manager.localAddress
  ownId : next.ownId = manager.ownId
  ownStaticRoutes : next.ownStaticRoutes = manager.ownStaticRoutes
  connectionTimeout : next.connectionTimeout = manager.connectionTimeout
  packetSorterDeadline : next.packetSorterDeadline = manager.packetSorterDeadline
  sessionHistory : manager.sessionHistory ⊆ next.sessionHistory

theorem Continues.refl (manager : ConnectionManager) : Continues manager manager :=
  ⟨rfl, rfl, rfl, rfl, rfl, List.Subset.refl _⟩

/-- Continuing is transitive, so the turns of a loop can be judged against its beginning. -/
theorem Continues.trans {manager mid next : ConnectionManager} (h : Continues manager mid)
    (h' : Continues mid next) : Continues manager next :=
  ⟨h'.localAddress.trans h.localAddress, h'.ownId.trans h.ownId,
    h'.ownStaticRoutes.trans h.ownStaticRoutes, h'.connectionTimeout.trans h.connectionTimeout,
    h'.packetSorterDeadline.trans h.packetSorterDeadline,
    List.Subset.trans h.sessionHistory h'.sessionHistory⟩

/-- The operations that greet. -/
def ManagerOp.greets : ManagerOp → Bool
  | .createNewConnection .. => true
  | .greetAllEndpoints .. => true
  | .ensureEndpointConnections .. => true
  | _ => false

/-- The operations that drop connections. -/
def ManagerOp.removes : ManagerOp → Bool
  | .removeConnection .. => true
  | .removeDisconnected => true
  | _ => false

/-- The operation that numbers packets. -/
def ManagerOp.tunnels : ManagerOp → Bool
  | .handlePacketFromTun .. => true
  | _ => false

/-- A hello of an operation that greets, or an acknowledgement, under the session of the endpoint. -/
def SignalMessage (op : ManagerOp) (ownId : EndpointId) (sessionId : Uuid) : Messages → Prop
  | .packet _ => False
  | .hello hello => op.greets = true ∧ hello.id = ownId ∧ hello.sessionId = sessionId
  | .helloAck helloAck => helloAck.id = ownId ∧ helloAck.sessionId = sessionId

/-- A write that carries no packet. -/
structure Signal (m₀ : ConnectionManager) (op : ManagerOp) (e : Endpoint) (write : Write) :
    Prop where
  endpointId : write.endpointId = e.id
  sessionId : write.sessionId = e.sessionId
  entry : write.entry ∈ e.connections
  message : SignalMessage op m₀.ownId e.sessionId write.message

/-- The attempts to open a connection that an operation can make, from the manager it starts on. -/
inductive Dials (m₀ : ConnectionManager) : ManagerOp → ConnectionInfo → Dial → Prop
  | create (info : ConnectionInfo) (dial : Dial) : Dials m₀ (.createNewConnection info dial) info dial
  | ensure {id : EndpointId} {connectionInfos : List ConnectionInfo} {dials : Nat → Dial}
      {info : ConnectionInfo} {index : Nat} {e : Endpoint}
      (present : m₀.endpoints.get? id = some e) (listed : (info, index) ∈ connectionInfos.zipIdx)
      (dead : (info.interfaceName, info.destinationAddress) ∉ e.getAliveConnections) :
      Dials m₀ (.ensureEndpointConnections id connectionInfos dials) info (dials index)

/-- The operations on the sorter of an endpoint. -/
inductive Sorts : ManagerOp → EndpointId → SorterOp → Prop
  | packet {readInfo : ReadInfo} {packet : Packet} (openSocket : OpenSocket)
      (ack : Nat → SendResult) (now : Instant)
      (decoded : readInfo.packetBytes = some (.packet packet)) :
      Sorts (.handleEstablishedMessage readInfo openSocket ack now) readInfo.endpointId
        (.insertPacket packet now)
  | deadline (id : EndpointId) (now : Instant) :
      Sorts (.handlePacketSorterDeadline id now) id (.advanceQueue now)
  | read (id : EndpointId) : Sorts (.awaitEndpointSortedPackets id) id .awaitHaveNextPacket

/-! ### The small steps -/

/-- One small step that an operation `op`, started on `m₀`, takes on the endpoint of id `k`. -/
inductive EndpointStep (m₀ : ConnectionManager) (op : ManagerOp) (k : EndpointId) :
    Option Endpoint → List Output → Option Endpoint → Prop
  /-- States, timers, hello counters and latency records change, and signals are written. -/
  | signal {e e' : Endpoint} {writes : List Write} (touched : Touched e e')
      (sent : ∀ write ∈ writes, Signal m₀ op e write) :
      EndpointStep m₀ op k (some e) (writes.map .write) (some e')
  /-- A hello installs a fresh endpoint. -/
  | install {hello : Hello} {sourceAddress : SocketAddr} {interfaceName : String}
      {openSocket : OpenSocket} {firstAck lastAck : Nat → SendResult} {now : Instant}
      (hop : op = .handleHello (some (.hello hello)) sourceAddress interfaceName openSocket
        firstAck lastAck now)
      (key : hello.id = k)
      (installs : m₀.Installs k hello.sessionId) :
      EndpointStep m₀ op k (m₀.endpoints.get? k) []
        (some (Endpoint.new k hello.sessionId m₀.packetSorterDeadline now))
  /-- A hello on the listening socket adds a connection. -/
  | acceptListening {hello : Hello} {sourceAddress localAddr : SocketAddr} {interfaceName : String}
      {openSocket : OpenSocket} {firstAck lastAck : Nat → SendResult} {now : Instant} {e : Endpoint}
      (hop : op = .handleHello (some (.hello hello)) sourceAddress interfaceName openSocket
        firstAck lastAck now)
      (key : hello.id = k) (session : e.sessionId = hello.sessionId)
      (unknown : ∀ entry ∈ e.connections, entry.isFor interfaceName sourceAddress = false)
      (opened : openSocket m₀.localAddress sourceAddress = .ok localAddr) :
      EndpointStep m₀ op k (some e) [] (some { e with connections := e.connections ++
        [Endpoint.incomingEntry sourceAddress interfaceName localAddr m₀.connectionTimeout now] })
  /-- A hello on an established connection adds a connection. -/
  | acceptEstablished {hello : Hello} {readInfo : ReadInfo} {localAddr : SocketAddr}
      {openSocket : OpenSocket} {ack : Nat → SendResult} {now : Instant} {e : Endpoint}
      (hop : op = .handleEstablishedMessage readInfo openSocket ack now)
      (decoded : readInfo.packetBytes = some (.hello hello)) (key : hello.id = k)
      (found : m₀.endpoints.get? k = some e)
      (unknown : ∀ entry ∈ e.connections,
        entry.isFor readInfo.interfaceName readInfo.sourceAddress = false)
      (opened : openSocket m₀.localAddress readInfo.sourceAddress = .ok localAddr) :
      EndpointStep m₀ op k (some e) [] (some { e with connections := e.connections ++
        [Endpoint.incomingEntry readInfo.sourceAddress readInfo.interfaceName localAddr
          m₀.connectionTimeout now] })
  /-- An attempt to connect creates the endpoint it is for. -/
  | create {info : ConnectionInfo} {dial : Dial} {localAddr : SocketAddr}
      (dials : Dials m₀ op info dial) (key : info.destinationEndpointId = k)
      (reaches : dial.Reaches localAddr) :
      EndpointStep m₀ op k none []
        (some (Endpoint.new k dial.newSession m₀.packetSorterDeadline dial.now))
  /-- An attempt to connect adds a connection. -/
  | dial {info : ConnectionInfo} {dial : Dial} {localAddr : SocketAddr} {sent : Nat} {e : Endpoint}
      (dials : Dials m₀ op info dial) (key : info.destinationEndpointId = k)
      (reaches : dial.Reaches localAddr) (greeted : dial.send = .ok sent) :
      EndpointStep m₀ op k (some e) [] (some { e with connections := e.connections ++
        [outgoingEntry info.interfaceName info.destinationAddress localAddr m₀.connectionTimeout
          dial.now] })
  /-- A duplication command sets the flags of an interface. -/
  | switch {state : InterfaceState} {e : Endpoint}
      (hop : op = .handleSelectiveDuplicationCommand (some (.interfaceState state))) :
      EndpointStep m₀ op k (some e) []
        (some (if state.enabled then e.enableInterface state.interfaceName
          else e.disableInterface state.interfaceName))
  /-- A packet is numbered and written. -/
  | tunnel {sliced : SlicedPacket} {bytes : List UInt8} {sends : EndpointId → Nat → SendResult}
      {e : Endpoint} (hop : op = .handlePacketFromTun sliced bytes sends) :
      EndpointStep m₀ op k (some e) ((e.tunnel bytes (sends k)).2.map .write)
        (some (e.tunnel bytes (sends k)).1)
  /-- The sorter takes a packet in, advances, or is read. -/
  | sort {sop : SorterOp} {sorter : PacketSorter} {outs : List SorterOutput} {e : Endpoint}
      (sorts : Sorts op k sop) (found : m₀.endpoints.get? k = some e)
      (sorted : sorterStep e.packetSorter sop = some (sorter, outs)) :
      EndpointStep m₀ op k (some e) ((receivedPackets outs).map (.sorted e.id))
        (some { e with packetSorter := sorter })
  /-- The timer of the sorter fires. -/
  | fire {now : Instant} {timer : Timer} {e : Endpoint} (hop : op = .awaitPacketSorters k now) :
      EndpointStep m₀ op k (some e) []
        (some { e with packetSorter := { e.packetSorter with deadlineTimer := timer } })
  /-- A connection is dropped. -/
  | drop {e : Endpoint} (removes : op.removes = true) (p : ConnectionEntry → Bool) :
      EndpointStep m₀ op k (some e) [] (some { e with connections := e.connections.eraseP p })
  /-- An endpoint without connections is removed. -/
  | remove {e : Endpoint} (removes : op.removes = true) (emptied : e.connections = []) :
      EndpointStep m₀ op k (some e) [] none

/-- A sequence of small steps, joining their outputs. -/
inductive EndpointSteps (m₀ : ConnectionManager) (op : ManagerOp) (k : EndpointId) :
    Option Endpoint → List Output → Option Endpoint → Prop
  | refl (o : Option Endpoint) : EndpointSteps m₀ op k o [] o
  | tail {o mid next : Option Endpoint} {outs more : List Output}
      (steps : EndpointSteps m₀ op k o outs mid) (step : EndpointStep m₀ op k mid more next) :
      EndpointSteps m₀ op k o (outs ++ more) next

namespace EndpointSteps

variable {m₀ : ConnectionManager} {op : ManagerOp} {k : EndpointId} {o mid next : Option Endpoint}
  {outs more : List Output}

theorem single (step : EndpointStep m₀ op k o outs next) : EndpointSteps m₀ op k o outs next :=
  (EndpointSteps.refl o).tail step

theorem trans (h : EndpointSteps m₀ op k o outs mid) (h' : EndpointSteps m₀ op k mid more next) :
    EndpointSteps m₀ op k o (outs ++ more) next := by
  induction h' with
  | refl => simpa using h
  | tail _ step ih =>
      rw [← List.append_assoc]
      exact ih.tail step

/-- An invariant of the small steps, over the endpoint and the outputs so far. -/
theorem invariant {P : Option Endpoint → List Output → Prop}
    (succ : ∀ mid before more next, P mid before → EndpointStep m₀ op k mid more next →
      P next (before ++ more))
    (h : EndpointSteps m₀ op k o outs next) (base : P o []) : P next outs := by
  induction h with
  | refl => exact base
  | tail _ step ih => exact succ _ _ _ _ ih step

end EndpointSteps

/-- A small step keeps the id of the endpoint. -/
theorem EndpointStep.id_eq {m₀ : ConnectionManager} {op : ManagerOp} {k : EndpointId}
    {o next : Option Endpoint} {outs : List Output} (step : EndpointStep m₀ op k o outs next)
    (h : ∀ e, o = some e → e.id = k) : ∀ e, next = some e → e.id = k := by
  intro e he
  cases step with
  | install | create =>
      obtain rfl := Option.some.inj he
      rfl
  | signal touched =>
      obtain rfl := Option.some.inj he
      exact touched.id.trans (h _ rfl)
  | switch =>
      obtain rfl := Option.some.inj he
      have hid := h _ rfl
      split <;> exact hid
  | remove => cases he
  | acceptListening | acceptEstablished | dial | tunnel | sort | fire | drop =>
      obtain rfl := Option.some.inj he
      have hid := h _ rfl
      exact hid

/-! ### Every operation is a sequence of small steps -/

section Outputs

variable (k : EndpointId)

@[simp] theorem outputsFor_nil : outputsFor k [] = [] := rfl

@[simp] theorem outputsFor_append (outs outs' : List Output) :
    outputsFor k (outs ++ outs') = outputsFor k outs ++ outputsFor k outs' :=
  List.filter_append ..

/-- The writes of an endpoint are all its own. -/
theorem outputsFor_writes {writes : List Write} {id : EndpointId}
    (h : ∀ write ∈ writes, write.endpointId = id) :
    outputsFor k (writes.map .write) = if id = k then writes.map .write else [] := by
  split
  · rename_i hid
    refine List.filter_eq_self.mpr fun out hout => ?_
    obtain ⟨write, hwrite, rfl⟩ := List.mem_map.mp hout
    exact decide_eq_true ((h write hwrite).trans hid)
  · rename_i hid
    refine List.filter_eq_nil_iff.mpr fun out hout => ?_
    obtain ⟨write, hwrite, rfl⟩ := List.mem_map.mp hout
    exact fun heq => hid ((h write hwrite).symm.trans (of_decide_eq_true heq))

/-- What is written on the connections of an endpoint is written for it. -/
theorem endpointId_of_mem_writes {endpoint : Endpoint} {eligible : ConnectionEntry → Bool}
    {message : Messages} {write : Write} (h : write ∈ endpoint.writes eligible message) :
    write.endpointId = endpoint.id := by
  obtain ⟨entry, -, -, rfl⟩ := Endpoint.mem_writes.mp h
  rfl

end Outputs

section Signals

variable {m₀ : ConnectionManager} {op : ManagerOp} {k : EndpointId} {e : Endpoint}

/-- A change that writes nothing. -/
theorem EndpointStep.touch {e' : Endpoint} (touched : Touched e e') :
    EndpointStep m₀ op k (some e) [] (some e') :=
  EndpointStep.signal touched (List.forall_mem_nil _)

/-- A single signal. -/
theorem EndpointStep.signalOne {e' : Endpoint} {write : Write} (touched : Touched e e')
    (sent : Signal m₀ op e write) : EndpointStep m₀ op k (some e) [.write write] (some e') :=
  EndpointStep.signal touched (List.forall_mem_singleton.mpr sent)

/-- A signal may be written on every eligible connection. -/
theorem signal_of_mem_writes {eligible : ConnectionEntry → Bool} {message : Messages}
    (signal : SignalMessage op m₀.ownId e.sessionId message) :
    ∀ write ∈ e.writes eligible message, Signal m₀ op e write := by
  intro write hwrite
  obtain ⟨entry, hmem, -, rfl⟩ := Endpoint.mem_writes.mp hwrite
  exact ⟨rfl, rfl, hmem, signal⟩

/-- Acknowledging is a small step, also in the middle of an operation. -/
theorem step_acknowledge {manager : ConnectionManager} (continues : Continues m₀ manager)
    (sends : Nat → SendResult) :
    EndpointStep m₀ op k (some e)
      ((e.acknowledge manager.ownId e.sessionId manager.ownStaticRoutes sends).2.map .write)
      (some (e.acknowledge manager.ownId e.sessionId manager.ownStaticRoutes sends).1) :=
  EndpointStep.signal (e.touched_acknowledge _ _ _ _)
    (signal_of_mem_writes ⟨continues.ownId, rfl⟩)

/-- Greeting is one as well, for an operation that greets. -/
theorem step_greet (greets : op.greets = true) (sends : Nat → SendResult) :
    EndpointStep m₀ op k (some e)
      ((e.greet m₀.ownId m₀.ownStaticRoutes sends).2.map .write)
      (some (e.greet m₀.ownId m₀.ownStaticRoutes sends).1) :=
  EndpointStep.signal (e.touched_greet _ _ _) (signal_of_mem_writes ⟨greets, rfl, rfl⟩)

end Signals

/-- The outputs of a small step name the endpoint. -/
theorem EndpointStep.own {m₀ : ConnectionManager} {op : ManagerOp} {k : EndpointId}
    {o next : Option Endpoint} {outs : List Output} (step : EndpointStep m₀ op k o outs next)
    (h : ∀ e, o = some e → e.id = k) : ∀ out ∈ outs, out.endpointId = k := by
  intro out hout
  cases step with
  | signal _ sent =>
      obtain ⟨write, hwrite, rfl⟩ := List.mem_map.mp hout
      exact (sent write hwrite).endpointId.trans (h _ rfl)
  | tunnel =>
      obtain ⟨write, hwrite, rfl⟩ := List.mem_map.mp hout
      exact (endpointId_of_mem_writes hwrite).trans (h _ rfl)
  | sort =>
      obtain ⟨packet, -, rfl⟩ := List.mem_map.mp hout
      exact h _ rfl
  | install | acceptListening | acceptEstablished | create | dial | switch | fire | drop | remove =>
      cases hout

/-- Small steps keep the id, and put out for this endpoint only. -/
theorem EndpointSteps.own {m₀ : ConnectionManager} {op : ManagerOp} {k : EndpointId}
    {o next : Option Endpoint} {outs : List Output} (steps : EndpointSteps m₀ op k o outs next)
    (h : ∀ e, o = some e → e.id = k) :
    (∀ e, next = some e → e.id = k) ∧ ∀ out ∈ outs, out.endpointId = k := by
  refine steps.invariant (P := fun next outs =>
    (∀ e, next = some e → e.id = k) ∧ ∀ out ∈ outs, out.endpointId = k) ?_ ⟨h, by simp⟩
  intro mid before more next ⟨hmid, hbefore⟩ step
  exact ⟨step.id_eq hmid, List.forall_mem_append.mpr ⟨hbefore, step.own hmid⟩⟩

/-- The passage from one manager to another is made of small steps of `op` on each endpoint. -/
structure Decomposes (m₀ : ConnectionManager) (op : ManagerOp) (manager : ConnectionManager)
    (outs : List Output) (next : ConnectionManager) : Prop where
  continues : Continues manager next
  steps : ∀ k, EndpointSteps m₀ op k (manager.endpoints.get? k) (outputsFor k outs)
    (next.endpoints.get? k)

namespace Decomposes

variable {m₀ manager mid next : ConnectionManager} {op : ManagerOp} {outs more : List Output}

theorem refl (manager : ConnectionManager) : Decomposes m₀ op manager [] manager :=
  ⟨Continues.refl manager, fun _ => EndpointSteps.refl _⟩

theorem trans (h : Decomposes m₀ op manager outs mid) (h' : Decomposes m₀ op mid more next) :
    Decomposes m₀ op manager (outs ++ more) next :=
  ⟨h.continues.trans h'.continues, fun k => by
    rw [outputsFor_append]
    exact (h.steps k).trans (h'.steps k)⟩

/-- What decomposes keeps every endpoint under its own id. -/
theorem keyed (h : Decomposes m₀ op manager outs next) (keyed : Keyed manager) : Keyed next :=
  fun k => ((h.steps k).own (keyed k)).1

/-- Only one endpoint changes. -/
theorem of_insert {id : EndpointId} {e' : Endpoint} (continues : Continues manager next)
    (keyed : Keyed manager) (insert : next.endpoints = manager.endpoints.insert id e')
    (steps : EndpointSteps m₀ op id (manager.endpoints.get? id) outs (some e')) :
    Decomposes m₀ op manager outs next := by
  have hown := (steps.own (keyed id)).2
  refine ⟨continues, fun k => ?_⟩
  rw [insert, OrdMap.get?_insert]
  split
  · rename_i hk
    rw [hk, outputsFor, List.filter_eq_self.mpr fun out hout => decide_eq_true (hown out hout)]
    exact steps
  · rename_i hk
    rw [outputsFor, List.filter_eq_nil_iff.mpr]
    · exact EndpointSteps.refl _
    · intro out hout heq
      exact hk ((of_decide_eq_true heq).symm.trans (hown out hout))

/-- Storing an endpoint under its id is a step of that endpoint alone. -/
theorem of_setEndpoint {id : EndpointId} {e' : Endpoint} (keyed : Keyed manager)
    (steps : EndpointSteps m₀ op id (manager.endpoints.get? id) outs (some e')) :
    Decomposes m₀ op manager outs (manager.setEndpoint id e') :=
  of_insert ⟨rfl, rfl, rfl, rfl, rfl, List.Subset.refl _⟩ keyed rfl steps

/-- A run of turns that each decompose. -/
theorem of_run {ε : Type} {step : ConnectionManager → ε → Option (ConnectionManager × List Output)}
    {es : List ε}
    (turn : ∀ e ∈ es, ∀ mid next outs, Continues manager mid → Keyed mid →
      step mid e = some (next, outs) → Decomposes m₀ op mid outs next)
    (keyed : Keyed manager) (hrun : Run.run step manager es = some (next, outs)) :
    Decomposes m₀ op manager outs next := by
  refine Run.run_induction (C := fun _ _ e => e ∈ es)
    (P := fun _ mid outs => Decomposes m₀ op manager outs mid) (refl manager) ?_
    (fun _ _ _ _ _ _ _ heq _ _ => by simp [heq]) hrun
  intro past e mid before next now _ hmid hmem hstep
  exact hmid.trans (turn e hmem mid next now hmid.continues (hmid.keyed keyed) hstep)

end Decomposes

/-! ### Hellos on the listening socket -/

section Hello

variable {m₀ manager : ConnectionManager} {hello : Hello} {sourceAddress : SocketAddr}
  {interfaceName : String} {openSocket : OpenSocket} {firstAck lastAck : Nat → SendResult}
  {now : Instant} {e : Endpoint}

/-- A hello that is admitted connects, or is heard, and is acknowledged. -/
theorem decomposes_admitHello (continues : Continues m₀ manager) (keyed : Keyed manager)
    (found : manager.endpoints.get? hello.id = some e) (session : e.sessionId = hello.sessionId) :
    Decomposes m₀ (.handleHello (some (.hello hello)) sourceAddress interfaceName openSocket firstAck
        lastAck now) manager
      (manager.admitHello hello sourceAddress interfaceName openSocket firstAck lastAck now).2
      (manager.admitHello hello sourceAddress interfaceName openSocket firstAck lastAck now).1 := by
  have hadmit : ∀ op, op = ManagerOp.handleHello (some (.hello hello)) sourceAddress interfaceName
      openSocket firstAck lastAck now → EndpointSteps m₀ op hello.id (some e)
        ((manager.addAndAcknowledge e sourceAddress interfaceName openSocket firstAck lastAck
          now).2.map .write)
        (some (manager.addAndAcknowledge e sourceAddress interfaceName openSocket firstAck lastAck
          now).1) := by
    intro op hop
    unfold addAndAcknowledge
    split
    · rename_i added hadd
      have hadded : EndpointSteps m₀ op hello.id (some e) [] (some added) := by
        rcases Endpoint.addConnection_eq_ok hadd with touched | ⟨unknown, localAddr, hopened, rfl⟩
        · exact EndpointSteps.single (EndpointStep.touch touched)
        · rw [continues.localAddress] at hopened
          rw [continues.connectionTimeout]
          exact EndpointSteps.single
            (EndpointStep.acceptListening hop rfl session unknown hopened)
      simpa using (hadded.tail (step_acknowledge continues firstAck)).tail
        (step_acknowledge continues lastAck)
    · exact EndpointSteps.single (step_acknowledge continues lastAck)
  simp only [admitHello, found]
  refine Decomposes.of_insert ⟨rfl, rfl, rfl, rfl, rfl, List.Subset.refl _⟩ keyed rfl ?_
  rw [found]
  exact hadmit _ rfl

/-- A fresh endpoint is installed in place of what was there before the operation. -/
theorem decomposes_installFresh (keyed : Keyed m₀)
    (installs : m₀.Installs hello.id hello.sessionId) :
    Decomposes m₀ (.handleHello (some (.hello hello)) sourceAddress interfaceName openSocket firstAck
        lastAck now) m₀ [] (m₀.installFresh hello now) :=
  Decomposes.of_insert ⟨rfl, rfl, rfl, rfl, rfl, List.subset_append_left _ _⟩ keyed rfl
    (EndpointSteps.single (EndpointStep.install rfl rfl installs))

/-- Hellos on the listening socket: installed and admitted, admitted, or refused. -/
theorem decomposes_handleHello (keyed : Keyed m₀) (message : Option Messages) :
    Decomposes m₀ (.handleHello message sourceAddress interfaceName openSocket firstAck lastAck now)
      m₀
      (m₀.handleHello message sourceAddress interfaceName openSocket firstAck lastAck now).2
      (m₀.handleHello message sourceAddress interfaceName openSocket firstAck lastAck now).1 := by
  match message with
  | none | some (.packet _) | some (.helloAck _) => exact Decomposes.refl m₀
  | some (.hello hello) =>
      rcases m₀.handleHello_cases hello sourceAddress interfaceName openSocket firstAck lastAck now with
        ⟨installs, hafter⟩ | ⟨e, found, session, hafter⟩ | ⟨-, -, -, -, hafter⟩
      · have hfresh : Decomposes m₀ (.handleHello (some (.hello hello)) sourceAddress interfaceName
            openSocket firstAck lastAck now) m₀ [] (m₀.installFresh hello now) :=
          decomposes_installFresh keyed installs
        rw [hafter]
        exact hfresh.trans
          (decomposes_admitHello hfresh.continues (hfresh.keyed keyed) (get?_installFresh ..) rfl)
      · rw [hafter]
        exact decomposes_admitHello (Continues.refl m₀) keyed found session
      · rw [hafter]
        exact Decomposes.refl m₀

end Hello

/-! ### Messages on established connections -/

section Established

variable {m₀ next : ConnectionManager} {readInfo : ReadInfo} {openSocket : OpenSocket}
  {ack : Nat → SendResult} {now : Instant} {outs : List Output}

/-- An acknowledgement changes the state and the timer of a connection only. -/
theorem link_acknowledged (readInfo : ReadInfo) (now : Instant) (entry : ConnectionEntry) :
    (acknowledged readInfo now entry).link = entry.link := by
  simp only [acknowledged]
  split_ifs <;> rfl

/-- A message on a connection leads to small steps of the endpoint that is looked up for it. -/
theorem decomposes_handleEstablishedMessage (keyed : Keyed m₀)
    (h : m₀.handleEstablishedMessage readInfo openSocket ack now = some (next, outs)) :
    Decomposes m₀ (.handleEstablishedMessage readInfo openSocket ack now) m₀ outs next := by
  unfold handleEstablishedMessage at h
  split at h
  · rename_i packet decoded
    split at h
    · rename_i e found
      obtain ⟨rfl, rfl⟩ := Prod.mk.inj (Option.some.inj h)
      refine Decomposes.of_setEndpoint keyed ?_
      rw [found]
      have hsort := EndpointStep.sort (Sorts.packet openSocket ack now decoded) found rfl
      have hreceived : receivedPackets (if accepts e.packetSorter packet then [.accepted packet]
          else []) = [] := by split <;> rfl
      rw [receivedPackets_append, receivedPackets_handed, hreceived] at hsort
      exact EndpointSteps.single hsort
    · obtain ⟨rfl, rfl⟩ := Prod.mk.inj (Option.some.inj h)
      exact Decomposes.refl m₀
  · rename_i hello decoded
    split at h
    · rename_i e found
      dsimp only at h
      split at h
      · rename_i added hadd
        obtain ⟨rfl, rfl⟩ := Prod.mk.inj (Option.some.inj h)
        refine Decomposes.of_setEndpoint keyed ?_
        rw [found]
        have hadded : EndpointSteps m₀ (.handleEstablishedMessage readInfo openSocket ack now)
            hello.id (some e) [] (some added) := by
          rcases Endpoint.addConnection_eq_ok hadd with touched | ⟨unknown, localAddr, hopened, rfl⟩
          · exact EndpointSteps.single (EndpointStep.touch
              ⟨touched.id, touched.sessionId, touched.txCounter, touched.packetSorter, touched.links⟩)
          · exact (EndpointSteps.single (EndpointStep.acceptEstablished rfl decoded rfl found unknown
              hopened)).tail (EndpointStep.touch ⟨rfl, rfl, rfl, rfl, rfl⟩)
        simpa using hadded.tail (step_acknowledge (Continues.refl m₀) ack)
      · cases h
    · obtain ⟨rfl, rfl⟩ := Prod.mk.inj (Option.some.inj h)
      exact Decomposes.refl m₀
  · rename_i helloAck decoded
    split at h
    · rename_i e found
      obtain ⟨rfl, rfl⟩ := Prod.mk.inj (Option.some.inj h)
      refine Decomposes.of_insert ⟨rfl, rfl, rfl, rfl, rfl, List.Subset.refl _⟩ keyed rfl ?_
      rw [found]
      refine EndpointSteps.single (EndpointStep.touch ⟨rfl, rfl, rfl, rfl, ?_⟩)
      rw [List.map_map]
      exact List.map_congr_left fun entry _ => link_acknowledged readInfo now entry
    · obtain ⟨rfl, rfl⟩ := Prod.mk.inj (Option.some.inj h)
      exact Decomposes.refl m₀
  · obtain ⟨rfl, rfl⟩ := Prod.mk.inj (Option.some.inj h)
    exact Decomposes.refl m₀

end Established

/-! ### Opening connections -/

section Dialling

variable {m₀ manager next : ConnectionManager} {op : ManagerOp} {info : ConnectionInfo} {dial : Dial}
  {outs : List Output}

theorem Dials.greets {info : ConnectionInfo} {dial : Dial} (h : Dials m₀ op info dial) :
    op.greets = true := by
  cases h <;> rfl

/-- The endpoint that an attempt finds or creates. -/
theorem decomposes_ensureDestination (continues : Continues m₀ manager) (keyed : Keyed manager)
    {localAddr : SocketAddr} (dials : Dials m₀ op info dial) (reaches : dial.Reaches localAddr) :
    Decomposes m₀ op manager [] (manager.ensureDestination info.destinationEndpointId dial).1 ∧
      (manager.ensureDestination info.destinationEndpointId dial).1.endpoints.get?
        info.destinationEndpointId =
      some (manager.ensureDestination info.destinationEndpointId dial).2 := by
  unfold ensureDestination
  split
  · rename_i found
    exact ⟨Decomposes.refl manager, found⟩
  · rename_i absent
    refine ⟨Decomposes.of_setEndpoint keyed ?_, OrdMap.get?_insert_self ..⟩
    rw [absent, continues.packetSorterDeadline]
    exact EndpointSteps.single (EndpointStep.create dials rfl reaches)

/-- An attempt creates its endpoint if it must, greets on its socket and adds the connection, as far as
    it comes. -/
theorem decomposes_tryLink (continues : Continues m₀ manager) (keyed : Keyed manager)
    (dials : Dials m₀ op info dial) (h : manager.tryLink (info, dial) = some (next, outs)) :
    Decomposes m₀ op manager outs next := by
  obtain ⟨result, hopen⟩ := tryLink_eq_some h
  rcases openLink_cases hopen with ⟨-, rfl, rfl, -⟩ | ⟨localAddr, reaches, hgreeted⟩
  · exact Decomposes.refl next
  obtain ⟨hensured, hfound⟩ := decomposes_ensureDestination continues keyed dials reaches
  rcases hgreeted with ⟨error, -, rfl, rfl, -⟩ | ⟨sent, entry, hsend, rfl, rfl, rfl, -⟩
  · -- the greeting could not be sent: only the hello counter moves on
    refine hensured.trans (Decomposes.of_setEndpoint (hensured.keyed keyed) ?_)
    rw [hfound]
    exact EndpointSteps.single (EndpointStep.touch ⟨rfl, rfl, rfl, rfl, rfl⟩)
  · refine hensured.trans (Decomposes.of_setEndpoint (hensured.keyed keyed) ?_)
    rw [hfound, continues.connectionTimeout]
    refine (EndpointSteps.single (EndpointStep.dial dials rfl reaches hsend)).tail ?_
    exact EndpointStep.signalOne ⟨rfl, rfl, rfl, rfl, rfl⟩
      ⟨rfl, rfl, List.mem_append_right _ (List.mem_singleton_self _),
        ⟨dials.greets, continues.ownId, rfl⟩⟩

/-- The loop over the dead links is a run of attempts. -/
theorem decomposes_ensureEndpointConnections {id : EndpointId}
    {connectionInfos : List ConnectionInfo} {dials : Nat → Dial} (keyed : Keyed m₀)
    (h : m₀.ensureEndpointConnections id connectionInfos dials = some (next, outs)) :
    Decomposes m₀ (.ensureEndpointConnections id connectionInfos dials) m₀ outs next := by
  unfold ensureEndpointConnections at h
  split at h
  · rename_i e present
    refine Decomposes.of_run ?_ keyed h
    intro attempt hattempt mid after now continues hkeyed hstep
    obtain ⟨⟨info, index⟩, hmem, rfl⟩ := List.mem_map.mp hattempt
    obtain ⟨listed, dead⟩ := List.mem_filter.mp hmem
    exact decomposes_tryLink continues hkeyed
      (Dials.ensure present listed (by simpa using dead)) hstep
  · obtain ⟨rfl, rfl⟩ := Prod.mk.inj (Option.some.inj h)
    exact Decomposes.refl m₀

/-- The greetings of a keepalive are one step of every endpoint. -/
theorem decomposes_greetAllEndpoints (keyed : Keyed m₀) (sends : EndpointId → Nat → SendResult) :
    Decomposes m₀ (.greetAllEndpoints sends) m₀ (m₀.greetAllEndpoints sends).2
      (m₀.greetAllEndpoints sends).1 := by
  refine ⟨⟨rfl, rfl, rfl, rfl, rfl, List.Subset.refl _⟩, fun k => ?_⟩
  have hown : ∀ id e, (id, e) ∈ m₀.endpoints.entries → outputsFor k
      ((e.greet m₀.ownId m₀.ownStaticRoutes (sends id)).2.map .write) =
      if id = k then (e.greet m₀.ownId m₀.ownStaticRoutes (sends id)).2.map .write else [] := by
    intro id e hmem
    refine outputsFor_writes k fun write hwrite => ?_
    exact (endpointId_of_mem_writes hwrite).trans (keyed id e (OrdMap.get?_eq_some_iff.mpr hmem))
  have houts : outputsFor k (m₀.greetAllEndpoints sends).2 =
      ((m₀.endpoints.get? k).map fun e =>
        outputsFor k ((e.greet m₀.ownId m₀.ownStaticRoutes (sends k)).2.map .write)).getD [] := by
    rw [outputsFor, greetAllEndpoints, List.filter_flatMap]
    refine OrdMap.flatMap_entries fun entry hmem hne => ?_
    exact (hown entry.1 entry.2 hmem).trans (if_neg hne)
  rw [houts, greetAllEndpoints, OrdMap.get?_mapVals]
  cases hfound : m₀.endpoints.get? k with
  | none => exact EndpointSteps.refl none
  | some e =>
      rw [Option.map_some, Option.map_some, Option.getD_some,
        hown k e (OrdMap.get?_eq_some_iff.mp hfound), if_pos rfl]
      exact EndpointSteps.single (step_greet rfl (sends k))

end Dialling

/-! ### Packets from the TUN device -/

/-- A packet is numbered and written once for each endpoint of its route. -/
theorem decomposes_handlePacketFromTun {m₀ next : ConnectionManager} {outs : List Output}
    {sliced : SlicedPacket} {bytes : List UInt8} {sends : EndpointId → Nat → SendResult}
    (keyed : Keyed m₀) (h : m₀.handlePacketFromTun sliced bytes sends = some (next, outs)) :
    Decomposes m₀ (.handlePacketFromTun sliced bytes sends) m₀ outs next := by
  unfold handlePacketFromTun at h
  split at h
  · refine Decomposes.of_run ?_ keyed h
    intro id _ mid after now _ hkeyed hstep
    unfold tunnelTo at hstep
    split at hstep
    · rename_i e found
      obtain ⟨rfl, rfl⟩ := Prod.mk.inj (Option.some.inj hstep)
      refine Decomposes.of_setEndpoint hkeyed ?_
      rw [found]
      exact EndpointSteps.single (EndpointStep.tunnel rfl)
    · cases hstep
  · obtain ⟨rfl, rfl⟩ := Prod.mk.inj (Option.some.inj h)
    exact Decomposes.refl m₀

/-! ### Removing connections -/

section Removing

variable {m₀ manager : ConnectionManager} {op : ManagerOp}

/-- Removing endpoints leaves everything else of the manager alone. -/
theorem continues_foldl_removeEndpoint (ids : List EndpointId) :
    ∀ manager, Continues manager (ids.foldl removeEndpoint manager) := by
  induction ids with
  | nil => exact Continues.refl
  | cons id rest ih =>
      intro manager
      have hfirst : Continues manager (manager.removeEndpoint id) :=
        ⟨rfl, rfl, rfl, rfl, rfl, List.Subset.refl _⟩
      exact hfirst.trans (ih (manager.removeEndpoint id))

/-- The endpoints that are named go, and the others stay as they are. -/
theorem get?_foldl_removeEndpoint (k : EndpointId) (ids : List EndpointId) :
    ∀ manager : ConnectionManager, (ids.foldl removeEndpoint manager).endpoints.get? k =
      if k ∈ ids then none else manager.endpoints.get? k := by
  induction ids with
  | nil => simp
  | cons id rest ih =>
      intro manager
      rw [List.foldl_cons, ih, removeEndpoint, OrdMap.get?_erase]
      by_cases hk : k = id <;> simp [hk]

/-- Just the endpoints with connections stay. -/
theorem get?_removeEmptied (manager : ConnectionManager) (k : EndpointId) :
    manager.removeEmptied.endpoints.get? k =
      (manager.endpoints.get? k).filter Endpoint.hasConnections := by
  rw [removeEmptied, get?_foldl_removeEndpoint]
  cases hfound : manager.endpoints.get? k with
  | none => simp
  | some e =>
      have hmem := OrdMap.get?_eq_some_iff.mp hfound
      cases hconnected : e.hasConnections with
      | true =>
          rw [if_neg, Option.filter_some, if_pos hconnected]
          intro hlisted
          obtain ⟨⟨id, other⟩, hother, heq⟩ := List.mem_map.mp hlisted
          obtain ⟨hother, hempty⟩ := List.mem_filter.mp hother
          obtain rfl : id = k := heq
          rw [OrdMap.eq_of_mem_entries hother hmem, hconnected] at hempty
          cases hempty
      | false =>
          rw [if_pos, Option.filter_some, if_neg (by simp [hconnected])]
          exact List.mem_map.mpr ⟨(k, e), List.mem_filter.mpr ⟨hmem, by simp [hconnected]⟩, rfl⟩

/-- A connection is dropped, and every endpoint that is without connections then goes. -/
theorem decomposes_removeConnection (keyed : Keyed manager) (removes : op.removes = true)
    (id : EndpointId) (interfaceName : String) (address : SocketAddr) :
    Decomposes m₀ op manager [] (manager.removeConnection id interfaceName address) := by
  have hdrop : Decomposes m₀ op manager [] (manager.dropConnection id interfaceName address) := by
    unfold dropConnection
    split
    · rename_i e found
      refine Decomposes.of_setEndpoint keyed ?_
      rw [found]
      exact EndpointSteps.single (EndpointStep.drop removes _)
    · exact Decomposes.refl manager
  refine hdrop.trans ⟨continues_foldl_removeEndpoint _ _, fun k => ?_⟩
  rw [removeConnection, get?_removeEmptied]
  cases (manager.dropConnection id interfaceName address).endpoints.get? k with
  | none => exact EndpointSteps.refl none
  | some e =>
      cases hconnected : e.hasConnections with
      | true =>
          rw [Option.filter_some, if_pos hconnected]
          exact EndpointSteps.refl (some e)
      | false =>
          have hempty : e.connections = [] := by simpa [Endpoint.hasConnections] using hconnected
          rw [Option.filter_some, if_neg (by simp [hconnected])]
          exact EndpointSteps.single (EndpointStep.remove removes hempty)

/-- The clean-up is a run of removals. -/
theorem decomposes_removeDisconnected (keyed : Keyed m₀) (removes : op.removes = true) :
    Decomposes m₀ op m₀ [] m₀.removeDisconnected :=
  List.foldlRecOn _ _ (Decomposes.refl m₀) fun _ hmid _ _ =>
    hmid.trans (decomposes_removeConnection (hmid.keyed keyed) removes _ _ _)

end Removing

/-! ### Commands, deadlines and reads -/

section Waiting

variable {m₀ next : ConnectionManager} {now : Instant} {id : EndpointId} {outs : List Output}

/-- A command switches the connections of every endpoint. -/
theorem decomposes_handleSelectiveDuplicationCommand
    (duplicationCommand : Option DuplicationCommands) :
    Decomposes m₀ (.handleSelectiveDuplicationCommand duplicationCommand) m₀ []
      (m₀.handleSelectiveDuplicationCommand duplicationCommand) := by
  unfold handleSelectiveDuplicationCommand
  split
  · refine ⟨⟨rfl, rfl, rfl, rfl, rfl, List.Subset.refl _⟩, fun k => ?_⟩
    rw [OrdMap.get?_mapVals]
    cases m₀.endpoints.get? k with
    | none => exact EndpointSteps.refl none
    | some e => exact EndpointSteps.single (EndpointStep.switch rfl)
  · exact Decomposes.refl m₀

/-- A deadline advances the sorter of one endpoint. -/
theorem decomposes_handlePacketSorterDeadline (keyed : Keyed m₀) (id : EndpointId) (now : Instant) :
    Decomposes m₀ (.handlePacketSorterDeadline id now) m₀ []
      (m₀.handlePacketSorterDeadline id now) := by
  unfold handlePacketSorterDeadline
  split
  · rename_i e found
    refine Decomposes.of_setEndpoint keyed ?_
    have hsort := EndpointStep.sort (Sorts.deadline id now) found rfl
    rw [receivedPackets_handed] at hsort
    rw [found]
    exact EndpointSteps.single hsort
  · exact Decomposes.refl m₀

/-- A timer of a connection that fires is stopped. -/
theorem decomposes_awaitTimeout {index : Nat} (keyed : Keyed m₀)
    (h : ManagerOp.apply m₀ (.awaitTimeout id index now) = some (next, outs)) :
    Decomposes m₀ (.awaitTimeout id index now) m₀ outs next := by
  obtain ⟨rfl, e, entry, found, hentry, rfl⟩ := apply_awaitTimeout h
  refine Decomposes.of_setEndpoint keyed ?_
  rw [found]
  exact EndpointSteps.single
    (EndpointStep.touch ⟨rfl, rfl, rfl, rfl, map_set_of_same hentry rfl⟩)

theorem decomposes_awaitPacketSorters (keyed : Keyed m₀)
    (h : ManagerOp.apply m₀ (.awaitPacketSorters id now) = some (next, outs)) :
    Decomposes m₀ (.awaitPacketSorters id now) m₀ outs next := by
  obtain ⟨rfl, e, found, rfl⟩ := apply_awaitPacketSorters h
  refine Decomposes.of_setEndpoint keyed ?_
  rw [found]
  exact EndpointSteps.single (EndpointStep.fire rfl)

theorem decomposes_awaitEndpointSortedPackets (keyed : Keyed m₀)
    (h : ManagerOp.apply m₀ (.awaitEndpointSortedPackets id) = some (next, outs)) :
    Decomposes m₀ (.awaitEndpointSortedPackets id) m₀ outs next := by
  obtain ⟨e, sorter, packet, found, hread, rfl, rfl⟩ := apply_awaitEndpointSortedPackets h
  refine Decomposes.of_setEndpoint keyed ?_
  rw [found]
  have hstep : sorterStep e.packetSorter .awaitHaveNextPacket = some (sorter, [.received packet]) := by
    rw [sorterStep, hread]
  exact EndpointSteps.single (EndpointStep.sort (Sorts.read id) found hstep)

end Waiting

/-! ### Assembly -/

/-- Every operation is a sequence of small steps on each endpoint. -/
theorem decomposes_of_apply {manager next : ConnectionManager} {op : ManagerOp} {outs : List Output}
    (keyed : Keyed manager) (h : ManagerOp.apply manager op = some (next, outs)) :
    Decomposes manager op manager outs next := by
  cases op with
  | handleHello =>
      obtain ⟨rfl, rfl⟩ := Prod.mk.inj (Option.some.inj h)
      exact decomposes_handleHello keyed _
  | handleEstablishedMessage => exact decomposes_handleEstablishedMessage keyed h
  | createNewConnection info dial =>
      exact decomposes_tryLink (Continues.refl manager) keyed (Dials.create info dial) h
  | handlePacketFromTun => exact decomposes_handlePacketFromTun keyed h
  | removeConnection =>
      obtain ⟨rfl, rfl⟩ := Prod.mk.inj (Option.some.inj h)
      exact decomposes_removeConnection keyed rfl _ _ _
  | removeDisconnected =>
      obtain ⟨rfl, rfl⟩ := Prod.mk.inj (Option.some.inj h)
      exact decomposes_removeDisconnected keyed rfl
  | greetAllEndpoints =>
      obtain ⟨rfl, rfl⟩ := Prod.mk.inj (Option.some.inj h)
      exact decomposes_greetAllEndpoints keyed _
  | ensureEndpointConnections => exact decomposes_ensureEndpointConnections keyed h
  | handleSelectiveDuplicationCommand =>
      obtain ⟨rfl, rfl⟩ := Prod.mk.inj (Option.some.inj h)
      exact decomposes_handleSelectiveDuplicationCommand _
  | handlePacketSorterDeadline =>
      obtain ⟨rfl, rfl⟩ := Prod.mk.inj (Option.some.inj h)
      exact decomposes_handlePacketSorterDeadline keyed _ _
  | awaitTimeout => exact decomposes_awaitTimeout keyed h
  | awaitPacketSorters => exact decomposes_awaitPacketSorters keyed h
  | awaitEndpointSortedPackets => exact decomposes_awaitEndpointSortedPackets keyed h

/-- Every operation keeps the endpoints under their own ids. -/
theorem keyed_of_apply {manager next : ConnectionManager} {op : ManagerOp} {outs : List Output}
    (keyed : Keyed manager) (h : ManagerOp.apply manager op = some (next, outs)) : Keyed next :=
  (decomposes_of_apply keyed h).keyed keyed

theorem keyed_run {manager next : ConnectionManager} {ops : List ManagerOp} {outs : List Output}
    (keyed : Keyed manager) (h : Run.run ManagerOp.apply manager ops = some (next, outs)) :
    Keyed next :=
  Run.run_invariant (fun _ _ _ _ hkeyed hstep => keyed_of_apply hkeyed hstep) keyed h

theorem keyed_new (localAddress : SocketAddr) (ownId : EndpointId)
    (ownStaticRoutes : Option (List Route)) (connectionTimeout packetSorterDeadline : UInt64) :
    Keyed (ConnectionManager.new localAddress ownId ownStaticRoutes connectionTimeout
      packetSorterDeadline) := by
  intro k e h
  cases h

/-! ### Endpoints that stay -/

section Staying

variable {m₀ : ConnectionManager} {op : ManagerOp} {k : EndpointId} {e e' : Endpoint}

/-- A small step keeps the session of an endpoint unless it overwrites the endpoint. -/
theorem EndpointStep.sessionId_eq {o next : Option Endpoint} {outs : List Output}
    (step : EndpointStep m₀ op k o outs next) (ho : o = some e) (hnext : next = some e') :
    e'.sessionId = e.sessionId ∨
      m₀.endpoints.get? k = some e ∧ e.sessionId ≠ e'.sessionId := by
  cases step with
  | install _ _ installs =>
      obtain rfl := Option.some.inj hnext
      exact Or.inr ⟨ho, (installs e ho).1⟩
  | create => cases ho
  | remove => cases hnext
  | signal touched =>
      obtain rfl := Option.some.inj ho
      obtain rfl := Option.some.inj hnext
      exact Or.inl touched.sessionId
  | switch =>
      obtain rfl := Option.some.inj ho
      obtain rfl := Option.some.inj hnext
      left
      split <;> rfl
  | acceptListening | acceptEstablished | dial | tunnel | sort | fire | drop =>
      obtain rfl := Option.some.inj ho
      obtain rfl := Option.some.inj hnext
      exact Or.inl rfl

/-- An operation after which an endpoint is there under its old session neither removed nor overwrote
    it on the way: what the small steps under that session preserve holds of it. -/
theorem EndpointSteps.kept {outs : List Output} {Q : Endpoint → List Output → Prop}
    (steps : EndpointSteps m₀ op k (m₀.endpoints.get? k) outs (some e'))
    (found : m₀.endpoints.get? k = some e) (session : e'.sessionId = e.sessionId) (base : Q e [])
    (succ : ∀ o next mid after before more, o = some mid → next = some after → Q mid before →
      EndpointStep m₀ op k o more next → after.sessionId = mid.sessionId → Q after (before ++ more)) :
    Q e' outs := by
  have hkept := steps.invariant (P := fun o before =>
    (∃ mid, o = some mid ∧ mid.sessionId = e.sessionId ∧ Q mid before) ∨
      (o = none ∧ op.removes = true) ∨ ∃ mid, o = some mid ∧ mid.sessionId ≠ e.sessionId) ?_
    (Or.inl ⟨e, found, rfl, base⟩)
  · rcases hkept with ⟨mid, hmid, -, hQ⟩ | ⟨hnone, -⟩ | ⟨mid, hmid, hother⟩
    · obtain rfl := Option.some.inj hmid
      exact hQ
    · cases hnone
    · obtain rfl := Option.some.inj hmid
      exact absurd session hother
  intro o before more next hmid step
  cases hnext : next with
  | none =>
      cases step with
      | remove removes => exact Or.inr (Or.inl ⟨rfl, removes⟩)
      | _ => cases hnext
  | some after =>
      by_cases hafter : after.sessionId = e.sessionId
      · rcases hmid with ⟨mid, ho, hsame, hQ⟩ | ⟨ho, removes⟩ | ⟨mid, ho, hother⟩
        · exact Or.inl ⟨after, rfl, hafter,
            succ o next mid after before more ho hnext hQ step (hafter.trans hsame.symm)⟩
        · -- an operation that removes creates nothing
          cases step with
          | create dials => cases dials <;> cases removes
          | install =>
              rw [found] at ho
              cases ho
          | signal | acceptListening | acceptEstablished | dial | switch | tunnel | sort | fire
          | drop => cases ho
          | remove => cases hnext
        · rcases step.sessionId_eq ho hnext with hsame | ⟨hold, -⟩
          · exact absurd (hsame.symm.trans hafter) hother
          · obtain rfl := Option.some.inj (found.symm.trans hold)
            exact absurd rfl hother
      · exact Or.inr (Or.inr ⟨after, rfl, hafter⟩)

end Staying

end MultiConnect
