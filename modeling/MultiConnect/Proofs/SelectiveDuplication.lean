/-
Module: MultiConnect.Proofs.SelectiveDuplication
Layer: Proofs
Purpose: Selective duplication over runs of the client. A command switches the connections that exist,
  and a connection is opened enabled, so the interface that a command disabled stays silent for as long
  as no connection is opened on it again. `Muted` is the invariant: every connection of a disabled
  interface carries a lowered flag. What the client never does is part of it too: it opens connections
  to its server only, and a hello on one of them never adds another.
Trusted boundary: serde_json decodes the commands
Main exports: lastCommand, Reopens, OpensOnEnabled, HonoursCommands, Muted, commands_honoured
-/
import MultiConnect.Proofs.EventLoopWaits

namespace MultiConnect

open ConnectionManager

/-! ### Commands -/

/-- What an event asks of an interface. -/
def commandFor (interfaceName : String) : ClientEvent → Option Bool
  | .loop (.duplicationMessage (some (.interfaceState state))) =>
      if state.interfaceName = interfaceName then some state.enabled else none
  | _ => none

/-- What the most recent command for an interface asked for. -/
def lastCommand (interfaceName : String) (past : List ClientEvent) : Option Bool :=
  (past.filterMap (commandFor interfaceName)).getLast?

theorem lastCommand_concat (interfaceName : String) (past : List ClientEvent) (event : ClientEvent) :
    lastCommand interfaceName (past ++ [event]) =
      (commandFor interfaceName event).or (lastCommand interfaceName past) := by
  rw [lastCommand, List.filterMap_append, List.getLast?_append, lastCommand]
  cases hcommand : commandFor interfaceName event <;> simp [hcommand]

/-- The interface was disabled and not enabled since. -/
def DisabledAfter (past : List ClientEvent) (interfaceName : String) : Prop :=
  lastCommand interfaceName past = some false

instance (past : List ClientEvent) (interfaceName : String) :
    Decidable (DisabledAfter past interfaceName) :=
  inferInstanceAs (Decidable (lastCommand interfaceName past = some false))

/-- The links that an iteration opens a connection for, with the attempts that open them. -/
inductive Reopens (settings : ClientSettings) (manager : ConnectionManager) :
    ClientEvent → ConnectionInfo → Dial → Prop
  | sendKeepalive {sends : EndpointId → Nat → SendResult} {dials : Nat → Dial} {info : ConnectionInfo}
      {index : Nat} {e : Endpoint} (present : manager.endpoints.get? settings.serverId = some e)
      (listed : (info, index) ∈ settings.connectionInfo.zipIdx)
      (dead : (info.interfaceName, info.destinationAddress) ∉ e.getAliveConnections)
      (opens : (dials index).Opens) :
      Reopens settings manager (.sendKeepalive sends dials) info (dials index)
  | restart {dials : Nat → Dial} {info : ConnectionInfo} {index : Nat}
      (listed : (info, index) ∈ settings.connectionInfo.zipIdx) (opens : (dials index).Opens) :
      Reopens settings manager (.restart dials) info (dials index)

/-- The iteration opens no connection on a disabled interface. -/
def OpensOnEnabled (settings : ClientSettings) (past : List ClientEvent)
    (manager : ConnectionManager) (event : ClientEvent) : Prop :=
  ∀ info dial, Reopens settings manager event info dial → ¬ DisabledAfter past info.interfaceName

/-- Among the outputs no packet is written on an interface of a set. -/
def SilentOn (disabled : String → Prop) (outs : List Output) : Prop :=
  ∀ write packet, .write write ∈ outs → write.message = .packet packet →
    ¬ disabled write.entry.interfaceName

/-- The iteration writes no packet on a disabled interface. -/
def HonoursCommands (settings : ClientSettings) (past : List ClientEvent)
    (manager : ConnectionManager) (event : ClientEvent) : Prop :=
  ∀ next outs, clientStep settings manager event = some (next, outs) →
    SilentOn (DisabledAfter past) outs

/-! ### The invariant -/

/-- The connection knows the interface and the address that it is stored under. -/
structure ConnectionEntry.Own (entry : ConnectionEntry) : Prop where
  interfaceName : entry.connection.getInterfaceName = entry.interfaceName
  interfaceAddress : entry.connection.peerAddr = entry.interfaceAddress

/-- The connections of an endpoint know where they belong, and those of a disabled interface are
    switched off. -/
def Quiet (disabled : String → Prop) (e : Endpoint) : Prop :=
  ∀ entry ∈ e.connections,
    entry.Own ∧ (disabled entry.interfaceName → entry.connection.enabled = false)

/-- The only endpoint is the server, and it is quiet. -/
def Muted (settings : ClientSettings) (disabled : String → Prop) (manager : ConnectionManager) :
    Prop :=
  ∀ k e, manager.endpoints.get? k = some e → k = settings.serverId ∧ Quiet disabled e

theorem own_outgoingEntry (interfaceName : String) (destinationAddress localAddr : SocketAddr)
    (connectionTimeout : UInt64) (now : Instant) :
    (outgoingEntry interfaceName destinationAddress localAddr connectionTimeout now).Own :=
  ⟨rfl, rfl⟩

theorem own_of_link {entry entry' : ConnectionEntry} (h : entry.link = entry'.link)
    (own : entry.Own) : entry'.Own := by
  obtain ⟨hname, haddress, -, hbound, hpeer, -⟩ := Link.mk.inj h
  exact ⟨by rw [← hname, ← own.interfaceName, Connection.getInterfaceName,
    Connection.getInterfaceName, hbound], by rw [← haddress, ← own.interfaceAddress, hpeer]⟩

section Quiet

variable {disabled : String → Prop} {e e' : Endpoint}

theorem quiet_of_touched (touched : Touched e e') (quiet : Quiet disabled e) : Quiet disabled e' := by
  intro entry hentry
  obtain ⟨old, hold, hlink⟩ := touched.exists_entry hentry
  obtain ⟨own, hflag⟩ := quiet old hold
  refine ⟨own_of_link hlink own, ?_⟩
  obtain ⟨hname, -, -, -, -, henabled⟩ := Link.mk.inj hlink
  rw [← hname, ← henabled]
  exact hflag

/-- A new connection of this side is enabled, so its interface must not be disabled. -/
theorem quiet_append (quiet : Quiet disabled e) (interfaceName : String)
    (destinationAddress localAddr : SocketAddr) (connectionTimeout : UInt64) (now : Instant)
    (enabled : ¬ disabled interfaceName) :
    Quiet disabled { e with connections := e.connections ++
      [outgoingEntry interfaceName destinationAddress localAddr connectionTimeout now] } := by
  intro entry hentry
  rcases List.mem_append.mp hentry with hold | hnew
  · exact quiet entry hold
  · obtain rfl := List.mem_singleton.mp hnew
    exact ⟨own_outgoingEntry _ _ _ _ _, fun hdisabled => absurd hdisabled enabled⟩

/-- A command for an interface decides its flags, and leaves the others alone. -/
theorem quiet_switch (quiet : Quiet disabled e) (state : InterfaceState) :
    Quiet (fun name => if state.interfaceName = name then state.enabled = false else disabled name)
      (if state.enabled then e.enableInterface state.interfaceName
        else e.disableInterface state.interfaceName) := by
  have hset : ∀ (switch : Connection → Connection), (∀ connection,
      (switch connection).getInterfaceName = connection.getInterfaceName ∧
      (switch connection).peerAddr = connection.peerAddr ∧
      (state.enabled = false → (switch connection).enabled = false)) →
      Quiet (fun name => if state.interfaceName = name then state.enabled = false else disabled name)
        (e.setInterface switch state.interfaceName) := by
    intro switch hswitch entry hentry
    obtain ⟨old, hold, rfl⟩ := List.mem_map.mp hentry
    obtain ⟨own, hflag⟩ := quiet old hold
    obtain ⟨hname, hpeer, henabled⟩ := hswitch old.connection
    split
    · exact ⟨⟨hname.trans own.interfaceName, hpeer.trans own.interfaceAddress⟩,
        fun h => henabled (by simpa [*] using h)⟩
    · rename_i hother
      exact ⟨own, fun h => hflag (by simpa [Ne.symm hother] using h)⟩
  split
  · rename_i henabled
    exact hset _ fun connection => ⟨rfl, rfl, fun hfalse => absurd henabled (by simp [hfalse])⟩
  · exact hset _ fun connection => ⟨rfl, rfl, fun _ => rfl⟩

/-- A quiet endpoint writes packets on enabled interfaces only. -/
theorem silentOn_tunnel (quiet : Quiet disabled e) (bytes : List UInt8) (sends : Nat → SendResult) :
    SilentOn disabled ((e.tunnel bytes sends).2.map .write) := by
  intro write packet hwrite _ hdisabled
  obtain ⟨write', hmem, heq⟩ := List.mem_map.mp hwrite
  obtain rfl := Output.write.inj heq
  obtain ⟨entry, hentry, henabled, rfl⟩ := Endpoint.mem_writes.mp hmem
  have hflag := (quiet entry hentry).2 hdisabled
  rw [Connection.isEnabled, hflag] at henabled
  cases henabled

end Quiet

theorem silentOn_append {disabled : String → Prop} {outs outs' : List Output}
    (h : SilentOn disabled outs) (h' : SilentOn disabled outs') : SilentOn disabled (outs ++ outs') :=
  fun write packet hmem hpacket => (List.mem_append.mp hmem).elim
    (fun hmem => h write packet hmem hpacket) fun hmem => h' write packet hmem hpacket

theorem silentOn_nil (disabled : String → Prop) : SilentOn disabled [] :=
  fun _ _ hmem => absurd hmem (List.not_mem_nil)

/-! ### Operations of the client -/

/-- The command that an operation carries out. -/
def ManagerOp.command : ManagerOp → Option InterfaceState
  | .handleSelectiveDuplicationCommand (some (.interfaceState state)) => some state
  | _ => none

/-- The datagram of an established connection that an operation handles. -/
def ManagerOp.reading : ManagerOp → Option ReadInfo
  | .handleEstablishedMessage readInfo .. => some readInfo
  | _ => none

/-- An operation that the client performs, other than a command: it never listens, it reads from its
    own connections, and it opens connections to the server only, on interfaces that are enabled. -/
structure ClientOp (settings : ClientSettings) (disabled : String → Prop)
    (manager : ConnectionManager) (op : ManagerOp) : Prop where
  listens : op.listeningHello = none
  commands : op.command = none
  reads : ∀ readInfo, op.reading = some readInfo →
    ∃ id index packetBytes, manager.awaitIncoming id index packetBytes = some readInfo
  dials : ∀ info dial, Dials manager op info dial →
    info.destinationEndpointId = settings.serverId ∧ (dial.Opens → ¬ disabled info.interfaceName)

/-- The step lemma: an operation of the client keeps its endpoints quiet and is silent. -/
theorem muted_of_apply {settings : ClientSettings} {disabled : String → Prop}
    {manager next : ConnectionManager} {op : ManagerOp} {outs : List Output} (keyed : Keyed manager)
    (muted : Muted settings disabled manager) (clientOp : ClientOp settings disabled manager op)
    (h : ManagerOp.apply manager op = some (next, outs)) :
    Muted settings disabled next ∧ SilentOn disabled outs := by
  have hk : ∀ k, (∀ e, next.endpoints.get? k = some e → k = settings.serverId ∧ Quiet disabled e) ∧
      SilentOn disabled (outputsFor k outs) := by
    intro k
    refine ((decomposes_of_apply keyed h).steps k).invariant (P := fun o before =>
      (∀ e, o = some e → k = settings.serverId ∧ Quiet disabled e) ∧ SilentOn disabled before) ?_
      ⟨muted k, silentOn_nil _⟩
    rintro mid before more after ⟨hmid, hsilent⟩ step
    suffices hstep : (∀ e, after = some e → k = settings.serverId ∧ Quiet disabled e) ∧
        SilentOn disabled more from ⟨hstep.1, silentOn_append hsilent hstep.2⟩
    cases step with
    | install hop => exact absurd (clientOp.listens) (by simp [hop, ManagerOp.listeningHello])
    | acceptListening hop =>
        exact absurd (clientOp.listens) (by simp [hop, ManagerOp.listeningHello])
    | switch hop => exact absurd (clientOp.commands) (by simp [hop, ManagerOp.command])
    | acceptEstablished hop decoded key found unknown =>
        obtain ⟨id, index, packetBytes, hread⟩ := clientOp.reads _ (congrArg ManagerOp.reading hop)
        obtain ⟨e, entry, hfound, hentry, rfl⟩ := awaitIncoming_eq_some hread
        obtain ⟨hid, quiet⟩ := muted id e hfound
        obtain ⟨hkey, -⟩ := muted k _ found
        rw [hid, ← hkey, found] at hfound
        obtain rfl := Option.some.inj hfound
        have hmem := List.mem_of_getElem? hentry
        have own := (quiet entry hmem).1
        exact absurd (unknown entry hmem)
          (by simp [ConnectionEntry.isFor, own.interfaceName, own.interfaceAddress])
    | signal touched sent =>
        refine ⟨fun e he => ?_, fun write packet hwrite hpacket => ?_⟩
        · obtain rfl := Option.some.inj he
          exact ⟨(hmid _ rfl).1, quiet_of_touched touched (hmid _ rfl).2⟩
        · obtain ⟨write', hmem, heq⟩ := List.mem_map.mp hwrite
          obtain rfl := Output.write.inj heq
          have hsignal := (sent write' hmem).message
          rw [hpacket] at hsignal
          exact hsignal.elim
    | create dials key =>
        refine ⟨fun e he => ?_, silentOn_nil _⟩
        obtain rfl := Option.some.inj he
        exact ⟨key.symm.trans (clientOp.dials _ _ dials).1, List.forall_mem_nil _⟩
    | dial dials key reaches greeted =>
        refine ⟨fun e he => ?_, silentOn_nil _⟩
        obtain rfl := Option.some.inj he
        exact ⟨(hmid _ rfl).1, quiet_append (hmid _ rfl).2 _ _ _ _ _
          ((clientOp.dials _ _ dials).2 ⟨⟨_, reaches⟩, _, greeted⟩)⟩
    | tunnel =>
        refine ⟨fun e he => ?_, silentOn_tunnel (hmid _ rfl).2 _ _⟩
        obtain rfl := Option.some.inj he
        exact ⟨(hmid _ rfl).1, quiet_of_touched (Endpoint.touched_tunnel ..) (hmid _ rfl).2⟩
    | sort =>
        refine ⟨fun e he => ?_, fun write packet hwrite => ?_⟩
        · obtain rfl := Option.some.inj he
          exact ⟨(hmid _ rfl).1, (hmid _ rfl).2⟩
        · simp at hwrite
    | fire =>
        refine ⟨fun e he => ?_, silentOn_nil _⟩
        obtain rfl := Option.some.inj he
        exact ⟨(hmid _ rfl).1, (hmid _ rfl).2⟩
    | drop =>
        refine ⟨fun e he => ?_, silentOn_nil _⟩
        obtain rfl := Option.some.inj he
        exact ⟨(hmid _ rfl).1, fun entry hentry =>
          (hmid _ rfl).2 entry (List.mem_of_mem_eraseP hentry)⟩
    | remove => exact ⟨by simp, silentOn_nil _⟩
  refine ⟨fun k => (hk k).1, fun write packet hwrite => (hk write.endpointId).2 write packet ?_⟩
  exact List.mem_filter.mpr ⟨hwrite, decide_eq_true rfl⟩

/-- Operations that are the client's in every state can be run one after the other. -/
theorem muted_of_run {settings : ClientSettings} {disabled : String → Prop}
    {manager next : ConnectionManager} {ops : List ManagerOp} {outs : List Output}
    (keyed : Keyed manager) (muted : Muted settings disabled manager)
    (clientOps : ∀ op ∈ ops, ∀ manager, ClientOp settings disabled manager op)
    (h : Run.run ManagerOp.apply manager ops = some (next, outs)) :
    Muted settings disabled next ∧ SilentOn disabled outs := by
  refine (Run.run_induction
    (C := fun _ _ op => ∀ manager, ClientOp settings disabled manager op)
    (P := fun _ mid outs => Keyed mid ∧ Muted settings disabled mid ∧ SilentOn disabled outs)
    ⟨keyed, muted, silentOn_nil _⟩ ?_ ?_ h).2
  · intro _ op mid _ after now _ ⟨hkeyed, hmuted, hsilent⟩ hop hstep
    obtain ⟨hafter, hnow⟩ := muted_of_apply hkeyed hmuted (hop mid) hstep
    exact ⟨keyed_of_apply hkeyed hstep, hafter, silentOn_append hsilent hnow⟩
  · intro _ op _ _ _ _ _ heq _ _
    exact clientOps op (by simp [heq])

/-- An operation that neither greets nor listens opens no connection. -/
theorem clientOp_of_plain {settings : ClientSettings} {disabled : String → Prop}
    {manager : ConnectionManager} {op : ManagerOp} (plain : op.Plain)
    (commands : op.command = none)
    (reads : ∀ readInfo, op.reading = some readInfo →
      ∃ id index packetBytes, manager.awaitIncoming id index packetBytes = some readInfo) :
    ClientOp settings disabled manager op :=
  ⟨plain.2, commands, reads, fun _ _ dials => absurd dials.greets (by simp [plain.1])⟩

/-- So does one that also reads nothing. -/
theorem clientOp_of_unread {settings : ClientSettings} {disabled : String → Prop}
    {manager : ConnectionManager} {op : ManagerOp} (plain : op.Plain)
    (commands : op.command = none) (reading : op.reading = none) :
    ClientOp settings disabled manager op :=
  clientOp_of_plain plain commands (by simp [reading])

theorem clientOp_removeDisconnected (settings : ClientSettings) (disabled : String → Prop)
    (manager : ConnectionManager) : ClientOp settings disabled manager .removeDisconnected :=
  clientOp_of_unread plain_removeDisconnected rfl rfl

/-! ### Iterations of the client -/

section Iteration

variable {settings : ClientSettings} {disabled : String → Prop} {manager next : ConnectionManager}
  {outs : List Output}

theorem Muted.mono {disabled' : String → Prop} (h : ∀ name, disabled' name → disabled name)
    (muted : Muted settings disabled manager) : Muted settings disabled' manager :=
  fun k e he => ⟨(muted k e he).1, fun entry hentry =>
    ⟨((muted k e he).2 entry hentry).1, fun hdisabled =>
      ((muted k e he).2 entry hentry).2 (h _ hdisabled)⟩⟩

/-- After a command, its interface is as it says. -/
theorem muted_command (muted : Muted settings disabled manager) (state : InterfaceState) :
    Muted settings (fun name =>
        if state.interfaceName = name then state.enabled = false else disabled name)
      (manager.handleSelectiveDuplicationCommand (some (.interfaceState state))) := by
  intro k e he
  simp only [handleSelectiveDuplicationCommand, OrdMap.get?_mapVals] at he
  obtain ⟨old, hold, rfl⟩ := Option.map_eq_some_iff.mp he
  exact ⟨(muted k old hold).1, quiet_switch (muted k old hold).2 state⟩

/-- An event of both loops that is no command. -/
theorem muted_loopEvent {event : LoopEvent} {ops : List ManagerOp} (keyed : Keyed manager)
    (muted : Muted settings disabled manager) (hops : event.ops manager = some ops)
    (command : ∀ state, event ≠ .duplicationMessage (some (.interfaceState state)))
    (h : Run.run ManagerOp.apply manager ops = some (next, outs)) :
    Muted settings disabled next ∧ SilentOn disabled outs := by
  have hplain := plain_of_loopEvent hops
  cases event with
  | newEstablishedMessage id index packetBytes =>
      obtain ⟨readInfo, hread, rfl⟩ := Option.map_eq_some_iff.mp hops
      rw [Run.run_singleton] at h
      refine muted_of_apply keyed muted (clientOp_of_plain (hplain _ (by simp)) rfl ?_) h
      intro readInfo' heq
      obtain rfl := Option.some.inj heq
      exact ⟨id, index, packetBytes, hread⟩
  | connectionTimeout | packetSorter =>
      obtain ⟨awaited, -, rfl⟩ := Option.map_eq_some_iff.mp hops
      refine muted_of_run keyed muted (fun op hop manager => ?_) h
      have hop' := hplain op hop
      rcases List.mem_pair.mp hop with rfl | rfl <;>
        exact clientOp_of_unread hop' rfl rfl
  | newSortedPacket id tunSent =>
      cases tunSent with
      | error => cases hops
      | ok =>
          obtain rfl := Option.some.inj hops
          rw [Run.run_singleton] at h
          exact muted_of_apply keyed muted (clientOp_of_unread (hplain _ (by simp)) rfl rfl) h
  | duplicationMessage duplicationCommand =>
      match duplicationCommand with
      | some (.interfaceState state) => exact absurd rfl (command state)
      | none =>
          obtain rfl := Option.some.inj hops
          rw [Run.run_singleton] at h
          exact muted_of_apply keyed muted (clientOp_of_unread (hplain _ (by simp)) rfl rfl) h
  | tunnelPacket =>
      obtain rfl := Option.some.inj hops
      rw [Run.run_singleton] at h
      exact muted_of_apply keyed muted (clientOp_of_unread (hplain _ (by simp)) rfl rfl) h
  | establishedError | tunnelError =>
      obtain rfl := Option.some.inj hops
      obtain ⟨rfl, rfl⟩ := Prod.mk.inj (Option.some.inj h)
      exact ⟨muted, silentOn_nil _⟩

/-- Greeting leaves the list of connections as it is. -/
theorem getAliveConnections_of_touched {e e' : Endpoint} (touched : Touched e e') :
    e'.getAliveConnections = e.getAliveConnections := by
  have hview : ∀ e : Endpoint, e.getAliveConnections =
      (e.connections.map ConnectionEntry.link).map
        fun link => (link.interfaceName, link.interfaceAddress) := fun e => by
    rw [List.map_map]
    rfl
  rw [hview, hview, touched.links]

/-- The configured links all lead to the server. -/
theorem destination_of_listed {info : ConnectionInfo} {index : Nat}
    (listed : (info, index) ∈ settings.connectionInfo.zipIdx) :
    info.destinationEndpointId = settings.serverId := by
  obtain ⟨interface, -, rfl⟩ := List.mem_map.mp (List.fst_mem_of_mem_zipIdx listed)
  rfl

/-- The greetings before it leave the attempts of a keepalive as they were. -/
theorem reopens_of_greeted {sends : EndpointId → Nat → SendResult} {dials : Nat → Dial}
    {greeted : ConnectionManager} {info : ConnectionInfo} {dial : Dial}
    (greets : ManagerOp.apply manager (.greetAllEndpoints sends) = some (greeted, outs))
    (attempts : Dials greeted (.ensureEndpointConnections settings.serverId settings.connectionInfo
      dials) info dial) (opens : dial.Opens) :
    Reopens settings manager (.sendKeepalive sends dials) info dial := by
  cases attempts with
  | ensure present listed dead =>
      obtain rfl : _ = greeted := congrArg Prod.fst (Option.some.inj greets)
      simp only [greetAllEndpoints, OrdMap.get?_mapVals] at present
      obtain ⟨old, hold, rfl⟩ := Option.map_eq_some_iff.mp present
      rw [getAliveConnections_of_touched (Endpoint.touched_greet ..)] at dead
      exact Reopens.sendKeepalive hold listed dead opens

/-- A keepalive attempts links to the server only. -/
theorem destination_of_ensure {dials : Nat → Dial} {info : ConnectionInfo} {dial : Dial}
    (attempts : Dials manager (.ensureEndpointConnections settings.serverId settings.connectionInfo
      dials) info dial) : info.destinationEndpointId = settings.serverId := by
  cases attempts with
  | ensure _ listed => exact destination_of_listed listed

/-- A keepalive tick greets, reopens what is not there, and removes what is broken. -/
theorem muted_sendKeepalive {sends : EndpointId → Nat → SendResult} {dials : Nat → Dial}
    (keyed : Keyed manager) (muted : Muted settings disabled manager)
    (opens : ∀ info dial, Reopens settings manager (.sendKeepalive sends dials) info dial →
      ¬ disabled info.interfaceName)
    (h : Run.run ManagerOp.apply manager [.greetAllEndpoints sends,
      .ensureEndpointConnections settings.serverId settings.connectionInfo dials,
      .removeDisconnected] = some (next, outs)) :
    Muted settings disabled next ∧ SilentOn disabled outs := by
  obtain ⟨greeted, first, _, hgreet, hrest, rfl⟩ := Run.run_cons_eq_some.mp h
  obtain ⟨ensured, second, _, hensure, hremove, rfl⟩ := Run.run_cons_eq_some.mp hrest
  rw [Run.run_singleton] at hremove
  have hkeyed := keyed_of_apply keyed hgreet
  obtain ⟨hgreeted, hfirst⟩ := muted_of_apply keyed muted
    ⟨rfl, rfl, by simp [ManagerOp.reading], fun _ _ dials => by cases dials⟩ hgreet
  have hdials : ∀ info dial, Dials greeted (.ensureEndpointConnections settings.serverId
      settings.connectionInfo dials) info dial →
      info.destinationEndpointId = settings.serverId ∧
        (dial.Opens → ¬ disabled info.interfaceName) := fun _ _ attempts =>
    ⟨destination_of_ensure attempts,
      fun hopens => opens _ _ (reopens_of_greeted hgreet attempts hopens)⟩
  obtain ⟨hensured, hsecond⟩ := muted_of_apply hkeyed hgreeted
    ⟨rfl, rfl, by simp [ManagerOp.reading], hdials⟩ hensure
  obtain ⟨hremoved, hlast⟩ := muted_of_apply (keyed_of_apply hkeyed hensure) hensured
    (clientOp_removeDisconnected _ _ _) hremove
  exact ⟨hremoved, silentOn_append hfirst (silentOn_append hsecond hlast)⟩

/-- A restart opens the configured links. -/
theorem muted_restart {dials : Nat → Dial} (keyed : Keyed manager)
    (muted : Muted settings disabled manager)
    (opens : ∀ info index, (info, index) ∈ settings.connectionInfo.zipIdx → (dials index).Opens →
      ¬ disabled info.interfaceName)
    (h : Run.run ManagerOp.apply manager (settings.connectionInfo.zipIdx.map fun (info, index) =>
      .createNewConnection info (dials index)) = some (next, outs)) :
    Muted settings disabled next ∧ SilentOn disabled outs := by
  refine muted_of_run keyed muted (fun op hop manager => ?_) h
  obtain ⟨⟨info, index⟩, hlisted, rfl⟩ := List.mem_map.mp hop
  refine ⟨rfl, rfl, by simp [ManagerOp.reading], fun info' dial dials => ?_⟩
  cases dials with
  | create =>
      exact ⟨destination_of_listed hlisted, fun hopens => opens info index hlisted hopens⟩

end Iteration

/-- An iteration that opens no connection on a disabled interface keeps the connections of disabled
    interfaces switched off, and writes no packet on them. -/
theorem muted_clientStep {settings : ClientSettings} {past : List ClientEvent}
    {manager next : ConnectionManager} {event : ClientEvent} {outs : List Output}
    (keyed : Keyed manager) (muted : Muted settings (DisabledAfter past) manager)
    (opens : OpensOnEnabled settings past manager event)
    (h : clientStep settings manager event = some (next, outs)) :
    Muted settings (DisabledAfter (past ++ [event])) next ∧ SilentOn (DisabledAfter past) outs := by
  have hkeep : (∀ name, commandFor name event = none) →
      Muted settings (DisabledAfter past) next →
      Muted settings (DisabledAfter (past ++ [event])) next := fun hnone hnext =>
    hnext.mono fun name hdisabled => by
      rwa [DisabledAfter, lastCommand_concat, hnone name, Option.none_or] at hdisabled
  obtain ⟨ops, hops, hrun⟩ := clientStep_eq_some.mp h
  cases event with
  | loop event =>
      simp only [clientOps] at hops
      split at hops
      case isFalse => cases hops
      obtain ⟨eventOps, heventOps, rfl⟩ := Option.map_eq_some_iff.mp hops
      obtain ⟨mid, first, last, hfirst, hremove, rfl⟩ := Run.run_append_eq_some.mp hrun
      rw [Run.run_singleton] at hremove
      have hremoved : ∀ {disabled}, Muted settings disabled mid →
          Muted settings disabled next ∧ SilentOn disabled last := fun hmid =>
        muted_of_apply (keyed_run keyed hfirst) hmid (clientOp_removeDisconnected _ _ _) hremove
      by_cases hcommand : ∃ state, event = .duplicationMessage (some (.interfaceState state))
      · obtain ⟨state, rfl⟩ := hcommand
        obtain rfl := Option.some.inj heventOps
        rw [Run.run_singleton] at hfirst
        obtain ⟨rfl, rfl⟩ := Prod.mk.inj (Option.some.inj hfirst)
        obtain ⟨hnext, -⟩ := hremoved (muted_command muted state)
        obtain rfl : last = [] := (congrArg Prod.snd (Option.some.inj hremove)).symm
        refine ⟨hnext.mono fun name hdisabled => ?_, silentOn_nil _⟩
        rw [DisabledAfter, lastCommand_concat, commandFor] at hdisabled
        split
        · rename_i hname
          simpa [hname] using hdisabled
        · rename_i hname
          simpa [hname, DisabledAfter] using hdisabled
      · have hother : ∀ state, event ≠ .duplicationMessage (some (.interfaceState state)) :=
          fun state heq => hcommand ⟨state, heq⟩
        obtain ⟨hmid, hsilent⟩ := muted_loopEvent keyed muted heventOps hother hfirst
        obtain ⟨hnext, hlast⟩ := hremoved hmid
        refine ⟨hkeep (fun name => ?_) hnext, silentOn_append hsilent hlast⟩
        unfold commandFor
        split
        · rename_i heq
          exact absurd (ClientEvent.loop.inj heq) (hother _)
        · rfl
  | sendKeepalive sends dials =>
      simp only [clientOps] at hops
      split at hops
      case isFalse => cases hops
      obtain rfl := Option.some.inj hops
      obtain ⟨hnext, hsilent⟩ := muted_sendKeepalive keyed muted opens hrun
      exact ⟨hkeep (fun _ => rfl) hnext, hsilent⟩
  | restart dials =>
      simp only [clientOps] at hops
      split at hops
      case isTrue => cases hops
      obtain rfl := Option.some.inj hops
      obtain ⟨hnext, hsilent⟩ := muted_restart keyed muted
        (fun info index listed hopens => opens info _ (Reopens.restart listed hopens)) hrun
      exact ⟨hkeep (fun _ => rfl) hnext, hsilent⟩

/-- The run lemma. -/
theorem muted_clientRun {settings : ClientSettings} {start mid : ConnectionManager}
    {events : List ClientEvent} {outs : List Output} (keyed : Keyed start)
    (muted : Muted settings (DisabledAfter []) start)
    (opens : Run.EachStep (clientStep settings) (OpensOnEnabled settings) start events)
    (h : Run.run (clientStep settings) start events = some (mid, outs)) :
    Keyed mid ∧ Muted settings (DisabledAfter events) mid := by
  refine Run.run_induction (P := fun past mid _ => Keyed mid ∧
    Muted settings (DisabledAfter past) mid) ⟨keyed, muted⟩ ?_ opens h
  intro past event mid _ next now _ ⟨hkeyed, hmuted⟩ hopens hstep
  exact ⟨keyed_clientStep hkeyed hstep, (muted_clientStep hkeyed hmuted hopens hstep).1⟩

/-- In every run of the client whose iterations open no connection on an interface that is disabled at
    that moment, no packet is written on an interface whose last command disabled it. -/
theorem commands_honoured (localAddress : SocketAddr) (ownId : EndpointId)
    (ownStaticRoutes : Option (List Route)) (connectionTimeout packetSorterDeadline : UInt64)
    (settings : ClientSettings) (dials : Nat → Dial) (start : ConnectionManager) (outs : List Output)
    (begins : clientStart settings dials (ConnectionManager.new localAddress ownId ownStaticRoutes
      connectionTimeout packetSorterDeadline) = some (start, outs))
    (events : List ClientEvent)
    (opens : Run.EachStep (clientStep settings) (OpensOnEnabled settings) start events) :
    Run.EachStep (clientStep settings) (HonoursCommands settings) start events := by
  have hkeyed := keyed_new localAddress ownId ownStaticRoutes connectionTimeout packetSorterDeadline
  have hrun := (clientStart_eq_some begins).1
  have hmuted : Muted settings (DisabledAfter []) start :=
    (muted_restart hkeyed (fun _ _ h => by cases h) (fun _ _ _ _ => nofun) hrun).1
  intro past event future mid before _ _ heq hpast _ next now hstep
  subst heq
  obtain ⟨hmid, hmidMuted⟩ := muted_clientRun (keyed_run hkeyed hrun) hmuted opens.of_append hpast
  exact (muted_clientStep hmid hmidMuted (opens past event future mid before next now rfl hpast hstep)
    hstep).2

/-- A client with two interfaces: the commands are honoured while the second interface is disabled and
    no connection is opened again. -/
theorem commands_honoured_two_interfaces :
    let settings : ClientSettings := ⟨[⟨"eth0", .v4 2130706433 0, .v4 2130706434 40000⟩,
      ⟨"eth1", .v4 2130706435 0, .v4 2130706434 40000⟩], 1⟩
    let dial : Dial := ⟨.bound, .ok (), .ok (.v4 2130706433 5000), 7, .ok 20, 0⟩
    let packet : LoopEvent := .tunnelPacket (.ipv4 167772161) [69] fun _ _ => .ok 20
    ∃ start outs, clientStart settings (fun _ => dial)
        (ConnectionManager.new (.v4 2130706433 0) 154 none 10000 100) = some (start, outs) ∧
      Run.EachStep (clientStep settings) (HonoursCommands settings) start
        [.loop (.newEstablishedMessage 1 0 (some (.helloAck ⟨1, 7, some [⟨0, 0⟩], 0⟩))
            (fun _ _ => .error .other) (fun _ => .ok 20) 1),
          .loop (.duplicationMessage (some (.interfaceState ⟨"eth1", false⟩))), .loop packet] := by
  intro settings dial packet
  refine Run.exists_of_isSome (by decide) fun start outs begins => ?_
  refine commands_honoured _ _ _ _ _ settings _ start outs begins _ ?_
  intro past event future mid before next now heq _ _ info dial reopens
  have hevent : event ∈ past ++ event :: future := by simp
  rw [← heq] at hevent
  simp only [List.mem_cons, List.not_mem_nil, or_false] at hevent
  rcases hevent with rfl | rfl | rfl <;> cases reopens

/-- A connection that timed out comes back enabled: the second interface is disabled, its connection
    times out and is opened again at the next keepalive, and the next packet is written on it. -/
theorem reopened_connection_ignores_command :
    ¬ ∀ localAddress ownId ownStaticRoutes connectionTimeout packetSorterDeadline settings dials start
      outs, clientStart settings dials (ConnectionManager.new localAddress ownId ownStaticRoutes
        connectionTimeout packetSorterDeadline) = some (start, outs) →
      ∀ events, Run.EachStep (clientStep settings) (HonoursCommands settings) start events := by
  intro h
  have hhonours := h (.v4 2130706433 0) 154 none 10000 100
    ⟨[⟨"eth0", .v4 2130706433 0, .v4 2130706434 40000⟩,
      ⟨"eth1", .v4 2130706435 0, .v4 2130706434 40000⟩], 1⟩
    (fun _ => ⟨.bound, .ok (), .ok (.v4 2130706433 5000), 7, .ok 20, 0⟩) _ _ rfl _
    [.loop (.newEstablishedMessage 1 0 (some (.helloAck ⟨1, 7, some [⟨0, 0⟩], 0⟩))
        (fun _ _ => .error .other) (fun _ => .ok 20) 1),
      .loop (.duplicationMessage (some (.interfaceState ⟨"eth1", false⟩))),
      .loop (.connectionTimeout 1 1 10000000000),
      .sendKeepalive (fun _ _ => .ok 20)
        fun _ => ⟨.bound, .ok (), .ok (.v4 2130706433 5001), 8, .ok 20, 10000000000⟩]
    (.loop (.tunnelPacket (.ipv4 167772161) [69] fun _ _ => .ok 20)) [] _ _ _ _ rfl rfl rfl _ _ rfl
  have hwritten := hhonours ⟨1, 7, outgoingEntry "eth1" (.v4 2130706434 40000) (.v4 2130706433 5001)
    10000 10000000000, .packet ⟨0, 1, [69]⟩⟩ ⟨0, 1, [69]⟩
  exact hwritten (by decide) rfl (by decide)

end MultiConnect
