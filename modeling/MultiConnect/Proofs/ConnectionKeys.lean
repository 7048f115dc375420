/-
Module: MultiConnect.Proofs.ConnectionKeys
Layer: Proofs
Purpose: How the connections of an endpoint are told apart. A connection is stored under an interface
  name and an address, and reports a name and an address of its own when its timer fires. `Identified`
  says that the two agree and that no two connections of an endpoint share them. The server keeps it
  whatever comes in, and the client keeps it when the links of its configuration differ; so a timeout
  removes exactly the connection whose timer fired.
Trusted boundary: a connected socket reports the address that it was connected to
Main exports: connectionsOf, connectionsOf_removeConnection, Identified, ServerIdentified,
  ClientSettings.Distinct, ClientIdentified, ReachedByLoop, timeout_removes_its_connection
-/
import MultiConnect.Proofs.LoopOps

namespace MultiConnect

open ConnectionManager

/-! ### The connections of an endpoint -/

/-- The connections of the endpoint of an id; none when it is not there. -/
def ConnectionManager.connectionsOf (manager : ConnectionManager) (k : EndpointId) :
    List ConnectionEntry :=
  ((manager.endpoints.get? k).map (·.connections)).getD []

/-- What a connection is stored under. -/
def ConnectionEntry.key (entry : ConnectionEntry) : String × SocketAddr :=
  (entry.interfaceName, entry.interfaceAddress)

section ConnectionsOf

variable {manager : ConnectionManager} {id k : EndpointId} {endpoint : Endpoint}

theorem connectionsOf_of_get? (found : manager.endpoints.get? k = some endpoint) :
    manager.connectionsOf k = endpoint.connections := by
  rw [connectionsOf, found]
  rfl

theorem connectionsOf_of_none (absent : manager.endpoints.get? k = none) :
    manager.connectionsOf k = [] := by
  rw [connectionsOf, absent]
  rfl

@[simp] theorem connectionsOf_setEndpoint :
    (manager.setEndpoint id endpoint).connectionsOf k =
      if k = id then endpoint.connections else manager.connectionsOf k := by
  rw [connectionsOf, setEndpoint, OrdMap.get?_insert]
  split <;> rfl

/-- The endpoints that are removed had no connections. -/
@[simp] theorem connectionsOf_removeEmptied :
    manager.removeEmptied.connectionsOf k = manager.connectionsOf k := by
  rw [connectionsOf, get?_removeEmptied, connectionsOf]
  cases manager.endpoints.get? k with
  | none => rfl
  | some e =>
      cases hconnected : e.hasConnections with
      | true => rw [Option.filter_some, if_pos hconnected]
      | false =>
          have hempty : e.connections = [] := by simpa [Endpoint.hasConnections] using hconnected
          rw [Option.filter_some, if_neg (by simp [hconnected])]
          exact hempty.symm

/-- Removing a connection takes the first one with that key out of its endpoint, and no other. -/
theorem connectionsOf_removeConnection (interfaceName : String) (address : SocketAddr) :
    (manager.removeConnection id interfaceName address).connectionsOf k =
      if k = id then
        (manager.connectionsOf id).eraseP (ConnectionEntry.isFor interfaceName address)
      else manager.connectionsOf k := by
  rw [removeConnection, connectionsOf_removeEmptied]
  unfold dropConnection
  split
  · rename_i endpoint found
    rw [connectionsOf_setEndpoint, connectionsOf_of_get? found]
  · rename_i absent
    rw [connectionsOf_of_none absent]
    split
    · rename_i hk
      rw [hk, connectionsOf_of_none absent, List.eraseP_nil]
    · rfl

end ConnectionsOf

/-! ### Identified connections -/

/-- The connections report what they are stored under, their names are of a kind, and no two are
    stored under the same name and address. -/
structure Identified (named : String → Prop) (connections : List ConnectionEntry) : Prop where
  own : ∀ entry ∈ connections, entry.Own
  named : ∀ entry ∈ connections, named entry.interfaceName
  distinct : (connections.map ConnectionEntry.key).Nodup

/-- What a connection is stored under, and what it reports. -/
def ConnectionEntry.names (entry : ConnectionEntry) : (String × SocketAddr) × String × SocketAddr :=
  (entry.key, entry.connection.getInterfaceName, entry.connection.peerAddr)

namespace Identified

variable {named : String → Prop} {connections after : List ConnectionEntry}

theorem nil (named : String → Prop) : Identified named [] :=
  ⟨List.forall_mem_nil _, List.forall_mem_nil _, List.nodup_nil⟩

/-- Only the names matter. -/
theorem of_names (h : Identified named connections)
    (same : after.map ConnectionEntry.names = connections.map ConnectionEntry.names) :
    Identified named after := by
  have hold : ∀ entry ∈ after, ∃ old ∈ connections, old.names = entry.names := fun entry hentry =>
    List.mem_map.mp (same ▸ List.mem_map_of_mem hentry)
  refine ⟨fun entry hentry => ?_, fun entry hentry => ?_, ?_⟩
  · obtain ⟨old, hmem, hnames⟩ := hold entry hentry
    simp only [ConnectionEntry.names, ConnectionEntry.key, Prod.mk.injEq] at hnames
    obtain ⟨⟨hname, haddress⟩, hreported, hpeer⟩ := hnames
    have hown := h.own old hmem
    exact ⟨by rw [← hreported, hown.interfaceName, hname],
      by rw [← hpeer, hown.interfaceAddress, haddress]⟩
  · obtain ⟨old, hmem, hnames⟩ := hold entry hentry
    simp only [ConnectionEntry.names, ConnectionEntry.key, Prod.mk.injEq] at hnames
    exact hnames.1.1 ▸ h.named old hmem
  · have hkeys : after.map ConnectionEntry.key = connections.map ConnectionEntry.key := by
      simpa [List.map_map, Function.comp_def, ConnectionEntry.names] using
        congrArg (List.map Prod.fst) same
    exact hkeys ▸ h.distinct

theorem of_links (h : Identified named connections)
    (same : after.map ConnectionEntry.link = connections.map ConnectionEntry.link) :
    Identified named after := by
  have hview : ∀ l : List ConnectionEntry, l.map ConnectionEntry.names =
      (l.map ConnectionEntry.link).map fun link => ((link.interfaceName, link.interfaceAddress),
        link.boundName.getD "DYN-interface", link.peerAddr) := fun l => by
    rw [List.map_map]
    rfl
  exact h.of_names (by rw [hview, hview, same])

theorem eraseP (h : Identified named connections) (p : ConnectionEntry → Bool) :
    Identified named (connections.eraseP p) where
  own entry hentry := h.own entry (List.mem_of_mem_eraseP hentry)
  named entry hentry := h.named entry (List.mem_of_mem_eraseP hentry)
  distinct := h.distinct.sublist (List.eraseP_sublist.map _)

/-- A connection joins that reports what it is stored under, when its key is not in use. -/
theorem append {entry : ConnectionEntry} (h : Identified named connections) (own : entry.Own)
    (hnamed : named entry.interfaceName)
    (unknown : ∀ old ∈ connections, old.isFor entry.interfaceName entry.interfaceAddress = false) :
    Identified named (connections ++ [entry]) where
  own := List.forall_mem_append.mpr ⟨h.own, List.forall_mem_singleton.mpr own⟩
  named := List.forall_mem_append.mpr ⟨h.named, List.forall_mem_singleton.mpr hnamed⟩
  distinct := by
    rw [List.map_append, List.map_singleton]
    refine List.nodup_append'.mpr ⟨h.distinct, List.nodup_singleton _,
      List.disjoint_singleton.mpr fun hmem => ?_⟩
    obtain ⟨old, hold, hkey⟩ := List.mem_map.mp hmem
    obtain ⟨hname, haddress⟩ := Prod.mk.inj hkey
    have hunknown := unknown old hold
    simp [ConnectionEntry.isFor, hname, haddress] at hunknown

theorem setInterface {e : Endpoint} {switch : Connection → Connection}
    (h : Identified named e.connections) (interfaceName : String)
    (keeps : ∀ connection, (switch connection).interfaceName = connection.interfaceName ∧
      (switch connection).peerAddr = connection.peerAddr) :
    Identified named (e.setInterface switch interfaceName).connections := by
  refine h.of_names ?_
  rw [Endpoint.setInterface, List.map_map]
  refine List.map_congr_left fun entry _ => ?_
  obtain ⟨hname, hpeer⟩ := keeps entry.connection
  rw [Function.comp_apply]
  split
  · simp [ConnectionEntry.names, ConnectionEntry.key, Connection.getInterfaceName, hname, hpeer]
  · rfl

/-- The key of a connection picks it out. -/
theorem eraseP_eq_eraseIdx (h : Identified named connections) {index : Nat}
    {entry : ConnectionEntry} (hentry : connections[index]? = some entry) :
    connections.eraseP (ConnectionEntry.isFor entry.interfaceName entry.interfaceAddress) =
      connections.eraseIdx index := by
  have hdistinct := h.distinct
  clear h
  induction connections generalizing index with
  | nil => simp at hentry
  | cons first rest ih =>
      obtain ⟨hfirst, hrest⟩ := List.nodup_cons.mp hdistinct
      cases index with
      | zero =>
          obtain rfl : first = entry := by simpa using hentry
          rw [List.eraseP_cons_of_pos (by simp [ConnectionEntry.isFor]), List.eraseIdx_cons_zero]
      | succ index =>
          have hmem : entry ∈ rest := List.mem_of_getElem? (by simpa using hentry)
          have hother : first.isFor entry.interfaceName entry.interfaceAddress = false := by
            cases hfor : first.isFor entry.interfaceName entry.interfaceAddress with
            | false => rfl
            | true =>
                have hkey : first.key = entry.key := by
                  simpa [ConnectionEntry.isFor, ConnectionEntry.key] using hfor
                exact absurd (List.mem_map.mpr ⟨entry, hmem, hkey.symm⟩) hfirst
          rw [List.eraseP_cons_of_neg (by simp [hother]), List.eraseIdx_cons_succ,
            ih (by simpa using hentry) hrest]

/-- So it does while the connection is exchanged for another state of it. -/
theorem eraseP_set (h : Identified named connections) {index : Nat} {entry changed : ConnectionEntry}
    (hentry : connections[index]? = some entry) (same : changed.names = entry.names) :
    (connections.set index changed).eraseP
        (ConnectionEntry.isFor entry.interfaceName entry.interfaceAddress) =
      connections.eraseIdx index := by
  have hchanged : (connections.set index changed)[index]? = some changed := by
    rw [List.getElem?_set_self (List.getElem?_eq_some_iff.mp hentry).1]
  obtain ⟨hname, haddress⟩ : changed.interfaceName = entry.interfaceName ∧
      changed.interfaceAddress = entry.interfaceAddress := Prod.mk.inj (congrArg Prod.fst same)
  rw [← hname, ← haddress, (h.of_names (map_set_of_same hentry same)).eraseP_eq_eraseIdx hchanged,
    List.eraseIdx_set_eq]

end Identified

/-! ### Operations that open no link -/

/-- The operation may add a connection for a hello that came in on an interface. -/
inductive Accepts (m₀ : ConnectionManager) (op : ManagerOp) (k : EndpointId) : String → Prop
  | listening {interfaceName : String} {hello : Hello} (hop : op.listeningHello = some hello)
      (listensOn : op.listensOn = some interfaceName) : Accepts m₀ op k interfaceName
  | established {readInfo : ReadInfo} {e : Endpoint} (hop : op.reading = some readInfo)
      (found : m₀.endpoints.get? k = some e)
      (unknown : ∀ entry ∈ e.connections,
        entry.isFor readInfo.interfaceName readInfo.sourceAddress = false) :
      Accepts m₀ op k readInfo.interfaceName

/-- A small step keeps the connections identified when those that it accepts come in on the interface
    that a connection without a name reports. -/
theorem identified_step {named : String → Prop} {m₀ : ConnectionManager} {op : ManagerOp}
    {k : EndpointId} {o next : Option Endpoint} {outs : List Output}
    (step : EndpointStep m₀ op k o outs next) (dialless : ∀ info dial, ¬ Dials m₀ op info dial)
    (accepts : ∀ interfaceName, Accepts m₀ op k interfaceName →
      interfaceName = serverInterfaceName ∧ named interfaceName)
    (h : ∀ e, o = some e → Identified named e.connections) :
    ∀ e, next = some e → Identified named e.connections := by
  intro e he
  cases step with
  | signal touched =>
      obtain rfl := Option.some.inj he
      exact (h _ rfl).of_links touched.links
  | install | create =>
      obtain rfl := Option.some.inj he
      exact Identified.nil named
  | acceptListening hop _ _ unknown =>
      obtain rfl := Option.some.inj he
      obtain ⟨hname, hnamed⟩ := accepts _
        (Accepts.listening (by rw [hop]; rfl) (by rw [hop]; rfl))
      exact (h _ rfl).append ⟨hname.symm, rfl⟩ hnamed unknown
  | acceptEstablished hop _ _ found unknown =>
      obtain rfl := Option.some.inj he
      obtain ⟨hname, hnamed⟩ := accepts _ (Accepts.established (by rw [hop]; rfl) found unknown)
      exact (h _ rfl).append ⟨hname.symm, rfl⟩ hnamed unknown
  | dial dials => exact absurd dials (dialless _ _)
  | switch =>
      obtain rfl := Option.some.inj he
      split
      · exact (h _ rfl).setInterface _ fun _ => ⟨rfl, rfl⟩
      · exact (h _ rfl).setInterface _ fun _ => ⟨rfl, rfl⟩
  | tunnel =>
      obtain rfl := Option.some.inj he
      exact (h _ rfl).of_links (Endpoint.touched_tunnel ..).links
  | sort | fire =>
      obtain rfl := Option.some.inj he
      have hold := h _ rfl
      exact hold
  | drop =>
      obtain rfl := Option.some.inj he
      exact (h _ rfl).eraseP _
  | remove => cases he

theorem identified_of_apply {named : String → Prop} {manager next : ConnectionManager}
    {op : ManagerOp} {outs : List Output} (keyed : Keyed manager)
    (dialless : ∀ info dial, ¬ Dials manager op info dial)
    (accepts : ∀ k interfaceName, Accepts manager op k interfaceName →
      interfaceName = serverInterfaceName ∧ named interfaceName)
    (h : ManagerOp.apply manager op = some (next, outs))
    (identified : ∀ k, Identified named (manager.connectionsOf k)) (k : EndpointId) :
    Identified named (next.connectionsOf k) := by
  have hsteps : ∀ e, next.endpoints.get? k = some e → Identified named e.connections :=
    ((decomposes_of_apply keyed h).steps k).invariant
      (P := fun o _ => ∀ e, o = some e → Identified named e.connections)
      (fun _ _ _ _ hmid step => identified_step step dialless (accepts k) hmid)
      fun e found => connectionsOf_of_get? found ▸ identified k
  cases found : next.endpoints.get? k with
  | none => exact connectionsOf_of_none found ▸ Identified.nil named
  | some e => exact connectionsOf_of_get? found ▸ hsteps e found

/-! ### The server -/

/-- Every connection of the server is identified, and has the server's name for interfaces. -/
def ServerIdentified (manager : ConnectionManager) : Prop :=
  ∀ k, Identified (· = serverInterfaceName) (manager.connectionsOf k)

theorem serverIdentified_of_apply {manager next : ConnectionManager} {op : ManagerOp}
    {outs : List Output} (keyed : Keyed manager) (identified : ServerIdentified manager)
    (server : OnServer manager op) (h : ManagerOp.apply manager op = some (next, outs)) :
    ServerIdentified next := by
  refine identified_of_apply keyed
    (fun _ _ dials => absurd dials.greets (by simp [server.greets])) ?_ h identified
  rintro k name (⟨-, hname⟩ | ⟨hop, -, -⟩)
  · exact ⟨server.listens name hname, server.listens name hname⟩
  · obtain ⟨id, index, packetBytes, hread⟩ := server.reads _ hop
    obtain ⟨e, entry, found, hentry, rfl⟩ := awaitIncoming_eq_some hread
    have hmem : entry ∈ manager.connectionsOf id :=
      connectionsOf_of_get? found ▸ List.mem_of_getElem? hentry
    have hname :=
      ((identified id).own entry hmem).interfaceName.trans ((identified id).named entry hmem)
    exact ⟨hname, hname⟩

/-- Operations that are the server's keep its connections identified. -/
theorem serverIdentified_run {manager next : ConnectionManager} {ops : List ManagerOp}
    {outs : List Output} (keyed : Keyed manager) (identified : ServerIdentified manager)
    (server : Run.EachStep ManagerOp.apply (fun _ => OnServer) manager ops)
    (h : Run.run ManagerOp.apply manager ops = some (next, outs)) : ServerIdentified next := by
  refine (Run.run_induction (P := fun _ mid _ => Keyed mid ∧ ServerIdentified mid)
    ⟨keyed, identified⟩ ?_ server h).2
  intro _ op mid _ after now _ ⟨hkeyed, hidentified⟩ hserver hstep
  exact ⟨keyed_of_apply hkeyed hstep, serverIdentified_of_apply hkeyed hidentified hserver hstep⟩

theorem serverIdentified_serverStep {manager next : ConnectionManager} {event : ServerEvent}
    {outs : List Output} (keyed : Keyed manager) (identified : ServerIdentified manager)
    (h : serverStep manager event = some (next, outs)) : ServerIdentified next := by
  obtain ⟨ops, hops, hrun⟩ := serverStep_eq_some.mp h
  exact serverIdentified_run keyed identified (onServer_of_serverOps hops) hrun

/-! ### The client -/

/-- The links of a configuration differ in their interface or in the server's address. -/
def ClientSettings.Distinct (settings : ClientSettings) : Prop :=
  (settings.interfaces.map fun interface => (interface.interfaceName, interface.serverAddress)).Nodup

/-- The only endpoint of the client is the server, and its connections are identified. -/
structure ClientIdentified (settings : ClientSettings) (manager : ConnectionManager) : Prop where
  only : ∀ k e, manager.endpoints.get? k = some e → k = settings.serverId
  identified : ∀ k, Identified (fun _ => True) (manager.connectionsOf k)

/-- What the connection of an attempt is stored under. -/
def attemptKey (attempt : ConnectionInfo × Dial) : String × SocketAddr :=
  (attempt.1.interfaceName, attempt.1.destinationAddress)

section Attempt

variable {manager next : ConnectionManager} {attempt : ConnectionInfo × Dial} {outs : List Output}

/-- An attempt brings no endpoint but the one of its link. -/
theorem get?_tryLink (h : manager.tryLink attempt = some (next, outs)) {k : EndpointId} {e : Endpoint}
    (found : next.endpoints.get? k = some e) :
    k = attempt.1.destinationEndpointId ∨ ∃ old, manager.endpoints.get? k = some old := by
  obtain ⟨result, hopen⟩ := tryLink_eq_some h
  rcases openLink_cases hopen with
    ⟨-, rfl, -⟩ | ⟨localAddr, -, ⟨-, -, rfl, -⟩ | ⟨-, -, -, rfl, rfl, -⟩⟩
  · exact Or.inr ⟨e, found⟩
  all_goals
    rw [get?_ensureDestination] at found
    split at found
    · exact Or.inl ‹_›
    · exact Or.inr ⟨e, found⟩

theorem connectionsOf_ensureDestination (manager : ConnectionManager) (id k : EndpointId) (dial : Dial)
    (endpoint : Endpoint) :
    ((manager.ensureDestination id dial).1.setEndpoint id endpoint).connectionsOf k =
      if k = id then endpoint.connections else manager.connectionsOf k := by
  rw [connectionsOf, get?_ensureDestination]
  split <;> rfl

/-- An attempt adds one connection to its endpoint or none. -/
theorem tryLink_connections (h : manager.tryLink attempt = some (next, outs)) :
    (∀ k, next.connectionsOf k = manager.connectionsOf k) ∨
      ∃ localAddr, ∀ k, next.connectionsOf k = if k = attempt.1.destinationEndpointId then
        manager.connectionsOf k ++ [outgoingEntry attempt.1.interfaceName
          attempt.1.destinationAddress localAddr manager.connectionTimeout attempt.2.now]
        else manager.connectionsOf k := by
  obtain ⟨result, hopen⟩ := tryLink_eq_some h
  have hensured := connections_ensureDestination manager attempt.1.destinationEndpointId attempt.2
  rcases openLink_cases hopen with
    ⟨-, rfl, -⟩ | ⟨localAddr, -, ⟨-, -, rfl, -⟩ | ⟨-, -, -, rfl, rfl, -⟩⟩
  · exact Or.inl fun _ => rfl
  · refine Or.inl fun k => ?_
    rw [connectionsOf_ensureDestination]
    split
    · rename_i hk
      rw [hk]
      exact hensured
    · rfl
  · refine Or.inr ⟨localAddr, fun k => ?_⟩
    rw [connectionsOf_ensureDestination]
    split
    · rename_i hk
      rw [hk]
      exact congrArg (· ++ _) hensured
    · rfl

end Attempt

/-- Attempts under different keys, none of them in use, keep the connections identified. -/
theorem clientIdentified_tryLinks {settings : ClientSettings} {manager next : ConnectionManager}
    {attempts : List (ConnectionInfo × Dial)} {outs : List Output}
    (identified : ClientIdentified settings manager)
    (server : ∀ attempt ∈ attempts, attempt.1.destinationEndpointId = settings.serverId)
    (distinct : ((manager.connectionsOf settings.serverId).map ConnectionEntry.key ++
      attempts.map attemptKey).Nodup)
    (h : Run.run tryLink manager attempts = some (next, outs)) : ClientIdentified settings next := by
  have hrun := Run.run_induction
    (C := fun _ _ attempt => attempt.1.destinationEndpointId = settings.serverId)
    (P := fun past mid _ =>
      (∀ k e, mid.endpoints.get? k = some e → k = settings.serverId) ∧
      (∀ k, ∀ entry ∈ mid.connectionsOf k, entry.Own) ∧
      ((mid.connectionsOf settings.serverId).map ConnectionEntry.key).Sublist
        ((manager.connectionsOf settings.serverId).map ConnectionEntry.key ++ past.map attemptKey))
    ⟨identified.only, fun k => (identified.identified k).own, by simp⟩ ?_ ?_ h
  · obtain ⟨honly, hown, hkeys⟩ := hrun
    refine ⟨honly, fun k => ⟨hown k, fun _ _ => trivial, ?_⟩⟩
    cases found : next.endpoints.get? k with
    | none => simp [connectionsOf_of_none found]
    | some e => exact honly k e found ▸ distinct.sublist hkeys
  · intro past attempt mid _ after _ _ ⟨honly, hown, hkeys⟩ hserver hstep
    have hconnections := tryLink_connections hstep
    refine ⟨fun k e he => ?_, fun k entry hentry => ?_, ?_⟩
    · rcases get?_tryLink hstep he with hk | ⟨old, hold⟩
      · exact hk.trans hserver
      · exact honly k old hold
    · rcases hconnections with hsame | ⟨localAddr, hadded⟩
      · exact hown k entry (hsame k ▸ hentry)
      · rw [hadded k] at hentry
        split at hentry
        · rcases List.mem_append.mp hentry with hold | hnew
          · exact hown k entry hold
          · obtain rfl := List.mem_singleton.mp hnew
            exact own_outgoingEntry ..
        · exact hown k entry hentry
    · rw [List.map_append, ← List.append_assoc]
      rcases hconnections with hsame | ⟨localAddr, hadded⟩
      · rw [hsame]
        exact hkeys.trans (List.sublist_append_left _ _)
      · rw [hadded, if_pos hserver.symm, List.map_append]
        exact hkeys.append (List.Sublist.refl _)
  · intro _ attempt _ _ _ _ _ heq _ _
    exact server attempt (by simp [heq])

/-- The keys of the configured links are those of the configuration. -/
theorem attemptKeys_eq (settings : ClientSettings) (dials : Nat → Dial) :
    (settings.connectionInfo.zipIdx.map fun attempt => (attempt.1, dials attempt.2)).map attemptKey =
      settings.interfaces.map fun interface => (interface.interfaceName, interface.serverAddress) := by
  have hfst : (settings.connectionInfo.zipIdx.map fun attempt =>
      (attempt.1, dials attempt.2)).map attemptKey = (settings.connectionInfo.zipIdx.map Prod.fst).map
        fun info => (info.interfaceName, info.destinationAddress) := by
    rw [List.map_map, List.map_map]
    rfl
  rw [hfst, List.zipIdx_map_fst, ClientSettings.connectionInfo, List.map_map]
  rfl

section Client

variable {settings : ClientSettings} {manager next : ConnectionManager} {outs : List Output}

/-- A keepalive opens only links that have no connection. -/
theorem clientIdentified_ensure {dials : Nat → Dial} (distinct : settings.Distinct)
    (identified : ClientIdentified settings manager)
    (h : manager.ensureEndpointConnections settings.serverId settings.connectionInfo dials =
      some (next, outs)) : ClientIdentified settings next := by
  unfold ensureEndpointConnections at h
  split at h
  · rename_i e found
    refine clientIdentified_tryLinks identified ?_ ?_ h
    · intro attempt hattempt
      obtain ⟨⟨info, index⟩, hdead, rfl⟩ := List.mem_map.mp hattempt
      exact destination_of_listed (List.mem_of_mem_filter hdead)
    · refine List.nodup_append'.mpr ⟨(identified.identified _).distinct, ?_, ?_⟩
      · have hall : ((settings.connectionInfo.zipIdx.map fun attempt =>
            (attempt.1, dials attempt.2)).map attemptKey).Nodup := by
          rw [attemptKeys_eq]
          exact distinct
        exact hall.sublist ((List.filter_sublist.map _).map _)
      · intro key halive hattempt
        obtain ⟨attempt, hmem, rfl⟩ := List.mem_map.mp hattempt
        obtain ⟨⟨info, index⟩, hdead, rfl⟩ := List.mem_map.mp hmem
        rw [connectionsOf_of_get? found] at halive
        exact of_decide_eq_true (List.mem_filter.mp hdead).2 halive
  · obtain ⟨rfl, -⟩ := Prod.mk.inj (Option.some.inj h)
    exact identified

/-- Without endpoints every configured link may be opened. -/
theorem clientIdentified_restart {dials : Nat → Dial} (distinct : settings.Distinct)
    (empty : ∀ k, manager.endpoints.get? k = none)
    (h : Run.run ManagerOp.apply manager (settings.connectionInfo.zipIdx.map fun attempt =>
      .createNewConnection attempt.1 (dials attempt.2)) = some (next, outs)) :
    ClientIdentified settings next := by
  have hrun : Run.run tryLink manager (settings.connectionInfo.zipIdx.map fun attempt =>
      (attempt.1, dials attempt.2)) = some (next, outs) := by
    rw [Run.run_map] at h ⊢
    exact h
  refine clientIdentified_tryLinks ⟨fun k e he => by simp [empty k] at he, fun k => ?_⟩ ?_ ?_ hrun
  · rw [connectionsOf_of_none (empty k)]
    exact Identified.nil _
  · intro attempt hattempt
    obtain ⟨⟨info, index⟩, hlisted, rfl⟩ := List.mem_map.mp hattempt
    exact destination_of_listed hlisted
  · rw [connectionsOf_of_none (empty _), attemptKeys_eq]
    exact distinct

theorem clientIdentified_of_apply {op : ManagerOp} (distinct : settings.Distinct)
    (keyed : Keyed manager) (identified : ClientIdentified settings manager)
    (client : OnClient settings manager op)
    (h : ManagerOp.apply manager op = some (next, outs)) : ClientIdentified settings next := by
  rcases client.dials with dialless | ⟨dials, rfl⟩
  · constructor
    · intro k e found
      by_contra hk
      have habsent : manager.endpoints.get? k = none := by
        cases hold : manager.endpoints.get? k with
        | none => rfl
        | some old => exact absurd (identified.only k old hold) hk
      refine absurd found (((decomposes_of_apply keyed h).steps k).invariant
        (P := fun o _ => ∀ e, o ≠ some e) ?_ (by simp [habsent]) e)
      intro mid _ _ _ hmid step
      cases step with
      | install hop => exact absurd client.listens (by simp [hop, ManagerOp.listeningHello])
      | create dials => exact absurd dials (dialless _ _)
      | _ => exact absurd rfl (hmid _)
    · refine identified_of_apply keyed dialless ?_ h identified.identified
      rintro k name (⟨hop, -⟩ | ⟨hop, found, unknown⟩)
      · exact absurd client.listens (by simp [hop])
      · obtain ⟨id, index, packetBytes, hread⟩ := client.reads _ hop
        obtain ⟨e, entry, hfound, hentry, rfl⟩ := awaitIncoming_eq_some hread
        obtain rfl := (identified.only id e hfound).trans (identified.only k _ found).symm
        obtain rfl := Option.some.inj (hfound.symm.trans found)
        have hmem := List.mem_of_getElem? hentry
        have own := (identified.identified id).own entry (connectionsOf_of_get? found ▸ hmem)
        exact absurd (unknown entry hmem)
          (by simp [ConnectionEntry.isFor, own.interfaceName, own.interfaceAddress])
  · exact clientIdentified_ensure distinct identified h

/-- Operations that are the client's keep its connections identified. -/
theorem clientIdentified_run {ops : List ManagerOp} (distinct : settings.Distinct)
    (keyed : Keyed manager) (identified : ClientIdentified settings manager)
    (client : Run.EachStep ManagerOp.apply (fun _ => OnClient settings) manager ops)
    (h : Run.run ManagerOp.apply manager ops = some (next, outs)) :
    ClientIdentified settings next := by
  refine (Run.run_induction (P := fun _ mid _ => Keyed mid ∧ ClientIdentified settings mid)
    ⟨keyed, identified⟩ ?_ client h).2
  intro _ op mid _ after now _ ⟨hkeyed, hidentified⟩ hclient hstep
  exact ⟨keyed_of_apply hkeyed hstep,
    clientIdentified_of_apply distinct hkeyed hidentified hclient hstep⟩

theorem clientIdentified_clientStep {event : ClientEvent} (distinct : settings.Distinct)
    (keyed : Keyed manager) (identified : ClientIdentified settings manager)
    (h : clientStep settings manager event = some (next, outs)) : ClientIdentified settings next := by
  obtain ⟨ops, hops, hrun⟩ := clientStep_eq_some.mp h
  rcases onClient_of_clientOps hops with client | ⟨hnone, dials, rfl⟩
  · exact clientIdentified_run distinct keyed identified client hrun
  · exact clientIdentified_restart distinct (hasEndpoints_eq_false.mp hnone) hrun

end Client

/-! ### Both loops -/

section Loops

variable {localAddress : SocketAddr} {ownId : EndpointId} {ownStaticRoutes : Option (List Route)}
  {connectionTimeout packetSorterDeadline : UInt64} {manager : ConnectionManager}
  {outs : List Output}

theorem serverIdentified_reached {events : List ServerEvent}
    (h : Run.run serverStep (ConnectionManager.new localAddress ownId ownStaticRoutes
      connectionTimeout packetSorterDeadline) events = some (manager, outs)) :
    Keyed manager ∧ ServerIdentified manager := by
  refine Run.run_invariant (P := fun mid => Keyed mid ∧ ServerIdentified mid) ?_
    ⟨keyed_new _ _ _ _ _, fun _ => Identified.nil _⟩ h
  intro mid event next now ⟨hkeyed, hidentified⟩ hstep
  exact ⟨keyed_serverStep hkeyed hstep, serverIdentified_serverStep hkeyed hidentified hstep⟩

theorem clientIdentified_reached {settings : ClientSettings} (distinct : settings.Distinct)
    {dials : Nat → Dial} {start : ConnectionManager} {first : List Output}
    (begins : clientStart settings dials (ConnectionManager.new localAddress ownId ownStaticRoutes
      connectionTimeout packetSorterDeadline) = some (start, first))
    {events : List ClientEvent}
    (h : Run.run (clientStep settings) start events = some (manager, outs)) :
    Keyed manager ∧ ClientIdentified settings manager := by
  have hbegin := (clientStart_eq_some begins).1
  refine Run.run_invariant (P := fun mid => Keyed mid ∧ ClientIdentified settings mid) ?_
    ⟨keyed_run (keyed_new _ _ _ _ _) hbegin,
      clientIdentified_restart distinct (fun _ => rfl) hbegin⟩ h
  intro mid event next now ⟨hkeyed, hidentified⟩ hstep
  exact ⟨keyed_clientStep hkeyed hstep,
    clientIdentified_clientStep distinct hkeyed hidentified hstep⟩

end Loops

/-- The managers that a run of the server reaches, and a run of a client with distinct links. -/
inductive ReachedByLoop : ConnectionManager → Prop
  | server {localAddress : SocketAddr} {ownId : EndpointId} {ownStaticRoutes : Option (List Route)}
      {connectionTimeout packetSorterDeadline : UInt64} (events : List ServerEvent)
      {manager : ConnectionManager} {outs : List Output}
      (reached : Run.run serverStep (ConnectionManager.new localAddress ownId ownStaticRoutes
        connectionTimeout packetSorterDeadline) events = some (manager, outs)) :
      ReachedByLoop manager
  | client {localAddress : SocketAddr} {ownId : EndpointId} {ownStaticRoutes : Option (List Route)}
      {connectionTimeout packetSorterDeadline : UInt64} {settings : ClientSettings}
      (distinct : settings.Distinct) {dials : Nat → Dial} {start : ConnectionManager}
      {first : List Output}
      (begins : clientStart settings dials (ConnectionManager.new localAddress ownId ownStaticRoutes
        connectionTimeout packetSorterDeadline) = some (start, first))
      (events : List ClientEvent) {manager : ConnectionManager} {outs : List Output}
      (reached : Run.run (clientStep settings) start events = some (manager, outs)) :
      ReachedByLoop manager

theorem identified_of_reached {manager : ConnectionManager} (h : ReachedByLoop manager) :
    Keyed manager ∧ ∃ named, ∀ k, Identified named (manager.connectionsOf k) := by
  cases h with
  | server events reached =>
      obtain ⟨hkeyed, hidentified⟩ := serverIdentified_reached reached
      exact ⟨hkeyed, _, hidentified⟩
  | client distinct begins events reached =>
      obtain ⟨hkeyed, hidentified⟩ := clientIdentified_reached distinct begins reached
      exact ⟨hkeyed, _, hidentified.identified⟩

/-- In every state that a loop reaches a connection reports the name and the address that it is stored
    under, and no other connection of its endpoint is stored under them. So removing what a timeout
    reports removes the connection whose timer fired and leaves every other where it was. -/
theorem timeout_removes_its_connection (manager : ConnectionManager)
    (reached : ReachedByLoop manager) :
    (∀ k e, manager.endpoints.get? k = some e →
      (∀ entry ∈ e.connections, entry.interfaceName = entry.connection.getInterfaceName ∧
        entry.interfaceAddress = entry.connection.peerAddr) ∧
      (e.connections.map fun entry => (entry.interfaceName, entry.interfaceAddress)).Nodup) ∧
    ∀ id index now fired k interfaceName address,
      manager.awaitTimeout id index now = some (fired, k, interfaceName, address) →
      ∃ entry, (manager.connectionsOf id)[index]? = some entry ∧
        entry.connection.connectionTimeout.isDue now = true ∧
        ∀ other, (fired.removeConnection k interfaceName address).connectionsOf other =
          if other = id then (manager.connectionsOf id).eraseIdx index
          else manager.connectionsOf other := by
  obtain ⟨hkeyed, named, hidentified⟩ := identified_of_reached reached
  constructor
  · intro k e found
    have hconnections := connectionsOf_of_get? found ▸ hidentified k
    refine ⟨fun entry hentry => ?_, hconnections.distinct⟩
    have own := hconnections.own entry hentry
    exact ⟨own.interfaceName.symm, own.interfaceAddress.symm⟩
  · intro id index now fired k interfaceName address hfires
    obtain ⟨e, entry, found, hentry, hdue, rfl, rfl, rfl, rfl⟩ := awaitTimeout_eq_some hfires
    have hconnections := connectionsOf_of_get? found ▸ hidentified id
    refine ⟨entry, by rw [connectionsOf_of_get? found, hentry], hdue, fun other => ?_⟩
    rw [hkeyed id e found, connectionsOf_removeConnection, connectionsOf_setEndpoint, if_pos rfl,
      connectionsOf_setEndpoint, connectionsOf_of_get? found]
    split
    · have own := hconnections.own entry (List.mem_of_getElem? hentry)
      rw [own.interfaceName, own.interfaceAddress]
      exact hconnections.eraseP_set hentry rfl
    · rfl

/-- A server with two connections of one peer. -/
theorem timeout_removes_its_connection_second :
    ∃ manager outs,
      Run.run serverStep (ConnectionManager.new (.v4 2130706433 40000) 1 none 10000 100)
        [.newConnection (some (.hello ⟨154, 1, none, 0⟩)) (.v4 2130706434 123)
            (fun _ _ => .ok (.v4 2130706433 40000)) (fun _ => .ok 1) (fun _ => .ok 1) 0,
          .newConnection (some (.hello ⟨154, 1, none, 0⟩)) (.v4 2130706435 123)
            (fun _ _ => .ok (.v4 2130706433 40000)) (fun _ => .ok 1) (fun _ => .ok 1) 1] =
        some (manager, outs) ∧
      ∀ fired k interfaceName address,
        manager.awaitTimeout 154 1 20000000000 = some (fired, k, interfaceName, address) →
        (fired.removeConnection k interfaceName address).connectionsOf 154 =
          (manager.connectionsOf 154).eraseIdx 1 := by
  refine Run.exists_of_isSome (by decide) fun manager outs hrun fired k name address fires => ?_
  obtain ⟨entry, -, -, hremoved⟩ := (timeout_removes_its_connection manager
    (ReachedByLoop.server _ hrun)).2 _ _ _ _ _ _ _ fires
  exact hremoved 154

end MultiConnect
