/-
Module: MultiConnect.Proofs.EventLoopWaits
Layer: Proofs
Purpose: What the event loops wait on. An iteration of a loop keeps every endpoint supplied with a
  connection unless it creates an endpoint whose connection then fails to open; the two places where
  this can happen, a hello that installs an endpoint and the client's restart, are described exactly by
  `ServerOpens` and `ClientOpens`. So a run never waits on an empty set if and only if each of its
  iterations meets these conditions.
Trusted boundary: `select_all` panics on an empty list
Main exports: AllConnected, WaitsOnSome, ServerOpens, ClientOpens, event_loops_wait_iff
-/
import MultiConnect.EventLoops
import MultiConnect.Proofs.Sessions

namespace MultiConnect

open ConnectionManager

/-- Every endpoint has a connection. -/
def AllConnected (manager : ConnectionManager) : Prop :=
  ∀ k e, manager.endpoints.get? k = some e → e.connections ≠ []

/-- At the start of an iteration every endpoint has a connection, and with endpoints there is one to
    build a future for. -/
structure WaitsOnSome (manager : ConnectionManager) : Prop where
  connected : AllConnected manager
  awaited : manager.hasEndpoints = true → manager.awaited ≠ []

theorem hasEndpoints_eq_false {manager : ConnectionManager} :
    manager.hasEndpoints = false ↔ ∀ k, manager.endpoints.get? k = none := by
  rw [hasEndpoints, bne_eq_false_iff_eq, OrdMap.size, List.length_eq_zero_iff]
  constructor
  · intro hnil k
    rw [OrdMap.get?_eq_none_iff, hnil]
    simp
  · intro hnone
    refine List.eq_nil_iff_forall_not_mem.mpr fun entry hentry => ?_
    exact OrdMap.get?_eq_none_iff.mp (hnone entry.1) entry.2 hentry

theorem waitsOnSome_iff {manager : ConnectionManager} :
    WaitsOnSome manager ↔ AllConnected manager := by
  refine ⟨fun h => h.connected, fun h => ⟨h, fun hsome => ?_⟩⟩
  obtain ⟨entry, hentry⟩ : ∃ entry, entry ∈ manager.endpoints.entries := by
    refine List.exists_mem_of_ne_nil _ fun hnil => ?_
    simp [hasEndpoints, OrdMap.size, hnil] at hsome
  have hconnected := h entry.1 entry.2 (OrdMap.get?_eq_some_iff.mpr hentry)
  refine List.ne_nil_of_mem (List.mem_filter.mpr ⟨List.mem_map_of_mem hentry, ?_⟩)
  simpa [Endpoint.hasConnections] using hconnected

/-! ### Removals -/

theorem allConnected_removeConnection (manager : ConnectionManager) (id : EndpointId)
    (interfaceName : String) (address : SocketAddr) :
    AllConnected (manager.removeConnection id interfaceName address) := by
  intro k e he
  rw [removeConnection, get?_removeEmptied, Option.filter_eq_some_iff] at he
  simpa [Endpoint.hasConnections] using he.2

theorem mem_disconnected {manager : ConnectionManager} {id : EndpointId} {interfaceName : String}
    {address : SocketAddr} :
    (id, interfaceName, address) ∈ manager.disconnected ↔
      ∃ e, manager.endpoints.get? id = some e ∧ ∃ entry ∈ e.connections,
        entry.connection.state = .disconnected ∧ entry.interfaceName = interfaceName ∧
        entry.interfaceAddress = address := by
  simp only [disconnected, List.mem_flatMap, Prod.exists, OrdMap.get?_eq_some_iff]
  constructor
  · rintro ⟨id', e, hmem, hbroken⟩
    obtain ⟨entry, hentry, heq⟩ := List.mem_map.mp hbroken
    obtain ⟨hentry, hstate⟩ := List.mem_filter.mp hentry
    simp only [Prod.mk.injEq] at heq
    obtain ⟨rfl, rfl, rfl⟩ := heq
    exact ⟨e, hmem, entry, hentry, by simpa using hstate, rfl, rfl⟩
  · rintro ⟨e, hmem, entry, hentry, hstate, rfl, rfl⟩
    exact ⟨id, e, hmem, List.mem_map.mpr
      ⟨entry, List.mem_filter.mpr ⟨hentry, by simpa using hstate⟩, rfl⟩⟩

/-- Removing what is broken also removes every endpoint without a connection, as soon as anything is
    broken at all. -/
theorem allConnected_removeDisconnected {manager : ConnectionManager} :
    AllConnected manager.removeDisconnected ↔
      AllConnected manager ∨ manager.disconnected ≠ [] := by
  unfold removeDisconnected
  cases manager.disconnected with
  | nil => simp
  | cons first rest =>
      refine iff_of_true ?_ (Or.inr (List.cons_ne_nil _ _))
      exact List.foldlRecOn rest _ (allConnected_removeConnection _ _ _ _)
        fun _ _ _ _ => allConnected_removeConnection _ _ _ _

/-! ### Operations that keep every endpoint connected -/

/-- A small step that neither removes nor begins an endpoint keeps its connections. -/
theorem connected_of_apply {manager next : ConnectionManager} {op : ManagerOp} {outs : List Output}
    (keyed : Keyed manager) (connected : AllConnected manager) (removes : op.removes = false)
    (listens : op.listeningHello = none)
    (present : ∀ info dial, Dials manager op info dial →
      (manager.endpoints.get? info.destinationEndpointId).isSome = true)
    (h : ManagerOp.apply manager op = some (next, outs)) : AllConnected next := by
  intro k e he
  have hk := ((decomposes_of_apply keyed h).steps k).invariant (P := fun o _ =>
    ((manager.endpoints.get? k).isSome = true → o.isSome = true) ∧
      ∀ e, o = some e → e.connections ≠ []) ?_ ⟨id, connected k⟩
  · exact hk.2 e he
  intro mid before more after ⟨hsome, hmid⟩ step
  cases step with
  | install hop => rw [hop] at listens; cases listens
  | acceptListening hop => rw [hop] at listens; cases listens
  | create dials key =>
      exact absurd (hsome (key ▸ present _ _ dials)) (by simp)
  | drop hremoves => rw [removes] at hremoves; cases hremoves
  | remove hremoves => rw [removes] at hremoves; cases hremoves
  | signal touched =>
      refine ⟨fun _ => rfl, fun e' he' => ?_⟩
      obtain rfl := Option.some.inj he'
      exact fun hnil => hmid _ rfl (touched.connections_eq_nil.mp hnil)
  | switch =>
      refine ⟨fun _ => rfl, fun e' he' => ?_⟩
      obtain rfl := Option.some.inj he'
      have hold := hmid _ rfl
      split <;> simpa [Endpoint.enableInterface, Endpoint.disableInterface, Endpoint.setInterface]
        using hold
  | tunnel =>
      refine ⟨fun _ => rfl, fun e' he' => ?_⟩
      obtain rfl := Option.some.inj he'
      exact fun hnil => hmid _ rfl ((Endpoint.touched_tunnel ..).connections_eq_nil.mp hnil)
  | sort | fire =>
      refine ⟨fun _ => rfl, fun e' he' => ?_⟩
      obtain rfl := Option.some.inj he'
      have hold := hmid _ rfl
      exact hold
  | acceptEstablished | dial =>
      refine ⟨fun _ => rfl, fun e' he' => ?_⟩
      obtain rfl := Option.some.inj he'
      simp

/-- An operation that neither greets nor listens. -/
def ManagerOp.Plain (op : ManagerOp) : Prop := op.greets = false ∧ op.listeningHello = none

theorem allConnected_plain {manager next : ConnectionManager} {op : ManagerOp} {outs : List Output}
    (keyed : Keyed manager) (connected : AllConnected manager) (plain : op.Plain)
    (h : ManagerOp.apply manager op = some (next, outs)) : AllConnected next := by
  cases hremoves : op.removes with
  | false =>
      refine connected_of_apply keyed connected hremoves plain.2 (fun info dial dials => ?_) h
      exact absurd dials.greets (by simp [plain.1])
  | true =>
      cases op with
      | removeConnection =>
          obtain rfl : _ = next := congrArg Prod.fst (Option.some.inj h)
          exact allConnected_removeConnection _ _ _ _
      | removeDisconnected =>
          obtain rfl : _ = next := congrArg Prod.fst (Option.some.inj h)
          exact allConnected_removeDisconnected.mpr (Or.inl connected)
      | _ => cases hremoves

theorem allConnected_run_plain {manager next : ConnectionManager} {ops : List ManagerOp}
    {outs : List Output} (keyed : Keyed manager) (connected : AllConnected manager)
    (plain : ∀ op ∈ ops, op.Plain) (h : Run.run ManagerOp.apply manager ops = some (next, outs)) :
    AllConnected next := by
  refine (Run.run_induction (C := fun _ _ op => op.Plain)
    (P := fun _ mid _ => Keyed mid ∧ AllConnected mid) ⟨keyed, connected⟩ ?_ ?_ h).2
  · intro _ op mid _ after now _ ⟨hkeyed, hconnected⟩ hplain hstep
    exact ⟨keyed_of_apply hkeyed hstep, allConnected_plain hkeyed hconnected hplain hstep⟩
  · intro _ op _ _ _ _ _ heq _ _
    exact plain op (by simp [heq])

/-- The operations of an event of both loops are plain. -/
theorem plain_of_loopEvent {manager : ConnectionManager} {event : LoopEvent} {ops : List ManagerOp}
    (h : event.ops manager = some ops) : ∀ op ∈ ops, op.Plain := by
  cases event with
  | newEstablishedMessage | connectionTimeout | packetSorter =>
      obtain ⟨awaited, -, rfl⟩ := Option.map_eq_some_iff.mp h
      simp [ManagerOp.Plain, ManagerOp.greets, ManagerOp.listeningHello]
  | newSortedPacket id tunSent =>
      cases tunSent with
      | error => cases h
      | ok =>
          obtain rfl := Option.some.inj h
          simp [ManagerOp.Plain, ManagerOp.greets, ManagerOp.listeningHello]
  | establishedError | tunnelPacket | tunnelError | duplicationMessage =>
      obtain rfl := Option.some.inj h
      simp [ManagerOp.Plain, ManagerOp.greets, ManagerOp.listeningHello]

/-! ### The server -/

/-- A hello that installs a fresh endpoint has its connection opened, or removing what is broken of
    another endpoint takes the fresh one along. -/
def ServerOpens (manager : ConnectionManager) : ServerEvent → Prop
  | .newConnection (some (.hello hello)) sourceAddress openSocket _ _ _ =>
      manager.Installs hello.id hello.sessionId →
      (∃ localAddr, openSocket manager.localAddress sourceAddress = .ok localAddr) ∨
      ∃ k e entry, k ≠ hello.id ∧ manager.endpoints.get? k = some e ∧ entry ∈ e.connections ∧
        entry.connection.state = .disconnected
  | _ => True

section Listening

variable {manager : ConnectionManager} {endpoint : Endpoint} {hello : Hello}
  {sourceAddress : SocketAddr} {interfaceName : String} {openSocket : OpenSocket}
  {firstAck lastAck : Nat → SendResult} {now : Instant}

theorem connections_addAndAcknowledge :
    (manager.addAndAcknowledge endpoint sourceAddress interfaceName openSocket firstAck lastAck
        now).1.connections = [] ↔
      endpoint.connections = [] ∧
        ¬ ∃ localAddr, openSocket manager.localAddress sourceAddress = .ok localAddr := by
  rcases manager.touched_addAndAcknowledge endpoint sourceAddress interfaceName openSocket firstAck
    lastAck now with ⟨added, hadd, touched⟩ | ⟨error, hadd, touched⟩
  · have hne := Endpoint.connections_ne_nil_of_addConnection hadd
    rw [touched.connections_eq_nil]
    refine iff_of_false hne fun ⟨hnil, hfails⟩ => ?_
    rcases Endpoint.addConnection_eq_ok hadd with touched | ⟨-, localAddr, hopened, -⟩
    · exact hne (touched.connections_eq_nil.mpr hnil)
    · exact hfails ⟨localAddr, hopened⟩
  · rw [touched.connections_eq_nil]
    simp [(Endpoint.addConnection_eq_error.mp hadd).2]

theorem connections_admitHello (found : manager.endpoints.get? hello.id = some endpoint) :
    let after := (manager.admitHello hello sourceAddress interfaceName openSocket firstAck lastAck
      now).1
    (∀ k, k ≠ hello.id → after.endpoints.get? k = manager.endpoints.get? k) ∧
    ∃ e, after.endpoints.get? hello.id = some e ∧ (e.connections = [] ↔
      endpoint.connections = [] ∧
        ¬ ∃ localAddr, openSocket manager.localAddress sourceAddress = .ok localAddr) := by
  simp only [admitHello, found]
  exact ⟨fun k hk => OrdMap.get?_insert_of_ne _ _ hk, _, OrdMap.get?_insert_self ..,
    connections_addAndAcknowledge⟩

/-- What a hello on the listening socket leaves of the connections: those of every other endpoint, and
    at least one of its own unless it installed an endpoint whose connection did not open. -/
theorem connections_handleHello (connected : AllConnected manager) :
    let after := (manager.handleHello (some (.hello hello)) sourceAddress interfaceName openSocket
      firstAck lastAck now).1
    (∀ k, k ≠ hello.id → after.endpoints.get? k = manager.endpoints.get? k) ∧
    ∃ e, after.endpoints.get? hello.id = some e ∧ (e.connections = [] ↔
      manager.Installs hello.id hello.sessionId ∧
        ¬ ∃ localAddr, openSocket manager.localAddress sourceAddress = .ok localAddr) := by
  intro after
  rcases manager.handleHello_cases hello sourceAddress interfaceName openSocket firstAck lastAck now
    with ⟨installs, hafter⟩ | ⟨e, found, session, hafter⟩ | ⟨e, found, hne, hused, hafter⟩
  · obtain ⟨hothers, e, he, hempty⟩ := connections_admitHello (get?_installFresh manager hello now)
    rw [show after = _ from congrArg Prod.fst hafter]
    refine ⟨fun k hk => (hothers k hk).trans (OrdMap.get?_insert_of_ne _ _ hk), e, he, ?_⟩
    rw [hempty]
    exact ⟨fun h => ⟨installs, h.2⟩, fun h => ⟨rfl, h.2⟩⟩
  · obtain ⟨hothers, e', he', hempty⟩ := connections_admitHello found
    rw [show after = _ from congrArg Prod.fst hafter]
    refine ⟨hothers, e', he', ?_⟩
    rw [hempty]
    exact iff_of_false (fun h => connected _ e found h.1) fun h => (h.1 e found).1 session
  · rw [show after = _ from congrArg Prod.fst hafter]
    exact ⟨fun _ _ => rfl, e, found,
      iff_of_false (connected _ e found) fun h => (h.1 e found).2 hused⟩

/-- A hello leaves some endpoint without a connection just when it installs one it cannot connect. -/
theorem allConnected_handleHello (connected : AllConnected manager) :
    AllConnected (manager.handleHello (some (.hello hello)) sourceAddress interfaceName openSocket
        firstAck lastAck now).1 ↔
      (manager.Installs hello.id hello.sessionId →
        ∃ localAddr, openSocket manager.localAddress sourceAddress = .ok localAddr) := by
  obtain ⟨hothers, e, he, hempty⟩ := @connections_handleHello manager hello sourceAddress
    interfaceName openSocket firstAck lastAck now connected
  constructor
  · intro hafter installs
    by_contra hfails
    exact hafter hello.id e he (hempty.mpr ⟨installs, hfails⟩)
  · intro hopens k x hx
    by_cases hk : k = hello.id
    · subst hk
      obtain rfl := Option.some.inj (he.symm.trans hx)
      exact fun hnil => (hempty.mp hnil).2 (hopens (hempty.mp hnil).1)
    · exact connected k x ((hothers k hk).symm.trans hx)

/-- When a hello installs an endpoint it cannot connect, what is broken afterwards belongs to the other
    endpoints. -/
theorem disconnected_handleHello (connected : AllConnected manager)
    (installs : manager.Installs hello.id hello.sessionId)
    (fails : ¬ ∃ localAddr, openSocket manager.localAddress sourceAddress = .ok localAddr) :
    (manager.handleHello (some (.hello hello)) sourceAddress interfaceName openSocket firstAck lastAck
        now).1.disconnected ≠ [] ↔
      ∃ k e entry, k ≠ hello.id ∧ manager.endpoints.get? k = some e ∧ entry ∈ e.connections ∧
        entry.connection.state = .disconnected := by
  obtain ⟨hothers, e, he, hempty⟩ := @connections_handleHello manager hello sourceAddress
    interfaceName openSocket firstAck lastAck now connected
  have hnone := hempty.mpr ⟨installs, fails⟩
  constructor
  · intro hne
    obtain ⟨⟨k, interfaceName, address⟩, hbroken⟩ := List.exists_mem_of_ne_nil _ hne
    obtain ⟨x, hx, entry, hentry, hstate, -⟩ := mem_disconnected.mp hbroken
    have hk : k ≠ hello.id := by
      rintro rfl
      obtain rfl := Option.some.inj (he.symm.trans hx)
      rw [hnone] at hentry
      cases hentry
    exact ⟨k, x, entry, hk, (hothers k hk).symm.trans hx, hentry, hstate⟩
  · rintro ⟨k, x, entry, hk, hx, hentry, hstate⟩
    exact List.ne_nil_of_mem
      (mem_disconnected.mpr ⟨x, (hothers k hk).trans hx, entry, hentry, hstate, rfl, rfl⟩)

end Listening

theorem plain_removeDisconnected : ManagerOp.removeDisconnected.Plain := ⟨rfl, rfl⟩

/-- One iteration of the server keeps every endpoint connected exactly when it meets `ServerOpens`. -/
theorem allConnected_serverStep {manager next : ConnectionManager} {event : ServerEvent}
    {outs : List Output} (keyed : Keyed manager) (connected : AllConnected manager)
    (h : serverStep manager event = some (next, outs)) :
    AllConnected next ↔ ServerOpens manager event := by
  have hplain : ∀ ops : List ManagerOp, (∀ op ∈ ops, op.Plain) →
      Run.run ManagerOp.apply manager ops = some (next, outs) → AllConnected next :=
    fun ops hops hrun => allConnected_run_plain keyed connected hops hrun
  unfold serverStep at h
  split at h
  case h_2 => cases h
  rename_i ops hops
  cases event with
  | loop event =>
      simp only [serverOps] at hops
      split at hops
      · obtain ⟨eventOps, heventOps, rfl⟩ := Option.map_eq_some_iff.mp hops
        refine iff_of_true (hplain _ (fun op hop => ?_) h) trivial
        rcases List.mem_append.mp hop with hop | hop
        · exact plain_of_loopEvent heventOps op hop
        · rw [List.mem_singleton.mp hop]
          exact plain_removeDisconnected
      · cases hops
  | flushInterfaceLog =>
      simp only [serverOps] at hops
      split at hops
      · obtain rfl := Option.some.inj hops
        exact iff_of_true (hplain _ (by simpa using plain_removeDisconnected) h) trivial
      · cases hops
  | newConnection message source openSocket firstAck lastAck now =>
      have hrun : next = (manager.handleHello message source serverInterfaceName openSocket firstAck
          lastAck now).1 ∧ manager.hasEndpoints = false ∨
        next = (manager.handleHello message source serverInterfaceName openSocket firstAck lastAck
          now).1.removeDisconnected := by
        simp only [serverOps] at hops
        split at hops
        · obtain rfl := Option.some.inj hops
          obtain ⟨mid, _, _, hmid, hlast, -⟩ := Run.run_cons_eq_some.mp h
          rw [Run.run_singleton] at hlast
          obtain rfl : _ = mid := congrArg Prod.fst (Option.some.inj hmid)
          exact Or.inr (congrArg Prod.fst (Option.some.inj hlast)).symm
        · rename_i hnone
          obtain rfl := Option.some.inj hops
          rw [Run.run_singleton] at h
          exact Or.inl ⟨(congrArg Prod.fst (Option.some.inj h)).symm, by simpa using hnone⟩
      match message with
      | none | some (.packet _) | some (.helloAck _) =>
          refine iff_of_true ?_ trivial
          rcases hrun with ⟨rfl, -⟩ | rfl
          · exact connected
          · exact allConnected_removeDisconnected.mpr (Or.inl connected)
      | some (.hello hello) =>
          rcases hrun with ⟨rfl, hnone⟩ | rfl
          · rw [allConnected_handleHello connected]
            refine forall_congr' fun installs => (or_iff_left ?_).symm
            rintro ⟨k, e, -, -, hfound, -⟩
            rw [hasEndpoints_eq_false.mp hnone k] at hfound
            cases hfound
          · rw [allConnected_removeDisconnected, allConnected_handleHello connected]
            by_cases hfails : manager.Installs hello.id hello.sessionId ∧
                ¬ ∃ localAddr, openSocket manager.localAddress source = .ok localAddr
            · rw [disconnected_handleHello connected hfails.1 hfails.2]
              simp only [ServerOpens, hfails.1, hfails.2, true_imp_iff]
            · have hopens := fun installs => not_not.mp fun h => hfails ⟨installs, h⟩
              exact iff_of_true (Or.inl hopens) fun installs => Or.inl (hopens installs)

/-! ### The client -/

/-- An attempt gets as far as a greeted connection. -/
def Dial.Opens (dial : Dial) : Prop :=
  (∃ localAddr, dial.Reaches localAddr) ∧ ∃ sent, dial.send = .ok sent

/-- A restart opens some link, or gets on no link as far as a connected socket. -/
def ClientOpens (settings : ClientSettings) : ClientEvent → Prop
  | .restart dials =>
      (∃ index < settings.interfaces.length, (dials index).Opens) ∨
      ∀ index < settings.interfaces.length, ∀ localAddr, ¬ (dials index).Reaches localAddr
  | _ => True

/-- What an attempt leaves of the endpoints: it is there once a socket connected, and has a connection
    once one was greeted. -/
theorem connections_openLink {manager next : ConnectionManager} {info : ConnectionInfo} {dial : Dial}
    {outs : List Output} {result : Except ErrorKind Unit}
    (h : manager.openLink info dial = some (next, outs, result)) :
    (∀ k, k ≠ info.destinationEndpointId → next.endpoints.get? k = manager.endpoints.get? k) ∧
    ((next.endpoints.get? info.destinationEndpointId).isSome = true ↔
      (manager.endpoints.get? info.destinationEndpointId).isSome = true ∨
        ∃ localAddr, dial.Reaches localAddr) ∧
    (∀ e, next.endpoints.get? info.destinationEndpointId = some e → (e.connections ≠ [] ↔
      (∃ old, manager.endpoints.get? info.destinationEndpointId = some old ∧ old.connections ≠ []) ∨
        dial.Opens)) ∧
    (result = .ok () → dial.Opens) := by
  rcases openLink_cases h with ⟨hfails, rfl, -, hresult⟩ | ⟨localAddr, reaches, hgreeted⟩
  · refine ⟨fun _ _ => rfl, by simp [hfails], fun e he => ?_, fun hok => absurd hok hresult⟩
    simp [he, Dial.Opens, hfails]
  · rcases hgreeted with ⟨error, hsend, rfl, -, rfl⟩ | ⟨sent, entry, hsend, -, rfl, -, rfl⟩
    all_goals
      refine ⟨fun k hk => by rw [get?_ensureDestination, if_neg hk], ?_, fun e he => ?_, ?_⟩
    · rw [get?_ensureDestination, if_pos rfl]
      exact iff_of_true rfl (Or.inr ⟨localAddr, reaches⟩)
    · rw [get?_ensureDestination, if_pos rfl] at he
      obtain rfl := Option.some.inj he
      rw [connections_ensureDestination]
      cases manager.endpoints.get? info.destinationEndpointId <;> simp [Dial.Opens, hsend]
    · simp
    · rw [get?_ensureDestination, if_pos rfl]
      exact iff_of_true rfl (Or.inr ⟨localAddr, reaches⟩)
    · rw [get?_ensureDestination, if_pos rfl] at he
      obtain rfl := Option.some.inj he
      exact iff_of_true (by simp) (Or.inr ⟨⟨localAddr, reaches⟩, sent, hsend⟩)
    · exact fun _ => ⟨⟨localAddr, reaches⟩, sent, hsend⟩

/-- The attempts of a restart, seen as operations. -/
theorem restart_run {manager next : ConnectionManager} {outs : List Output} {ops : List ManagerOp}
    (id : EndpointId) (empty : ∀ k, manager.endpoints.get? k = none)
    (creates : ∀ op ∈ ops, ∃ info dial, op = .createNewConnection info dial ∧
      info.destinationEndpointId = id)
    (h : Run.run ManagerOp.apply manager ops = some (next, outs)) :
    (∀ k, k ≠ id → next.endpoints.get? k = none) ∧
    ((next.endpoints.get? id).isSome = true ↔ ∃ info dial,
      .createNewConnection info dial ∈ ops ∧ ∃ localAddr, dial.Reaches localAddr) ∧
    ∀ e, next.endpoints.get? id = some e → (e.connections ≠ [] ↔ ∃ info dial,
      .createNewConnection info dial ∈ ops ∧ dial.Opens) := by
  refine Run.run_induction (C := fun _ _ op => ∃ info dial, op = .createNewConnection info dial ∧
      info.destinationEndpointId = id)
    (P := fun past mid _ => (∀ k, k ≠ id → mid.endpoints.get? k = none) ∧
      ((mid.endpoints.get? id).isSome = true ↔ ∃ info dial,
        .createNewConnection info dial ∈ past ∧ ∃ localAddr, dial.Reaches localAddr) ∧
      ∀ e, mid.endpoints.get? id = some e → (e.connections ≠ [] ↔ ∃ info dial,
        .createNewConnection info dial ∈ past ∧ dial.Opens))
    ⟨fun k _ => empty k, by simp [empty], by simp [empty]⟩ ?_ ?_ h
  · rintro past _ mid before after now _ ⟨hothers, hreached, hopened⟩ ⟨info, dial, rfl, rfl⟩ hstep
    obtain ⟨result, hopen⟩ := tryLink_eq_some hstep
    obtain ⟨hkept, hsome, hconnections, -⟩ := connections_openLink hopen
    refine ⟨fun k hk => (hkept k hk).trans (hothers k hk), ?_, fun e he => ?_⟩
    · rw [hsome, hreached]
      simp only [List.mem_append, List.mem_singleton, ManagerOp.createNewConnection.injEq]
      grind
    · rw [hconnections e he]
      simp only [List.mem_append, List.mem_singleton, ManagerOp.createNewConnection.injEq]
      have hold : (∃ old, mid.endpoints.get? info.destinationEndpointId = some old ∧
          old.connections ≠ []) ↔ ∃ info dial,
          .createNewConnection info dial ∈ past ∧ dial.Opens := by
        constructor
        · rintro ⟨old, hfound, hne⟩
          exact (hopened old hfound).mp hne
        · rintro ⟨other, dial', hmem, hopens⟩
          obtain ⟨localAddr, reaches⟩ := hopens.1
          obtain ⟨old, hfound⟩ := Option.isSome_iff_exists.mp
            (hreached.mpr ⟨other, dial', hmem, localAddr, reaches⟩)
          exact ⟨old, hfound, (hopened old hfound).mpr ⟨other, dial', hmem, hopens⟩⟩
      rw [hold]
      grind
  · intro _ op _ _ _ _ _ heq _ _
    exact creates op (by simp [heq])

/-- A restart makes one attempt for each interface. -/
theorem exists_restart_attempt (settings : ClientSettings) (dials : Nat → Dial) (P : Dial → Prop) :
    (∃ info dial, ManagerOp.createNewConnection info dial ∈ settings.connectionInfo.zipIdx.map
      (fun (info, index) => ManagerOp.createNewConnection info (dials index)) ∧ P dial) ↔
      ∃ index < settings.interfaces.length, P (dials index) := by
  constructor
  · rintro ⟨info, dial, hmem, hP⟩
    obtain ⟨⟨info', index⟩, hlisted, heq⟩ := List.mem_map.mp hmem
    obtain ⟨rfl, rfl⟩ := ManagerOp.createNewConnection.inj heq
    refine ⟨index, ?_, hP⟩
    simpa [ClientSettings.connectionInfo] using List.snd_lt_of_mem_zipIdx hlisted
  · rintro ⟨index, hlt, hP⟩
    have hlink : index < settings.connectionInfo.length := by
      simpa [ClientSettings.connectionInfo] using hlt
    refine ⟨settings.connectionInfo[index], dials index, List.mem_map.mpr
      ⟨(settings.connectionInfo[index], index), ?_, rfl⟩, hP⟩
    exact List.mem_zipIdx_iff_getElem?.mpr (List.getElem?_eq_getElem hlink)

/-- A restart leaves an endpoint without a connection just when sockets connect but no greeting goes
    out. -/
theorem allConnected_restart {settings : ClientSettings} {dials : Nat → Dial}
    {manager next : ConnectionManager} {outs : List Output}
    (empty : ∀ k, manager.endpoints.get? k = none)
    (h : Run.run ManagerOp.apply manager (settings.connectionInfo.zipIdx.map fun (info, index) =>
      .createNewConnection info (dials index)) = some (next, outs)) :
    AllConnected next ↔ ClientOpens settings (.restart dials) := by
  have hcreates : ∀ op ∈ settings.connectionInfo.zipIdx.map (fun (info, index) =>
      ManagerOp.createNewConnection info (dials index)), ∃ info dial,
      op = .createNewConnection info dial ∧ info.destinationEndpointId = settings.serverId := by
    intro op hop
    obtain ⟨⟨info, index⟩, hlisted, rfl⟩ := List.mem_map.mp hop
    obtain ⟨interface, -, rfl⟩ := List.mem_map.mp (List.fst_mem_of_mem_zipIdx hlisted)
    exact ⟨_, _, rfl, rfl⟩
  obtain ⟨hothers, hreached, hopened⟩ := restart_run settings.serverId empty hcreates h
  rw [exists_restart_attempt settings dials fun dial => ∃ localAddr, dial.Reaches localAddr]
    at hreached
  simp only [exists_restart_attempt settings dials Dial.Opens] at hopened
  constructor
  · intro hnext
    by_cases hsome : ∃ index < settings.interfaces.length, ∃ localAddr,
        (dials index).Reaches localAddr
    · obtain ⟨e, he⟩ := Option.isSome_iff_exists.mp (hreached.mpr hsome)
      exact Or.inl ((hopened e he).mp (hnext _ e he))
    · exact Or.inr fun index hlt localAddr hreaches => hsome ⟨index, hlt, localAddr, hreaches⟩
  · intro hopens k e he
    by_cases hk : k = settings.serverId
    · subst hk
      refine (hopened e he).mpr (hopens.resolve_right fun hnever => ?_)
      obtain ⟨index, hlt, localAddr, hreaches⟩ :=
        hreached.mp (Option.isSome_iff_exists.mpr ⟨e, he⟩)
      exact hnever index hlt localAddr hreaches
    · rw [hothers k hk] at he
      cases he

/-- One iteration of the client keeps every endpoint connected exactly when it meets `ClientOpens`. -/
theorem allConnected_clientStep {settings : ClientSettings} {manager next : ConnectionManager}
    {event : ClientEvent} {outs : List Output} (keyed : Keyed manager)
    (connected : AllConnected manager)
    (h : clientStep settings manager event = some (next, outs)) :
    AllConnected next ↔ ClientOpens settings event := by
  unfold clientStep at h
  split at h
  case h_2 => cases h
  rename_i ops hops
  cases event with
  | loop event =>
      simp only [clientOps] at hops
      split at hops
      · obtain ⟨eventOps, heventOps, rfl⟩ := Option.map_eq_some_iff.mp hops
        refine iff_of_true (allConnected_run_plain keyed connected (fun op hop => ?_) h) trivial
        rcases List.mem_append.mp hop with hop | hop
        · exact plain_of_loopEvent heventOps op hop
        · rw [List.mem_singleton.mp hop]
          exact plain_removeDisconnected
      · cases hops
  | sendKeepalive sends dials =>
      simp only [clientOps] at hops
      split at hops
      · obtain rfl := Option.some.inj hops
        obtain ⟨greeted, _, _, hgreet, hrest, -⟩ := Run.run_cons_eq_some.mp h
        obtain ⟨ensured, _, _, hensure, hremove, -⟩ := Run.run_cons_eq_some.mp hrest
        rw [Run.run_singleton] at hremove
        have hgreeted : AllConnected greeted := connected_of_apply keyed connected rfl rfl
          (fun info dial dials => by cases dials) hgreet
        have hkeyed := keyed_of_apply keyed hgreet
        have hensured : AllConnected ensured := by
          refine connected_of_apply hkeyed hgreeted rfl rfl (fun info dial dials => ?_) hensure
          cases dials with
          | ensure present listed _ =>
              obtain ⟨interface, -, rfl⟩ := List.mem_map.mp (List.fst_mem_of_mem_zipIdx listed)
              rw [present]
              rfl
        exact iff_of_true (allConnected_plain (keyed_of_apply hkeyed hensure) hensured
          plain_removeDisconnected hremove) trivial
      · cases hops
  | restart dials =>
      simp only [clientOps] at hops
      split at hops
      · cases hops
      · rename_i hnone
        obtain rfl := Option.some.inj hops
        exact allConnected_restart (hasEndpoints_eq_false.mp (by simpa using hnone)) h

/-! ### Runs of the loops -/

/-- An iteration runs its operations. -/
theorem clientStep_eq_some {settings : ClientSettings} {manager next : ConnectionManager}
    {event : ClientEvent} {outs : List Output} :
    clientStep settings manager event = some (next, outs) ↔
      ∃ ops, clientOps settings manager event = some ops ∧
        Run.run ManagerOp.apply manager ops = some (next, outs) := by
  unfold clientStep
  cases clientOps settings manager event <;> simp

theorem serverStep_eq_some {manager next : ConnectionManager} {event : ServerEvent}
    {outs : List Output} :
    serverStep manager event = some (next, outs) ↔
      ∃ ops, serverOps manager event = some ops ∧
        Run.run ManagerOp.apply manager ops = some (next, outs) := by
  unfold serverStep
  cases serverOps manager event <;> simp

/-- The client starts with the attempts of a restart, all of which succeed. -/
theorem clientStart_eq_some {settings : ClientSettings} {dials : Nat → Dial}
    {manager start : ConnectionManager} {outs : List Output}
    (h : clientStart settings dials manager = some (start, outs)) :
    Run.run ManagerOp.apply manager (settings.connectionInfo.zipIdx.map fun (info, index) =>
        .createNewConnection info (dials index)) = some (start, outs) ∧
      ∀ index < settings.interfaces.length, (dials index).Opens := by
  unfold clientStart at h
  have hrun : Run.run ManagerOp.apply manager (settings.connectionInfo.zipIdx.map fun attempt =>
      .createNewConnection attempt.1 (dials attempt.2)) = some (start, outs) := by
    refine Run.run_simulates _ (fun manager attempt next now hstep => ?_) h
    split at hstep
    · rename_i hopen
      obtain ⟨rfl, rfl⟩ := Prod.mk.inj (Option.some.inj hstep)
      simp [ManagerOp.apply, tryLink, hopen]
    · cases hstep
  have hopens : ∀ attempt ∈ settings.connectionInfo.zipIdx, (dials attempt.2).Opens := by
    refine Run.run_induction (C := fun _ _ _ => True)
      (P := fun past _ _ => ∀ attempt ∈ past, (dials attempt.2).Opens) (List.forall_mem_nil _) ?_
      (fun _ _ _ _ _ _ _ _ _ _ => trivial) h
    intro past attempt mid before next now _ hpast _ hstep
    refine List.forall_mem_append.mpr ⟨hpast, List.forall_mem_singleton.mpr ?_⟩
    split at hstep
    · rename_i hopen
      exact (connections_openLink hopen).2.2.2 rfl
    · cases hstep
  refine ⟨hrun, fun index hlt => ?_⟩
  have hlink : index < settings.connectionInfo.length := by
    simpa [ClientSettings.connectionInfo] using hlt
  exact hopens (settings.connectionInfo[index], index)
    (List.mem_zipIdx_iff_getElem?.mpr (List.getElem?_eq_getElem hlink))

theorem keyed_clientStep {settings : ClientSettings} {manager next : ConnectionManager}
    {event : ClientEvent} {outs : List Output} (keyed : Keyed manager)
    (h : clientStep settings manager event = some (next, outs)) : Keyed next := by
  obtain ⟨ops, -, hrun⟩ := clientStep_eq_some.mp h
  exact keyed_run keyed hrun

theorem keyed_serverStep {manager next : ConnectionManager} {event : ServerEvent}
    {outs : List Output} (keyed : Keyed manager)
    (h : serverStep manager event = some (next, outs)) : Keyed next := by
  obtain ⟨ops, -, hrun⟩ := serverStep_eq_some.mp h
  exact keyed_run keyed hrun

/-- When the loop of the client begins, every endpoint has a connection. -/
theorem allConnected_clientStart {settings : ClientSettings} {dials : Nat → Dial}
    {manager start : ConnectionManager} {outs : List Output}
    (empty : ∀ k, manager.endpoints.get? k = none)
    (h : clientStart settings dials manager = some (start, outs)) : AllConnected start := by
  obtain ⟨hrun, hopens⟩ := clientStart_eq_some h
  refine (allConnected_restart empty hrun).mpr ?_
  cases hnone : settings.interfaces with
  | nil => exact Or.inr fun index hlt => absurd hlt (by simp [hnone])
  | cons first rest => exact Or.inl ⟨0, by simp [hnone], hopens 0 (by simp [hnone])⟩

/-- A run of the server waits on some connection in every iteration if and only if each hello that
    installs an endpoint has its connection opened (or removing what is broken takes the endpoint
    along). A run of the client does if and only if each restart greets on some link, or connects no
    socket at all. -/
theorem event_loops_wait_iff (localAddress : SocketAddr) (ownId : EndpointId)
    (ownStaticRoutes : Option (List Route)) (connectionTimeout packetSorterDeadline : UInt64) :
    let manager := ConnectionManager.new localAddress ownId ownStaticRoutes connectionTimeout
      packetSorterDeadline
    (∀ events, Run.Throughout serverStep WaitsOnSome manager events ↔
      Run.EachStep serverStep (fun _ => ServerOpens) manager events) ∧
    ∀ settings dials start outs, clientStart settings dials manager = some (start, outs) →
      ∀ events, Run.Throughout (clientStep settings) WaitsOnSome start events ↔
        Run.EachStep (clientStep settings) (fun _ _ => ClientOpens settings) start events := by
  intro manager
  have hempty : ∀ k, manager.endpoints.get? k = none := fun _ => rfl
  have hkeyed : Keyed manager := keyed_new _ _ _ _ _
  constructor
  · intro events
    refine Run.throughout_iff_eachStep (I := Keyed) (E := fun _ => True) ?_ ?_ (fun _ _ => trivial)
      hkeyed (waitsOnSome_iff.mpr fun k e he => absurd he (by simp [hempty k]))
    · exact fun mid event next outs hmid _ hstep => keyed_serverStep hmid hstep
    · intro mid event next outs hmid _ hwaits hstep
      rw [waitsOnSome_iff]
      exact allConnected_serverStep hmid (waitsOnSome_iff.mp hwaits) hstep
  · intro settings dials start outs hstart events
    refine Run.throughout_iff_eachStep (I := Keyed) (E := fun _ => True) ?_ ?_ (fun _ _ => trivial)
      (keyed_run hkeyed (clientStart_eq_some hstart).1)
      (waitsOnSome_iff.mpr (allConnected_clientStart hempty hstart))
    · exact fun mid event next outs hmid _ hstep => keyed_clientStep hmid hstep
    · intro mid event next outs hmid _ hwaits hstep
      rw [waitsOnSome_iff]
      exact allConnected_clientStep hmid (waitsOnSome_iff.mp hwaits) hstep

/-- A client with one interface loses its connection, and its restart gets through. -/
theorem event_loops_wait_iff_restarted :
    let settings : ClientSettings := ⟨[⟨"eth0", .v4 2130706433 0, .v4 2130706434 40000⟩], 1⟩
    let dial : Dial := ⟨.bound, .ok (), .ok (.v4 2130706433 5000), 7, .ok 20, 0⟩
    ∃ start outs, clientStart settings (fun _ => dial)
        (ConnectionManager.new (.v4 2130706433 0) 154 none 10000 100) = some (start, outs) ∧
      Run.Throughout (clientStep settings) WaitsOnSome start
        [.loop (.connectionTimeout 1 0 10000000000), .restart fun _ => dial] := by
  intro settings dial
  refine Run.exists_of_isSome (by decide) fun start outs hstart => ?_
  refine ((event_loops_wait_iff _ _ _ _ _).2 _ _ _ _ hstart _).mpr ?_
  intro past event future mid before next now heq _ _
  have hevent : event ∈ [ClientEvent.loop (.connectionTimeout 1 0 10000000000),
      .restart fun _ => dial] := heq ▸ by simp
  rcases List.mem_pair.mp hevent with rfl | rfl
  · exact trivial
  · exact Or.inl ⟨0, by decide, ⟨⟨.v4 2130706433 5000, rfl, rfl, rfl⟩, 20, rfl⟩⟩

/-- A server opens no socket for the first hello that reaches it: the endpoint of the hello is there
    without a connection, and the next iteration waits on nothing. -/
theorem event_loop_waits_on_nothing :
    ¬ ((∀ localAddress ownId ownStaticRoutes connectionTimeout packetSorterDeadline events,
        Run.Throughout serverStep WaitsOnSome (ConnectionManager.new localAddress ownId
          ownStaticRoutes connectionTimeout packetSorterDeadline) events) ∧
      ∀ localAddress ownId ownStaticRoutes connectionTimeout packetSorterDeadline settings dials start
        outs events, clientStart settings dials (ConnectionManager.new localAddress ownId
          ownStaticRoutes connectionTimeout packetSorterDeadline) = some (start, outs) →
        Run.Throughout (clientStep settings) WaitsOnSome start events) := by
  rintro ⟨hserver, -⟩
  have hwaits := hserver (.v4 2130706434 40000) 1 none 10000 100
    [.newConnection (some (.hello ⟨154, 7, none, 0⟩)) (.v4 2130706433 5000)
      (fun _ _ => .error .other) (fun _ => .ok 20) (fun _ => .ok 20) 0] _ [] _ _
    (List.append_nil _).symm rfl
  exact hwaits.awaited rfl rfl

end MultiConnect
