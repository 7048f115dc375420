/-
Module: MultiConnect.Proofs.Routes
Layer: Proofs
Purpose: No dangling routes. Every operation but a removal lets the set of endpoints grow and learns
  routes only for endpoints that are there (`Grows`); a removal takes the routes to an endpoint along
  with it. So in every reachable state each route leads to an endpoint, and no packet from the TUN
  device meets a missing one.
Trusted boundary: none
Main exports: RoutesKnown, Grows, routesKnown_step, routes_never_dangle
-/
import MultiConnect.ConnectionManager

namespace MultiConnect

open ConnectionManager

/-- Every endpoint that a route names is there. -/
def RoutesKnown (manager : ConnectionManager) : Prop :=
  ∀ aem ∈ manager.routes.routes, manager.endpoints.contains aem.endpointId = true

/-- No endpoint is lost, and every route is old or leads to an endpoint. -/
structure Grows (manager next : ConnectionManager) : Prop where
  endpoints : ∀ k, manager.endpoints.contains k = true → next.endpoints.contains k = true
  routes : ∀ aem ∈ next.routes.routes,
    aem ∈ manager.routes.routes ∨ next.endpoints.contains aem.endpointId = true

namespace Grows

variable {manager mid next : ConnectionManager}

theorem refl (manager : ConnectionManager) : Grows manager manager :=
  ⟨fun _ => id, fun _ => Or.inl⟩

theorem trans (h : Grows manager mid) (h' : Grows mid next) : Grows manager next where
  endpoints := fun k hk => h'.endpoints k (h.endpoints k hk)
  routes := fun aem haem => (h'.routes aem haem).elim
    (fun hmid => (h.routes aem hmid).imp id (h'.endpoints aem.endpointId)) Or.inr

/-- Growing brings no route without its endpoint. -/
theorem routesKnown (h : Grows manager next) (known : RoutesKnown manager) : RoutesKnown next :=
  fun aem haem => (h.routes aem haem).elim
    (fun hold => h.endpoints aem.endpointId (known aem hold)) id

/-- An endpoint is stored, and routes to it may be learned. -/
theorem of_insert {id : EndpointId} {endpoint : Endpoint} (addresses : List Route)
    (endpoints : next.endpoints = manager.endpoints.insert id endpoint)
    (routes : next.routes = manager.routes.insertRoutes addresses id) : Grows manager next := by
  have hstored : ∀ k, next.endpoints.contains k = true ↔
      k = id ∨ manager.endpoints.contains k = true := by
    intro k
    rw [OrdMap.contains, endpoints, OrdMap.get?_insert]
    by_cases hk : k = id <;> simp [hk, OrdMap.contains]
  constructor
  · exact fun k hk => (hstored k).mpr (Or.inr hk)
  · intro aem haem
    rw [routes] at haem
    rcases Router.mem_insertRoutes.mp haem with ⟨hid, -⟩ | hold
    · exact Or.inr ((hstored _).mpr (Or.inl hid))
    · exact Or.inl hold

theorem setEndpoint (manager : ConnectionManager) (id : EndpointId) (endpoint : Endpoint) :
    Grows manager (manager.setEndpoint id endpoint) :=
  of_insert [] rfl rfl

theorem mapVals (manager : ConnectionManager) (f : EndpointId → Endpoint → Endpoint) :
    Grows manager { manager with endpoints := manager.endpoints.mapVals f } where
  endpoints := fun k hk => by
    rw [OrdMap.contains, OrdMap.get?_mapVals, Option.isSome_map]
    exact hk
  routes := fun _ => Or.inl

/-- A run of turns that grow. -/
theorem of_run {ε : Type} {step : ConnectionManager → ε → Option (ConnectionManager × List Output)}
    {es : List ε} {outs : List Output}
    (turn : ∀ mid e next outs, step mid e = some (next, outs) → Grows mid next)
    (hrun : Run.run step manager es = some (next, outs)) : Grows manager next :=
  Run.run_invariant (P := Grows manager)
    (fun mid e next now hmid hstep => hmid.trans (turn mid e next now hstep)) (refl manager) hrun

end Grows

/-! ### Operations that grow -/

section Growing

variable {manager next : ConnectionManager} {outs : List Output}

theorem grows_installFresh (manager : ConnectionManager) (hello : Hello) (now : Instant) :
    Grows manager (manager.installFresh hello now) :=
  Grows.of_insert [] rfl rfl

/-- A hello announces routes to its own endpoint. -/
theorem grows_admitHello (manager : ConnectionManager) (hello : Hello) (sourceAddress : SocketAddr)
    (interfaceName : String) (openSocket : OpenSocket) (firstAck lastAck : Nat → SendResult)
    (now : Instant) :
    Grows manager (manager.admitHello hello sourceAddress interfaceName openSocket firstAck lastAck
      now).1 := by
  unfold admitHello
  split
  · exact Grows.refl manager
  · exact Grows.of_insert _ rfl rfl

/-- An endpoint that is overwritten is still there. -/
theorem grows_handleHello (manager : ConnectionManager) (message : Option Messages)
    (sourceAddress : SocketAddr) (interfaceName : String) (openSocket : OpenSocket)
    (firstAck lastAck : Nat → SendResult) (now : Instant) :
    Grows manager (manager.handleHello message sourceAddress interfaceName openSocket firstAck lastAck
      now).1 := by
  match message with
  | none | some (.packet _) | some (.helloAck _) => exact Grows.refl manager
  | some (.hello hello) =>
      rcases manager.handleHello_cases hello sourceAddress interfaceName openSocket firstAck lastAck
        now with ⟨-, hafter⟩ | ⟨-, -, -, hafter⟩ | ⟨-, -, -, -, hafter⟩ <;> rw [hafter]
      · exact (grows_installFresh manager hello now).trans (grows_admitHello ..)
      · exact grows_admitHello ..
      · exact Grows.refl manager

/-- The routes of an acknowledgement lead to the endpoint that it names, which was looked up before. -/
theorem grows_handleEstablishedMessage {readInfo : ReadInfo} {openSocket : OpenSocket}
    {ack : Nat → SendResult} {now : Instant}
    (h : manager.handleEstablishedMessage readInfo openSocket ack now = some (next, outs)) :
    Grows manager next := by
  unfold handleEstablishedMessage at h
  split at h
  · split at h
    · obtain ⟨rfl, -⟩ := Prod.mk.inj (Option.some.inj h)
      exact Grows.setEndpoint ..
    · obtain ⟨rfl, -⟩ := Prod.mk.inj (Option.some.inj h)
      exact Grows.refl manager
  · split at h
    · dsimp only at h
      split at h
      · obtain ⟨rfl, -⟩ := Prod.mk.inj (Option.some.inj h)
        exact Grows.setEndpoint ..
      · cases h
    · obtain ⟨rfl, -⟩ := Prod.mk.inj (Option.some.inj h)
      exact Grows.refl manager
  · split at h
    · obtain ⟨rfl, -⟩ := Prod.mk.inj (Option.some.inj h)
      exact Grows.of_insert _ rfl rfl
    · obtain ⟨rfl, -⟩ := Prod.mk.inj (Option.some.inj h)
      exact Grows.refl manager
  · obtain ⟨rfl, -⟩ := Prod.mk.inj (Option.some.inj h)
    exact Grows.refl manager

theorem grows_ensureDestination (manager : ConnectionManager) (id : EndpointId) (dial : Dial) :
    Grows manager (manager.ensureDestination id dial).1 := by
  unfold ensureDestination
  split
  · exact Grows.refl manager
  · exact Grows.setEndpoint ..

theorem grows_tryLink {attempt : ConnectionInfo × Dial}
    (h : manager.tryLink attempt = some (next, outs)) : Grows manager next := by
  obtain ⟨result, hopen⟩ := tryLink_eq_some h
  rcases openLink_cases hopen with ⟨-, rfl, -⟩ | ⟨-, -, ⟨-, -, rfl, -⟩ | ⟨-, -, -, -, rfl, -⟩⟩
  · exact Grows.refl next
  · exact (grows_ensureDestination ..).trans (Grows.setEndpoint ..)
  · exact (grows_ensureDestination ..).trans (Grows.setEndpoint ..)

theorem grows_ensureEndpointConnections {id : EndpointId} {connectionInfos : List ConnectionInfo}
    {dials : Nat → Dial}
    (h : manager.ensureEndpointConnections id connectionInfos dials = some (next, outs)) :
    Grows manager next := by
  unfold ensureEndpointConnections at h
  split at h
  · exact Grows.of_run (fun _ _ _ _ => grows_tryLink) h
  · obtain ⟨rfl, -⟩ := Prod.mk.inj (Option.some.inj h)
    exact Grows.refl manager

theorem grows_tunnelTo {bytes : List UInt8} {sends : EndpointId → Nat → SendResult}
    {id : EndpointId} (h : manager.tunnelTo bytes sends id = some (next, outs)) :
    Grows manager next := by
  unfold tunnelTo at h
  split at h
  · obtain ⟨rfl, -⟩ := Prod.mk.inj (Option.some.inj h)
    exact Grows.setEndpoint ..
  · cases h

end Growing

/-! ### Removal -/

/-- An endpoint is removed together with the routes to it. -/
theorem routesKnown_removeEndpoint {manager : ConnectionManager} (known : RoutesKnown manager)
    (id : EndpointId) : RoutesKnown (manager.removeEndpoint id) := by
  intro aem haem
  obtain ⟨hold, hne⟩ := Router.mem_removeRouteToEndpoint.mp haem
  rw [OrdMap.contains, removeEndpoint, OrdMap.get?_erase, if_neg hne]
  exact known aem hold

/-- So are the endpoints that a removal empties. -/
theorem routesKnown_removeConnection {manager : ConnectionManager} (known : RoutesKnown manager)
    (id : EndpointId) (interfaceName : String) (address : SocketAddr) :
    RoutesKnown (manager.removeConnection id interfaceName address) := by
  have hdrop : RoutesKnown (manager.dropConnection id interfaceName address) := by
    unfold dropConnection
    split
    · exact (Grows.setEndpoint ..).routesKnown known
    · exact known
  exact List.foldlRecOn _ _ hdrop fun _ hmid id _ => routesKnown_removeEndpoint hmid id

theorem routesKnown_removeDisconnected {manager : ConnectionManager} (known : RoutesKnown manager) :
    RoutesKnown manager.removeDisconnected :=
  List.foldlRecOn _ _ known fun _ hmid _ _ => routesKnown_removeConnection hmid _ _ _

/-! ### Every operation -/

/-- Every operation only grows, or removes. -/
theorem routesKnown_step {manager next : ConnectionManager} {op : ManagerOp} {outs : List Output}
    (known : RoutesKnown manager) (h : ManagerOp.apply manager op = some (next, outs)) :
    RoutesKnown next := by
  cases op with
  | handleHello =>
      obtain ⟨rfl, -⟩ := Prod.mk.inj (Option.some.inj h)
      exact (grows_handleHello ..).routesKnown known
  | handleEstablishedMessage => exact (grows_handleEstablishedMessage h).routesKnown known
  | createNewConnection => exact (grows_tryLink h).routesKnown known
  | handlePacketFromTun =>
      simp only [ManagerOp.apply, handlePacketFromTun] at h
      split at h
      · exact (Grows.of_run (fun _ _ _ _ => grows_tunnelTo) h).routesKnown known
      · obtain ⟨rfl, -⟩ := Prod.mk.inj (Option.some.inj h)
        exact known
  | removeConnection =>
      obtain ⟨rfl, -⟩ := Prod.mk.inj (Option.some.inj h)
      exact routesKnown_removeConnection known _ _ _
  | removeDisconnected =>
      obtain ⟨rfl, -⟩ := Prod.mk.inj (Option.some.inj h)
      exact routesKnown_removeDisconnected known
  | greetAllEndpoints =>
      obtain ⟨rfl, -⟩ := Prod.mk.inj (Option.some.inj h)
      exact (Grows.mapVals ..).routesKnown known
  | ensureEndpointConnections => exact (grows_ensureEndpointConnections h).routesKnown known
  | handleSelectiveDuplicationCommand =>
      obtain ⟨rfl, -⟩ := Prod.mk.inj (Option.some.inj h)
      unfold handleSelectiveDuplicationCommand
      split
      · exact (Grows.mapVals ..).routesKnown known
      · exact known
  | handlePacketSorterDeadline =>
      obtain ⟨rfl, -⟩ := Prod.mk.inj (Option.some.inj h)
      unfold handlePacketSorterDeadline
      split
      · exact (Grows.setEndpoint ..).routesKnown known
      · exact known
  | awaitTimeout =>
      obtain ⟨-, -, -, -, -, rfl⟩ := apply_awaitTimeout h
      exact (Grows.setEndpoint ..).routesKnown known
  | awaitPacketSorters =>
      obtain ⟨-, -, -, rfl⟩ := apply_awaitPacketSorters h
      exact (Grows.setEndpoint ..).routesKnown known
  | awaitEndpointSortedPackets =>
      obtain ⟨-, -, -, -, -, -, rfl⟩ := apply_awaitEndpointSortedPackets h
      exact (Grows.setEndpoint ..).routesKnown known

theorem routesKnown_run {manager next : ConnectionManager} {ops : List ManagerOp}
    {outs : List Output} (known : RoutesKnown manager)
    (hrun : Run.run ManagerOp.apply manager ops = some (next, outs)) : RoutesKnown next :=
  Run.run_invariant (P := RoutesKnown) (fun _ _ _ _ hmid hstep => routesKnown_step hmid hstep)
    known hrun

/-- A packet from the TUN device never meets a missing endpoint. -/
theorem RoutesKnown.handlePacketFromTun_isSome {manager : ConnectionManager}
    (known : RoutesKnown manager) (sliced : SlicedPacket) (bytes : List UInt8)
    (sends : EndpointId → Nat → SendResult) :
    (manager.handlePacketFromTun sliced bytes sends).isSome = true := by
  have hloop : ∀ (ids : List EndpointId) (mid : ConnectionManager),
      (∀ id ∈ ids, mid.endpoints.contains id = true) →
      ∃ next outs, Run.run (tunnelTo bytes sends) mid ids = some (next, outs) := by
    intro ids
    induction ids with
    | nil => exact fun mid _ => ⟨mid, [], rfl⟩
    | cons id rest ih =>
        intro mid hids
        obtain ⟨hid, hrest⟩ := List.forall_mem_cons.mp hids
        obtain ⟨endpoint, hfound⟩ := OrdMap.contains_iff.mp hid
        have hturn : mid.tunnelTo bytes sends id = some (mid.setEndpoint id
            (endpoint.tunnel bytes (sends id)).1,
            (endpoint.tunnel bytes (sends id)).2.map .write) := by
          rw [tunnelTo, hfound]
        obtain ⟨next, outs, hrun⟩ := ih _ fun other hother =>
          (grows_tunnelTo hturn).endpoints other (hrest other hother)
        exact ⟨next, _, Run.run_cons_eq_some.mpr ⟨_, _, outs, hturn, hrun, rfl⟩⟩
  unfold handlePacketFromTun
  split
  · rename_i ids hroute
    obtain ⟨next, outs, hrun⟩ := hloop ids manager fun id hid => by
      unfold getRoute at hroute
      split at hroute <;> cases hroute
      obtain ⟨aem, haem, rfl, -⟩ := Router.mem_lookup.mp hid
      exact known aem haem
    rw [hrun]
    rfl
  · rfl

/-- No dangling routes: wherever operations lead from a new manager, each route names an endpoint, and
    a packet from the TUN device is handled without a panic. -/
theorem routes_never_dangle (localAddress : SocketAddr) (ownId : EndpointId)
    (ownStaticRoutes : Option (List Route)) (connectionTimeout packetSorterDeadline : UInt64)
    (ops : List ManagerOp) (manager : ConnectionManager) (outs : List Output)
    (reached : Run.run ManagerOp.apply (ConnectionManager.new localAddress ownId ownStaticRoutes
      connectionTimeout packetSorterDeadline) ops = some (manager, outs)) :
    (∀ aem ∈ manager.routes.routes, manager.endpoints.contains aem.endpointId = true) ∧
    ∀ sliced bytes sends, (manager.handlePacketFromTun sliced bytes sends).isSome = true := by
  have known : RoutesKnown manager :=
    routesKnown_run (by intro aem haem; cases haem) reached
  exact ⟨known, known.handlePacketFromTun_isSome⟩

/-- Two peers announce routes, one of them twice under different sessions, and one is removed. -/
theorem routes_never_dangle_removed_peer :
    ∃ manager outs,
      Run.run ManagerOp.apply (ConnectionManager.new (.v4 2130706433 40000) 1 none 10000 100)
        [.handleHello (some (.hello ⟨154, 1, some [⟨167772160, 4278190080⟩, ⟨0, 0⟩], 0⟩))
            (.v4 2130706434 123) "DYN-interface" (fun _ _ => .ok (.v4 2130706433 40000))
            (fun _ => .ok 1) (fun _ => .ok 1) 0,
          .handleHello (some (.hello ⟨155, 2, some [⟨167772160, 4278190080⟩], 0⟩))
            (.v4 2130706435 123) "DYN-interface" (fun _ _ => .ok (.v4 2130706433 40000))
            (fun _ => .ok 1) (fun _ => .error .other) 1,
          .handleHello (some (.hello ⟨154, 3, none, 0⟩)) (.v4 2130706434 124) "DYN-interface"
            (fun _ _ => .error .other) (fun _ => .ok 1) (fun _ => .ok 1) 2,
          .removeConnection 155 "DYN-interface" (.v4 2130706435 123)] = some (manager, outs) ∧
      (∀ aem ∈ manager.routes.routes, manager.endpoints.contains aem.endpointId = true) ∧
      ∀ sliced bytes sends, (manager.handlePacketFromTun sliced bytes sends).isSome = true :=
  Run.exists_of_isSome (by decide) fun _ _ reached => routes_never_dangle _ _ _ _ _ _ _ _ reached

end MultiConnect
