/-
Module: MultiConnect.Proofs.RouteSessions
Layer: Proofs
Purpose: Under which session a route of the table was announced. The removal of an endpoint takes its
  routes along, the overwriting of an endpoint under a new session does not, and the session of a hello
  acknowledgement is not read. `KeepsRoutesCurrent` is what an operation has to avoid so that every
  route goes on to belong to the session that its endpoint carries; it is exact.
Trusted boundary: none
Main exports: Announcement, AnnouncedUnder, RoutesCurrent, KeepsRoutesCurrent,
  routes_belong_to_session_iff
-/
import MultiConnect.Proofs.Routes
import MultiConnect.Proofs.Sessions

namespace MultiConnect

open ConnectionManager

/-! ### Announcements -/

/-- The routes that a message announces, for which endpoint and under which session. -/
structure Announcement where
  endpointId : EndpointId
  sessionId : Uuid
  routes : List Route

def Messages.announcement : Messages → Option Announcement
  | .packet _ => none
  | .hello greeting => some ⟨greeting.id, greeting.sessionId, greeting.staticRoutes.getD []⟩
  | .helloAck ack => some ⟨ack.id, ack.sessionId, ack.staticRoutes.getD []⟩

/-- The message that an operation takes in. -/
def ManagerOp.received : ManagerOp → Option Messages
  | .handleHello message .. => message
  | .handleEstablishedMessage readInfo .. => readInfo.packetBytes
  | _ => none

/-- The hello acknowledgement that an operation reads on an established connection. -/
def ManagerOp.readAck : ManagerOp → Option HelloAck
  | .handleEstablishedMessage ⟨some (.helloAck helloAck), _, _, _⟩ .. => some helloAck
  | _ => none

/-- One of the messages taken in announced a route for its endpoint under a session. -/
def AnnouncedUnder (past : List ManagerOp) (session : Uuid) (aem : AddressEndpointMapping) : Prop :=
  ∃ op ∈ past, ∃ announcement, op.received.bind Messages.announcement = some announcement ∧
    announcement.endpointId = aem.endpointId ∧ announcement.sessionId = session ∧
    aem.address ∈ announcement.routes

/-- Every route was announced under the session that its endpoint has now. -/
def RoutesCurrent (past : List ManagerOp) (manager : ConnectionManager) : Prop :=
  ∀ aem ∈ manager.routes.routes, ∃ e, manager.endpoints.get? aem.endpointId = some e ∧
    AnnouncedUnder past e.sessionId aem

/-- A hello that puts a new session in place finds no route of its endpoint that was announced only
    under other sessions, and an acknowledgement brings no route that was. -/
structure KeepsRoutesCurrent (past : List ManagerOp) (manager : ConnectionManager)
    (op : ManagerOp) : Prop where
  hello : ∀ hello, op.listeningHello = some hello → manager.Installs hello.id hello.sessionId →
    ∀ aem ∈ manager.routes.routes, aem.endpointId = hello.id →
      AnnouncedUnder (past ++ [op]) hello.sessionId aem
  helloAck : ∀ helloAck e, op.readAck = some helloAck →
    manager.endpoints.get? helloAck.id = some e →
    ∀ route ∈ helloAck.staticRoutes.getD [],
      AnnouncedUnder (past ++ [op]) e.sessionId ⟨route, helloAck.id⟩

section Announced

variable {past : List ManagerOp} {op : ManagerOp} {session : Uuid} {aem : AddressEndpointMapping}

theorem AnnouncedUnder.concat (h : AnnouncedUnder past session aem) (op : ManagerOp) :
    AnnouncedUnder (past ++ [op]) session aem := by
  obtain ⟨old, hmem, announced⟩ := h
  exact ⟨old, List.mem_append_left _ hmem, announced⟩

theorem announcedUnder_hello {hello : Hello} (hop : op.listeningHello = some hello)
    (address : aem.address ∈ hello.staticRoutes.getD []) (key : aem.endpointId = hello.id) :
    AnnouncedUnder (past ++ [op]) hello.sessionId aem := by
  obtain ⟨_, _, _, _, _, _, rfl⟩ := eq_of_listeningHello hop
  exact ⟨_, List.mem_append_right _ (List.mem_singleton_self _), _, rfl, key.symm, rfl, address⟩

end Announced

/-! ### What a hello and an acknowledgement do to the table -/

/-- A hello on the listening socket is admitted: its routes are learned, its session is in place, and
    no other endpoint changes. Otherwise another session is in place and nothing happens. -/
theorem handleHello_routes (manager : ConnectionManager) (hello : Hello)
    (sourceAddress : SocketAddr) (interfaceName : String) (openSocket : OpenSocket)
    (firstAck lastAck : Nat → SendResult) (now : Instant) :
    let next := (manager.handleHello (some (.hello hello)) sourceAddress interfaceName openSocket
      firstAck lastAck now).1
    ((manager.Installs hello.id hello.sessionId ∨
        ∃ e, manager.endpoints.get? hello.id = some e ∧ e.sessionId = hello.sessionId) ∧
      next.routes = manager.routes.insertRoutes (hello.staticRoutes.getD []) hello.id ∧
      (∃ e, next.endpoints.get? hello.id = some e ∧ e.sessionId = hello.sessionId) ∧
      ∀ k, k ≠ hello.id → next.endpoints.get? k = manager.endpoints.get? k) ∨
    (¬ manager.Installs hello.id hello.sessionId ∧ next = manager) := by
  intro next
  have hadmit : ∀ (mid : ConnectionManager) (e : Endpoint), mid.endpoints.get? hello.id = some e →
      let admitted := (mid.admitHello hello sourceAddress interfaceName openSocket firstAck lastAck
        now).1
      admitted.routes = mid.routes.insertRoutes (hello.staticRoutes.getD []) hello.id ∧
        ∀ k, k ≠ hello.id → admitted.endpoints.get? k = mid.endpoints.get? k := by
    intro mid e found
    simp only [admitHello, found, true_and]
    exact fun k hk => OrdMap.get?_insert_of_ne _ _ hk
  rcases manager.handleHello_cases hello sourceAddress interfaceName openSocket firstAck lastAck now
    with ⟨installs, hafter⟩ | ⟨e, found, session, hafter⟩ | ⟨e, found, hother, hused, hafter⟩
  · obtain ⟨hroutes, hothers⟩ := hadmit _ _ (get?_installFresh manager hello now)
    obtain ⟨e, found, session⟩ := get?_admitHello sourceAddress interfaceName openSocket firstAck
      lastAck now (get?_installFresh manager hello now)
    rw [← show next = _ from congrArg Prod.fst hafter] at hroutes hothers found
    exact Or.inl ⟨Or.inl installs, hroutes, ⟨e, found, session⟩, fun k hk =>
      (hothers k hk).trans (OrdMap.get?_insert_of_ne _ _ hk)⟩
  · obtain ⟨hroutes, hothers⟩ := hadmit _ _ found
    obtain ⟨e', found', session'⟩ := get?_admitHello sourceAddress interfaceName openSocket firstAck
      lastAck now found
    rw [← show next = _ from congrArg Prod.fst hafter] at hroutes hothers found'
    exact Or.inl ⟨Or.inr ⟨e, found, session⟩, hroutes, ⟨e', found', session'.trans session⟩, hothers⟩
  · exact Or.inr ⟨fun installs => (installs e found).2 hused, congrArg Prod.fst hafter⟩

/-- An acknowledgement for an endpoint that is there leaves its session in place, and its routes are
    learned whatever its own session is. -/
theorem apply_readAck {manager next : ConnectionManager} {op : ManagerOp} {outs : List Output}
    {helloAck : HelloAck} (hop : op.readAck = some helloAck)
    (h : ManagerOp.apply manager op = some (next, outs)) :
    (manager.endpoints.get? helloAck.id = none ∧ next = manager) ∨
    ∃ e e', manager.endpoints.get? helloAck.id = some e ∧
      next.endpoints = manager.endpoints.insert helloAck.id e' ∧ e'.sessionId = e.sessionId ∧
      next.routes = manager.routes.insertRoutes (helloAck.staticRoutes.getD []) helloAck.id := by
  unfold ManagerOp.readAck at hop
  split at hop
  · obtain rfl := Option.some.inj hop
    simp only [ManagerOp.apply, handleEstablishedMessage] at h
    split at h
    · rename_i e found
      obtain ⟨rfl, -⟩ := Prod.mk.inj (Option.some.inj h)
      exact Or.inr ⟨e, _, found, rfl, rfl, rfl⟩
    · rename_i absent
      obtain ⟨rfl, -⟩ := Prod.mk.inj (Option.some.inj h)
      exact Or.inl ⟨absent, rfl⟩
  · cases hop

/-! ### Every other operation learns nothing -/

section Quiet

variable {manager next : ConnectionManager} {outs : List Output}

theorem routes_openLink {info : ConnectionInfo} {dial : Dial} {result : Except ErrorKind Unit}
    (h : manager.openLink info dial = some (next, outs, result)) : next.routes = manager.routes := by
  have hensure : (manager.ensureDestination info.destinationEndpointId dial).1.routes =
      manager.routes := by
    unfold ensureDestination
    split <;> rfl
  rcases openLink_cases h with ⟨-, rfl, -⟩ | ⟨-, -, ⟨-, -, rfl, -⟩ | ⟨-, -, -, -, rfl, -⟩⟩
  · rfl
  · exact hensure
  · exact hensure

theorem routes_tryLink {attempt : ConnectionInfo × Dial}
    (h : manager.tryLink attempt = some (next, outs)) : next.routes = manager.routes := by
  obtain ⟨result, hopen⟩ := tryLink_eq_some h
  exact routes_openLink hopen

theorem routes_tunnelTo {bytes : List UInt8} {sends : EndpointId → Nat → SendResult}
    {id : EndpointId} (h : manager.tunnelTo bytes sends id = some (next, outs)) :
    next.routes = manager.routes := by
  unfold tunnelTo at h
  split at h
  · obtain ⟨rfl, -⟩ := Prod.mk.inj (Option.some.inj h)
    rfl
  · cases h

theorem routes_removeConnection (manager : ConnectionManager) (id : EndpointId)
    (interfaceName : String) (address : SocketAddr) :
    (manager.removeConnection id interfaceName address).routes.routes ⊆ manager.routes.routes := by
  have hdrop : (manager.dropConnection id interfaceName address).routes = manager.routes := by
    unfold dropConnection
    split <;> rfl
  refine List.foldlRecOn _ _
    (motive := fun mid : ConnectionManager => mid.routes.routes ⊆ manager.routes.routes)
    (by rw [hdrop]; exact List.Subset.refl _) ?_
  intro mid hmid id _ aem haem
  exact hmid (Router.mem_removeRouteToEndpoint.mp haem).1

theorem routes_removeDisconnected (manager : ConnectionManager) :
    manager.removeDisconnected.routes.routes ⊆ manager.routes.routes :=
  List.foldlRecOn _ _
    (motive := fun mid : ConnectionManager => mid.routes.routes ⊆ manager.routes.routes)
    (List.Subset.refl _)
    fun _ hmid _ _ => List.Subset.trans (routes_removeConnection ..) hmid

/-- Only a hello on the listening socket and an acknowledgement bring routes. -/
theorem routes_subset_of_apply {op : ManagerOp} (hello : op.listeningHello = none)
    (helloAck : op.readAck = none) (h : ManagerOp.apply manager op = some (next, outs)) :
    next.routes.routes ⊆ manager.routes.routes := by
  have hsame : ∀ {mid : ConnectionManager}, mid.routes = manager.routes →
      mid.routes.routes ⊆ manager.routes.routes := fun heq => by
    rw [heq]
    exact List.Subset.refl _
  cases op with
  | handleHello =>
      obtain ⟨rfl, -⟩ := Prod.mk.inj (Option.some.inj h)
      split
      · cases hello
      · exact List.Subset.refl _
  | handleEstablishedMessage readInfo =>
      obtain ⟨packetBytes, sourceAddress, interfaceName, endpointId⟩ := readInfo
      simp only [ManagerOp.apply, handleEstablishedMessage] at h
      split at h
      · split at h <;> obtain ⟨rfl, -⟩ := Prod.mk.inj (Option.some.inj h) <;> exact hsame rfl
      · split at h
        · split at h
          · obtain ⟨rfl, -⟩ := Prod.mk.inj (Option.some.inj h)
            exact hsame rfl
          · cases h
        · obtain ⟨rfl, -⟩ := Prod.mk.inj (Option.some.inj h)
          exact hsame rfl
      · cases helloAck
      · obtain ⟨rfl, -⟩ := Prod.mk.inj (Option.some.inj h)
        exact hsame rfl
  | createNewConnection => exact hsame (routes_tryLink h)
  | handlePacketFromTun =>
      simp only [ManagerOp.apply, handlePacketFromTun] at h
      split at h
      · exact hsame (Run.run_invariant (P := fun mid => mid.routes = manager.routes)
          (fun _ _ _ _ hmid hstep => (routes_tunnelTo hstep).trans hmid) rfl h)
      · obtain ⟨rfl, -⟩ := Prod.mk.inj (Option.some.inj h)
        exact hsame rfl
  | removeConnection =>
      obtain ⟨rfl, -⟩ := Prod.mk.inj (Option.some.inj h)
      exact routes_removeConnection ..
  | removeDisconnected =>
      obtain ⟨rfl, -⟩ := Prod.mk.inj (Option.some.inj h)
      exact routes_removeDisconnected manager
  | greetAllEndpoints =>
      obtain ⟨rfl, -⟩ := Prod.mk.inj (Option.some.inj h)
      exact hsame rfl
  | ensureEndpointConnections =>
      simp only [ManagerOp.apply, ensureEndpointConnections] at h
      split at h
      · exact hsame (Run.run_invariant (P := fun mid => mid.routes = manager.routes)
          (fun _ _ _ _ hmid hstep => (routes_tryLink hstep).trans hmid) rfl h)
      · obtain ⟨rfl, -⟩ := Prod.mk.inj (Option.some.inj h)
        exact hsame rfl
  | handleSelectiveDuplicationCommand =>
      obtain ⟨rfl, -⟩ := Prod.mk.inj (Option.some.inj h)
      unfold handleSelectiveDuplicationCommand
      split <;> exact hsame rfl
  | handlePacketSorterDeadline =>
      obtain ⟨rfl, -⟩ := Prod.mk.inj (Option.some.inj h)
      unfold handlePacketSorterDeadline
      split <;> exact hsame rfl
  | awaitTimeout =>
      obtain ⟨-, -, -, -, -, rfl⟩ := apply_awaitTimeout h
      exact hsame rfl
  | awaitPacketSorters =>
      obtain ⟨-, -, -, rfl⟩ := apply_awaitPacketSorters h
      exact hsame rfl
  | awaitEndpointSortedPackets =>
      obtain ⟨-, -, -, -, -, -, rfl⟩ := apply_awaitEndpointSortedPackets h
      exact hsame rfl

end Quiet

/-! ### The step lemma -/

section Step

variable {past : List ManagerOp} {manager next : ConnectionManager} {op : ManagerOp}
  {outs : List Output}

theorem routesCurrent_hello {hello : Hello} (hop : op.listeningHello = some hello)
    (current : RoutesCurrent past manager)
    (h : ManagerOp.apply manager op = some (next, outs)) :
    RoutesCurrent (past ++ [op]) next ↔ KeepsRoutesCurrent past manager op := by
  obtain ⟨source, name, openSocket, firstAck, lastAck, now, heq⟩ := eq_of_listeningHello hop
  have hnext : next = (manager.handleHello (some (.hello hello)) source name openSocket firstAck
      lastAck now).1 := by
    rw [heq] at h
    exact (congrArg Prod.fst (Option.some.inj h)).symm
  have hread : op.readAck = none := by rw [heq]; rfl
  rcases handleHello_routes manager hello source name openSocket firstAck lastAck now with
    ⟨hadmits, hroutes, ⟨e, found, session⟩, hothers⟩ | ⟨hrefused, hsame⟩
  · rw [← hnext] at hroutes found hothers
    constructor
    · refine fun hcurrent => ⟨fun other hother _ aem haem hid => ?_, by simp [hread]⟩
      obtain rfl := Option.some.inj (hop.symm.trans hother)
      obtain ⟨e', found', announced⟩ :=
        hcurrent aem (hroutes ▸ Router.mem_insertRoutes.mpr (Or.inr haem))
      rw [hid, found] at found'
      obtain rfl := Option.some.inj found'
      exact session ▸ announced
    · intro keeps aem haem
      by_cases hid : aem.endpointId = hello.id
      · refine ⟨e, hid ▸ found, session ▸ ?_⟩
        rcases Router.mem_insertRoutes.mp (hroutes ▸ haem) with ⟨-, hnew⟩ | hold
        · exact announcedUnder_hello hop hnew hid
        · rcases hadmits with installs | ⟨old, hfound, hsession⟩
          · exact keeps.hello hello hop installs aem hold hid
          · obtain ⟨old', hfound', announced⟩ := current aem hold
            rw [hid, hfound] at hfound'
            obtain rfl := Option.some.inj hfound'
            exact hsession ▸ announced.concat op
      · rcases Router.mem_insertRoutes.mp (hroutes ▸ haem) with ⟨hnew, -⟩ | hold
        · exact absurd hnew hid
        · obtain ⟨old, hfound, announced⟩ := current aem hold
          exact ⟨old, (hothers _ hid).trans hfound, announced.concat op⟩
  · obtain rfl : next = manager := hnext.trans hsame
    refine ⟨fun _ => ⟨fun other hother installs => ?_, by simp [hread]⟩, fun _ aem haem => ?_⟩
    · obtain rfl := Option.some.inj (hop.symm.trans hother)
      exact absurd installs hrefused
    · obtain ⟨e, found, announced⟩ := current aem haem
      exact ⟨e, found, announced.concat op⟩

theorem routesCurrent_helloAck {helloAck : HelloAck} (hop : op.readAck = some helloAck)
    (current : RoutesCurrent past manager)
    (h : ManagerOp.apply manager op = some (next, outs)) :
    RoutesCurrent (past ++ [op]) next ↔ KeepsRoutesCurrent past manager op := by
  have hlistens : op.listeningHello = none := by
    unfold ManagerOp.readAck at hop
    split at hop
    · rfl
    · cases hop
  rcases apply_readAck hop h with ⟨habsent, rfl⟩ | ⟨e, e', found, hendpoints, session, hroutes⟩
  · refine ⟨fun _ => ⟨by simp [hlistens], fun other e hother found => ?_⟩, fun _ aem haem => ?_⟩
    · obtain rfl := Option.some.inj (hop.symm.trans hother)
      rw [habsent] at found
      cases found
    · obtain ⟨e, found, announced⟩ := current aem haem
      exact ⟨e, found, announced.concat op⟩
  · constructor
    · refine fun hcurrent => ⟨by simp [hlistens], fun other old hother hold route hroute => ?_⟩
      obtain rfl := Option.some.inj (hop.symm.trans hother)
      obtain rfl := Option.some.inj (found.symm.trans hold)
      obtain ⟨e'', found', announced⟩ := hcurrent ⟨route, helloAck.id⟩
        (hroutes ▸ Router.mem_insertRoutes.mpr (Or.inl ⟨rfl, hroute⟩))
      rw [hendpoints, OrdMap.get?_insert_self] at found'
      obtain rfl := Option.some.inj found'
      exact session ▸ announced
    · intro keeps aem haem
      rw [hendpoints, OrdMap.get?_insert]
      by_cases hid : aem.endpointId = helloAck.id
      · refine ⟨e', if_pos hid, session ▸ ?_⟩
        rcases Router.mem_insertRoutes.mp (hroutes ▸ haem) with ⟨-, hnew⟩ | hold
        · have hannounced := keeps.helloAck helloAck e hop found aem.address hnew
          rw [← hid] at hannounced
          exact hannounced
        · obtain ⟨old, hfound, announced⟩ := current aem hold
          rw [hid, found] at hfound
          obtain rfl := Option.some.inj hfound
          exact announced.concat op
      · rcases Router.mem_insertRoutes.mp (hroutes ▸ haem) with ⟨hnew, -⟩ | hold
        · exact absurd hnew hid
        · obtain ⟨old, hfound, announced⟩ := current aem hold
          exact ⟨old, (if_neg hid).trans hfound, announced.concat op⟩

/-- One operation keeps the routes current exactly when it meets the condition. -/
theorem routesCurrent_step (keyed : Keyed manager) (known : RoutesKnown manager)
    (current : RoutesCurrent past manager)
    (h : ManagerOp.apply manager op = some (next, outs)) :
    RoutesCurrent (past ++ [op]) next ↔ KeepsRoutesCurrent past manager op := by
  cases hlistens : op.listeningHello with
  | some hello => exact routesCurrent_hello hlistens current h
  | none =>
      cases hread : op.readAck with
      | some helloAck => exact routesCurrent_helloAck hread current h
      | none =>
          refine iff_of_true (fun aem haem => ?_) ⟨by simp [hlistens], by simp [hread]⟩
          obtain ⟨e, found⟩ := OrdMap.contains_iff.mp (routesKnown_step known h aem haem)
          obtain ⟨old, hold, announced⟩ := current aem (routes_subset_of_apply hlistens hread h haem)
          rcases session_origin keyed h found with
            ⟨old', hold', session⟩ | ⟨hello, hop, -⟩ | ⟨-, habsent⟩
          · obtain rfl := Option.some.inj (hold.symm.trans hold')
            exact ⟨e, found, session ▸ announced.concat op⟩
          · simp [hlistens] at hop
          · simp [hold] at habsent

end Step

/-- The routes belong to the sessions in place, in every state that a run visits, exactly as long as
    each hello that replaces a session finds the table clear of its routes under other sessions, and
    each acknowledgement brings routes of the session in place. -/
theorem routes_belong_to_session_iff (localAddress : SocketAddr) (ownId : EndpointId)
    (ownStaticRoutes : Option (List Route)) (connectionTimeout packetSorterDeadline : UInt64)
    (ops : List ManagerOp) :
    Run.ThroughoutPast ManagerOp.apply RoutesCurrent (ConnectionManager.new localAddress ownId
        ownStaticRoutes connectionTimeout packetSorterDeadline) ops ↔
      Run.EachStep ManagerOp.apply KeepsRoutesCurrent (ConnectionManager.new localAddress ownId
        ownStaticRoutes connectionTimeout packetSorterDeadline) ops := by
  refine Run.throughoutPast_iff_eachStep (E := fun _ => True)
    (I := fun _ manager => Keyed manager ∧ RoutesKnown manager) ?_ ?_ (fun _ _ => trivial)
    ⟨keyed_new _ _ _ _ _, fun aem haem => by cases haem⟩ (fun aem haem => by cases haem)
  · intro _ mid op next now ⟨keyed, known⟩ _ hstep
    exact ⟨keyed_of_apply keyed hstep, routesKnown_step known hstep⟩
  · intro past mid op next now ⟨keyed, known⟩ _ current hstep
    exact routesCurrent_step keyed known current hstep

/-- A peer comes back under a new session without static routes: the route that it announced under the
    old session stays in the table. -/
theorem overwritten_session_keeps_routes :
    ¬ ∀ (ops : List ManagerOp), (∀ op ∈ ops, op.greets = false) →
      ∀ (manager : ConnectionManager) (outs : List Output),
      Run.run ManagerOp.apply (ConnectionManager.new (.v4 2130706433 40000) 1 none 10000 100) ops =
        some (manager, outs) → RoutesCurrent ops manager := by
  intro h
  obtain ⟨e, found, op, hop, announcement, hannounced, -, hsession, haddress⟩ := h
    [.handleHello (some (.hello ⟨154, 1, some [⟨167772160, 4278190080⟩], 0⟩)) (.v4 2130706434 123)
        "DYN-interface" (fun _ _ => .ok (.v4 2130706433 40000)) (fun _ => .ok 1) (fun _ => .ok 1) 0,
      .handleHello (some (.hello ⟨154, 2, none, 0⟩)) (.v4 2130706434 124) "DYN-interface"
        (fun _ _ => .ok (.v4 2130706433 40000)) (fun _ => .ok 1) (fun _ => .ok 1) 1]
    (by decide) _ _ rfl ⟨⟨167772160, 4278190080⟩, 154⟩ (by decide)
  have hnew : e.sessionId = 2 := by
    obtain rfl := Option.some.inj found
    rfl
  rcases List.mem_cons.mp hop with rfl | hop
  · obtain rfl := Option.some.inj hannounced
    rw [hnew] at hsession
    exact absurd hsession (by decide)
  · obtain rfl := List.mem_singleton.mp hop
    obtain rfl := Option.some.inj hannounced
    cases haddress

end MultiConnect
