/-
Module: MultiConnect.Proofs.CleanUp
Layer: Proofs
Purpose: What the clean-up of broken connections removes. It finds them by interface name and address
  and takes out the first connection under that key each time, so it removes exactly the broken ones
  when they come first under each key. Endpoints left without connections go with their routes, but
  only in the course of a removal: when nothing is broken, an endpoint without connections stays.
Trusted boundary: none
Main exports: Endpoint.withoutKeys, get?_removeDisconnected, withdraws_removeDisconnected,
  RemovesExactlyDead, FindsExactlyDead, removes_exactly_dead_iff
-/
import MultiConnect.Proofs.Disconnected
import MultiConnect.Proofs.EventLoopWaits

namespace MultiConnect

open ConnectionManager

/-! ### The endpoints that are left -/

/-- The endpoint with the first connection of each key taken out. -/
def Endpoint.withoutKeys (keys : List (String × SocketAddr)) (endpoint : Endpoint) : Endpoint :=
  { endpoint with connections := eraseKeys ConnectionEntry.key keys endpoint.connections }

section Removing

variable {manager : ConnectionManager} {k : EndpointId}

/-- Keys may be taken out in parts; what is emptied by the first part is empty in the end. -/
theorem filter_withoutKeys_append (found : Option Endpoint) (keys more : List (String × SocketAddr)) :
    (((found.map (Endpoint.withoutKeys keys)).filter Endpoint.hasConnections).map
        (Endpoint.withoutKeys more)).filter Endpoint.hasConnections =
      (found.map (Endpoint.withoutKeys (keys ++ more))).filter Endpoint.hasConnections := by
  cases found with
  | none => rfl
  | some e =>
      have happend : (e.withoutKeys keys).withoutKeys more = e.withoutKeys (keys ++ more) := by
        simp [Endpoint.withoutKeys, eraseKeys]
      rw [Option.map_some, Option.map_some, ← happend]
      cases hconnected : (e.withoutKeys keys).hasConnections with
      | true => rw [Option.filter_some, if_pos hconnected, Option.map_some]
      | false =>
          have hempty : (e.withoutKeys keys).connections = [] := by
            simpa [Endpoint.hasConnections] using hconnected
          have hstays : ((e.withoutKeys keys).withoutKeys more).connections = [] := by
            have hsub := eraseKeys_sublist ConnectionEntry.key more (e.withoutKeys keys).connections
            rw [hempty] at hsub
            rw [Endpoint.withoutKeys, hempty]
            exact List.sublist_nil.mp hsub
          rw [Option.filter_some, if_neg (by simp [hconnected]), Option.filter_some,
            if_neg (by simp [Endpoint.hasConnections, hstays])]
          rfl

/-- One removal takes its key out of its endpoint, and every endpoint without connections away. -/
theorem get?_removeConnection (removed : EndpointId × String × SocketAddr) :
    (manager.removeConnection removed.1 removed.2.1 removed.2.2).endpoints.get? k =
      ((manager.endpoints.get? k).map (Endpoint.withoutKeys
        (([removed].filter fun removed => removed.1 = k).map (·.2)))).filter
          Endpoint.hasConnections := by
  have hself : ∀ found : Option Endpoint, found.map (Endpoint.withoutKeys []) = found := fun found => by
    cases found <;> rfl
  rw [removeConnection, get?_removeEmptied]
  congr 1
  unfold dropConnection
  by_cases hk : removed.1 = k
  · rw [List.filter_cons_of_pos (by simpa using hk), hk]
    split
    · rename_i e found
      rw [setEndpoint, OrdMap.get?_insert_self, found, eraseP_isFor]
      rfl
    · rename_i absent
      rw [absent]
      rfl
  · rw [List.filter_cons_of_neg (by simpa using hk), List.filter_nil, List.map_nil, hself]
    split
    · rw [setEndpoint, OrdMap.get?_insert_of_ne _ _ (Ne.symm hk)]
    · rfl

/-- After any removals, what is left of an endpoint that still has connections. -/
theorem get?_foldl_removeConnection (removed : List (EndpointId × String × SocketAddr)) :
    ∀ manager : ConnectionManager, ((removed.foldl
        (fun manager removed => manager.removeConnection removed.1 removed.2.1 removed.2.2)
        manager).endpoints.get? k).filter Endpoint.hasConnections =
      ((manager.endpoints.get? k).map (Endpoint.withoutKeys
        ((removed.filter fun removed => removed.1 = k).map (·.2)))).filter Endpoint.hasConnections := by
  induction removed with
  | nil =>
      intro manager
      rw [List.foldl_nil]
      cases manager.endpoints.get? k <;> rfl
  | cons first rest ih =>
      intro manager
      rw [List.foldl_cons, ih, get?_removeConnection, filter_withoutKeys_append, ← List.map_append,
        ← List.filter_append, List.singleton_append]

/-- When something is broken, the clean-up takes out the keys of what is broken, and leaves no endpoint
    without connections. -/
theorem get?_removeDisconnected (broken : manager.disconnected ≠ []) :
    manager.removeDisconnected.endpoints.get? k =
      ((manager.endpoints.get? k).map (Endpoint.withoutKeys
        (((manager.connectionsOf k).filter ConnectionEntry.isDisconnected).map
          ConnectionEntry.key))).filter Endpoint.hasConnections := by
  have hconnected := allConnected_removeDisconnected.mpr (Or.inr broken)
  have hself : (manager.removeDisconnected.endpoints.get? k).filter Endpoint.hasConnections =
      manager.removeDisconnected.endpoints.get? k := by
    cases hfound : manager.removeDisconnected.endpoints.get? k with
    | none => rfl
    | some e =>
        have hsome := hconnected k e hfound
        rw [Option.filter_some, if_pos (by simpa [Endpoint.hasConnections] using hsome)]
  rw [← hself, ← disconnected_of, ← get?_foldl_removeConnection]
  rfl

end Removing

/-! ### The routes that are left -/

/-- The endpoint was there before and is not there after. -/
def ConnectionManager.gone (manager next : ConnectionManager) (id : EndpointId) : Bool :=
  manager.endpoints.contains id && !next.endpoints.contains id

/-- Endpoints only go, their routes go with them, and nothing else changes but the endpoints. -/
structure Withdraws (manager next : ConnectionManager) : Prop where
  absent : ∀ id, manager.endpoints.contains id = false → next.endpoints.contains id = false
  routes : next.routes.routes =
    manager.routes.routes.filter fun aem => !manager.gone next aem.endpointId
  others : { next with endpoints := manager.endpoints, routes := manager.routes } = manager

namespace Withdraws

variable {manager mid next : ConnectionManager}

/-- Nothing goes. -/
theorem of_contains (same : ∀ id, next.endpoints.contains id = manager.endpoints.contains id)
    (routes : next.routes = manager.routes)
    (others : { next with endpoints := manager.endpoints, routes := manager.routes } = manager) :
    Withdraws manager next := by
  refine ⟨fun id habsent => (same id).trans habsent, ?_, others⟩
  rw [routes, List.filter_eq_self.mpr]
  intro aem _
  simp [gone, same]

theorem trans (h : Withdraws manager mid) (h' : Withdraws mid next) : Withdraws manager next := by
  refine ⟨fun id habsent => h'.absent id (h.absent id habsent), ?_, ?_⟩
  · rw [h'.routes, h.routes, List.filter_filter]
    refine List.filter_congr fun aem _ => ?_
    have hmid := h.absent aem.endpointId
    have hnext := h'.absent aem.endpointId
    simp only [gone]
    cases hold : manager.endpoints.contains aem.endpointId <;>
      cases hbetween : mid.endpoints.contains aem.endpointId <;> simp_all
  · have hmid := h.others
    have hnext := h'.others
    cases manager
    cases mid
    cases next
    simp_all

end Withdraws

theorem routes_foldl_removeEndpoint (ids : List EndpointId) :
    ∀ manager : ConnectionManager, (ids.foldl removeEndpoint manager).routes.routes =
      manager.routes.routes.filter fun aem => aem.endpointId ∉ ids := by
  induction ids with
  | nil => simp
  | cons id rest ih =>
      intro manager
      rw [List.foldl_cons, ih]
      simp only [removeEndpoint, Router.removeRouteToEndpoint, List.filter_filter]
      refine List.filter_congr fun aem _ => ?_
      simp [Bool.and_comm]

theorem gone_foldl_removeEndpoint (manager : ConnectionManager) (ids : List EndpointId)
    (id : EndpointId) : manager.gone (ids.foldl removeEndpoint manager) id =
      (manager.endpoints.contains id && decide (id ∈ ids)) := by
  simp only [gone, OrdMap.contains, get?_foldl_removeEndpoint]
  by_cases hid : id ∈ ids <;> simp [hid]

theorem others_foldl_removeEndpoint (ids : List EndpointId) :
    ∀ manager : ConnectionManager, { ids.foldl removeEndpoint manager with
      endpoints := manager.endpoints, routes := manager.routes } = manager := by
  induction ids with
  | nil => exact fun _ => rfl
  | cons id rest ih =>
      intro manager
      have hrest := ih (manager.removeEndpoint id)
      rw [List.foldl_cons]
      cases manager
      simp_all [removeEndpoint]

/-- The endpoints without connections go, each with its routes. -/
theorem withdraws_removeEmptied (manager : ConnectionManager) :
    Withdraws manager manager.removeEmptied := by
  have hlisted : ∀ id ∈ (manager.endpoints.entries.filter fun entry =>
      !entry.2.hasConnections).map (·.1), manager.endpoints.contains id = true := by
    intro id hid
    obtain ⟨entry, hentry, rfl⟩ := List.mem_map.mp hid
    exact OrdMap.contains_iff.mpr
      ⟨entry.2, OrdMap.get?_eq_some_iff.mpr (List.mem_filter.mp hentry).1⟩
  refine ⟨fun id habsent => ?_, ?_, others_foldl_removeEndpoint _ _⟩
  · rw [OrdMap.contains, Option.isSome_eq_false_iff, Option.isNone_iff_eq_none] at habsent ⊢
    rw [get?_removeEmptied, habsent]
    rfl
  · rw [removeEmptied, routes_foldl_removeEndpoint]
    refine List.filter_congr fun aem _ => ?_
    rw [gone_foldl_removeEndpoint, decide_not]
    congr 1
    rw [Bool.eq_iff_iff, Bool.and_eq_true, decide_eq_true_iff]
    exact (and_iff_right_of_imp (hlisted aem.endpointId)).symm

theorem withdraws_removeConnection (manager : ConnectionManager) (id : EndpointId)
    (interfaceName : String) (address : SocketAddr) :
    Withdraws manager (manager.removeConnection id interfaceName address) := by
  have hdrop : Withdraws manager (manager.dropConnection id interfaceName address) := by
    unfold dropConnection
    split
    · rename_i e found
      refine Withdraws.of_contains (fun k => ?_) rfl rfl
      rw [OrdMap.contains, setEndpoint, OrdMap.get?_insert, OrdMap.contains]
      split
      · rename_i hk
        rw [hk, found]
        rfl
      · rfl
    · exact Withdraws.of_contains (fun _ => rfl) rfl rfl
  exact hdrop.trans (withdraws_removeEmptied _)

theorem withdraws_removeDisconnected (manager : ConnectionManager) :
    Withdraws manager manager.removeDisconnected :=
  List.foldlRecOn _ _ (Withdraws.of_contains (fun _ => rfl) rfl rfl) fun _ hmid _ _ =>
    hmid.trans (withdraws_removeConnection _ _ _ _)

/-! ### Exactly the broken connections -/

/-- The endpoint with its broken connections left out. -/
def Endpoint.withoutDisconnected (endpoint : Endpoint) : Endpoint :=
  { endpoint with connections := endpoint.connections.filter fun entry => !entry.isDisconnected }

/-- Each endpoint keeps the connections that are not broken, in their order, and everything else; it is
    gone when none of them is left, and the routes that are gone are those of the endpoints that are. -/
structure RemovesExactlyDead (manager next : ConnectionManager) : Prop where
  endpoints : ∀ k, next.endpoints.get? k =
    ((manager.endpoints.get? k).map Endpoint.withoutDisconnected).filter Endpoint.hasConnections
  routes : next.routes.routes =
    manager.routes.routes.filter fun aem => !manager.gone next aem.endpointId
  others : { next with endpoints := manager.endpoints, routes := manager.routes } = manager

/-- Under each key of an endpoint the broken connections come first, and something is broken or no
    endpoint is without connections. -/
structure FindsExactlyDead (manager : ConnectionManager) : Prop where
  markedFirst : ∀ k,
    MarkedFirst ConnectionEntry.key ConnectionEntry.isDisconnected (manager.connectionsOf k)
  noneEmpty : (∃ k, ∃ entry ∈ manager.connectionsOf k, entry.isDisconnected = true) ∨
    AllConnected manager

section Exactly

variable {manager : ConnectionManager}

theorem disconnected_eq_nil_iff : manager.disconnected = [] ↔ NoneDisconnected manager := by
  rw [List.eq_nil_iff_forall_not_mem]
  constructor
  · intro hnone k entry hentry
    cases hfound : manager.endpoints.get? k with
    | none => simp [connectionsOf_of_none hfound] at hentry
    | some e =>
        rw [connectionsOf_of_get? hfound] at hentry
        cases hbroken : entry.isDisconnected with
        | false => rfl
        | true =>
            exact absurd (mem_disconnected.mpr ⟨e, hfound, entry, hentry, beq_iff_eq.mp hbroken, rfl, rfl⟩)
              (hnone _)
  · rintro hnone ⟨id, interfaceName, address⟩ hmem
    obtain ⟨e, hfound, entry, hentry, hstate, -, -⟩ := mem_disconnected.mp hmem
    have hlive := hnone id entry (by rwa [connectionsOf_of_get? hfound])
    rw [ConnectionEntry.isDisconnected, hstate] at hlive
    cases hlive

theorem removeDisconnected_of_none (none : NoneDisconnected manager) :
    manager.removeDisconnected = manager := by
  rw [removeDisconnected, disconnected_eq_nil_iff.mpr none, List.foldl_nil]

theorem RemovesExactlyDead.noneDisconnected {next : ConnectionManager}
    (h : RemovesExactlyDead manager next) : NoneDisconnected next := by
  intro k entry hentry
  cases hfound : next.endpoints.get? k with
  | none => simp [connectionsOf_of_none hfound] at hentry
  | some e =>
      rw [connectionsOf_of_get? hfound] at hentry
      obtain ⟨hmap, -⟩ := Option.filter_eq_some_iff.mp ((h.endpoints k).symm.trans hfound)
      obtain ⟨before, -, rfl⟩ := Option.map_eq_some_iff.mp hmap
      simpa using (List.mem_filter.mp hentry).2

theorem RemovesExactlyDead.allConnected {next : ConnectionManager}
    (h : RemovesExactlyDead manager next) : AllConnected next := by
  intro k e hfound
  have hconnected := (Option.filter_eq_some_iff.mp ((h.endpoints k).symm.trans hfound)).2
  simpa [Endpoint.hasConnections] using hconnected

theorem findsExactlyDead_of_removes (h : RemovesExactlyDead manager manager.removeDisconnected) :
    FindsExactlyDead manager := by
  refine ⟨noneDisconnected_removeDisconnected.mp h.noneDisconnected, ?_⟩
  by_cases hnone : NoneDisconnected manager
  · have hconnected := h.allConnected
    rw [removeDisconnected_of_none hnone] at hconnected
    exact Or.inr hconnected
  · simp only [NoneDisconnected, not_forall, Bool.not_eq_false] at hnone
    obtain ⟨k, entry, hentry, hbroken⟩ := hnone
    exact Or.inl ⟨k, entry, hentry, hbroken⟩

/-- Where the broken connections come first under each key, their keys lead to them. -/
theorem withoutKeys_of_markedFirst {e : Endpoint}
    (first : MarkedFirst ConnectionEntry.key ConnectionEntry.isDisconnected e.connections) :
    e.withoutKeys ((e.connections.filter ConnectionEntry.isDisconnected).map ConnectionEntry.key) =
      e.withoutDisconnected := by
  rw [Endpoint.withoutKeys, (eraseKeys_eq_filter_iff _ _ _).mpr first, Endpoint.withoutDisconnected]

theorem removes_of_findsExactlyDead (h : FindsExactlyDead manager) :
    RemovesExactlyDead manager manager.removeDisconnected := by
  have hwithdraws := withdraws_removeDisconnected manager
  refine ⟨fun k => ?_, hwithdraws.routes, hwithdraws.others⟩
  by_cases hnone : NoneDisconnected manager
  · have hconnected : AllConnected manager := by
      refine h.noneEmpty.resolve_left ?_
      rintro ⟨id, entry, hentry, hbroken⟩
      rw [hnone id entry hentry] at hbroken
      cases hbroken
    rw [removeDisconnected_of_none hnone]
    cases hfound : manager.endpoints.get? k with
    | none => rfl
    | some e =>
        have hself : e.withoutDisconnected = e := by
          rw [Endpoint.withoutDisconnected, List.filter_eq_self.mpr]
          intro entry hentry
          rw [hnone k entry (by rwa [connectionsOf_of_get? hfound])]
          rfl
        rw [Option.map_some, hself, Option.filter_some,
          if_pos (by simpa [Endpoint.hasConnections] using hconnected k e hfound)]
  · rw [get?_removeDisconnected (mt disconnected_eq_nil_iff.mp hnone)]
    cases hfound : manager.endpoints.get? k with
    | none => rfl
    | some e =>
        have hfirst := h.markedFirst k
        rw [connectionsOf_of_get? hfound] at hfirst ⊢
        rw [Option.map_some, Option.map_some, withoutKeys_of_markedFirst hfirst]

end Exactly

/-- The clean-up removes exactly the broken connections, the endpoints that are left without any and
    the routes of these, exactly when, among the connections of an endpoint with one interface name and
    address, the broken ones come first, and something is broken or no endpoint is without
    connections. -/
theorem removes_exactly_dead_iff (manager : ConnectionManager) :
    RemovesExactlyDead manager manager.removeDisconnected ↔ FindsExactlyDead manager :=
  ⟨findsExactlyDead_of_removes, removes_of_findsExactlyDead⟩

/-- Two links are configured with one interface name and server address. The second of their
    connections breaks; the clean-up takes out the first, which is live. -/
theorem clean_up_removes_live_connection :
    ¬ ∀ (ops : List ManagerOp) (manager : ConnectionManager) (outs : List Output),
      Run.run ManagerOp.apply (ConnectionManager.new (.v4 2130706434 0) 154 none 10000 100) ops =
        some (manager, outs) → RemovesExactlyDead manager manager.removeDisconnected := by
  intro h
  have hremoves := h
    [.createNewConnection ⟨"eth0", .v4 2130706434 0, .v4 2130706433 40000, 1⟩
        ⟨.bound, .ok (), .ok (.v4 2130706434 5000), 7, .ok 1, 0⟩,
      .createNewConnection ⟨"eth0", .v4 2130706434 0, .v4 2130706433 40000, 1⟩
        ⟨.bound, .ok (), .ok (.v4 2130706434 5001), 7, .ok 1, 0⟩,
      .greetAllEndpoints fun _ index => if index = 1 then .error .networkUnreachable else .ok 1]
    _ _ rfl
  exact absurd (hremoves.noneDisconnected 1) (by decide)

end MultiConnect
