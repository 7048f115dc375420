/-
Module: MultiConnect.Proofs.IterationOrder
Layer: Proofs
Purpose: The order in which the `HashMap` of endpoints yields its entries does not matter. Whatever
  orders its loops meet, an event loop panics where the modelled one does, reaches the same state, and
  puts out the same for each endpoint in the same order; only what different endpoints are sent may
  interleave differently. Removals commute, since each erases the first connection under its key; a loop
  that visits each endpoint once replaces every endpoint.
Trusted boundary: none
Main exports: visitEndpoints_eq, removeDisconnectedIn_eq, SameForEach, agree_applyIn,
  iteration_order_is_irrelevant
-/
import MultiConnect.HashOrder
import MultiConnect.Proofs.Isolation
import MultiConnect.Proofs.CleanUp

namespace MultiConnect

open ConnectionManager

/-! ### Removals commute -/

/-- In which order keys are taken out makes no difference. -/
theorem Endpoint.withoutKeys_perm {keys more : List (String × SocketAddr)} (order : keys.Perm more) :
    Endpoint.withoutKeys keys = Endpoint.withoutKeys more := by
  funext endpoint
  rw [Endpoint.withoutKeys, Endpoint.withoutKeys, eraseKeys_perm _ order]

/-- After a withdrawal the endpoints determine the rest. -/
theorem Withdraws.unique {manager next next' : ConnectionManager} (h : Withdraws manager next)
    (h' : Withdraws manager next') (same : next.endpoints = next'.endpoints) : next = next' := by
  have hroutes : next.routes.routes = next'.routes.routes := by
    rw [h.routes, h'.routes]
    simp only [gone, same]
  have hothers := h.others.trans h'.others.symm
  obtain ⟨endpoints, _, _, _, ⟨routes⟩⟩ := next
  obtain ⟨endpoints', _, _, _, ⟨routes'⟩⟩ := next'
  simp_all

namespace ConnectionManager

variable {manager : ConnectionManager} {iteration : Iteration}

/-- Endpoints go with their routes, each on its own. -/
theorem removeEndpoint_comm (manager : ConnectionManager) (id id' : EndpointId) :
    (manager.removeEndpoint id).removeEndpoint id' = (manager.removeEndpoint id').removeEndpoint id := by
  simp [removeEndpoint, Router.removeRouteToEndpoint, OrdMap.erase, Bool.and_comm]

/-- Two removals can change places: what the first empties, the second does not fill again. -/
theorem removeConnection_comm (manager : ConnectionManager)
    (removed removed' : EndpointId × String × SocketAddr) :
    (manager.removeConnection removed.1 removed.2.1 removed.2.2).removeConnection removed'.1
        removed'.2.1 removed'.2.2 =
      (manager.removeConnection removed'.1 removed'.2.1 removed'.2.2).removeConnection removed.1
        removed.2.1 removed.2.2 := by
  have hwithdraws := fun first second : EndpointId × String × SocketAddr =>
    (withdraws_removeConnection manager first.1 first.2.1 first.2.2).trans
      (withdraws_removeConnection _ second.1 second.2.1 second.2.2)
  refine (hwithdraws removed removed').unique (hwithdraws removed' removed) (OrdMap.ext_get? fun k => ?_)
  rw [get?_removeConnection, get?_removeConnection, get?_removeConnection, get?_removeConnection,
    filter_withoutKeys_append, filter_withoutKeys_append, Endpoint.withoutKeys_perm List.perm_append_comm]

/-! ### Loops over the endpoints -/

/-- The pass over the emptied endpoints ends with the same map in every order. -/
theorem removeEmptiedIn_eq : manager.removeEmptiedIn iteration = manager.removeEmptied :=
  (((iteration.perm manager.endpoints).filter _).map _).foldl_eq'
    (fun id _ id' _ manager => removeEndpoint_comm manager id id') manager

theorem removeConnectionIn_eq (id : EndpointId) (interfaceName : String) (address : SocketAddr) :
    manager.removeConnectionIn iteration id interfaceName address =
      manager.removeConnection id interfaceName address :=
  removeEmptiedIn_eq

/-- So does the clean-up, whose passes may each meet an order of their own. -/
theorem removeDisconnectedIn_eq (iterations : Nat → Iteration) :
    manager.removeDisconnectedIn iterations = manager.removeDisconnected := by
  have hindex : ∀ toBeRemoved : List (EndpointId × String × SocketAddr), toBeRemoved.zipIdx.foldl
      (fun manager removed => manager.removeConnection removed.1.1 removed.1.2.1 removed.1.2.2)
        manager =
      toBeRemoved.foldl (fun manager removed =>
        manager.removeConnection removed.1 removed.2.1 removed.2.2) manager := fun toBeRemoved => by
    conv_rhs => rw [← List.zipIdx_map_fst 0 toBeRemoved, List.foldl_map]
  simp only [removeDisconnectedIn, removeConnectionIn_eq, hindex]
  exact (((iterations 0).perm manager.endpoints).flatMap_right _).foldl_eq'
    (fun removed _ removed' _ manager => removeConnection_comm manager removed removed') manager

/-- A loop that visits each endpoint once replaces every endpoint. -/
theorem visitEndpoints_eq (visit : EndpointId → Endpoint → Endpoint × List Output) :
    manager.visitEndpoints iteration visit =
      ({ manager with endpoints := manager.endpoints.mapVals fun id endpoint => (visit id endpoint).1 },
        (iteration.order manager.endpoints).flatMap fun entry => (visit entry.1 entry.2).2) := by
  have hloop : ∀ (entries : List (EndpointId × Endpoint)) (visited : ConnectionManager × List Output),
      entries.foldl (fun visited entry => (visited.1.setEndpoint entry.1 (visit entry.1 entry.2).1,
          visited.2 ++ (visit entry.1 entry.2).2)) visited =
        ({ visited.1 with
            endpoints := entries.foldl (fun m entry => m.insert entry.1 (visit entry.1 entry.2).1)
              visited.1.endpoints },
          visited.2 ++ entries.flatMap fun entry => (visit entry.1 entry.2).2) := by
    intro entries
    induction entries with
    | nil => simp
    | cons entry rest ih =>
        intro visited
        rw [List.foldl_cons, ih, List.flatMap_cons, List.append_assoc]
        rfl
  rw [visitEndpoints, hloop, List.nil_append,
    OrdMap.foldl_insert_entries (fun id endpoint => (visit id endpoint).1) (iteration.perm _)]

end ConnectionManager

/-! ### What is put out for each endpoint -/

/-- For each endpoint the same is put out, in the same order. -/
def SameForEach (outs outs' : List Output) : Prop :=
  ∀ k, outputsFor k outs = outputsFor k outs'

theorem SameForEach.append {first first' rest rest' : List Output} (h : SameForEach first first')
    (h' : SameForEach rest rest') : SameForEach (first ++ rest) (first' ++ rest') := fun k => by
  rw [outputsFor_append, outputsFor_append, h k, h' k]

/-- What a pass puts out for one endpoint comes from its own entry. -/
theorem outputsFor_flatMap {entries : List (EndpointId × Endpoint)}
    {f : EndpointId × Endpoint → List Output} (k : EndpointId)
    (own : ∀ entry ∈ entries, ∀ out ∈ f entry, out.endpointId = entry.1) :
    outputsFor k (entries.flatMap f) = (entries.filter fun entry => entry.1 = k).flatMap f := by
  induction entries with
  | nil => rfl
  | cons entry rest ih =>
      have hrest := ih fun entry hentry => own entry (List.mem_cons_of_mem _ hentry)
      have hown := own entry List.mem_cons_self
      rw [List.flatMap_cons, outputsFor_append, hrest]
      by_cases hk : entry.1 = k
      · rw [List.filter_cons_of_pos (by simpa using hk), List.flatMap_cons, outputsFor,
          List.filter_eq_self.mpr fun out hout => by simpa [hown out hout] using hk]
      · rw [List.filter_cons_of_neg (by simpa using hk), outputsFor,
          List.filter_eq_nil_iff.mpr fun out hout => by simpa [hown out hout] using hk, List.nil_append]

/-- A pass in another order puts out the same for each endpoint. -/
theorem sameForEach_order {endpoints : OrdMap EndpointId Endpoint} {iteration : Iteration}
    {f : EndpointId × Endpoint → List Output}
    (own : ∀ entry ∈ endpoints.entries, ∀ out ∈ f entry, out.endpointId = entry.1) :
    SameForEach ((iteration.order endpoints).flatMap f) (endpoints.entries.flatMap f) := fun k => by
  have horder := iteration.perm endpoints
  rw [outputsFor_flatMap k own, outputsFor_flatMap k fun entry hentry =>
    own entry (horder.mem_iff.mp hentry),
    OrdMap.filter_of_perm horder fun entry hentry => of_decide_eq_true hentry]

/-- Greetings change each endpoint on its own, so only the order between endpoints is free. -/
theorem sameForEach_greetAllEndpointsIn {manager : ConnectionManager} {iteration : Iteration}
    (keyed : Keyed manager) (sends : EndpointId → Nat → SendResult) :
    (manager.greetAllEndpointsIn iteration sends).1 = (manager.greetAllEndpoints sends).1 ∧
      SameForEach (manager.greetAllEndpointsIn iteration sends).2
        (manager.greetAllEndpoints sends).2 := by
  rw [greetAllEndpointsIn, visitEndpoints_eq]
  refine ⟨rfl, sameForEach_order ?_⟩
  rintro ⟨id, endpoint⟩ hentry out hout
  obtain ⟨write, hwrite, rfl⟩ := List.mem_map.mp hout
  obtain ⟨entry, -, rfl⟩ := List.mem_map.mp hwrite
  exact keyed id endpoint (OrdMap.get?_eq_some_iff.mpr hentry)

/-! ### Operations and event loops -/

/-- An operation in any order agrees with the operation in the order of the ids. -/
theorem agree_applyIn {manager : ConnectionManager} (keyed : Keyed manager)
    (iterations : Nat → Iteration) (op : ManagerOp) :
    Run.Agree SameForEach (ManagerOp.applyIn iterations manager op) (ManagerOp.apply manager op) := by
  have hsame : ∀ outs : List Output, SameForEach outs outs := fun _ _ => rfl
  cases op with
  | removeConnection id interfaceName address => exact .some ⟨removeConnectionIn_eq .., hsame []⟩
  | removeDisconnected => exact .some ⟨removeDisconnectedIn_eq _, hsame []⟩
  | greetAllEndpoints sends => exact .some (sameForEach_greetAllEndpointsIn keyed sends)
  | handleSelectiveDuplicationCommand duplicationCommand =>
      refine .some ⟨?_, hsame []⟩
      cases duplicationCommand with
      | none => rfl
      | some command =>
          cases command
          simp only [handleSelectiveDuplicationCommandIn, visitEndpoints_eq]
          rfl
  | _ => exact Run.Agree.refl hsame _

/-- And so do the operations of an iteration, one after the other. -/
theorem agree_runIn {manager : ConnectionManager} (keyed : Keyed manager)
    (iterations : Nat → Nat → Iteration) (ops : List ManagerOp) :
    Run.Agree SameForEach (runIn iterations manager ops) (Run.run ManagerOp.apply manager ops) := by
  have hrun : Run.Agree SameForEach (runIn iterations manager ops)
      (Run.run ManagerOp.apply manager (ops.zipIdx.map fun op => op.1)) :=
    Run.run_agree (P := Keyed) _ (fun _ => rfl) (fun _ _ _ _ => SameForEach.append)
      (fun _ _ _ _ => keyed_of_apply)
      (fun _ op hkeyed => agree_applyIn hkeyed (iterations op.2) op.1) ops.zipIdx manager keyed
  rwa [List.zipIdx_map_fst] at hrun

/-- Whatever orders the `HashMap` of endpoints yields its entries in, each program panics where its
    model does, and otherwise reaches the same state, with the same put out for each endpoint. -/
theorem iteration_order_is_irrelevant :
    (∀ settings server, serverMain settings = some server →
      ∀ events : List (ServerEvent × (Nat → Nat → Iteration)),
        Run.Agree SameForEach (Run.run serverStepIn server events)
          (Run.run serverStep server (events.map fun event => event.1))) ∧
    ∀ config dials client outs, clientMain config dials = some (client, outs) →
      ∀ events : List (ClientEvent × (Nat → Nat → Iteration)),
        Run.Agree SameForEach (Run.run (clientStepIn config.toClientSettings) client events)
          (Run.run (clientStep config.toClientSettings) client (events.map fun event => event.1)) := by
  constructor
  · intro settings server hmain events
    obtain ⟨tunnel, -, rfl⟩ := serverMain_eq_some hmain
    refine Run.run_agree (P := Keyed) _ (fun _ => rfl) (fun _ _ _ _ => SameForEach.append)
      (fun _ _ _ _ => keyed_serverStep) (fun manager event keyed => ?_) events _ (keyed_new _ _ _ _ _)
    unfold serverStepIn serverStep
    cases serverOps manager event.1 with
    | some ops => exact agree_runIn keyed _ _
    | none => exact .none
  · intro config dials client outs hmain events
    have hkeyed : Keyed client := by
      unfold clientMain at hmain
      split at hmain
      · rename_i manager hmanager
        obtain ⟨tunnel, localAddress, -, rfl⟩ := clientManager_eq_some hmanager
        exact keyed_run (keyed_new _ _ _ _ _) (clientStart_eq_some hmain).1
      · cases hmain
    refine Run.run_agree (P := Keyed) _ (fun _ => rfl) (fun _ _ _ _ => SameForEach.append)
      (fun _ _ _ _ => keyed_clientStep) (fun manager event keyed => ?_) events client hkeyed
    unfold clientStepIn clientStep
    cases clientOps config.toClientSettings manager event.1 with
    | some ops => exact agree_runIn keyed _ _
    | none => exact .none

/-- The entries of a `HashMap` in decreasing order. -/
private def decreasing : Iteration where
  order endpoints := endpoints.entries.reverse
  perm endpoints := endpoints.entries.reverse_perm

/-- Two clients say hello, and neither acknowledgement of the second can be sent; the server switches
    an interface off, and removes the broken connection. -/
private def twoHellos : List (ServerEvent × (Nat → Nat → Iteration)) :=
  [(.newConnection (some (.hello ⟨154, 1, none, 0⟩)) (.v4 2130706433 5000)
      (fun _ _ => .ok (.v4 2130706434 40000)) (fun _ => .ok 1) (fun _ => .ok 1) 0, fun _ _ => decreasing),
    (.newConnection (some (.hello ⟨155, 2, none, 0⟩)) (.v4 2130706435 5000)
      (fun _ _ => .ok (.v4 2130706434 40000)) (fun _ => .error .other) (fun _ => .error .other) 0,
      fun _ _ => decreasing),
    (.loop (.duplicationMessage (some (.interfaceState ⟨serverInterfaceName, false⟩))),
      fun _ _ => decreasing)]

theorem iteration_order_is_irrelevant_decreasing :
    ∃ server, serverMain relayDeployment.server = some server ∧
      (Run.run serverStepIn server twoHellos).isSome = true ∧
      Run.Agree SameForEach (Run.run serverStepIn server twoHellos)
        (Run.run serverStep server (twoHellos.map fun event => event.1)) := by
  have hrun : ((serverMain relayDeployment.server).bind fun server =>
      Run.run serverStepIn server twoHellos).isSome = true := by decide
  obtain ⟨reached, hreached⟩ := Option.isSome_iff_exists.mp hrun
  obtain ⟨server, hmain, hserver⟩ := Option.bind_eq_some_iff.mp hreached
  exact ⟨server, hmain, by rw [hserver, Option.isSome_some],
    iteration_order_is_irrelevant.1 _ server hmain _⟩

end MultiConnect
