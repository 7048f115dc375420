/-
Module: MultiConnect.Router
Layer: Model
Purpose: The routing table of `router.rs`: a vector of announced subnets with the endpoint that
  announced each, in which the first default route is swapped to the end after every insertion.
Trusted boundary: none
Main exports: Router, Router.insertRoute, Router.lookup, Router.removeRouteToEndpoint,
  Router.mem_insertRoute, Router.mem_insertRoutes, Router.insertRoutes_of_known, Router.mem_lookup,
  Router.nodup_lookup
-/
import Mathlib.Data.List.Nodup
import Mathlib.Logic.Function.Iterate
import MultiConnect.Messages

namespace MultiConnect

namespace Route

def calculateNetworkAddress (route : Route) : Ipv4Addr := route.address &&& route.subnetMask

def reachableFrom (route : Route) (addressToTest : Ipv4Addr) : Bool :=
  route.calculateNetworkAddress == (addressToTest &&& route.subnetMask)

/-- The default route `0.0.0.0/0.0.0.0`. -/
def isDefault (route : Route) : Bool := route.address == 0 && route.subnetMask == 0

end Route

/-- An announced subnet and the endpoint that announced it. -/
structure AddressEndpointMapping where
  address : Route
  endpointId : EndpointId
deriving DecidableEq, Repr

structure Router where
  routes : List AddressEndpointMapping
deriving DecidableEq, Repr

/-- `Vec::swap` for two indices in range; other indices are not used. -/
def swapEntries {α : Type} (l : List α) (i j : Nat) : List α :=
  match l[i]?, l[j]? with
  | some a, some b => (l.set i b).set j a
  | _, _ => l

namespace Router

def new : Router := ⟨[]⟩

/-- Push an entry unless the table already holds it. -/
def learn (routes : List AddressEndpointMapping) (aem : AddressEndpointMapping) :
    List AddressEndpointMapping :=
  if aem ∈ routes then routes else routes ++ [aem]

/-- Ensure the default route is the last in the list: the first default route found is swapped with
    the last entry. -/
def defaultLast (routes : List AddressEndpointMapping) : List AddressEndpointMapping :=
  match routes.findIdx? fun n => n.address.isDefault with
  | some index =>
      if index ≠ routes.length - 1 then swapEntries routes index (routes.length - 1) else routes
  | none => routes

def insertRoute (router : Router) (address : Route) (endpointId : EndpointId) : Router :=
  ⟨defaultLast (learn router.routes ⟨address, endpointId⟩)⟩

/-- One turn of the loop of `lookup`. -/
def collectReachable (addressToLookup : Ipv4Addr) (endpoints : List EndpointId)
    (aem : AddressEndpointMapping) : List EndpointId :=
  if aem.address.reachableFrom addressToLookup then
    if aem.endpointId ∈ endpoints then endpoints else endpoints ++ [aem.endpointId]
  else endpoints

/-- The endpoints that announced a subnet of the address, in table order, each once. -/
def lookup (router : Router) (addressToLookup : Ipv4Addr) : List EndpointId :=
  router.routes.foldl (collectReachable addressToLookup) []

def removeRouteToEndpoint (router : Router) (endpointId : EndpointId) : Router :=
  ⟨router.routes.filter fun aem => aem.endpointId ≠ endpointId⟩

/-- Announce a list of routes of one endpoint, in order. -/
def insertRoutes (router : Router) (addresses : List Route) (endpointId : EndpointId) : Router :=
  addresses.foldl (fun table address => table.insertRoute address endpointId) router

/-! ### What the operations keep -/

theorem swapEntries_perm {α : Type} (l : List α) (i j : Nat) : (swapEntries l i j).Perm l := by
  unfold swapEntries
  split
  · rename_i x y hx hy
    obtain ⟨hi, rfl⟩ := List.getElem?_eq_some_iff.mp hx
    obtain ⟨hj, rfl⟩ := List.getElem?_eq_some_iff.mp hy
    exact List.set_set_perm hi hj
  · exact List.Perm.refl l

theorem mem_learn {routes : List AddressEndpointMapping} {new aem : AddressEndpointMapping} :
    aem ∈ learn routes new ↔ aem = new ∨ aem ∈ routes := by
  unfold learn
  split
  · rename_i hknown
    exact ⟨Or.inr, fun h => h.elim (fun heq => heq ▸ hknown) id⟩
  · simp [or_comm]

theorem nodup_learn {routes : List AddressEndpointMapping} (new : AddressEndpointMapping)
    (h : routes.Nodup) : (learn routes new).Nodup := by
  unfold learn
  split
  · exact h
  · rename_i hnew
    exact List.nodup_append'.mpr ⟨h, List.nodup_singleton _, List.disjoint_singleton.mpr hnew⟩

/-- Moving the default route to the end loses and repeats nothing. -/
theorem defaultLast_perm (routes : List AddressEndpointMapping) :
    (defaultLast routes).Perm routes := by
  unfold defaultLast
  split
  · split
    · exact swapEntries_perm ..
    · exact List.Perm.refl routes
  · exact List.Perm.refl routes

/-- An insertion brings the entry that was announced, and no other. -/
theorem mem_insertRoute {router : Router} {address : Route} {endpointId : EndpointId}
    {aem : AddressEndpointMapping} :
    aem ∈ (router.insertRoute address endpointId).routes ↔
      aem = ⟨address, endpointId⟩ ∨ aem ∈ router.routes :=
  (defaultLast_perm _).mem_iff.trans mem_learn

theorem nodup_insertRoute {router : Router} (address : Route) (endpointId : EndpointId)
    (h : router.routes.Nodup) : (router.insertRoute address endpointId).routes.Nodup :=
  (defaultLast_perm _).nodup_iff.mpr (nodup_learn _ h)

/-- The table after a list of announcements of one endpoint: what was there, and what was announced. -/
theorem mem_insertRoutes {addresses : List Route} {endpointId : EndpointId} :
    ∀ {router : Router} {aem : AddressEndpointMapping},
      aem ∈ (router.insertRoutes addresses endpointId).routes ↔
        (aem.endpointId = endpointId ∧ aem.address ∈ addresses) ∨ aem ∈ router.routes := by
  induction addresses with
  | nil =>
      intro router aem
      simp [insertRoutes]
  | cons address rest ih =>
      intro router aem
      rw [insertRoutes, List.foldl_cons, ← insertRoutes, ih, mem_insertRoute]
      obtain ⟨known, id⟩ := aem
      simp only [AddressEndpointMapping.mk.injEq, List.mem_cons]
      grind

/-- Announcing known routes moves the default route as often. -/
theorem insertRoutes_of_known {addresses : List Route} {endpointId : EndpointId} :
    ∀ {router : Router}, (∀ address ∈ addresses, ⟨address, endpointId⟩ ∈ router.routes) →
      (router.insertRoutes addresses endpointId).routes =
        defaultLast^[addresses.length] router.routes := by
  induction addresses with
  | nil => exact fun _ => rfl
  | cons address rest ih =>
      intro router known
      have hinsert : (router.insertRoute address endpointId).routes =
          defaultLast router.routes := by
        rw [insertRoute, learn, if_pos (known address List.mem_cons_self)]
      rw [insertRoutes, List.foldl_cons, ← insertRoutes, ih, hinsert,
        List.length_cons, Function.iterate_succ_apply]
      intro other hother
      rw [hinsert]
      exact (defaultLast_perm _).mem_iff.mpr (known other (List.mem_cons_of_mem _ hother))

/-- A table is left as it is when every announced route is known and the default route, moved to the end
    as often, comes back to its place. -/
theorem insertRoutes_eq_self_iff {router : Router} {addresses : List Route} {id : EndpointId} :
    router.insertRoutes addresses id = router ↔
      (∀ address ∈ addresses, ⟨address, id⟩ ∈ router.routes) ∧
        defaultLast^[addresses.length] router.routes = router.routes := by
  have hext : router.insertRoutes addresses id = router ↔
      (router.insertRoutes addresses id).routes = router.routes :=
    ⟨congrArg Router.routes, fun h => by cases router; exact congrArg Router.mk h⟩
  rw [hext]
  constructor
  · intro h
    have known : ∀ address ∈ addresses, ⟨address, id⟩ ∈ router.routes := fun address hmem =>
      h ▸ mem_insertRoutes.mpr (Or.inl ⟨rfl, hmem⟩)
    exact ⟨known, (insertRoutes_of_known known).symm.trans h⟩
  · exact fun h => (insertRoutes_of_known h.1).trans h.2

@[simp] theorem mem_removeRouteToEndpoint {router : Router} {endpointId : EndpointId}
    {aem : AddressEndpointMapping} :
    aem ∈ (router.removeRouteToEndpoint endpointId).routes ↔
      aem ∈ router.routes ∧ aem.endpointId ≠ endpointId := by
  simp [removeRouteToEndpoint]

theorem mem_collectReachable {addressToLookup : Ipv4Addr} {endpoints : List EndpointId}
    {aem : AddressEndpointMapping} {endpointId : EndpointId} :
    endpointId ∈ collectReachable addressToLookup endpoints aem ↔
      endpointId ∈ endpoints ∨
        aem.endpointId = endpointId ∧ aem.address.reachableFrom addressToLookup = true := by
  unfold collectReachable
  split
  · split
    · rename_i hreachable hknown
      exact ⟨Or.inl, fun h => h.elim id fun h => h.1 ▸ hknown⟩
    · rename_i hreachable hnew
      simp [hreachable, eq_comm]
  · rename_i hunreachable
    simp [hunreachable]

/-- A lookup names the endpoints of the table that announced a subnet of the address. -/
theorem mem_lookup {router : Router} {addressToLookup : Ipv4Addr} {endpointId : EndpointId} :
    endpointId ∈ router.lookup addressToLookup ↔
      ∃ aem ∈ router.routes,
        aem.endpointId = endpointId ∧ aem.address.reachableFrom addressToLookup = true := by
  -- the accumulator holds the ids of the table entries already read
  have hloop : ∀ (unread : List AddressEndpointMapping) (endpoints : List EndpointId),
      endpointId ∈ unread.foldl (collectReachable addressToLookup) endpoints ↔
        endpointId ∈ endpoints ∨ ∃ aem ∈ unread,
          aem.endpointId = endpointId ∧ aem.address.reachableFrom addressToLookup = true := by
    intro unread
    induction unread with
    | nil => simp
    | cons aem rest ih =>
        intro endpoints
        rw [List.foldl_cons, ih, mem_collectReachable, List.exists_mem_cons_iff, or_assoc]
  exact (hloop router.routes []).trans (by simp)

/-- A lookup names each endpoint once. -/
theorem nodup_lookup (router : Router) (addressToLookup : Ipv4Addr) :
    (router.lookup addressToLookup).Nodup := by
  have hloop : ∀ (unread : List AddressEndpointMapping) (endpoints : List EndpointId),
      endpoints.Nodup → (unread.foldl (collectReachable addressToLookup) endpoints).Nodup := by
    intro unread
    induction unread with
    | nil => exact fun endpoints h => h
    | cons aem rest ih =>
        intro endpoints h
        refine ih _ ?_
        unfold collectReachable
        split
        · split
          · exact h
          · rename_i hnew
            exact List.nodup_append'.mpr ⟨h, List.nodup_singleton _,
              List.disjoint_singleton.mpr hnew⟩
        · exact h
  exact hloop router.routes [] List.nodup_nil

end Router

end MultiConnect
