/-
Module: MultiConnect.Proofs.RouterHistory
Layer: Proofs
Purpose: The routing table against its history. Whatever was announced and removed before, and however
  the table was reordered on the way, an entry is in the table exactly when its announcement has not
  been followed by a removal of its endpoint. What a lookup answers is read off from that, and so does
  not depend on the order of the announcements.
Trusted boundary: none
Main exports: RouterOp, Router.after, Router.mem_after, router_refines_history
-/
import MultiConnect.Library.History
import MultiConnect.Router

namespace MultiConnect

/-- A call that changes the routing table. -/
inductive RouterOp where
  | insertRoute (address : Route) (endpointId : EndpointId)
  | removeRouteToEndpoint (endpointId : EndpointId)
deriving DecidableEq, Repr

def RouterOp.apply (router : Router) : RouterOp → Router
  | .insertRoute address endpointId => router.insertRoute address endpointId
  | .removeRouteToEndpoint endpointId => router.removeRouteToEndpoint endpointId

/-- Announcements of routes, each by its endpoint, in order. -/
def RouterOp.announce (announcements : List AddressEndpointMapping) : List RouterOp :=
  announcements.map fun aem => .insertRoute aem.address aem.endpointId

namespace Router

/-- The routing table after a history of calls. -/
def after (ops : List RouterOp) : Router := ops.foldl RouterOp.apply Router.new

@[simp] theorem after_concat (past : List RouterOp) (op : RouterOp) :
    after (past ++ [op]) = op.apply (after past) := by
  simp [after]

/-- An entry is in the table exactly when its announcement was not followed by a removal. -/
theorem mem_after {ops : List RouterOp} {aem : AddressEndpointMapping} :
    aem ∈ (after ops).routes ↔
      History.Live (· = .insertRoute aem.address aem.endpointId)
        (· = .removeRouteToEndpoint aem.endpointId) ops := by
  induction ops using List.reverseRecOn with
  | nil => simp [after, new]
  | append_singleton past op ih =>
      rw [after_concat, History.live_concat, ← ih]
      cases op with
      | insertRoute address endpointId =>
          obtain ⟨known, id⟩ := aem
          simp [RouterOp.apply, mem_insertRoute, eq_comm]
      | removeRouteToEndpoint endpointId =>
          simp [RouterOp.apply, eq_comm]

theorem nodup_after (ops : List RouterOp) : (after ops).routes.Nodup := by
  induction ops using List.reverseRecOn with
  | nil => exact List.nodup_nil
  | append_singleton past op ih =>
      rw [after_concat]
      cases op with
      | insertRoute address endpointId => exact nodup_insertRoute _ _ ih
      | removeRouteToEndpoint endpointId => exact ih.filter _

/-- A subnet of the address was announced by the endpoint. -/
def Announces (addressToLookup : Ipv4Addr) (endpointId : EndpointId) (op : RouterOp) : Prop :=
  ∃ address : Route, op = .insertRoute address endpointId ∧
    address.address &&& address.subnetMask = addressToLookup &&& address.subnetMask

/-- A lookup names an endpoint exactly when one of its subnets of the address is still announced. -/
theorem mem_lookup_after {ops : List RouterOp} {addressToLookup : Ipv4Addr}
    {endpointId : EndpointId} :
    endpointId ∈ (after ops).lookup addressToLookup ↔
      History.Live (Announces addressToLookup endpointId)
        (· = .removeRouteToEndpoint endpointId) ops := by
  have hmerge : History.Live (Announces addressToLookup endpointId)
      (· = .removeRouteToEndpoint endpointId) ops ↔
      ∃ address : Route, History.Live
        (fun op => op = .insertRoute address endpointId ∧
          address.address &&& address.subnetMask = addressToLookup &&& address.subnetMask)
        (· = .removeRouteToEndpoint endpointId) ops :=
    History.exists_live.symm
  rw [mem_lookup, hmerge]
  constructor
  · rintro ⟨⟨address, id⟩, hmem, rfl, hreachable⟩
    exact ⟨address, (mem_after.mp hmem).mono fun op hop => ⟨hop, beq_iff_eq.mp hreachable⟩⟩
  · rintro ⟨address, h⟩
    obtain ⟨-, -, -, -, ⟨-, hreachable⟩, -⟩ := id h
    exact ⟨⟨address, endpointId⟩, mem_after.mpr (h.mono fun op hop => hop.1), rfl,
      beq_iff_eq.mpr hreachable⟩

/-- A block of announcements may be read in any order. -/
theorem live_announce_perm {announces : RouterOp → Prop} {endpointId : EndpointId}
    {announcements reordered : List AddressEndpointMapping} (past future : List RouterOp)
    (hperm : announcements.Perm reordered) :
    History.Live announces (· = .removeRouteToEndpoint endpointId)
        (past ++ RouterOp.announce announcements ++ future) ↔
      History.Live announces (· = .removeRouteToEndpoint endpointId)
        (past ++ RouterOp.announce reordered ++ future) := by
  have hkept : ∀ announcements, ∀ op ∈ RouterOp.announce announcements,
      ¬ op = .removeRouteToEndpoint endpointId := by
    simp [RouterOp.announce]
  have hops : (RouterOp.announce announcements).Perm (RouterOp.announce reordered) :=
    hperm.map _
  simp only [History.live_append, History.live_of_not_withdraws (hkept announcements),
    History.live_of_not_withdraws (hkept reordered), hops.mem_iff]

end Router

/-- The routing table refines its history. After any sequence of calls from a new router a lookup names
    an endpoint exactly when a subnet of the address was announced for it after the last removal of
    its routes; it names each endpoint once, and no entry of the table is repeated. Announcements
    that come in another order lead to the same endpoints. -/
theorem router_refines_history (ops : List RouterOp) (addressToLookup : Ipv4Addr) :
    (∀ endpointId, endpointId ∈ (Router.after ops).lookup addressToLookup ↔
      ∃ before address since, ops = before ++ .insertRoute address endpointId :: since ∧
        address.address &&& address.subnetMask = addressToLookup &&& address.subnetMask ∧
        RouterOp.removeRouteToEndpoint endpointId ∉ since) ∧
    ((Router.after ops).lookup addressToLookup).Nodup ∧
    (Router.after ops).routes.Nodup ∧
    ∀ past announcements reordered future,
      ops = past ++ RouterOp.announce announcements ++ future → announcements.Perm reordered →
      ((Router.after ops).lookup addressToLookup).Perm
        ((Router.after (past ++ RouterOp.announce reordered ++ future)).lookup addressToLookup) := by
  refine ⟨fun endpointId => ?_, Router.nodup_lookup _ _, Router.nodup_after ops, ?_⟩
  · rw [Router.mem_lookup_after]
    constructor
    · rintro ⟨before, op, since, rfl, ⟨address, rfl, hreachable⟩, hkept⟩
      exact ⟨before, address, since, rfl, hreachable, fun hmem => hkept _ hmem rfl⟩
    · rintro ⟨before, address, since, rfl, hreachable, hkept⟩
      exact ⟨before, _, since, rfl, ⟨address, rfl, hreachable⟩, fun op hmem heq => hkept (heq ▸ hmem)⟩
  · rintro past announcements reordered future rfl hperm
    refine (List.perm_ext_iff_of_nodup (Router.nodup_lookup _ _) (Router.nodup_lookup _ _)).mpr ?_
    intro endpointId
    rw [Router.mem_lookup_after, Router.mem_lookup_after]
    exact Router.live_announce_perm past future hperm

end MultiConnect
