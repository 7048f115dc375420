/-
Module: MultiConnect.Proofs.FailedSetup
Layer: Proofs
Purpose: What is left of the manager's state when a connection could not be set up. Opening a link fails
  without a trace until its socket is connected; when the greeting cannot be sent the endpoint stays and
  its hello counter has moved on. A hello whose connection cannot be opened has already installed its
  endpoint, over a working one when the session is new, and it still announces its routes.
Trusted boundary: none
Main exports: Endpoint.core, LeftAlone, CannotOpen, AddsNothing, failed_setup_iff
-/
import MultiConnect.Proofs.DefaultRoutes
import MultiConnect.Proofs.Sessions

namespace MultiConnect

open ConnectionManager

/-! ### What a failed set-up must leave alone -/

/-- An endpoint without what acknowledgements change: the states of its connections and the counter of
    the acknowledgements. -/
structure EndpointCore where
  id : EndpointId
  sessionId : Uuid
  connections : List ConnectionEntry
  txCounter : UInt64
  helloCounter : UInt64
  packetSorter : PacketSorter
deriving DecidableEq

def Endpoint.core (endpoint : Endpoint) : EndpointCore where
  id := endpoint.id
  sessionId := endpoint.sessionId
  connections := endpoint.connections.map fun entry => entry.setState .startup
  txCounter := endpoint.txCounter
  helloCounter := endpoint.helloCounter
  packetSorter := endpoint.packetSorter

/-- The endpoints are the same but for what acknowledgements change, and so are the history of sessions
    and the routing table. -/
structure LeftAlone (manager next : ConnectionManager) : Prop where
  endpoints : ∀ k,
    (next.endpoints.get? k).map Endpoint.core = (manager.endpoints.get? k).map Endpoint.core
  sessionHistory : next.sessionHistory = manager.sessionHistory
  routes : next.routes = manager.routes

theorem LeftAlone.refl (manager : ConnectionManager) : LeftAlone manager manager :=
  ⟨fun _ => rfl, rfl, rfl⟩

theorem core_acknowledge (endpoint : Endpoint) (ownId : EndpointId) (sessionId : Uuid)
    (ownStaticRoutes : Option (List Route)) (sends : Nat → SendResult) :
    (endpoint.acknowledge ownId sessionId ownStaticRoutes sends).1.core = endpoint.core := by
  have hstates : (broadcast ConnectionEntry.isLive Endpoint.settleAck sends
      endpoint.connections).map (fun entry => entry.setState .startup) =
      endpoint.connections.map fun entry => entry.setState .startup := by
    refine List.ext_getElem (by simp [broadcast]) fun index _ _ => ?_
    simp only [broadcast, List.getElem_map, List.getElem_mapIdx]
    split <;> rfl
  simp only [Endpoint.acknowledge, Endpoint.core, hstates]

/-! ### Links -/

/-- Opening a link that fails leaves the manager alone exactly when no socket was connected for it. -/
theorem openLink_error_iff {manager next : ConnectionManager} {info : ConnectionInfo} {dial : Dial}
    {outs : List Output} {error : ErrorKind}
    (h : manager.openLink info dial = some (next, outs, .error error)) :
    LeftAlone manager next ↔ ∀ localAddr, ¬ dial.Reaches localAddr := by
  rcases openLink_cases h with
    ⟨unreached, rfl, -, -⟩ | ⟨localAddr, reaches, ⟨-, -, rfl, -, -⟩ | ⟨-, -, -, -, -, -, hok⟩⟩
  · exact iff_of_true (LeftAlone.refl _) unreached
  · refine iff_of_false (fun left => ?_) fun unreached => unreached localAddr reaches
    have hcore := left.endpoints info.destinationEndpointId
    rw [get?_ensureDestination, if_pos rfl] at hcore
    cases hfound : manager.endpoints.get? info.destinationEndpointId with
    | none => simp [hfound] at hcore
    | some e =>
        have hcounter := congrArg EndpointCore.helloCounter
          (Option.some.inj (hcore.trans (by rw [hfound]; rfl)))
        simp only [ensureDestination, hfound, Endpoint.core] at hcounter
        exact absurd hcounter (by grind)
  · cases hok

/-! ### Hellos on the listening socket -/

/-- The hello brings a connection that is not known to its session, and its socket cannot be opened. -/
structure CannotOpen (manager : ConnectionManager) (hello : Hello) (sourceAddress : SocketAddr)
    (interfaceName : String) (openSocket : OpenSocket) : Prop where
  unknown : ∀ e, manager.endpoints.get? hello.id = some e → e.sessionId = hello.sessionId →
    ∀ entry ∈ e.connections, entry.isFor interfaceName sourceAddress = false
  unopened : ∃ error, openSocket manager.localAddress sourceAddress = .error error

/-- The hello is refused, or it comes under the session in place and announces nothing new: every route
    is in the table, and the swap that each of them brings about moves nothing in the end. -/
def AddsNothing (manager : ConnectionManager) (hello : Hello) : Prop :=
  ∃ e, manager.endpoints.get? hello.id = some e ∧
    if e.sessionId = hello.sessionId then
      (∀ address ∈ hello.staticRoutes.getD [], ⟨address, hello.id⟩ ∈ manager.routes.routes) ∧
        Router.SwapsBack manager.routes.routes (hello.staticRoutes.getD []).length
    else hello.sessionId ∈ manager.sessionHistory

section Hello

variable {manager : ConnectionManager} {hello : Hello} {sourceAddress : SocketAddr}
  {interfaceName : String} {openSocket : OpenSocket} {firstAck lastAck : Nat → SendResult}
  {now : Instant}

/-- Without the connection, a hello under the session in place is acknowledged and announces its
    routes. -/
theorem leftAlone_admitHello {e : Endpoint} (found : manager.endpoints.get? hello.id = some e)
    (session : e.sessionId = hello.sessionId)
    (cannot : CannotOpen manager hello sourceAddress interfaceName openSocket) :
    LeftAlone manager (manager.admitHello hello sourceAddress interfaceName openSocket firstAck lastAck
        now).1 ↔
      manager.routes.insertRoutes (hello.staticRoutes.getD []) hello.id = manager.routes := by
  obtain ⟨error, hopen⟩ := cannot.unopened
  have hadd : e.addConnection sourceAddress interfaceName manager.localAddress
      manager.connectionTimeout openSocket now = .error error :=
    Endpoint.addConnection_eq_error.mpr ⟨cannot.unknown e found session, hopen⟩
  simp only [admitHello, found, addAndAcknowledge, hadd]
  refine ⟨fun left => left.routes, fun routes => ⟨fun k => ?_, rfl, routes⟩⟩
  rw [OrdMap.get?_insert]
  split
  · rename_i hk
    rw [hk, found]
    exact congrArg some (core_acknowledge _ _ _ _ _)
  · rfl

/-- A hello whose connection cannot be opened leaves the manager alone exactly when it adds nothing. -/
theorem handleHello_cannotOpen_iff
    (cannot : CannotOpen manager hello sourceAddress interfaceName openSocket) :
    LeftAlone manager (manager.handleHello (some (.hello hello)) sourceAddress interfaceName openSocket
      firstAck lastAck now).1 ↔ AddsNothing manager hello := by
  rcases manager.handleHello_cases hello sourceAddress interfaceName openSocket firstAck lastAck now
    with ⟨installs, hafter⟩ | ⟨e, found, session, hafter⟩ | ⟨e, found, hother, hused, hafter⟩ <;>
    rw [hafter]
  · obtain ⟨e', found', session'⟩ := get?_admitHello sourceAddress interfaceName openSocket firstAck
      lastAck now (get?_installFresh manager hello now)
    refine iff_of_false (fun left => ?_) fun ⟨e, found, adds⟩ => ?_
    · have hcore := left.endpoints hello.id
      rw [found'] at hcore
      cases hfound : manager.endpoints.get? hello.id with
      | none => simp [hfound] at hcore
      | some e =>
          rw [hfound] at hcore
          have hsame := congrArg EndpointCore.sessionId (Option.some.inj hcore)
          exact (installs e hfound).1 (hsame.symm.trans session')
    · obtain ⟨hother, hunused⟩ := installs e found
      rw [if_neg hother] at adds
      exact hunused adds
  · rw [leftAlone_admitHello found session cannot, Router.insertRoutes_eq_self_iff,
      Router.iterate_defaultLast_eq_self_iff]
    constructor
    · exact fun h => ⟨e, found, by rw [if_pos session]; exact h⟩
    · rintro ⟨e', found', adds⟩
      obtain rfl := Option.some.inj (found.symm.trans found')
      rw [if_pos session] at adds
      exact adds
  · exact iff_of_true (LeftAlone.refl _) ⟨e, found, by rw [if_neg hother]; exact hused⟩

end Hello

/-- A connection that could not be set up leaves the manager alone: opening a link that fails, exactly
    when no socket was connected for it, and a hello whose connection cannot be opened, exactly when it
    is refused or comes under the session in place and announces nothing new. -/
theorem failed_setup_iff (manager : ConnectionManager) :
    (∀ info dial next outs error, manager.openLink info dial = some (next, outs, .error error) →
      (LeftAlone manager next ↔ ∀ localAddr, ¬ dial.Reaches localAddr)) ∧
    ∀ hello sourceAddress interfaceName openSocket firstAck lastAck now,
      CannotOpen manager hello sourceAddress interfaceName openSocket →
      (LeftAlone manager (manager.handleHello (some (.hello hello)) sourceAddress interfaceName
        openSocket firstAck lastAck now).1 ↔ AddsNothing manager hello) :=
  ⟨fun _ _ _ _ _ h => openLink_error_iff h, fun _ _ _ _ _ _ _ h => handleHello_cannotOpen_iff h⟩

/-- The working endpoint 154 of a server, with one connection under session 1. -/
private def serverOf154 : ConnectionManager :=
  ((ConnectionManager.new (.v4 2130706433 40000) 1 none 10000 100).handleHello
    (some (.hello ⟨154, 1, none, 0⟩)) (.v4 2130706434 123) "DYN-interface"
    (fun _ _ => .ok (.v4 2130706433 40000)) (fun _ => .ok 1) (fun _ => .ok 1) 0).1

/-- A link whose greeting cannot be sent leaves its endpoint behind, and a hello under a new session
    wipes a working endpoint though its connection cannot be opened. -/
theorem failed_setup_wipes_endpoint :
    (¬ ∀ (manager next : ConnectionManager) (info : ConnectionInfo) (dial : Dial)
        (outs : List Output) (error : ErrorKind),
      manager.openLink info dial = some (next, outs, .error error) → LeftAlone manager next) ∧
    ¬ ∀ (manager : ConnectionManager) (hello : Hello) (sourceAddress : SocketAddr)
        (interfaceName : String) (openSocket : OpenSocket) (firstAck lastAck : Nat → SendResult)
        (now : Instant),
      CannotOpen manager hello sourceAddress interfaceName openSocket →
      LeftAlone manager (manager.handleHello (some (.hello hello)) sourceAddress interfaceName
        openSocket firstAck lastAck now).1 := by
  constructor
  · intro h
    have left := h (ConnectionManager.new (.v4 2130706434 0) 154 none 10000 100) _
      ⟨"eth0", .v4 2130706434 0, .v4 2130706433 40000, 1⟩
      ⟨.bound, .ok (), .ok (.v4 2130706434 5000), 7, .error .other, 0⟩ _ _ rfl
    cases left.endpoints 1
  · intro h
    have left := h serverOf154 ⟨154, 2, none, 0⟩ (.v4 2130706434 124) "DYN-interface"
      (fun _ _ => .error .other) (fun _ => .ok 1) (fun _ => .ok 1) 1 ⟨?_, .other, rfl⟩
    · have hsession := congrArg (Option.map EndpointCore.sessionId) (left.endpoints 154)
      exact absurd hsession (by decide)
    · rintro e found session
      obtain rfl := Option.some.inj found
      cases session

end MultiConnect
