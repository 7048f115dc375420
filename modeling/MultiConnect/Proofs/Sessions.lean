/-
Module: MultiConnect.Proofs.Sessions
Layer: Proofs
Purpose: Which session an endpoint carries. A hello on the listening socket is admitted under its own
  session or refused; the guard against a session that was used before is asked only while the endpoint
  is there, so a superseded session returns exactly when its hello finds the endpoint removed. A hello
  on an established connection is taken in whatever its session is.
Trusted boundary: none
Main exports: handleHello_outcome, session_origin, SessionsNoted, superseded_session_returns_iff,
  HelloPath, EnforcesSession, ChecksSession, enforces_session_iff
-/
import MultiConnect.Proofs.EndpointSteps

namespace MultiConnect

open ConnectionManager

/-! ### One hello on the listening socket -/

section Listening

variable {manager : ConnectionManager} {endpoint : Endpoint} {hello : Hello}
  {sourceAddress : SocketAddr} {interfaceName : String} {openSocket : OpenSocket}
  {firstAck lastAck : Nat → SendResult} {now : Instant}

theorem sessionId_addConnection {added : Endpoint} {localAddress : SocketAddr}
    {connectionTimeout : UInt64}
    (h : endpoint.addConnection sourceAddress interfaceName localAddress connectionTimeout openSocket
      now = .ok added) : added.sessionId = endpoint.sessionId := by
  rcases Endpoint.addConnection_eq_ok h with touched | ⟨-, -, -, rfl⟩
  · exact touched.sessionId
  · rfl

theorem sessionId_addAndAcknowledge :
    (manager.addAndAcknowledge endpoint sourceAddress interfaceName openSocket firstAck lastAck
      now).1.sessionId = endpoint.sessionId := by
  rcases manager.touched_addAndAcknowledge endpoint sourceAddress interfaceName openSocket firstAck
    lastAck now with ⟨added, hadd, touched⟩ | ⟨-, -, touched⟩
  · exact touched.sessionId.trans (sessionId_addConnection hadd)
  · exact touched.sessionId

/-- An admitted hello leaves the session of its endpoint in place. -/
theorem get?_admitHello (sourceAddress : SocketAddr) (interfaceName : String)
    (openSocket : OpenSocket) (firstAck lastAck : Nat → SendResult) (now : Instant)
    (found : manager.endpoints.get? hello.id = some endpoint) :
    ∃ e, (manager.admitHello hello sourceAddress interfaceName openSocket firstAck lastAck
      now).1.endpoints.get? hello.id = some e ∧ e.sessionId = endpoint.sessionId := by
  simp only [admitHello, found, OrdMap.get?_insert_self]
  exact ⟨_, rfl, sessionId_addAndAcknowledge⟩

theorem sessionHistory_admitHello :
    (manager.admitHello hello sourceAddress interfaceName openSocket firstAck lastAck
      now).1.sessionHistory = manager.sessionHistory := by
  unfold admitHello
  split <;> rfl

/-- A hello on the listening socket puts its session in place, or changes nothing at all. -/
theorem handleHello_outcome (manager : ConnectionManager) (hello : Hello)
    (sourceAddress : SocketAddr) (interfaceName : String) (openSocket : OpenSocket)
    (firstAck lastAck : Nat → SendResult) (now : Instant) :
    let after := manager.handleHello (some (.hello hello)) sourceAddress interfaceName openSocket
      firstAck lastAck now
    (∃ e, after.1.endpoints.get? hello.id = some e ∧ e.sessionId = hello.sessionId) ∨
      ((manager.endpoints.get? hello.id).isSome = true ∧ after = (manager, [])) := by
  intro after
  rcases manager.handleHello_cases hello sourceAddress interfaceName openSocket firstAck lastAck now
    with ⟨-, hafter⟩ | ⟨e, found, session, hafter⟩ | ⟨e, found, -, -, hafter⟩
  · rw [show after = _ from hafter]
    exact Or.inl (get?_admitHello _ _ _ _ _ _ (get?_installFresh ..))
  · rw [show after = _ from hafter, ← session]
    exact Or.inl (get?_admitHello _ _ _ _ _ _ found)
  · exact Or.inr ⟨by rw [found]; rfl, hafter⟩

/-- The session of a hello that installs an endpoint is noted. -/
theorem mem_sessionHistory_handleHello (installs : manager.Installs hello.id hello.sessionId) :
    hello.sessionId ∈ (manager.handleHello (some (.hello hello)) sourceAddress interfaceName
      openSocket firstAck lastAck now).1.sessionHistory := by
  rcases manager.handleHello_cases hello sourceAddress interfaceName openSocket firstAck lastAck now
    with ⟨-, hafter⟩ | ⟨e, found, session, -⟩ | ⟨-, -, -, hused, hafter⟩
  · rw [hafter, sessionHistory_admitHello]
    exact List.mem_append_right _ (List.mem_singleton_self _)
  · exact absurd session (installs e found).1
  · rw [hafter]
    exact hused

end Listening

/-! ### Where sessions come from -/

/-- The hello of an operation on the listening socket. -/
def ManagerOp.listeningHello : ManagerOp → Option Hello
  | .handleHello (some (.hello hello)) .. => some hello
  | _ => none

theorem eq_of_listeningHello {op : ManagerOp} {hello : Hello} (h : op.listeningHello = some hello) :
    ∃ sourceAddress interfaceName openSocket firstAck lastAck now,
      op = .handleHello (some (.hello hello)) sourceAddress interfaceName openSocket firstAck lastAck
        now := by
  unfold ManagerOp.listeningHello at h
  split at h
  · obtain rfl := Option.some.inj h
    exact ⟨_, _, _, _, _, _, rfl⟩
  · cases h

/-- Where an endpoint is found after an operation, it had its session before, or a hello installed it,
    or it was not there and an attempt to connect created it. -/
theorem session_origin {manager next : ConnectionManager} {op : ManagerOp} {outs : List Output}
    {k : EndpointId} {e : Endpoint} (keyed : Keyed manager)
    (h : ManagerOp.apply manager op = some (next, outs))
    (found : next.endpoints.get? k = some e) :
    (∃ old, manager.endpoints.get? k = some old ∧ old.sessionId = e.sessionId) ∨
      (∃ hello, op.listeningHello = some hello ∧ hello.id = k ∧ hello.sessionId = e.sessionId ∧
        manager.Installs k hello.sessionId) ∨
      (op.greets = true ∧ manager.endpoints.get? k = none) := by
  refine (((decomposes_of_apply keyed h).steps k).invariant (P := fun next _ =>
    (next = none → op.greets = true → manager.endpoints.get? k = none) ∧
    ∀ e, next = some e → (∃ old, manager.endpoints.get? k = some old ∧
      old.sessionId = e.sessionId) ∨
      (∃ hello, op.listeningHello = some hello ∧ hello.id = k ∧ hello.sessionId = e.sessionId ∧
        manager.Installs k hello.sessionId) ∨
      (op.greets = true ∧ manager.endpoints.get? k = none))
    ?_ ⟨fun hnone _ => hnone, fun e he => Or.inl ⟨e, he, rfl⟩⟩).2 e found
  rintro mid before more next ⟨habsent, hmid⟩ step
  cases step with
  | install hop key installs =>
      refine ⟨by simp, fun e he => ?_⟩
      obtain rfl := Option.some.inj he
      exact Or.inr (Or.inl ⟨_, by rw [hop]; rfl, key, rfl, installs⟩)
  | create dials =>
      refine ⟨by simp, fun e he => ?_⟩
      exact Or.inr (Or.inr ⟨dials.greets, habsent rfl dials.greets⟩)
  | signal touched =>
      refine ⟨by simp, fun e he => ?_⟩
      obtain rfl := Option.some.inj he
      rw [touched.sessionId]
      exact hmid _ rfl
  | switch =>
      refine ⟨by simp, fun e he => ?_⟩
      obtain rfl := Option.some.inj he
      have hold := hmid _ rfl
      split <;> exact hold
  | remove removes =>
      refine ⟨fun _ hgreets => ?_, fun e he => by cases he⟩
      cases op <;> cases removes <;> cases hgreets
  | acceptListening | acceptEstablished | dial | tunnel | sort | fire | drop =>
      refine ⟨by simp, fun e he => ?_⟩
      obtain rfl := Option.some.inj he
      have hold := hmid _ rfl
      exact hold

/-- Every session in use is noted. -/
def SessionsNoted (manager : ConnectionManager) : Prop :=
  ∀ k e, manager.endpoints.get? k = some e → e.sessionId ∈ manager.sessionHistory

theorem sessionsNoted_step {manager next : ConnectionManager} {op : ManagerOp} {outs : List Output}
    (keyed : Keyed manager) (noted : SessionsNoted manager) (server : op.greets = false)
    (h : ManagerOp.apply manager op = some (next, outs)) : SessionsNoted next := by
  intro k e found
  rcases session_origin keyed h found with ⟨old, hold, hsession⟩ | ⟨hello, hop, hk, hs, hun⟩ |
    ⟨hgreets, -⟩
  · rw [← hsession]
    exact (decomposes_of_apply keyed h).continues.sessionHistory (noted k old hold)
  · rw [← hs]
    subst hk
    obtain ⟨_, _, _, _, _, _, rfl⟩ := eq_of_listeningHello hop
    obtain rfl : _ = next := congrArg Prod.fst (Option.some.inj h)
    exact mem_sessionHistory_handleHello hun
  · exact absurd hgreets (by simp [server])

/-! ### A superseded session -/

/-- A hello for an endpoint under a session, at a moment when the endpoint is not there. -/
def Reinstates (k : EndpointId) (session : Uuid) (manager : ConnectionManager) (op : ManagerOp) :
    Prop :=
  manager.endpoints.get? k = none ∧
    ∃ hello, op.listeningHello = some hello ∧ hello.id = k ∧ hello.sessionId = session

/-- The endpoint is not there under that session. -/
def Superseded (k : EndpointId) (session : Uuid) (manager : ConnectionManager) : Prop :=
  ∀ e, manager.endpoints.get? k = some e → e.sessionId ≠ session

/-- One operation brings a superseded session back exactly when it is its hello and the endpoint is
    not there. -/
theorem superseded_step {manager next : ConnectionManager} {op : ManagerOp} {outs : List Output}
    {k : EndpointId} {session : Uuid} (keyed : Keyed manager)
    (noted : session ∈ manager.sessionHistory) (server : op.greets = false)
    (superseded : Superseded k session manager)
    (h : ManagerOp.apply manager op = some (next, outs)) :
    Superseded k session next ↔ ¬ Reinstates k session manager op := by
  constructor
  · rintro hnext ⟨habsent, hello, hop, rfl, rfl⟩
    obtain ⟨source, name, openSocket, firstAck, lastAck, now, rfl⟩ := eq_of_listeningHello hop
    obtain rfl : _ = next := congrArg Prod.fst (Option.some.inj h)
    rcases handleHello_outcome manager hello source name openSocket firstAck lastAck now with
      ⟨e, he, hsession⟩ | ⟨hpresent, -⟩
    · exact hnext e he hsession
    · simp [habsent] at hpresent
  · intro hreinstates e he hsession
    rcases session_origin keyed h he with ⟨old, hold, hsame⟩ | ⟨hello, hop, hk, hs, installs⟩ |
      ⟨hgreets, -⟩
    · exact superseded old hold (hsame.trans hsession)
    · cases hfound : manager.endpoints.get? k with
      | none => exact hreinstates ⟨hfound, hello, hop, hk, hs.trans hsession⟩
      | some old => exact (installs old hfound).2 (hs ▸ hsession ▸ noted)
    · exact absurd hgreets (by simp [server])

/-- After a hello has replaced the session of an endpoint, the old session stays away exactly as long
    as no hello under it finds the endpoint removed. -/
theorem superseded_session_returns_iff (localAddress : SocketAddr) (ownId : EndpointId)
    (ownStaticRoutes : Option (List Route)) (connectionTimeout packetSorterDeadline : UInt64)
    (past later : List ManagerOp) (server : ∀ op ∈ past ++ later, op.greets = false)
    (before after : ConnectionManager) (outs replies : List Output)
    (reached : Run.run ManagerOp.apply (ConnectionManager.new localAddress ownId ownStaticRoutes
      connectionTimeout packetSorterDeadline) past = some (before, outs))
    (hello : Hello) (sourceAddress : SocketAddr) (interfaceName : String) (openSocket : OpenSocket)
    (firstAck lastAck : Nat → SendResult) (now : Instant)
    (handled : before.handleHello (some (.hello hello)) sourceAddress interfaceName openSocket
      firstAck lastAck now = (after, replies))
    (old replaced : Endpoint) (found : before.endpoints.get? hello.id = some old)
    (found' : after.endpoints.get? hello.id = some replaced)
    (different : replaced.sessionId ≠ old.sessionId) :
    Run.Throughout ManagerOp.apply (Superseded hello.id old.sessionId) after later ↔
      Run.EachStep ManagerOp.apply (fun _ manager op =>
        ¬ Reinstates hello.id old.sessionId manager op) after later := by
  have hbefore : Keyed before ∧ SessionsNoted before := by
    refine Run.run_induction (C := fun _ _ op => op.greets = false)
      (P := fun _ manager _ => Keyed manager ∧ SessionsNoted manager)
      ⟨keyed_new _ _ _ _ _, fun k e h => by cases h⟩ ?_ ?_ reached
    · intro _ op mid _ next now _ ⟨hkeyed, hnoted⟩ hserver hstep
      exact ⟨keyed_of_apply hkeyed hstep, sessionsNoted_step hkeyed hnoted hserver hstep⟩
    · intro seen op rest _ _ _ _ heq _ _
      exact server op (by simp [heq])
  have hstep : ManagerOp.apply before (.handleHello (some (.hello hello)) sourceAddress interfaceName
      openSocket firstAck lastAck now) = some (after, replies) := congrArg some handled
  have hdecomposes := decomposes_of_apply hbefore.1 hstep
  refine Run.throughout_iff_eachStep (E := fun op => op.greets = false)
    (I := fun manager => Keyed manager ∧ old.sessionId ∈ manager.sessionHistory) ?_ ?_
    (fun op hop => server op (List.mem_append_right _ hop))
    ⟨hdecomposes.keyed hbefore.1, hdecomposes.continues.sessionHistory
      (hbefore.2 hello.id old found)⟩ ?_
  · intro mid op next now ⟨hkeyed, hnoted⟩ _ hstep
    have hnext := decomposes_of_apply hkeyed hstep
    exact ⟨hnext.keyed hkeyed, hnext.continues.sessionHistory hnoted⟩
  · intro mid op next now ⟨hkeyed, hnoted⟩ hserver hsuperseded hstep
    exact superseded_step hkeyed hnoted hserver hsuperseded hstep
  · intro e he
    obtain rfl := Option.some.inj (found'.symm.trans he)
    exact different

/-- The hello of a replaced session is refused while the endpoint is there. -/
theorem superseded_session_returns_iff_refused :
    ∃ after, Run.Throughout ManagerOp.apply (Superseded 154 1) after
        [.handleHello (some (.hello ⟨154, 1, none, 1⟩)) (.v4 2130706434 123) "DYN-interface"
          (fun _ _ => .ok (.v4 2130706433 40000)) (fun _ => .ok 1) (fun _ => .ok 1) 2] ↔
      Run.EachStep ManagerOp.apply (fun _ manager op => ¬ Reinstates 154 1 manager op) after
        [.handleHello (some (.hello ⟨154, 1, none, 1⟩)) (.v4 2130706434 123) "DYN-interface"
          (fun _ _ => .ok (.v4 2130706433 40000)) (fun _ => .ok 1) (fun _ => .ok 1) 2] :=
  ⟨_, superseded_session_returns_iff (.v4 2130706433 40000) 1 none 10000 100
    [.handleHello (some (.hello ⟨154, 1, none, 0⟩)) (.v4 2130706434 123) "DYN-interface"
      (fun _ _ => .ok (.v4 2130706433 40000)) (fun _ => .ok 1) (fun _ => .ok 1) 0]
    _ (by decide) _ _ _ _ rfl ⟨154, 2, none, 0⟩ (.v4 2130706434 124) "DYN-interface"
    (fun _ _ => .ok (.v4 2130706433 40000)) (fun _ => .ok 1) (fun _ => .ok 1) 1 rfl _ _ rfl rfl
    (by decide)⟩

/-- The replaced session 1 is back once the timeout of the last connection has removed the endpoint
    and a delayed hello arrives. -/
theorem superseded_session_returns :
    ¬ ∀ (past later : List ManagerOp), (∀ op ∈ past ++ later, op.greets = false) →
      ∀ (before after : ConnectionManager) (outs replies : List Output),
      Run.run ManagerOp.apply (ConnectionManager.new (.v4 2130706433 40000) 1 none 10000 100) past =
        some (before, outs) →
      ∀ (hello : Hello) (sourceAddress : SocketAddr) (interfaceName : String)
        (openSocket : OpenSocket) (firstAck lastAck : Nat → SendResult) (now : Instant),
      before.handleHello (some (.hello hello)) sourceAddress interfaceName openSocket firstAck lastAck
        now = (after, replies) →
      ∀ (old replaced : Endpoint), before.endpoints.get? hello.id = some old →
      after.endpoints.get? hello.id = some replaced → replaced.sessionId ≠ old.sessionId →
      Run.Throughout ManagerOp.apply (Superseded hello.id old.sessionId) after later := by
  intro h
  have hreturned := h
    [.handleHello (some (.hello ⟨154, 1, none, 0⟩)) (.v4 2130706434 123) "DYN-interface"
      (fun _ _ => .ok (.v4 2130706433 40000)) (fun _ => .ok 1) (fun _ => .ok 1) 0]
    [.removeConnection 154 "DYN-interface" (.v4 2130706434 124),
      .handleHello (some (.hello ⟨154, 1, none, 1⟩)) (.v4 2130706434 123) "DYN-interface"
        (fun _ _ => .ok (.v4 2130706433 40000)) (fun _ => .ok 1) (fun _ => .ok 1) 2]
    (by decide) _ _ _ _ rfl ⟨154, 2, none, 0⟩ (.v4 2130706434 124) "DYN-interface"
    (fun _ _ => .ok (.v4 2130706433 40000)) (fun _ => .ok 1) (fun _ => .ok 1) 1 rfl _ _ rfl rfl
    (by decide) _ [] _ _ (List.append_nil _).symm rfl
  exact hreturned _ rfl rfl

/-! ### The two paths of a hello -/

/-- How a hello comes in, with what the outside answers while it is handled. -/
inductive HelloPath where
  | listening (sourceAddress : SocketAddr) (interfaceName : String) (openSocket : OpenSocket)
      (firstAck lastAck : Nat → SendResult) (now : Instant)
  | established (endpointId : EndpointId) (sourceAddress : SocketAddr) (interfaceName : String)
      (openSocket : OpenSocket) (ack : Nat → SendResult) (now : Instant)

def HelloPath.op (hello : Hello) : HelloPath → ManagerOp
  | .listening sourceAddress interfaceName openSocket firstAck lastAck now =>
      .handleHello (some (.hello hello)) sourceAddress interfaceName openSocket firstAck lastAck now
  | .established endpointId sourceAddress interfaceName openSocket ack now =>
      .handleEstablishedMessage ⟨some (.hello hello), sourceAddress, interfaceName, endpointId⟩
        openSocket ack now

/-- Once a hello is processed, its session is in place, or its endpoint and the routes are as before. -/
def EnforcesSession (manager : ConnectionManager) (hello : Hello) (path : HelloPath) : Prop :=
  ∀ next outs, ManagerOp.apply manager (path.op hello) = some (next, outs) →
    (∃ e, next.endpoints.get? hello.id = some e ∧ e.sessionId = hello.sessionId) ∨
    (next.endpoints.get? hello.id = manager.endpoints.get? hello.id ∧ next.routes = manager.routes)

/-- The listening socket always checks the session. An established connection does not, so there the
    endpoint has to be missing, or to carry the session of the hello, or the hello has to call for a
    new connection whose socket does not open, which panics. -/
def ChecksSession (manager : ConnectionManager) (hello : Hello) : HelloPath → Prop
  | .listening .. => True
  | .established _ sourceAddress interfaceName openSocket _ _ =>
      ∀ e, manager.endpoints.get? hello.id = some e → e.sessionId = hello.sessionId ∨
        ((∀ entry ∈ e.connections, entry.isFor interfaceName sourceAddress = false) ∧
          ∃ error, openSocket manager.localAddress sourceAddress = .error error)

/-- A hello on an established connection that is processed acknowledges under the old session. -/
theorem handleEstablishedMessage_hello {manager : ConnectionManager} {hello : Hello}
    {sourceAddress : SocketAddr} {interfaceName : String} {openSocket : OpenSocket} {e : Endpoint}
    (endpointId : EndpointId) (ack : Nat → SendResult) (now : Instant)
    (found : manager.endpoints.get? hello.id = some e)
    (opens : (∀ entry ∈ e.connections, entry.isFor interfaceName sourceAddress = false) →
      ∀ error, openSocket manager.localAddress sourceAddress ≠ .error error) :
    ∃ next outs e', manager.handleEstablishedMessage
        ⟨some (.hello hello), sourceAddress, interfaceName, endpointId⟩ openSocket ack now =
          some (next, outs) ∧
      next.endpoints.get? hello.id = some e' ∧ e'.sessionId = e.sessionId ∧
      e'.helloAckCounter = e.helloAckCounter + 1 ∧ next.routes = manager.routes := by
  have hnoError : ∀ error, ({ e with
      helloPathLatency := e.helloPathLatency.insertNewTimestamp hello.helloSeq now }).addConnection
        sourceAddress interfaceName manager.localAddress manager.connectionTimeout openSocket now ≠
      .error error := fun error herror =>
    opens (Endpoint.addConnection_eq_error.mp herror).1 error
      (Endpoint.addConnection_eq_error.mp herror).2
  simp only [handleEstablishedMessage, found]
  split
  · rename_i added hadd
    refine ⟨_, _, _, rfl, OrdMap.get?_insert_self .., ?_, ?_, rfl⟩
    · have hsession := sessionId_addConnection hadd
      exact hsession
    · have hcounter := Endpoint.helloAckCounter_addConnection hadd
      exact congrArg (· + 1) hcounter
  · rename_i error herror
    exact absurd herror (hnoError error)

/-- A hello keeps to the session exactly when its path checks it. -/
theorem enforces_session_iff (manager : ConnectionManager) (hello : Hello) (path : HelloPath) :
    EnforcesSession manager hello path ↔ ChecksSession manager hello path := by
  cases path with
  | listening source name openSocket firstAck lastAck now =>
      refine ⟨fun _ => trivial, fun _ next outs h => ?_⟩
      obtain rfl : _ = next := congrArg Prod.fst (Option.some.inj h)
      exact (handleHello_outcome manager hello source name openSocket firstAck lastAck now).imp id
        fun hsame => by rw [hsame.2]; exact ⟨rfl, rfl⟩
  | established endpointId source name openSocket ack now =>
      constructor
      · intro henforces e found
        by_contra hunchecked
        obtain ⟨hsession, hopens⟩ := not_or.mp hunchecked
        obtain ⟨next, outs, e', hnext, found', hsame, hcounter, -⟩ :=
          handleEstablishedMessage_hello endpointId ack now found
            fun hunknown error herror => hopens ⟨hunknown, error, herror⟩
        rcases henforces next outs hnext with ⟨x, hx, hxsession⟩ | ⟨hkept, -⟩
        · obtain rfl := Option.some.inj (found'.symm.trans hx)
          exact hsession (hsame.symm.trans hxsession)
        · rw [found', found] at hkept
          obtain rfl := Option.some.inj hkept
          grind
      · intro hchecks next outs h
        cases hfound : manager.endpoints.get? hello.id with
        | none =>
            simp only [ManagerOp.apply, HelloPath.op, handleEstablishedMessage, hfound,
              Option.some.injEq, Prod.mk.injEq] at h
            rw [← h.1]
            exact Or.inr ⟨hfound, rfl⟩
        | some e =>
            have herror : ∀ (hunknown : ∀ entry ∈ e.connections, entry.isFor name source = false)
                error, openSocket manager.localAddress source = .error error → False := by
              intro hunknown error hopen
              have hadd : ({ e with
                  helloPathLatency := e.helloPathLatency.insertNewTimestamp hello.helloSeq now } :
                  Endpoint).addConnection source name manager.localAddress
                  manager.connectionTimeout openSocket now = .error error :=
                Endpoint.addConnection_eq_error.mpr ⟨hunknown, hopen⟩
              simp only [ManagerOp.apply, HelloPath.op, handleEstablishedMessage, hfound, hadd] at h
              cases h
            rcases hchecks e hfound with hsession | ⟨hunknown, error, hopen⟩
            · obtain ⟨after, replies, e', hnext, found', hsame, -⟩ :=
                handleEstablishedMessage_hello endpointId ack now hfound herror
              obtain ⟨rfl, rfl⟩ := Prod.mk.inj (Option.some.inj (hnext.symm.trans h))
              exact Or.inl ⟨e', found', hsame.trans hsession⟩
            · exact absurd hopen (herror hunknown error)

/-- A peer that restarted greets on the address that the old connection talks to: the old connection is
    kept alive and acknowledged under the old session. -/
theorem established_hello_keeps_old_session :
    ¬ ∀ (ops : List ManagerOp) (manager : ConnectionManager) (outs : List Output),
      Run.run ManagerOp.apply (ConnectionManager.new (.v4 2130706433 40000) 1 none 10000 100) ops =
        some (manager, outs) →
      ∀ hello path, EnforcesSession manager hello path := by
  intro h
  have henforces := h
    [.handleHello (some (.hello ⟨154, 1, none, 0⟩)) (.v4 2130706434 123) "DYN-interface"
      (fun _ _ => .ok (.v4 2130706433 40000)) (fun _ => .ok 1) (fun _ => .ok 1) 0] _ _ rfl
    ⟨154, 2, none, 0⟩ (.established 154 (.v4 2130706434 123) "DYN-interface"
      (fun _ _ => .ok (.v4 2130706433 40000)) (fun _ => .ok 1) 1) _ _ rfl
  rcases henforces with ⟨e, he, hsession⟩ | ⟨hkept, -⟩
  · obtain rfl := Option.some.inj he
    revert hsession
    decide
  · have hcounter := congrArg (Option.map (·.helloAckCounter)) hkept
    revert hcounter
    decide

end MultiConnect
