/-
Module: MultiConnect.Proofs.ConnectionTimeouts
Layer: Proofs
Purpose: How long a connection may be silent. An operation refreshes a connection when it opens it, when
  it takes in a hello from its address, or an acknowledgement on it. In every state that a loop reaches
  the timer of each connection runs from the last operation that refreshed it, so the timeout of a
  connection comes exactly when the configured time has passed since then (`timeouts_measure_silence`).
  The client's links must be distinct: of two connections under one key only the first is refreshed.
Trusted boundary: a connected socket reports the address that it was connected to as its peer
Main exports: Refreshes, refreshed_of_apply, performed, RunsFromLast, timeouts_measure_silence
-/
import MultiConnect.Proofs.ConnectionChanges
import MultiConnect.Proofs.Isolation
import MultiConnect.Library.History

namespace MultiConnect

open ConnectionManager

/-! ### Refreshing -/

/-- An operation opens the connection of an endpoint under a key, or hears from it in a way that starts
    its timer again. A hello under a session that was used before is refused, and an acknowledgement
    does not bring back a broken connection. -/
inductive Refreshes (manager : ConnectionManager) :
    ManagerOp → EndpointId → String × SocketAddr → Instant → Prop
  | listening {hello : Hello} {sourceAddress : SocketAddr} {interfaceName : String}
      {openSocket : OpenSocket} {firstAck lastAck : Nat → SendResult} {now : Instant}
      (accepted : ∀ old, manager.endpoints.get? hello.id = some old →
        old.sessionId ≠ hello.sessionId → hello.sessionId ∉ manager.sessionHistory) :
      Refreshes manager (.handleHello (some (.hello hello)) sourceAddress interfaceName openSocket
        firstAck lastAck now) hello.id (interfaceName, sourceAddress) now
  | hello {readInfo : ReadInfo} {openSocket : OpenSocket} {ack : Nat → SendResult} {now : Instant}
      {hello : Hello} (decoded : readInfo.packetBytes = some (.hello hello)) :
      Refreshes manager (.handleEstablishedMessage readInfo openSocket ack now) hello.id
        (readInfo.interfaceName, readInfo.sourceAddress) now
  | helloAck {readInfo : ReadInfo} {openSocket : OpenSocket} {ack : Nat → SendResult} {now : Instant}
      {helloAck : HelloAck} (decoded : readInfo.packetBytes = some (.helloAck helloAck))
      (live : ∀ entry ∈ manager.connectionsOf helloAck.id,
        entry.key = (readInfo.interfaceName, readInfo.sourceAddress) → entry.isDisconnected = false) :
      Refreshes manager (.handleEstablishedMessage readInfo openSocket ack now) helloAck.id
        (readInfo.interfaceName, readInfo.sourceAddress) now
  | dialled {op : ManagerOp} {info : ConnectionInfo} {dial : Dial} (dials : Dials manager op info dial) :
      Refreshes manager op info.destinationEndpointId
        (info.interfaceName, info.destinationAddress) dial.now

theorem Refreshes.hears_or_dials {manager : ConnectionManager} {op : ManagerOp} {k : EndpointId}
    {key : String × SocketAddr} {t : Instant} (h : Refreshes manager op k key t) :
    Hears op k key t ∨ ∃ info dial, Dials manager op info dial ∧ info.destinationEndpointId = k ∧
      (info.interfaceName, info.destinationAddress) = key := by
  cases h with
  | listening => exact Or.inl .listening
  | hello decoded => exact Or.inl (.hello decoded)
  | helloAck decoded => exact Or.inl (.helloAck decoded)
  | dialled dials => exact Or.inr ⟨_, _, dials, rfl, rfl⟩

theorem Refreshes.accepted {manager : ConnectionManager} {op : ManagerOp} {k : EndpointId}
    {key : String × SocketAddr} {t : Instant} {hello : Hello} (h : Refreshes manager op k key t)
    (hop : op.listeningHello = some hello) :
    ∀ old, manager.endpoints.get? hello.id = some old → old.sessionId ≠ hello.sessionId →
      hello.sessionId ∉ manager.sessionHistory := by
  cases h with
  | listening accepted =>
      obtain rfl := Option.some.inj hop
      exact accepted
  | hello | helloAck => cases hop
  | dialled dials => cases dials <;> cases hop

/-- Only an acknowledgement to a connection that is not broken refreshes. -/
theorem Refreshes.live {manager : ConnectionManager} {readInfo : ReadInfo} {op : ManagerOp}
    {k : EndpointId} {key : String × SocketAddr} {t : Instant} {helloAck : HelloAck}
    (h : Refreshes manager op k key t) (hop : op.reading = some readInfo)
    (decoded : readInfo.packetBytes = some (.helloAck helloAck)) :
    ∀ entry ∈ manager.connectionsOf k, entry.key = key → entry.isDisconnected = false := by
  cases h with
  | listening => cases hop
  | hello decoded' =>
      obtain rfl := Option.some.inj hop
      rw [decoded] at decoded'
      cases decoded'
  | helloAck _ live =>
      obtain rfl := Option.some.inj hop
      exact live
  | dialled dials => cases dials <;> cases hop

/-- The keys under which the connections of an endpoint are stored differ. -/
def DistinctKeys (manager : ConnectionManager) : Prop :=
  ∀ k, ((manager.connectionsOf k).map ConnectionEntry.key).Nodup

/-- Links are opened only where no connection is. -/
def OpensFresh (manager : ConnectionManager) (op : ManagerOp) : Prop :=
  ∀ info dial, Dials manager op info dial → ∀ entry ∈ manager.connectionsOf info.destinationEndpointId,
    entry.key ≠ (info.interfaceName, info.destinationAddress)

/-- The timer runs its full time from an instant. -/
def ConnectionEntry.RunsFrom (entry : ConnectionEntry) (t : Instant) : Prop :=
  entry.connection.connectionTimeout = Timer.after t entry.connection.connectionTimeoutDuration

/-- The key of a connection, its timer, and the time that this is set to. -/
def ConnectionEntry.clock (entry : ConnectionEntry) : (String × SocketAddr) × Timer × Duration :=
  (entry.key, entry.connection.connectionTimeout, entry.connection.connectionTimeoutDuration)

/-! ### Connections that are heard -/

section Endpoint

variable {e added : Endpoint} {sourceAddress localAddress : SocketAddr} {interfaceName : String}
  {connectionTimeout : UInt64} {openSocket : OpenSocket} {now : Instant}

theorem isFor_iff {entry : ConnectionEntry} {address : SocketAddr} :
    entry.isFor interfaceName address = true ↔ entry.key = (interfaceName, address) := by
  simp [ConnectionEntry.isFor, ConnectionEntry.key, Prod.ext_iff]

/-- Where at most one element satisfies the test, none that does is left as it was. -/
theorem mem_of_updateFirst {α : Type} {p : α → Bool} {f : α → α} :
    ∀ {l l' : List α}, updateFirst p f l = some l' →
      (l.Pairwise fun a b => p a = true → p b = false) →
      ∀ a' ∈ l', (∃ a ∈ l, a' = f a) ∨ a' ∈ l ∧ p a' = false
  | first :: rest, l', h, single, a', ha' => by
      obtain ⟨hfirst, hrest⟩ := List.pairwise_cons.mp single
      unfold updateFirst at h
      split at h
      · rename_i hp
        obtain rfl := Option.some.inj h
        rcases List.mem_cons.mp ha' with rfl | ha'
        · exact Or.inl ⟨first, List.mem_cons_self, rfl⟩
        · exact Or.inr ⟨List.mem_cons_of_mem _ ha', hfirst a' ha' hp⟩
      · rename_i hp
        obtain ⟨rest', hupdated, rfl⟩ := Option.map_eq_some_iff.mp h
        rcases List.mem_cons.mp ha' with rfl | ha'
        · exact Or.inr ⟨List.mem_cons_self, by simpa using hp⟩
        · rcases mem_of_updateFirst hupdated hrest a' ha' with ⟨a, ha, rfl⟩ | ⟨hold, hp'⟩
          · exact Or.inl ⟨a, List.mem_cons_of_mem _ ha, rfl⟩
          · exact Or.inr ⟨List.mem_cons_of_mem _ hold, hp'⟩

theorem clocks_broadcast (eligible : ConnectionEntry → Bool)
    (settle : SendResult → ConnectionState → ConnectionState) (sends : Nat → SendResult)
    (connections : List ConnectionEntry) :
    (broadcast eligible settle sends connections).map ConnectionEntry.clock =
      connections.map ConnectionEntry.clock := by
  refine List.ext_getElem (by simp [broadcast]) fun index _ _ => ?_
  simp only [broadcast, List.getElem_map, List.getElem_mapIdx]
  split <;> rfl

/-- The connections under a key have their timers running from an instant. -/
def AllRunFrom (key : String × SocketAddr) (t : Instant) (connections : List ConnectionEntry) : Prop :=
  ∀ entry ∈ connections, entry.key = key → entry.RunsFrom t

theorem AllRunFrom.of_clocks {key : String × SocketAddr} {before after : List ConnectionEntry}
    (h : AllRunFrom key now before)
    (same : after.map ConnectionEntry.clock = before.map ConnectionEntry.clock) :
    AllRunFrom key now after := by
  intro entry hentry hkey
  obtain ⟨old, hold, hclock⟩ := List.mem_map.mp (same ▸ List.mem_map_of_mem hentry)
  simp only [ConnectionEntry.clock, Prod.mk.injEq] at hclock
  have hruns := h old hold (hclock.1.trans hkey)
  rwa [ConnectionEntry.RunsFrom, hclock.2.1, hclock.2.2] at hruns

/-- A connection that says hello is refreshed, or opened. -/
theorem allRunFrom_addConnection (distinct : (e.connections.map ConnectionEntry.key).Nodup)
    (h : e.addConnection sourceAddress interfaceName localAddress connectionTimeout openSocket now =
      .ok added) : AllRunFrom (interfaceName, sourceAddress) now added.connections := by
  have hsingle : e.connections.Pairwise fun a b => a.isFor interfaceName sourceAddress = true →
      b.isFor interfaceName sourceAddress = false :=
    (List.pairwise_map.mp distinct).imp fun hne ha => Bool.eq_false_iff.mpr fun hb =>
      hne ((isFor_iff.mp ha).trans (isFor_iff.mp hb).symm)
  intro entry hentry hkey
  unfold Endpoint.addConnection at h
  split at h
  · rename_i connections hknown
    obtain rfl := Except.ok.inj h
    rcases mem_of_updateFirst hknown hsingle entry hentry with ⟨old, -, rfl⟩ | ⟨-, hother⟩
    · rfl
    · rw [isFor_iff.mpr hkey] at hother
      cases hother
  · rename_i hunknown
    split at h
    · cases h
    · obtain rfl := Except.ok.inj h
      rcases List.mem_append.mp hentry with hold | hnew
      · have hother := updateFirst_eq_none.mp hunknown entry hold
        rw [isFor_iff.mpr hkey] at hother
        cases hother
      · obtain rfl := List.mem_singleton.mp hnew
        rfl

theorem allRunFrom_addAndAcknowledge {manager : ConnectionManager}
    (distinct : (e.connections.map ConnectionEntry.key).Nodup) (firstAck lastAck : Nat → SendResult) :
    AllRunFrom (interfaceName, sourceAddress) now (manager.addAndAcknowledge e sourceAddress
      interfaceName openSocket firstAck lastAck now).1.connections := by
  unfold addAndAcknowledge
  split
  · rename_i added hadd
    exact ((allRunFrom_addConnection distinct hadd).of_clocks (clocks_broadcast ..)).of_clocks
      (clocks_broadcast ..)
  · rename_i hfailed
    refine AllRunFrom.of_clocks (fun entry hentry hkey => ?_) (clocks_broadcast ..)
    have hother := (Endpoint.addConnection_eq_error.mp hfailed).1 entry hentry
    rw [isFor_iff.mpr hkey] at hother
    cases hother

theorem allRunFrom_admitHello {manager : ConnectionManager} {hello : Hello}
    (found : manager.endpoints.get? hello.id = some e)
    (distinct : (e.connections.map ConnectionEntry.key).Nodup) (firstAck lastAck : Nat → SendResult) :
    AllRunFrom (interfaceName, sourceAddress) now ((manager.admitHello hello sourceAddress interfaceName
      openSocket firstAck lastAck now).1.connectionsOf hello.id) := by
  simp only [admitHello, found]
  rw [connectionsOf_of_get? (OrdMap.get?_insert_self ..)]
  exact allRunFrom_addAndAcknowledge distinct firstAck lastAck

end Endpoint

/-! ### One operation -/

/-- A connection as it is after an operation: refreshed by it, or with its timer as it was before. -/
def Ticks (manager : ConnectionManager) (op : ManagerOp) (k : EndpointId) (entry : ConnectionEntry) :
    Prop :=
  (∃ t, Refreshes manager op k entry.key t ∧ entry.RunsFrom t) ∨
    (∀ t, ¬ Refreshes manager op k entry.key t) ∧
      ∃ old ∈ manager.connectionsOf k, old.clock = entry.clock

section Operation

variable {manager next : ConnectionManager} {op : ManagerOp} {outs : List Output} {k : EndpointId}
  {entry : ConnectionEntry}

/-- A connection that an operation does not hear from was opened by it, or keeps its timer. -/
theorem ticks_of_quiet (fresh : OpensFresh manager op)
    (waits : ∀ id index now, op ≠ .awaitTimeout id index now)
    (quiet : ∀ now, ¬ Hears op k entry.key now) (h : ManagerOp.apply manager op = some (next, outs))
    (hentry : entry ∈ next.connectionsOf k) : Ticks manager op k entry := by
  obtain ⟨old, hold, changes⟩ := grown_of_apply h k entry hentry
  have hsame : entry.connection.connectionTimeout = old.connection.connectionTimeout := by
    rcases changes.timer with hsame | ⟨now, hears, -⟩ | ⟨-, id, index, now, hop⟩
    · exact hsame
    · exact absurd (changes.key ▸ hears) (quiet now)
    · exact absurd hop (waits id index now)
  rcases hold with hold | opened
  · refine Or.inr ⟨fun t refreshes => ?_, old, hold, ?_⟩
    · rcases refreshes.hears_or_dials with hears | ⟨info, dial, dials, rfl, hkey⟩
      · exact quiet t hears
      · exact fresh info dial dials old hold (changes.key.symm.trans hkey.symm)
    · rw [ConnectionEntry.clock, ConnectionEntry.clock, hsame, changes.key, changes.duration]
  · refine Or.inl ?_
    have hkey := changes.key
    have hduration := changes.duration
    cases opened with
    | @incoming sourceAddress localAddr interfaceName now _ hears =>
        have hheard : entry.key = (interfaceName, sourceAddress) := hkey
        exact absurd (hheard ▸ hears) (quiet now)
    | @outgoing info dial localAddr dials hk =>
        refine ⟨dial.now, ?_, ?_⟩
        · rw [hkey, ← hk]
          exact .dialled dials
        · rw [ConnectionEntry.RunsFrom, hsame, hduration]
          rfl

/-- A hello on the listening socket refreshes its connection, unless it is refused. -/
theorem ticks_handleHello {hello : Hello} {sourceAddress : SocketAddr} {interfaceName : String}
    {openSocket : OpenSocket} {firstAck lastAck : Nat → SendResult} {now : Instant}
    (distinct : DistinctKeys manager) (hkey : entry.key = (interfaceName, sourceAddress))
    (hentry : entry ∈ (manager.handleHello (some (.hello hello)) sourceAddress interfaceName openSocket
      firstAck lastAck now).1.connectionsOf hello.id) :
    Ticks manager (.handleHello (some (.hello hello)) sourceAddress interfaceName openSocket firstAck
      lastAck now) hello.id entry := by
  rcases manager.handleHello_cases hello sourceAddress interfaceName openSocket firstAck lastAck now
    with ⟨installs, hafter⟩ | ⟨e, found, hsession, hafter⟩ | ⟨e, found, hsession, hused, hafter⟩
  · refine Or.inl ⟨now, hkey ▸ .listening fun old hold _ => (installs old hold).2, ?_⟩
    rw [hafter] at hentry
    exact allRunFrom_admitHello (get?_installFresh manager hello now) List.nodup_nil firstAck lastAck
      entry hentry hkey
  · refine Or.inl ⟨now, hkey ▸ .listening fun old hold hne => ?_, ?_⟩
    · obtain rfl := Option.some.inj (found.symm.trans hold)
      exact absurd hsession hne
    · rw [hafter] at hentry
      have hdistinct := distinct hello.id
      rw [connectionsOf_of_get? found] at hdistinct
      exact allRunFrom_admitHello found hdistinct firstAck lastAck entry hentry hkey
  · rw [hafter] at hentry
    exact Or.inr ⟨fun t refreshes => refreshes.accepted rfl e found hsession hused, entry, hentry, rfl⟩

/-- A hello on a connection refreshes that connection. -/
theorem ticks_established_hello {readInfo : ReadInfo} {openSocket : OpenSocket}
    {ack : Nat → SendResult} {now : Instant} {hello : Hello} (distinct : DistinctKeys manager)
    (decoded : readInfo.packetBytes = some (.hello hello))
    (hkey : entry.key = (readInfo.interfaceName, readInfo.sourceAddress))
    (h : manager.handleEstablishedMessage readInfo openSocket ack now = some (next, outs))
    (hentry : entry ∈ next.connectionsOf hello.id) :
    Ticks manager (.handleEstablishedMessage readInfo openSocket ack now) hello.id entry := by
  refine Or.inl ⟨now, hkey ▸ .hello decoded, ?_⟩
  simp only [handleEstablishedMessage, decoded] at h
  split at h
  · rename_i e found
    split at h
    · rename_i added hadd
      obtain ⟨rfl, -⟩ := Prod.mk.inj (Option.some.inj h)
      have hdistinct := distinct hello.id
      rw [connectionsOf_of_get? found] at hdistinct
      rw [connectionsOf_setEndpoint, if_pos rfl] at hentry
      refine AllRunFrom.of_clocks (allRunFrom_addConnection ?_ hadd) (clocks_broadcast ..) entry hentry
        hkey
      exact hdistinct
    · cases h
  · rename_i absent
    obtain ⟨rfl, -⟩ := Prod.mk.inj (Option.some.inj h)
    rw [connectionsOf_of_none absent] at hentry
    cases hentry

theorem acknowledged_of_disconnected {readInfo : ReadInfo} {now : Instant} {entry : ConnectionEntry}
    (broken : entry.isDisconnected = true) : acknowledged readInfo now entry = entry := by
  have hstate : entry.connection.state = .disconnected := by
    simpa [ConnectionEntry.isDisconnected] using broken
  simp [acknowledged, hstate]

theorem runsFrom_acknowledged {readInfo : ReadInfo} {now : Instant} {entry : ConnectionEntry}
    (hkey : entry.key = (readInfo.interfaceName, readInfo.sourceAddress))
    (live : entry.isDisconnected = false) : (acknowledged readInfo now entry).RunsFrom now := by
  obtain ⟨hname, haddress⟩ := Prod.mk.inj hkey
  unfold acknowledged
  rw [if_pos ⟨haddress, hname⟩]
  cases hstate : entry.connection.state with
  | startup => rfl
  | connected =>
      simp only [hstate, reduceCtorEq, if_false, if_pos]
      rfl
  | disconnected => simp [ConnectionEntry.isDisconnected, hstate] at live

/-- An acknowledgement refreshes its connection, unless this is broken. -/
theorem ticks_helloAck {readInfo : ReadInfo} {openSocket : OpenSocket} {ack : Nat → SendResult}
    {now : Instant} {helloAck : HelloAck} (distinct : DistinctKeys manager)
    (decoded : readInfo.packetBytes = some (.helloAck helloAck))
    (hkey : entry.key = (readInfo.interfaceName, readInfo.sourceAddress))
    (h : manager.handleEstablishedMessage readInfo openSocket ack now = some (next, outs))
    (hentry : entry ∈ next.connectionsOf helloAck.id) :
    Ticks manager (.handleEstablishedMessage readInfo openSocket ack now) helloAck.id entry := by
  simp only [handleEstablishedMessage, decoded] at h
  split at h
  · rename_i e found
    obtain ⟨rfl, -⟩ := Prod.mk.inj (Option.some.inj h)
    rw [connectionsOf_of_get? (OrdMap.get?_insert_self ..)] at hentry
    obtain ⟨old, hold, rfl⟩ := List.mem_map.mp hentry
    rw [← connectionsOf_of_get? found] at hold
    cases hbroken : old.isDisconnected with
    | true =>
        rw [acknowledged_of_disconnected hbroken] at hkey ⊢
        refine Or.inr ⟨fun t refreshes => ?_, old, hold, rfl⟩
        have hlive := refreshes.live rfl decoded old hold rfl
        rw [hbroken] at hlive
        cases hlive
    | false =>
        have hears : Hears (.handleEstablishedMessage readInfo openSocket ack now) helloAck.id
            (readInfo.interfaceName, readInfo.sourceAddress) now := .helloAck decoded
        have hkeys : (acknowledged readInfo now old).key = old.key := (changes_acknowledged hears old).key
        refine Or.inl ⟨now, hkey ▸ .helloAck decoded fun other hother hkey' => ?_,
          runsFrom_acknowledged (hkeys.symm.trans hkey) hbroken⟩
        rw [List.inj_on_of_nodup_map (distinct helloAck.id) hother hold
          (hkey'.trans (hkey.symm.trans hkeys)), hbroken]
  · rename_i absent
    obtain ⟨rfl, -⟩ := Prod.mk.inj (Option.some.inj h)
    rw [connectionsOf_of_none absent] at hentry
    cases hentry

/-- Every operation refreshes a connection, or leaves its timer. -/
theorem ticks_of_apply (distinct : DistinctKeys manager) (fresh : OpensFresh manager op)
    (waits : ∀ id index now, op ≠ .awaitTimeout id index now)
    (h : ManagerOp.apply manager op = some (next, outs)) (hentry : entry ∈ next.connectionsOf k) :
    Ticks manager op k entry := by
  by_cases hears : ∃ now, Hears op k entry.key now
  · obtain ⟨now, hears⟩ := hears
    generalize hkey : entry.key = key at hears
    cases hears with
    | listening =>
        obtain ⟨rfl, -⟩ := Prod.mk.inj (Option.some.inj h)
        exact ticks_handleHello distinct hkey hentry
    | hello decoded => exact ticks_established_hello distinct decoded hkey h hentry
    | helloAck decoded => exact ticks_helloAck distinct decoded hkey h hentry
  · exact ticks_of_quiet fresh waits (fun now hnow => hears ⟨now, hnow⟩) h hentry

end Operation

/-! ### Many operations -/

/-- The last operation that refreshed a connection did so at an instant. -/
def LastRefreshed (past : List (ConnectionManager × ManagerOp)) (k : EndpointId)
    (key : String × SocketAddr) (t : Instant) : Prop :=
  History.Live (fun done => Refreshes done.1 done.2 k key t)
    (fun done => ∃ t', Refreshes done.1 done.2 k key t') past

/-- The timer of every connection is set to the configured time, and runs from when the connection was
    last refreshed. -/
def RunsFromLast (past : List (ConnectionManager × ManagerOp)) (manager : ConnectionManager) : Prop :=
  ∀ k, ∀ entry ∈ manager.connectionsOf k,
    entry.connection.connectionTimeoutDuration = Duration.fromMillis manager.connectionTimeout ∧
      ∃ t, entry.RunsFrom t ∧ LastRefreshed past k entry.key t

/-- An operation that is performed where keys differ, opens only links without a connection, and does
    not wait for a timeout. -/
structure KeepsTime (manager : ConnectionManager) (op : ManagerOp) : Prop where
  keyed : Keyed manager
  distinct : DistinctKeys manager
  fresh : OpensFresh manager op
  waits : ∀ id index now, op ≠ .awaitTimeout id index now

section Operations

variable {manager next : ConnectionManager} {past : List (ConnectionManager × ManagerOp)}
  {op : ManagerOp} {ops : List ManagerOp} {outs : List Output}

theorem runsFromLast_of_apply (keeps : KeepsTime manager op) (runs : RunsFromLast past manager)
    (h : ManagerOp.apply manager op = some (next, outs)) :
    RunsFromLast (past ++ [(manager, op)]) next := by
  intro k entry hentry
  have htimeout := (decomposes_of_apply keeps.keyed h).continues.connectionTimeout
  constructor
  · obtain ⟨old, hold | opened, changes⟩ := grown_of_apply h k entry hentry
    · rw [changes.duration, htimeout]
      exact (runs k old hold).1
    · rw [changes.duration, htimeout]
      cases opened <;> rfl
  · rcases ticks_of_apply keeps.distinct keeps.fresh keeps.waits h hentry with
      ⟨t, refreshes, hruns⟩ | ⟨unrefreshed, old, hold, hclock⟩
    · exact ⟨t, hruns, History.live_concat.mpr (Or.inl refreshes)⟩
    · obtain ⟨-, t, hruns, hlast⟩ := runs k old hold
      simp only [ConnectionEntry.clock, Prod.mk.injEq] at hclock
      rw [ConnectionEntry.RunsFrom, hclock.2.1, hclock.2.2] at hruns
      rw [hclock.1] at hlast
      exact ⟨t, hruns, History.live_concat.mpr
        (Or.inr ⟨hlast, fun ⟨t', refreshes⟩ => unrefreshed t' refreshes⟩)⟩

theorem runsFromLast_of_run (keeps : Run.EachStep ManagerOp.apply (fun _ => KeepsTime) manager ops)
    (runs : RunsFromLast past manager) (h : Run.run ManagerOp.apply manager ops = some (next, outs)) :
    RunsFromLast (past ++ Run.trace ManagerOp.apply manager ops) next := by
  refine Run.run_induction
    (P := fun done mid _ => RunsFromLast (past ++ Run.trace ManagerOp.apply manager done) mid)
    (by rwa [Run.trace, List.append_nil]) ?_ keeps h
  intro done op mid _ after _ hdone hmid hkeeps hstep
  rw [Run.trace_append hdone, Run.trace_singleton, ← List.append_assoc]
  exact runsFromLast_of_apply hkeeps hmid hstep

/-- Connections that go, while nothing is refreshed, leave the others as they are. -/
theorem runsFromLast_of_subset {more : List (ConnectionManager × ManagerOp)}
    (runs : RunsFromLast past manager)
    (subset : ∀ k, next.connectionsOf k ⊆ manager.connectionsOf k)
    (timeout : next.connectionTimeout = manager.connectionTimeout)
    (quiet : ∀ done ∈ more, ∀ k key t, ¬ Refreshes done.1 done.2 k key t) :
    RunsFromLast (past ++ more) next := by
  intro k entry hentry
  obtain ⟨hduration, t, hruns, hlast⟩ := runs k entry (subset k hentry)
  exact ⟨timeout ▸ hduration, t, hruns, History.live_append.mpr
    (Or.inr ⟨hlast, fun done hdone ⟨t', refreshes⟩ => quiet done hdone k entry.key t' refreshes⟩)⟩

theorem not_refreshes_of_unheard {k : EndpointId} {key : String × SocketAddr} {t : Instant}
    (listens : op.listeningHello = none) (reading : op.reading = none) (greets : op.greets = false) :
    ¬ Refreshes manager op k key t := fun refreshes => by
  rcases refreshes.hears_or_dials with hears | ⟨_, _, dials, -⟩
  · cases hears with
    | listening => cases listens
    | hello | helloAck => cases reading
  · rw [dials.greets] at greets
    cases greets

/-! ### A timeout -/

/-- Removing what a timeout reports takes out the connection that timed out. -/
theorem subset_removeConnection_timeout {named : String → Prop} {fired : ConnectionManager}
    {id k' : EndpointId} {index : Nat} {now : Instant} {interfaceName : String} {address : SocketAddr}
    (keyed : Keyed manager) (identified : Identified named (manager.connectionsOf id))
    (h : manager.awaitTimeout id index now = some (fired, k', interfaceName, address)) (k : EndpointId) :
    (fired.removeConnection k' interfaceName address).connectionsOf k ⊆ manager.connectionsOf k := by
  obtain ⟨e, entry, found, hentry, -, rfl, rfl, rfl, rfl⟩ := awaitTimeout_eq_some h
  rw [connectionsOf_of_get? found] at identified
  rw [keyed id e found, connectionsOf_removeConnection, connectionsOf_setEndpoint, if_pos rfl,
    connectionsOf_setEndpoint]
  split
  · rename_i hk
    have own := identified.own entry (List.mem_of_getElem? hentry)
    rw [own.interfaceName, own.interfaceAddress, hk, connectionsOf_of_get? found]
    have herased : ∀ changed : ConnectionEntry, changed.names = entry.names →
        (e.connections.set index changed).eraseP
          (ConnectionEntry.isFor entry.interfaceName entry.interfaceAddress) =
            e.connections.eraseIdx index := fun _ => identified.eraseP_set hentry
    intro other hother
    rw [herased { entry with connection := { entry.connection with connectionTimeout := Timer.never } }
      rfl] at hother
    exact List.mem_of_mem_eraseIdx hother
  · exact List.Subset.refl _

end Operations

/-! ### Iterations of a loop -/

section Events

variable {manager next : ConnectionManager} {past : List (ConnectionManager × ManagerOp)}
  {ops : List ManagerOp} {outs : List Output}

/-- An event of both loops waits for a timeout and removes what it reports, or does not wait for one. -/
theorem timeout_or_waits {event : LoopEvent} (hops : event.ops manager = some ops) :
    (∃ id index now fired k interfaceName address,
      manager.awaitTimeout id index now = some (fired, k, interfaceName, address) ∧
      ops = [.awaitTimeout id index now, .removeConnection k interfaceName address]) ∨
    ∀ op ∈ ops, ∀ id index now, op ≠ .awaitTimeout id index now := by
  cases event with
  | connectionTimeout id index now =>
      obtain ⟨⟨fired, k, interfaceName, address⟩, hfires, rfl⟩ := Option.map_eq_some_iff.mp hops
      exact Or.inl ⟨id, index, now, fired, k, interfaceName, address, hfires, rfl⟩
  | newEstablishedMessage | packetSorter =>
      obtain ⟨awaited, -, rfl⟩ := Option.map_eq_some_iff.mp hops
      exact Or.inr (by simp)
  | newSortedPacket id tunSent =>
      cases tunSent with
      | error => cases hops
      | ok =>
          obtain rfl := Option.some.inj hops
          exact Or.inr (by simp)
  | establishedError | tunnelPacket | tunnelError | duplicationMessage =>
      obtain rfl := Option.some.inj hops
      exact Or.inr (by simp)

/-- An iteration of either loop: a timeout takes its connection away, and every other event only does
    what refreshes connections or leaves their timers. -/
theorem runsFromLast_of_loopEvent {named : String → Prop} {event : LoopEvent} (keyed : Keyed manager)
    (identified : ∀ k, Identified named (manager.connectionsOf k))
    (hops : event.ops manager = some ops)
    (keeps : (∀ op ∈ ops, ∀ id index now, op ≠ .awaitTimeout id index now) →
      Run.EachStep ManagerOp.apply (fun _ => KeepsTime) manager (ops ++ [.removeDisconnected]))
    (runs : RunsFromLast past manager)
    (h : Run.run ManagerOp.apply manager (ops ++ [.removeDisconnected]) = some (next, outs)) :
    RunsFromLast (past ++ Run.trace ManagerOp.apply manager (ops ++ [.removeDisconnected])) next := by
  rcases timeout_or_waits hops with
    ⟨id, index, now, fired, k, interfaceName, address, hfires, rfl⟩ | waits
  · refine runsFromLast_of_subset runs ?_ (continues_of_run keyed h).connectionTimeout ?_
    · intro k'
      simp only [List.cons_append, List.nil_append, Run.run_cons, ManagerOp.apply, hfires,
        Option.map_some, Option.bind_some, Run.run_nil] at h
      obtain ⟨rfl, -⟩ := Prod.mk.inj (Option.some.inj h)
      exact List.Subset.trans (removeDisconnected_sublist k').subset
        (subset_removeConnection_timeout keyed (identified id) hfires k')
    · intro done hdone k' key t
      have hop := Run.mem_of_mem_trace hdone
      simp only [List.cons_append, List.nil_append, List.mem_cons, List.not_mem_nil, or_false] at hop
      rcases hop with hop | hop | hop <;> rw [hop] <;> exact not_refreshes_of_unheard rfl rfl rfl
  · exact runsFromLast_of_run (keeps waits) runs h

/-! ### The operations of the loops -/

theorem keepsTime_server (keyed : Keyed manager) (identified : ServerIdentified manager)
    (server : Run.EachStep ManagerOp.apply (fun _ => OnServer) manager ops)
    (waits : ∀ op ∈ ops, ∀ id index now, op ≠ .awaitTimeout id index now) :
    Run.EachStep ManagerOp.apply (fun _ => KeepsTime) manager ops := by
  intro done op future mid before after now heq hdone hstep
  have hserver := server done op future mid before after now heq hdone hstep
  have hmid := serverIdentified_run keyed identified (heq ▸ server).of_append hdone
  exact ⟨keyed_run keyed hdone, fun k => (hmid k).distinct,
    fun info dial dials => absurd dials.greets (by simp [hserver.greets]), waits op (by simp [heq])⟩

variable {settings : ClientSettings}

theorem opensFresh_client {op : ManagerOp} (client : OnClient settings manager op) :
    OpensFresh manager op := by
  rcases client.dials with dialless | ⟨dials, rfl⟩
  · exact fun info dial dials => absurd dials (dialless info dial)
  · intro info dial hdials entry hentry hkey
    cases hdials with
    | ensure present listed dead =>
        rw [destination_of_listed listed, connectionsOf_of_get? present] at hentry
        refine dead ?_
        rw [← hkey]
        exact List.mem_map_of_mem hentry

theorem keepsTime_client (distinct : settings.Distinct) (keyed : Keyed manager)
    (identified : ClientIdentified settings manager)
    (client : Run.EachStep ManagerOp.apply (fun _ => OnClient settings) manager ops)
    (waits : ∀ op ∈ ops, ∀ id index now, op ≠ .awaitTimeout id index now) :
    Run.EachStep ManagerOp.apply (fun _ => KeepsTime) manager ops := by
  intro done op future mid before after now heq hdone hstep
  have hclient := client done op future mid before after now heq hdone hstep
  have hmid := clientIdentified_run distinct keyed identified (heq ▸ client).of_append hdone
  exact ⟨keyed_run keyed hdone, fun k => (hmid.identified k).distinct, opensFresh_client hclient,
    waits op (by simp [heq])⟩

/-- The operations that open every configured link. -/
def ClientSettings.openings (settings : ClientSettings) (dials : Nat → Dial) : List ManagerOp :=
  settings.connectionInfo.zipIdx.map fun attempt =>
    .createNewConnection attempt.1 (dials attempt.2)

/-- Where there were no endpoints, the connections are those of the attempts so far. -/
theorem keys_of_openings (empty : ∀ k, manager.endpoints.get? k = none)
    {attempts : List (ConnectionInfo × Dial)}
    (h : Run.run ManagerOp.apply manager (attempts.map fun attempt =>
      .createNewConnection attempt.1 attempt.2) = some (next, outs)) (k : EndpointId) :
    ∀ entry ∈ next.connectionsOf k, entry.key ∈ attempts.map attemptKey := by
  rw [Run.run_map] at h
  refine Run.run_induction (C := fun _ _ _ => True)
    (P := fun done mid _ => ∀ k, ∀ entry ∈ mid.connectionsOf k, entry.key ∈ done.map attemptKey)
    ?_ ?_ (fun _ _ _ _ _ _ _ _ _ _ => trivial) h k
  · intro k entry hentry
    rw [connectionsOf_of_none (empty k)] at hentry
    cases hentry
  · intro done attempt mid _ after _ _ hmid _ hstep k entry hentry
    obtain ⟨old, hold | opened, changes⟩ := grown_of_apply hstep k entry hentry
    · rw [changes.key, List.map_append]
      exact List.mem_append_left _ (hmid k old hold)
    · rw [changes.key, List.map_append]
      cases opened with
      | incoming greeted => exact absurd greeted (by simp [ManagerOp.Greeted, ManagerOp.received])
      | outgoing dials =>
          cases dials
          exact List.mem_append_right _ (List.mem_singleton.mpr rfl)

theorem keepsTime_openings {dials : Nat → Dial} (distinct : settings.Distinct)
    (empty : ∀ k, manager.endpoints.get? k = none) :
    Run.EachStep ManagerOp.apply (fun _ => KeepsTime) manager (settings.openings dials) := by
  intro done op future mid before after now heq hdone _
  have hopenings : settings.openings dials = (settings.connectionInfo.zipIdx.map fun attempt =>
      (attempt.1, dials attempt.2)).map fun attempt => .createNewConnection attempt.1 attempt.2 := by
    rw [List.map_map]
    rfl
  rw [hopenings] at heq
  obtain ⟨first, rest, hsplit, rfl, hrest⟩ := List.map_eq_append_iff.mp heq
  obtain ⟨attempt, rest, rfl, rfl, -⟩ := List.map_eq_cons_iff.mp hrest
  have hkeys := attemptKeys_eq settings dials
  rw [hsplit, List.map_append, List.map_cons] at hkeys
  have hnodup : (first.map attemptKey ++ attemptKey attempt :: rest.map attemptKey).Nodup :=
    hkeys ▸ distinct
  have hfirst : Run.run tryLink manager first = some (mid, before) := by
    rw [Run.run_map] at hdone
    exact hdone
  have hidentified : ClientIdentified settings mid := by
    refine clientIdentified_tryLinks ⟨fun k e found => by simp [empty k] at found, fun k => ?_⟩ ?_ ?_
      hfirst
    · rw [connectionsOf_of_none (empty k)]
      exact Identified.nil _
    · intro other hother
      have hattempt : other ∈ settings.connectionInfo.zipIdx.map fun attempt =>
          (attempt.1, dials attempt.2) := hsplit ▸ List.mem_append_left _ hother
      obtain ⟨⟨info, index⟩, hlisted, rfl⟩ := List.mem_map.mp hattempt
      exact destination_of_listed hlisted
    · rw [connectionsOf_of_none (empty _)]
      exact hnodup.of_append_left
  refine ⟨keyed_run (fun k e found => by simp [empty k] at found) hdone,
    fun k => (hidentified.identified k).distinct, ?_, fun _ _ _ hop => by cases hop⟩
  intro info dial hdials entry hentry hkey
  cases hdials
  have hold := keys_of_openings empty hdone _ entry hentry
  rw [hkey] at hold
  exact (List.nodup_append'.mp hnodup).2.2 hold List.mem_cons_self

end Events

/-! ### Runs of the loops -/

/-- The operations that a loop performs in a run, each with the manager that it is performed on. -/
def performed {ε : Type} (step : ConnectionManager → ε → Option (ConnectionManager × List Output))
    (ops : ConnectionManager → ε → Option (List ManagerOp)) (start : ConnectionManager)
    (events : List ε) : List (ConnectionManager × ManagerOp) :=
  (Run.trace step start events).flatMap fun visited =>
    ((ops visited.1 visited.2).map (Run.trace ManagerOp.apply visited.1)).getD []

theorem performed_concat {ε : Type}
    {step : ConnectionManager → ε → Option (ConnectionManager × List Output)}
    {ops : ConnectionManager → ε → Option (List ManagerOp)} {start mid : ConnectionManager}
    {past : List ε} {event : ε} {outs : List Output} {done : List ManagerOp}
    (h : Run.run step start past = some (mid, outs)) (hops : ops mid event = some done) :
    performed step ops start (past ++ [event]) =
      performed step ops start past ++ Run.trace ManagerOp.apply mid done := by
  rw [performed, Run.trace_append h, List.flatMap_append, Run.trace_singleton, List.flatMap_singleton,
    hops]
  rfl

section Loops

variable {manager next : ConnectionManager} {past : List (ConnectionManager × ManagerOp)}
  {ops : List ManagerOp} {outs : List Output}

theorem runsFromLast_of_serverEvent {event : ServerEvent} (keyed : Keyed manager)
    (identified : ServerIdentified manager) (runs : RunsFromLast past manager)
    (hops : serverOps manager event = some ops)
    (h : Run.run ManagerOp.apply manager ops = some (next, outs)) :
    RunsFromLast (past ++ Run.trace ManagerOp.apply manager ops) next := by
  have keeps := keepsTime_server keyed identified (onServer_of_serverOps hops)
  rcases ops_of_serverEvent hops with ⟨_, _, _, _, _, _, rest, -, hrest, rfl⟩ |
    ⟨loopEvent, loopOps, -, hloop, rfl⟩ | rfl
  · refine runsFromLast_of_run (keeps ?_) runs h
    intro op hop
    rcases List.mem_cons.mp hop with rfl | hop
    · simp
    · simp [hrest op hop]
  · refine runsFromLast_of_loopEvent keyed identified hloop (fun waits => keeps ?_) runs h
    intro op hop
    rcases List.mem_append.mp hop with hop | hop
    · exact waits op hop
    · simp [List.mem_singleton.mp hop]
  · exact runsFromLast_of_run (keeps (by simp)) runs h

theorem runsFromLast_of_clientEvent {settings : ClientSettings} {event : ClientEvent}
    (distinct : settings.Distinct) (keyed : Keyed manager)
    (identified : ClientIdentified settings manager) (runs : RunsFromLast past manager)
    (hops : clientOps settings manager event = some ops)
    (h : Run.run ManagerOp.apply manager ops = some (next, outs)) :
    RunsFromLast (past ++ Run.trace ManagerOp.apply manager ops) next := by
  rcases onClient_of_clientOps hops with client | ⟨hnone, dials, rfl⟩
  · have keeps := keepsTime_client distinct keyed identified client
    rcases ops_of_clientEvent hops with ⟨loopEvent, loopOps, -, hloop, rfl⟩ |
      ⟨sends, dials, -, rfl⟩ | ⟨dials, -, rfl⟩
    · refine runsFromLast_of_loopEvent keyed identified.identified hloop (fun waits => keeps ?_) runs h
      intro op hop
      rcases List.mem_append.mp hop with hop | hop
      · exact waits op hop
      · simp [List.mem_singleton.mp hop]
    · exact runsFromLast_of_run (keeps (by simp)) runs h
    · refine runsFromLast_of_run (keeps fun op hop => ?_) runs h
      obtain ⟨attempt, -, rfl⟩ := List.mem_map.mp hop
      simp
  · exact runsFromLast_of_run
      (keepsTime_openings distinct (hasEndpoints_eq_false.mp hnone)) runs h

/-- What a run of the server keeps. -/
structure ServerTimed (settings : ServerSettings) (past : List (ConnectionManager × ManagerOp))
    (manager : ConnectionManager) : Prop where
  keyed : Keyed manager
  identified : ServerIdentified manager
  timeout : manager.connectionTimeout = settings.connectionTimeout
  runs : RunsFromLast past manager

theorem serverTimed_run {settings : ServerSettings} {server : ConnectionManager}
    {events : List ServerEvent} (begins : serverMain settings = some server)
    (h : Run.run serverStep server events = some (manager, outs)) :
    ServerTimed settings (performed serverStep serverOps server events) manager := by
  obtain ⟨tunnel, -, rfl⟩ := serverMain_eq_some begins
  refine Run.run_induction (C := fun _ _ _ => True)
    (P := fun done mid _ => ServerTimed settings (performed serverStep serverOps _ done) mid) ?_ ?_
    (fun _ _ _ _ _ _ _ _ _ _ => trivial) h
  · exact ⟨keyed_new _ _ _ _ _, fun _ => Identified.nil _, rfl, fun k entry hentry => by cases hentry⟩
  · intro done event mid _ after _ hdone timed _ hstep
    obtain ⟨ops, hops, hperform⟩ := serverStep_eq_some.mp hstep
    refine ⟨keyed_run timed.keyed hperform,
      serverIdentified_run timed.keyed timed.identified (onServer_of_serverOps hops) hperform,
      (continues_of_run timed.keyed hperform).connectionTimeout.trans timed.timeout, ?_⟩
    rw [performed_concat hdone hops]
    exact runsFromLast_of_serverEvent timed.keyed timed.identified timed.runs hops hperform

/-- What a run of a client keeps. -/
structure ClientTimed (config : ClientConfig) (past : List (ConnectionManager × ManagerOp))
    (manager : ConnectionManager) : Prop where
  keyed : Keyed manager
  identified : ClientIdentified config.toClientSettings manager
  timeout : manager.connectionTimeout = config.connectionTimeout
  runs : RunsFromLast past manager

theorem clientTimed_start {config : ClientConfig} {dials : Nat → Dial} {client : ConnectionManager}
    (distinct : config.toClientSettings.Distinct) (configured : clientManager config = some manager)
    (h : clientStart config.toClientSettings dials manager = some (client, outs)) :
    ClientTimed config (Run.trace ManagerOp.apply manager (config.toClientSettings.openings dials))
      client := by
  obtain ⟨tunnel, localAddress, -, rfl⟩ := clientManager_eq_some configured
  have hopened := (clientStart_eq_some h).1
  have hnew := keyed_new localAddress config.peerId (some (config.announced tunnel))
    config.connectionTimeout config.packetSorterDeadline
  refine ⟨keyed_run hnew hopened, clientIdentified_restart distinct (fun _ => rfl) hopened,
    (continues_of_run hnew hopened).connectionTimeout, ?_⟩
  rw [← List.nil_append (Run.trace ManagerOp.apply _ _)]
  exact runsFromLast_of_run (keepsTime_openings distinct fun _ => rfl)
    (fun k entry hentry => by cases hentry) hopened

theorem clientTimed_run {config : ClientConfig} {client : ConnectionManager}
    {events : List ClientEvent} (distinct : config.toClientSettings.Distinct)
    (begins : ClientTimed config past client)
    (h : Run.run (clientStep config.toClientSettings) client events = some (manager, outs)) :
    ClientTimed config (past ++ performed (clientStep config.toClientSettings)
      (clientOps config.toClientSettings) client events) manager := by
  refine Run.run_induction (C := fun _ _ _ => True)
    (P := fun done mid _ => ClientTimed config (past ++ performed (clientStep config.toClientSettings)
      (clientOps config.toClientSettings) client done) mid) ?_ ?_
    (fun _ _ _ _ _ _ _ _ _ _ => trivial) h
  · simpa [performed, Run.trace] using begins
  · intro done event mid _ after _ hdone timed _ hstep
    obtain ⟨ops, hops, hperform⟩ := clientStep_eq_some.mp hstep
    refine ⟨keyed_run timed.keyed hperform,
      clientIdentified_clientStep distinct timed.keyed timed.identified hstep,
      (continues_of_run timed.keyed hperform).connectionTimeout.trans timed.timeout, ?_⟩
    rw [performed_concat hdone hops, ← List.append_assoc]
    exact runsFromLast_of_clientEvent distinct timed.keyed timed.identified timed.runs hops hperform

/-- A connection times out exactly when the configured time has passed since it was last refreshed. -/
def TimesOutWhenSilent (past : List (ConnectionManager × ManagerOp)) (connectionTimeout : UInt64)
    (manager : ConnectionManager) : Prop :=
  ∀ k index entry, (manager.connectionsOf k)[index]? = some entry →
    ∃ t, LastRefreshed past k entry.key t ∧ ∀ now,
      (manager.awaitTimeout k index now).isSome = true ↔
        t + Duration.fromMillis connectionTimeout ≤ now

theorem awaitTimeout_isSome {id : EndpointId} {index : Nat} {e : Endpoint} {entry : ConnectionEntry}
    {now : Instant} (found : manager.endpoints.get? id = some e)
    (hentry : e.connections[index]? = some entry) :
    (manager.awaitTimeout id index now).isSome = true ↔
      entry.connection.connectionTimeout.isDue now = true := by
  cases hdue : entry.connection.connectionTimeout.isDue now <;>
    simp [awaitTimeout, found, Endpoint.awaitConnectionTimeouts, hentry,
      Connection.awaitConnectionTimeout, hdue]

theorem timesOutWhenSilent_of_runsFromLast (runs : RunsFromLast past manager) :
    TimesOutWhenSilent past manager.connectionTimeout manager := by
  intro k index entry hentry
  obtain ⟨hduration, t, hruns, hlast⟩ := runs k entry (List.mem_of_getElem? hentry)
  refine ⟨t, hlast, fun now => ?_⟩
  cases found : manager.endpoints.get? k with
  | none => simp [connectionsOf_of_none found] at hentry
  | some e =>
      rw [connectionsOf_of_get? found] at hentry
      rw [awaitTimeout_isSome found hentry, hruns, hduration, Timer.isDue_after]

end Loops

/-- In every state that the server reaches, and in every state that a client with distinct links
    reaches, the timeout of a connection comes exactly when the configured time has passed since the
    last operation that opened it, took in a hello from its address, or an acknowledgement on it. -/
theorem timeouts_measure_silence :
    (∀ settings server, serverMain settings = some server → ∀ events manager outs,
      Run.run serverStep server events = some (manager, outs) →
      TimesOutWhenSilent (performed serverStep serverOps server events) settings.connectionTimeout
        manager) ∧
    ∀ config, config.toClientSettings.Distinct → ∀ manager dials client first,
      clientManager config = some manager →
      clientStart config.toClientSettings dials manager = some (client, first) →
      ∀ events reached outs,
        Run.run (clientStep config.toClientSettings) client events = some (reached, outs) →
        TimesOutWhenSilent
          (Run.trace ManagerOp.apply manager (config.toClientSettings.openings dials) ++
            performed (clientStep config.toClientSettings) (clientOps config.toClientSettings) client
              events)
          config.connectionTimeout reached := by
  constructor
  · intro settings server begins events manager outs hrun
    have timed := serverTimed_run begins hrun
    exact timed.timeout ▸ timesOutWhenSilent_of_runsFromLast timed.runs
  · intro config distinct manager dials client first configured begins events reached outs hrun
    have timed := clientTimed_run distinct (clientTimed_start distinct configured begins) hrun
    exact timed.timeout ▸ timesOutWhenSilent_of_runsFromLast timed.runs

/-- A client says hello at the start and after five seconds. -/
private def helloTwice : List ServerEvent :=
  [.newConnection (some (.hello ⟨154, 7, none, 0⟩)) (.v4 2130706433 5000)
      (fun _ _ => .ok (.v4 2130706434 40000)) (fun _ => .ok 20) (fun _ => .ok 20) 0,
    .loop (.newEstablishedMessage 154 0 (some (.hello ⟨154, 7, none, 1⟩))
      (fun _ _ => .ok (.v4 2130706434 40000)) (fun _ => .ok 20) 5000000000)]

private def singleLink : ClientConfig where
  interfaces := [⟨"eth0", .v4 2130706433 0, .v4 2130706434 40000⟩]
  serverId := 1
  peerId := 154
  tunnelConfig := ⟨.v4 167772162, 4294967295⟩
  staticRoutes := []
  connectionTimeout := 10000
  packetSorterDeadline := 100

/-- The acknowledgement of its hello comes after one second. -/
private def ackOnce : List ClientEvent :=
  [.loop (.newEstablishedMessage 1 0 (some (.helloAck ⟨1, 7, none, 0⟩))
    (fun _ _ => .ok (.v4 2130706434 40000)) (fun _ => .ok 20) 1000000000)]

theorem timeouts_measure_silence_heard :
    (∃ server manager outs, serverMain relayDeployment.server = some server ∧
      Run.run serverStep server helloTwice = some (manager, outs) ∧
      (manager.awaitTimeout 154 0 14999999999).isSome = false ∧
      (manager.awaitTimeout 154 0 15000000000).isSome = true ∧
      TimesOutWhenSilent (performed serverStep serverOps server helloTwice)
        relayDeployment.server.connectionTimeout manager) ∧
    ∃ manager client first reached outs, clientManager singleLink = some manager ∧
      clientStart singleLink.toClientSettings
        (fun _ => ⟨.bound, .ok (), .ok (.v4 2130706433 5000), 7, .ok 20, 0⟩) manager =
          some (client, first) ∧
      Run.run (clientStep singleLink.toClientSettings) client ackOnce = some (reached, outs) ∧
      (reached.awaitTimeout 1 0 10999999999).isSome = false ∧
      (reached.awaitTimeout 1 0 11000000000).isSome = true ∧
      TimesOutWhenSilent
        (Run.trace ManagerOp.apply manager (singleLink.toClientSettings.openings
            fun _ => ⟨.bound, .ok (), .ok (.v4 2130706433 5000), 7, .ok 20, 0⟩) ++
          performed (clientStep singleLink.toClientSettings) (clientOps singleLink.toClientSettings) client
            ackOnce)
        singleLink.connectionTimeout reached := by
  constructor
  · have hrun : ((serverMain relayDeployment.server).bind fun server =>
        (Run.run serverStep server helloTwice).map fun reached =>
          ((reached.1.awaitTimeout 154 0 14999999999).isSome,
            (reached.1.awaitTimeout 154 0 15000000000).isSome)) = some (false, true) := by decide
    obtain ⟨server, begins, hrest⟩ := Option.bind_eq_some_iff.mp hrun
    obtain ⟨⟨manager, outs⟩, hreached, hfires⟩ := Option.map_eq_some_iff.mp hrest
    obtain ⟨hbefore, hafter⟩ := Prod.mk.inj hfires
    exact ⟨server, manager, outs, begins, hreached, hbefore, hafter,
      timeouts_measure_silence.1 _ server begins _ manager outs hreached⟩
  · have hrun : ((clientManager singleLink).bind fun manager =>
        (clientStart singleLink.toClientSettings
          (fun _ => ⟨.bound, .ok (), .ok (.v4 2130706433 5000), 7, .ok 20, 0⟩) manager).bind fun started =>
          (Run.run (clientStep singleLink.toClientSettings) started.1 ackOnce).map fun reached =>
            ((reached.1.awaitTimeout 1 0 10999999999).isSome,
              (reached.1.awaitTimeout 1 0 11000000000).isSome)) = some (false, true) := by decide
    obtain ⟨manager, configured, hrest⟩ := Option.bind_eq_some_iff.mp hrun
    obtain ⟨⟨client, first⟩, begins, hrest⟩ := Option.bind_eq_some_iff.mp hrest
    obtain ⟨⟨reached, outs⟩, hreached, hfires⟩ := Option.map_eq_some_iff.mp hrest
    obtain ⟨hbefore, hafter⟩ := Prod.mk.inj hfires
    exact ⟨manager, client, first, reached, outs, configured, begins, hreached, hbefore, hafter,
      timeouts_measure_silence.2 singleLink (List.nodup_singleton _) manager _ client first configured begins _ reached
        outs hreached⟩

end MultiConnect
