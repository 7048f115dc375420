/-
Module: MultiConnect.Proofs.Counters
Layer: Proofs
Purpose: The counters of two peers over one network. Everything that the client and the server ever wrote
  stays in the network, labelled with the session of the endpoint that wrote it. `Consistent` says what
  the endpoints of the two sides and the network have in common: each side's counter is above every
  packet it wrote under its session, its sorter has seen nothing but such packets of the other side, and
  the addresses of the client tell the sessions apart. The small steps of both sides keep it.
Trusted boundary: a connected socket yields its peer's datagrams only
Main exports: InFlight, Side, Evolves, Consistent, ClientMove, ServerMove, Carried, ClientMove.steps,
  ServerMove.steps
-/
import MultiConnect.Peers
import MultiConnect.Proofs.SelectiveDuplication
import MultiConnect.Proofs.Tunnel

namespace MultiConnect

open ConnectionManager

/-! ### Bounds on a sorter -/

/-- The sorter expects no number above `n`, and only numbers below `n` wait in it. -/
structure PacketSorter.Below (n : UInt64) (sorter : PacketSorter) : Prop where
  nextSeq : sorter.nextSeq ≤ n
  waiting : ∀ entry ∈ sorter.packetQueue.entries, entry.1 < n

theorem below_of_fresh {sorter : PacketSorter} (n : UInt64) (nextSeq : sorter.nextSeq = 0)
    (queue : sorter.packetQueue = OrdMap.empty) : sorter.Below n :=
  ⟨nextSeq ▸ UInt64.zero_le, by simp [queue, OrdMap.empty]⟩

/-- Packets below the bound keep the sorter below it. -/
theorem below_sorterStep {sorter next : PacketSorter} {op : SorterOp} {now : List SorterOutput}
    {n : UInt64} (below : sorter.Below n)
    (inserted : ∀ pkt at_, op = .insertPacket pkt at_ → pkt.seq < n)
    (hstep : sorterStep sorter op = some (next, now)) : next.Below n := by
  have hands : ∀ (sorter next : PacketSorter) (handed : Handed) (out : List Handed),
      sorter.Below n → PacketSorter.HandsNext sorter next handed → next.Below n := by
    intro sorter next handed _ h hands
    obtain ⟨queued, hfirst, -⟩ := hands.first
    refine ⟨?_, fun entry hmem => ?_⟩
    · rw [hands.nextSeq]
      exact succ_le_of_lt (h.waiting _ (OrdMap.mem_of_first? hfirst))
    · rw [hands.queue] at hmem
      exact h.waiting entry (OrdMap.mem_of_mem_popFirst hmem)
  have skips : ∀ (sorter : PacketSorter) (key : UInt64) (queued : QueuedPacket) (out : List Handed),
      sorter.Below n → sorter.packetQueue.first? = some (key, queued) →
      PacketSorter.Below n { sorter with nextSeq := key } := fun _ _ _ _ h hfirst =>
    ⟨le_of_lt (h.waiting _ (OrdMap.mem_of_first? hfirst)), h.waiting⟩
  cases op with
  | insertPacket pkt at_ =>
      obtain ⟨rfl, -⟩ := Prod.mk.inj (Option.some.inj hstep)
      by_cases notLate : sorter.nextSeq ≤ pkt.seq
      · refine @PacketSorter.insertPacket_induction (fun s _ => s.Below n) hands skips
          (fun _ _ _ h => ⟨h.nextSeq, h.waiting⟩) sorter [] pkt at_ notLate ⟨below.nextSeq, ?_⟩
        intro entry hmem
        cases hwaits : sorter.packetQueue.get? pkt.seq with
        | some queued =>
            rw [PacketSorter.queuePacket,
              OrdMap.orInsert_of_contains _ (OrdMap.contains_iff.mpr ⟨queued, hwaits⟩)] at hmem
            exact below.waiting entry hmem
        | none =>
            rw [PacketSorter.queuePacket, OrdMap.orInsert_of_get?_none _ hwaits] at hmem
            rcases OrdMap.mem_insertEntry hmem with rfl | hmem
            · exact inserted pkt at_ rfl
            · exact below.waiting entry hmem
      · rw [PacketSorter.insertPacket_of_late at_ (lt_of_not_ge notLate)]
        exact below
  | advanceQueue at_ =>
      obtain ⟨rfl, -⟩ := Prod.mk.inj (Option.some.inj hstep)
      exact @PacketSorter.advanceQueue_induction (fun s _ => s.Below n) hands skips
        (fun _ _ _ h => ⟨h.nextSeq, h.waiting⟩) sorter [] at_ below
  | awaitHaveNextPacket =>
      simp only [sorterStep, PacketSorter.awaitHaveNextPacket] at hstep
      split at hstep
      · rename_i after pkt hread
        obtain ⟨rfl, -⟩ := Prod.mk.inj (Option.some.inj hstep)
        split at hread
        · obtain ⟨rfl, -⟩ := Prod.mk.inj (Option.some.inj hread)
          exact ⟨below.nextSeq, below.waiting⟩
        · cases hread
      · obtain ⟨rfl, -⟩ := Prod.mk.inj (Option.some.inj hstep)
        exact below

/-! ### The network -/

theorem mem_datagrams {direction : Direction} {outs : List Output} {d : Datagram} :
    d ∈ datagrams direction outs ↔ ∃ write, .write write ∈ outs ∧
      d = ⟨direction, direction.clientAddr write.entry, write.sessionId, write.message⟩ := by
  simp only [datagrams, List.mem_filterMap]
  constructor
  · rintro ⟨out, hmem, hout⟩
    cases out with
    | write write => exact ⟨write, hmem, (Option.some.inj hout).symm⟩
    | sorted => cases hout
  · rintro ⟨write, hmem, rfl⟩
    exact ⟨_, hmem, rfl⟩

/-- A packet was written in a direction under a session. -/
def InFlight (net : List Datagram) (direction : Direction) (session : Uuid) (packet : Packet) :
    Prop :=
  ∃ d ∈ net, d.direction = direction ∧ d.session = session ∧ d.message = .packet packet

theorem inFlight_append {net more : List Datagram} {direction : Direction} {session : Uuid}
    {packet : Packet} :
    InFlight (net ++ more) direction session packet ↔
      InFlight net direction session packet ∨ InFlight more direction session packet := by
  simp only [InFlight, List.mem_append, or_and_right, exists_or]

/-- The counters of a side that writes in a direction: its own is above every packet it wrote under its
    session, and its sorter is below every bound of the packets that the other side wrote under it. -/
structure Side (out : Direction) (net : List Datagram) (e : Endpoint) : Prop where
  numbered : ∀ packet, InFlight net out e.sessionId packet → packet.seq < e.txCounter
  sorter : ∀ n, (∀ packet, InFlight net out.back e.sessionId packet → packet.seq < n) →
    e.packetSorter.Below n

theorem Side.append {out : Direction} {net more : List Datagram} {e : Endpoint}
    (side : Side out net e)
    (numbered : ∀ packet, InFlight more out e.sessionId packet → packet.seq < e.txCounter) :
    Side out (net ++ more) e where
  numbered packet h := (inFlight_append.mp h).elim (side.numbered packet) (numbered packet)
  sorter n h := side.sorter n fun packet hpacket => h packet (inFlight_append.mpr (Or.inl hpacket))

/-- A fresh endpoint under a session that no packet of this side was written under. -/
theorem side_new {out : Direction} {net : List Datagram} (k : EndpointId) {session : Uuid}
    (packetSorterDeadline : UInt64) (now : Instant)
    (unused : ∀ packet, ¬ InFlight net out session packet) :
    Side out net (Endpoint.new k session packetSorterDeadline now) where
  numbered packet h := absurd h (unused packet)
  sorter n _ := below_of_fresh n rfl rfl

/-! ### Endpoints that evolve -/

/-- What a side may write: a signal, or a packet under a number that its counter has passed. -/
def Writes (m₀ : ConnectionManager) (op : ManagerOp) (e e' : Endpoint) (message : Messages) : Prop :=
  SignalMessage op m₀.ownId e.sessionId message ∨
    op.tunnels = true ∧ ∃ packet, message = .packet packet ∧ packet.seq < e'.txCounter

/-- What the changes to an endpoint have in common that neither create it nor connect it: `more` is
    written on the connections that were there. -/
structure Evolves (m₀ : ConnectionManager) (op : ManagerOp) (k : EndpointId) (e e' : Endpoint)
    (more : List Output) : Prop where
  sessionId : e'.sessionId = e.sessionId
  txCounter : e.txCounter ≤ e'.txCounter
  sorter : ∀ n, (∀ pkt now, Sorts op k (.insertPacket pkt now) → m₀.endpoints.get? k = some e →
    pkt.seq < n) → e.packetSorter.Below n → e'.packetSorter.Below n
  connections : ∀ entry ∈ e'.connections, ∃ old ∈ e.connections, ∀ out : Direction,
    out.clientAddr old = out.clientAddr entry
  writes : ∀ write, .write write ∈ more → write.sessionId = e.sessionId ∧
    write.entry ∈ e.connections ∧ Writes m₀ op e e' write.message

theorem clientAddr_of_link {entry entry' : ConnectionEntry} (h : entry.link = entry'.link)
    (out : Direction) : out.clientAddr entry = out.clientAddr entry' := by
  obtain ⟨-, -, hsocket, -, hpeer, -⟩ := Link.mk.inj h
  cases out with
  | toServer => exact congrArg UdpSocket.localAddr hsocket
  | toClient => exact hpeer

section Evolves

variable {m₀ : ConnectionManager} {op : ManagerOp} {k : EndpointId} {e e' : Endpoint}

theorem Evolves.refl (m₀ : ConnectionManager) (op : ManagerOp) (k : EndpointId) (e : Endpoint) :
    Evolves m₀ op k e e [] where
  sessionId := rfl
  txCounter := le_refl _
  sorter _ _ below := below
  connections entry hentry := ⟨entry, hentry, fun _ => rfl⟩
  writes write hwrite := by simp at hwrite

theorem Evolves.signal {writes : List Write} (touched : Touched e e')
    (sent : ∀ write ∈ writes, Signal m₀ op e write) :
    Evolves m₀ op k e e' (writes.map .write) where
  sessionId := touched.sessionId
  txCounter := le_of_eq touched.txCounter.symm
  sorter n _ below := touched.packetSorter ▸ below
  connections entry hentry := by
    obtain ⟨old, hold, hlink⟩ := touched.exists_entry hentry
    exact ⟨old, hold, clientAddr_of_link hlink⟩
  writes write hwrite := by
    obtain ⟨write', hmem, heq⟩ := List.mem_map.mp hwrite
    obtain rfl := Output.write.inj heq
    have signal := sent write' hmem
    exact ⟨signal.sessionId, signal.entry, Or.inl signal.message⟩

theorem Evolves.switch (state : InterfaceState) :
    Evolves m₀ op k e (if state.enabled then e.enableInterface state.interfaceName
      else e.disableInterface state.interfaceName) [] := by
  have hset : ∀ switch : Connection → Connection, (∀ connection,
      (switch connection).socket = connection.socket ∧
      (switch connection).peerAddr = connection.peerAddr) →
      Evolves m₀ op k e (e.setInterface switch state.interfaceName) [] := by
    intro switch hswitch
    refine ⟨rfl, le_refl _, fun _ _ below => below, fun entry hentry => ?_, by simp⟩
    obtain ⟨old, hold, rfl⟩ := List.mem_map.mp hentry
    refine ⟨old, hold, fun out => ?_⟩
    split
    · cases out with
      | toServer => exact (congrArg UdpSocket.localAddr (hswitch old.connection).1).symm
      | toClient => exact (hswitch old.connection).2.symm
    · rfl
  split
  · exact hset _ fun _ => ⟨rfl, rfl⟩
  · exact hset _ fun _ => ⟨rfl, rfl⟩

theorem Evolves.sort {sop : SorterOp} {sorter : PacketSorter} {outs : List SorterOutput}
    (sorts : Sorts op k sop) (found : m₀.endpoints.get? k = some e)
    (sorted : sorterStep e.packetSorter sop = some (sorter, outs)) :
    Evolves m₀ op k e { e with packetSorter := sorter }
      ((receivedPackets outs).map (.sorted e.id)) where
  sessionId := rfl
  txCounter := le_refl _
  sorter n inserted below := below_sorterStep below
    (fun pkt now hop => inserted pkt now (hop ▸ sorts) found) sorted
  connections entry hentry := ⟨entry, hentry, fun _ => rfl⟩
  writes write hwrite := by simp at hwrite

theorem Evolves.fire (timer : Timer) :
    Evolves m₀ op k e
      { e with packetSorter := { e.packetSorter with deadlineTimer := timer } } [] where
  sessionId := rfl
  txCounter := le_refl _
  sorter n _ below := ⟨below.nextSeq, below.waiting⟩
  connections entry hentry := ⟨entry, hentry, fun _ => rfl⟩
  writes write hwrite := by simp at hwrite

theorem Evolves.drop (p : ConnectionEntry → Bool) :
    Evolves m₀ op k e { e with connections := e.connections.eraseP p } [] where
  sessionId := rfl
  txCounter := le_refl _
  sorter n _ below := below
  connections entry hentry := ⟨entry, List.mem_of_mem_eraseP hentry, fun _ => rfl⟩
  writes write hwrite := by simp at hwrite

/-- A packet that is numbered moves the counter past its number. -/
theorem Evolves.tunnel {bytes : List UInt8} {sends : Nat → SendResult} (tunnels : op.tunnels = true)
    (counts : e.txCounter ≠ u64Max) :
    Evolves m₀ op k e (e.tunnel bytes sends).1 ((e.tunnel bytes sends).2.map .write) := by
  have touched := e.touched_tunnel bytes sends
  have hcounter : e.txCounter < (e.tunnel bytes sends).1.txCounter := by
    rw [touched.txCounter]
    exact lt_succ_of_lt_max (lt_of_le_of_ne (UInt64.le_iff_toNat_le.mpr (by
      have := e.txCounter.toNat_lt
      rw [toNat_u64Max]
      omega)) counts)
  refine ⟨touched.sessionId, le_of_lt hcounter, fun n _ below => touched.packetSorter ▸ below,
    fun entry hentry => ?_, fun write hwrite => ?_⟩
  · obtain ⟨old, hold, hlink⟩ := touched.exists_entry hentry
    exact ⟨old, hold, clientAddr_of_link hlink⟩
  · obtain ⟨write', hmem, heq⟩ := List.mem_map.mp hwrite
    obtain rfl := Output.write.inj heq
    obtain ⟨entry, hentry, -, rfl⟩ := Endpoint.mem_writes.mp hmem
    exact ⟨rfl, hentry, Or.inr ⟨tunnels, _, rfl, hcounter⟩⟩

/-- What an evolving endpoint puts on the network. -/
theorem Evolves.mem_datagrams {more : List Output} (evolves : Evolves m₀ op k e e' more)
    {out : Direction} {d : Datagram} (h : d ∈ datagrams out more) :
    d.direction = out ∧ d.session = e.sessionId ∧
      (∃ entry ∈ e.connections, d.clientAddr = out.clientAddr entry) ∧
      Writes m₀ op e e' d.message := by
  obtain ⟨write, hwrite, rfl⟩ := MultiConnect.mem_datagrams.mp h
  obtain ⟨hsession, hentry, hmessage⟩ := evolves.writes write hwrite
  exact ⟨rfl, hsession, ⟨_, hentry, rfl⟩, hmessage⟩

/-- An evolved side, when what its sorter took in was in flight. -/
theorem Evolves.side {more : List Output} {out : Direction} {net : List Datagram}
    (evolves : Evolves m₀ op k e e' more) (side : Side out net e)
    (arrived : ∀ pkt now, Sorts op k (.insertPacket pkt now) → m₀.endpoints.get? k = some e →
      InFlight net out.back e.sessionId pkt) : Side out (net ++ datagrams out more) e' := by
  refine Side.append ⟨fun packet h => ?_, fun n h => ?_⟩ fun packet h => ?_
  · exact lt_of_lt_of_le (side.numbered packet (evolves.sessionId ▸ h)) evolves.txCounter
  · have hbound : ∀ packet, InFlight net out.back e.sessionId packet → packet.seq < n :=
      fun packet hpacket => h packet (evolves.sessionId.symm ▸ hpacket)
    exact evolves.sorter n (fun pkt now sorts found => hbound pkt (arrived pkt now sorts found))
      (side.sorter n hbound)
  · obtain ⟨d, hd, -, -, hmessage⟩ := h
    obtain ⟨-, -, -, hwrites⟩ := evolves.mem_datagrams hd
    rw [hmessage] at hwrites
    rcases hwrites with hsignal | ⟨-, packet', heq, hless⟩
    · exact hsignal.elim
    · obtain rfl := Messages.packet.inj heq
      exact hless

end Evolves

/-! ### Two endpoints and the network between them -/

/-- What the endpoint that the client has for the server, the endpoint that the server has for the
    client, and the network have in common. -/
structure Consistent (clientId : EndpointId) (net : List Datagram) (client server : Option Endpoint) :
    Prop where
  functional : ∀ d ∈ net, ∀ d' ∈ net, d.clientAddr = d'.clientAddr → d.session = d'.session
  hellos : ∀ d ∈ net, ∀ hello, d.message = .hello hello →
    hello.id = clientId ∧ hello.sessionId = d.session
  clientSide : ∀ e, client = some e → Side .toServer net e
  serverSide : ∀ f, server = some f → Side .toClient net f
  exclusive : ∀ e, client = some e → ∀ entry ∈ e.connections, ∀ d ∈ net,
    d.clientAddr = Direction.toServer.clientAddr entry → d.session = e.sessionId
  backed : ∀ f, server = some f → ∀ entry ∈ f.connections, ∃ d ∈ net,
    d.clientAddr = Direction.toClient.clientAddr entry ∧ d.session = f.sessionId

/-- Datagrams under one session at addresses that belong to it keep the sessions apart. -/
theorem functional_append {net more : List Datagram} {session : Uuid}
    (h : ∀ d ∈ net, ∀ d' ∈ net, d.clientAddr = d'.clientAddr → d.session = d'.session)
    (own : ∀ d ∈ more, d.session = session)
    (belongs : ∀ d ∈ more, ∀ d' ∈ net, d'.clientAddr = d.clientAddr → d'.session = session) :
    ∀ d ∈ net ++ more, ∀ d' ∈ net ++ more, d.clientAddr = d'.clientAddr → d.session = d'.session := by
  intro d hd d' hd' haddr
  rcases List.mem_append.mp hd with hd | hd <;> rcases List.mem_append.mp hd' with hd' | hd'
  · exact h d hd d' hd' haddr
  · exact (belongs d' hd' d hd haddr).trans (own d' hd').symm
  · exact (own d hd).trans (belongs d hd d' hd' haddr.symm).symm
  · exact (own d hd).trans (own d' hd').symm

/-- The hellos among what an evolving endpoint writes. -/
theorem Evolves.hellos {m₀ : ConnectionManager} {op : ManagerOp} {k : EndpointId} {e e' : Endpoint}
    {more : List Output} (evolves : Evolves m₀ op k e e' more) {out : Direction} {d : Datagram}
    {hello : Hello} (h : d ∈ datagrams out more) (message : d.message = .hello hello) :
    op.greets = true ∧ hello.id = m₀.ownId ∧ hello.sessionId = d.session := by
  obtain ⟨-, hsession, -, hwrites⟩ := evolves.mem_datagrams h
  rw [message] at hwrites
  rcases hwrites with ⟨hgreets, hid, hsessionId⟩ | ⟨-, packet, heq, -⟩
  · exact ⟨hgreets, hid, hsessionId.trans hsession.symm⟩
  · cases heq

section Evolving

variable {clientId k : EndpointId} {net : List Datagram} {m₀ : ConnectionManager} {op : ManagerOp}
  {e e' : Endpoint} {more : List Output}

theorem Consistent.client_evolves {server : Option Endpoint}
    (consistent : Consistent clientId net (some e) server) (evolves : Evolves m₀ op k e e' more)
    (ownId : m₀.ownId = clientId)
    (arrived : ∀ pkt now, Sorts op k (.insertPacket pkt now) → m₀.endpoints.get? k = some e →
      InFlight net .toClient e.sessionId pkt) :
    Consistent clientId (net ++ datagrams .toServer more) (some e') server where
  functional := by
    refine functional_append consistent.functional
      (fun d hd => (evolves.mem_datagrams hd).2.1) fun d hd d' hd' haddr => ?_
    obtain ⟨-, -, ⟨entry, hentry, hclient⟩, -⟩ := evolves.mem_datagrams hd
    exact consistent.exclusive e rfl entry hentry d' hd' (haddr.trans hclient)
  hellos d hd hello hmessage := by
    rcases List.mem_append.mp hd with hd | hd
    · exact consistent.hellos d hd hello hmessage
    · obtain ⟨-, hid, hsession⟩ := evolves.hellos hd hmessage
      exact ⟨hid.trans ownId, hsession⟩
  clientSide x hx := by
    obtain rfl := Option.some.inj hx
    exact evolves.side (consistent.clientSide e rfl) arrived
  serverSide f hf := by
    refine (consistent.serverSide f hf).append fun packet h => ?_
    obtain ⟨d, hd, hdirection, -⟩ := h
    rw [(evolves.mem_datagrams hd).1] at hdirection
    cases hdirection
  exclusive x hx entry hentry d hd haddr := by
    obtain rfl := Option.some.inj hx
    rw [evolves.sessionId]
    rcases List.mem_append.mp hd with hd | hd
    · obtain ⟨old, hold, hsame⟩ := evolves.connections entry hentry
      exact consistent.exclusive e rfl old hold d hd (haddr.trans (hsame _).symm)
    · exact (evolves.mem_datagrams hd).2.1
  backed f hf entry hentry := by
    obtain ⟨d, hd, hbacked⟩ := consistent.backed f hf entry hentry
    exact ⟨d, List.mem_append_left _ hd, hbacked⟩

theorem Consistent.server_evolves {client : Option Endpoint}
    (consistent : Consistent clientId net client (some e)) (evolves : Evolves m₀ op k e e' more)
    (greets : op.greets = false)
    (arrived : ∀ pkt now, Sorts op k (.insertPacket pkt now) → m₀.endpoints.get? k = some e →
      InFlight net .toServer e.sessionId pkt) :
    Consistent clientId (net ++ datagrams .toClient more) client (some e') where
  functional := by
    refine functional_append consistent.functional
      (fun d hd => (evolves.mem_datagrams hd).2.1) fun d hd d' hd' haddr => ?_
    obtain ⟨-, -, ⟨entry, hentry, hclient⟩, -⟩ := evolves.mem_datagrams hd
    obtain ⟨w, hw, hwaddr, hwsession⟩ := consistent.backed e rfl entry hentry
    exact (consistent.functional d' hd' w hw (haddr.trans (hclient.trans hwaddr.symm))).trans hwsession
  hellos d hd hello hmessage := by
    rcases List.mem_append.mp hd with hd | hd
    · exact consistent.hellos d hd hello hmessage
    · exact absurd (evolves.hellos hd hmessage).1 (by simp [greets])
  clientSide x hx := by
    refine (consistent.clientSide x hx).append fun packet h => ?_
    obtain ⟨d, hd, hdirection, -⟩ := h
    rw [(evolves.mem_datagrams hd).1] at hdirection
    cases hdirection
  serverSide f hf := by
    obtain rfl := Option.some.inj hf
    exact evolves.side (consistent.serverSide e rfl) arrived
  exclusive x hx entry hentry d hd haddr := by
    rcases List.mem_append.mp hd with hd | hd
    · exact consistent.exclusive x hx entry hentry d hd haddr
    · -- the server writes where the client greeted it from
      obtain ⟨-, hsession, ⟨peer, hpeer, hclient⟩, -⟩ := evolves.mem_datagrams hd
      obtain ⟨w, hw, hwaddr, hwsession⟩ := consistent.backed e rfl peer hpeer
      rw [hsession, ← hwsession]
      exact consistent.exclusive x hx entry hentry w hw
        (hwaddr.trans (hclient.symm.trans haddr))
  backed f hf entry hentry := by
    obtain rfl := Option.some.inj hf
    obtain ⟨old, hold, hsame⟩ := evolves.connections entry hentry
    obtain ⟨d, hd, haddr, hsession⟩ := consistent.backed e rfl old hold
    exact ⟨d, List.mem_append_left _ hd, haddr.trans (hsame _), hsession.trans evolves.sessionId.symm⟩

end Evolving

/-! ### The operations of the two sides -/

/-- The packets that an operation takes in were in flight under the session of their endpoint. -/
def Arrives (direction : Direction) (net : List Datagram) (m₀ : ConnectionManager) (op : ManagerOp) :
    Prop :=
  ∀ readInfo packet e, op.reading = some readInfo → readInfo.packetBytes = some (.packet packet) →
    m₀.endpoints.get? readInfo.endpointId = some e → InFlight net direction e.sessionId packet

theorem Arrives.inFlight {direction : Direction} {net : List Datagram} {m₀ : ConnectionManager}
    {op : ManagerOp} {k : EndpointId} {e : Endpoint} (arrives : Arrives direction net m₀ op)
    (more : List Datagram) : ∀ pkt now, Sorts op k (.insertPacket pkt now) →
      m₀.endpoints.get? k = some e → InFlight (net ++ more) direction e.sessionId pkt := by
  intro pkt now sorts found
  cases sorts with
  | packet _ _ _ decoded =>
      exact inFlight_append.mpr (Or.inl (arrives _ pkt e rfl decoded found))

/-- An operation of the client: it does not listen, what it reads came in on a connection that it
    knows, and it opens connections to the server only. The session of an endpoint it creates is new
    to the network, and an address it opens a connection from belongs to the session of its endpoint,
    if anything was ever written there. -/
structure ClientMove (serverId : EndpointId) (net : List Datagram) (m₀ : ConnectionManager)
    (op : ManagerOp) : Prop where
  listens : op.listeningHello = none
  arrives : Arrives .toClient net m₀ op
  known : ∀ readInfo k e, op.reading = some readInfo → m₀.endpoints.get? k = some e →
    ∃ entry ∈ e.connections, entry.isFor readInfo.interfaceName readInfo.sourceAddress = true
  destination : ∀ info dial, Dials m₀ op info dial → info.destinationEndpointId = serverId
  session : ∀ info dial, Dials m₀ op info dial → m₀.endpoints.get? serverId = none →
    ∀ d ∈ net, d.session ≠ dial.newSession
  address : ∀ info dial localAddr, Dials m₀ op info dial → dial.Opens → dial.Reaches localAddr →
    ∀ d ∈ net, d.clientAddr = localAddr →
      ∃ e, m₀.endpoints.get? serverId = some e ∧ d.session = e.sessionId

/-- An operation of the server: it greets nobody, what it reads and the hellos that it listens to were
    written by the client, and it installs an endpoint under a session only when it has written no
    packet under that session. -/
structure ServerMove (clientId : EndpointId) (net : List Datagram) (m₀ : ConnectionManager)
    (op : ManagerOp) : Prop where
  greets : op.greets = false
  arrives : Arrives .toServer net m₀ op
  source : ∀ readInfo k f, op.reading = some readInfo → m₀.endpoints.get? k = some f →
    ∃ d ∈ net, d.clientAddr = readInfo.sourceAddress ∧ d.session = f.sessionId
  hello : ∀ hello sourceAddress interfaceName openSocket firstAck lastAck now,
    op = .handleHello (some (.hello hello)) sourceAddress interfaceName openSocket firstAck lastAck
      now →
    hello.id = clientId ∧ ∃ d ∈ net, d.clientAddr = sourceAddress ∧ d.session = hello.sessionId
  unused : ∀ hello, op.listeningHello = some hello → m₀.Installs hello.id hello.sessionId →
    ∀ packet, ¬ InFlight net .toClient hello.sessionId packet

/-- Unless the operation removes, the endpoint that was there stays under its session, and whatever was
    written was written under the session of the endpoint that is there. -/
def Carried (m₀ : ConnectionManager) (op : ManagerOp) (k : EndpointId) (out : Direction)
    (o : Option Endpoint) (more : List Output) : Prop :=
  op.removes = true ∨
    (∀ d ∈ datagrams out more, ∃ e, o = some e ∧ d.session = e.sessionId) ∧
      ∀ e, m₀.endpoints.get? k = some e → ∃ e', o = some e' ∧ e'.sessionId = e.sessionId

theorem Carried.evolves {m₀ : ConnectionManager} {op : ManagerOp} {k : EndpointId} {out : Direction}
    {e e' : Endpoint} {before more : List Output} (carried : Carried m₀ op k out (some e) before)
    (evolves : Evolves m₀ op k e e' more) : Carried m₀ op k out (some e') (before ++ more) := by
  refine carried.imp id fun ⟨hwritten, hstays⟩ => ⟨fun d hd => ⟨e', rfl, ?_⟩, fun x hx => ?_⟩
  · rw [datagrams_append] at hd
    rw [evolves.sessionId]
    rcases List.mem_append.mp hd with hd | hd
    · obtain ⟨x, hx, hsession⟩ := hwritten d hd
      obtain rfl := Option.some.inj hx
      exact hsession
    · exact (evolves.mem_datagrams hd).2.1
  · obtain ⟨x', hx', hsession⟩ := hstays x hx
    obtain rfl := Option.some.inj hx'
    exact ⟨e', rfl, evolves.sessionId.trans hsession⟩

/-- An endpoint that stays under its session carries on. -/
theorem Carried.stays {m₀ : ConnectionManager} {op : ManagerOp} {k : EndpointId} {out : Direction}
    {e e' : Endpoint} {before : List Output} (carried : Carried m₀ op k out (some e) before)
    (session : e'.sessionId = e.sessionId) : Carried m₀ op k out (some e') before := by
  refine carried.imp id fun ⟨hwritten, hstays⟩ => ⟨fun d hd => ?_, fun x hx => ?_⟩
  · obtain ⟨x, hx, hsession⟩ := hwritten d hd
    obtain rfl := Option.some.inj hx
    exact ⟨e', rfl, hsession.trans session.symm⟩
  · obtain ⟨x', hx', hsession⟩ := hstays x hx
    obtain rfl := Option.some.inj hx'
    exact ⟨e', rfl, session.trans hsession⟩

section Connecting

variable {clientId : EndpointId} {net : List Datagram} {client server : Option Endpoint}
  {e : Endpoint} {entry : ConnectionEntry}

/-- The client's endpoint gets a connection from an address that no other session was written from. -/
theorem Consistent.client_connects (consistent : Consistent clientId net (some e) server)
    (own : ∀ d ∈ net, d.clientAddr = Direction.toServer.clientAddr entry →
      d.session = e.sessionId) :
    Consistent clientId net (some { e with connections := e.connections ++ [entry] }) server := by
  refine { consistent with clientSide := ?_, exclusive := ?_ }
  · intro e' he'
    obtain rfl := Option.some.inj he'
    exact ⟨(consistent.clientSide e rfl).numbered, (consistent.clientSide e rfl).sorter⟩
  · intro e' he' other hother d hd haddr
    obtain rfl := Option.some.inj he'
    rcases List.mem_append.mp hother with hold | hnew
    · exact consistent.exclusive e rfl other hold d hd haddr
    · obtain rfl := List.mem_singleton.mp hnew
      exact own d hd haddr

/-- The server's endpoint gets a connection to an address that its session was written from. -/
theorem Consistent.server_connects (consistent : Consistent clientId net client (some e))
    (heard : ∃ d ∈ net, d.clientAddr = Direction.toClient.clientAddr entry ∧
      d.session = e.sessionId) :
    Consistent clientId net client (some { e with connections := e.connections ++ [entry] }) := by
  refine { consistent with serverSide := ?_, backed := ?_ }
  · intro e' he'
    obtain rfl := Option.some.inj he'
    exact ⟨(consistent.serverSide e rfl).numbered, (consistent.serverSide e rfl).sorter⟩
  · intro e' he' other hother
    obtain rfl := Option.some.inj he'
    rcases List.mem_append.mp hother with hold | hnew
    · exact consistent.backed e rfl other hold
    · obtain rfl := List.mem_singleton.mp hnew
      exact heard

end Connecting

section Moves

variable {clientId serverId : EndpointId} {net : List Datagram} {m₀ : ConnectionManager}
  {op : ManagerOp} {o : Option Endpoint} {more : List Output}

/-- The client's small steps, in an operation that numbers no packet. -/
theorem ClientMove.steps {server : Option Endpoint} (move : ClientMove serverId net m₀ op)
    (ownId : m₀.ownId = clientId) (tunnels : op.tunnels = false)
    (consistent : Consistent clientId net (m₀.endpoints.get? serverId) server)
    (steps : EndpointSteps m₀ op serverId (m₀.endpoints.get? serverId) more o) :
    Consistent clientId (net ++ datagrams .toServer more) o server ∧
      Carried m₀ op serverId .toServer o more := by
  refine steps.invariant (P := fun o before =>
    Consistent clientId (net ++ datagrams .toServer before) o server ∧
      Carried m₀ op serverId .toServer o before) ?_
    ⟨by simpa using consistent, Or.inr ⟨by simp, fun e he => ⟨e, he, rfl⟩⟩⟩
  rintro mid before now next ⟨hmid, hcarried⟩ step
  have hevolved : ∀ e e', mid = some e → Evolves m₀ op serverId e e' now →
      Consistent clientId (net ++ datagrams .toServer (before ++ now)) (some e') server ∧
        Carried m₀ op serverId .toServer (some e') (before ++ now) := by
    rintro e e' rfl evolves
    refine ⟨?_, hcarried.evolves evolves⟩
    rw [datagrams_append, ← List.append_assoc]
    exact hmid.client_evolves evolves ownId (move.arrives.inFlight _)
  cases step with
  | install hop => exact absurd move.listens (by simp [hop, ManagerOp.listeningHello])
  | acceptListening hop => exact absurd move.listens (by simp [hop, ManagerOp.listeningHello])
  | acceptEstablished hop _ _ found unknown =>
      obtain ⟨entry, hentry, hknown⟩ :=
        move.known _ _ _ (congrArg ManagerOp.reading hop) found
      exact absurd (unknown entry hentry) (by simp [hknown])
  | tunnel hop => exact absurd tunnels (by simp [hop, ManagerOp.tunnels])
  | signal touched sent => exact hevolved _ _ rfl (Evolves.signal touched sent)
  | switch => exact hevolved _ _ rfl (Evolves.switch _)
  | sort sorts found sorted => exact hevolved _ _ rfl (Evolves.sort sorts found sorted)
  | fire => exact hevolved _ _ rfl (Evolves.fire _)
  | drop _ p => exact hevolved _ _ rfl (Evolves.drop p)
  | remove removes =>
      rw [List.append_nil]
      exact ⟨{ hmid with clientSide := by simp, exclusive := by simp }, Or.inl removes⟩
  | create dials key reaches =>
      rw [List.append_nil]
      rcases hcarried with hremoves | ⟨hwritten, hstays⟩
      · cases dials <;> cases hremoves
      have habsent : m₀.endpoints.get? serverId = none := by
        cases hfound : m₀.endpoints.get? serverId with
        | none => rfl
        | some e =>
            obtain ⟨e', he', -⟩ := hstays e hfound
            cases he'
      have hnone : datagrams .toServer before = [] :=
        List.eq_nil_iff_forall_not_mem.mpr fun d hd => by
          obtain ⟨e, he, -⟩ := hwritten d hd
          cases he
      refine ⟨{ hmid with clientSide := ?_, exclusive := ?_ },
        Or.inr ⟨by simp [hnone], fun e he => by simp [habsent] at he⟩⟩
      · intro e he
        obtain rfl := Option.some.inj he
        refine side_new _ _ _ fun packet => ?_
        rintro ⟨d, hd, -, hsession, -⟩
        rw [hnone, List.append_nil] at hd
        exact move.session _ _ dials habsent d hd hsession
      · intro e he entry hentry
        obtain rfl := Option.some.inj he
        cases hentry
  | dial dials key reaches greeted =>
      rename_i info dial localAddr sent e
      rw [List.append_nil]
      rcases hcarried with hremoves | ⟨hwritten, hstays⟩
      · cases dials <;> cases hremoves
      refine ⟨hmid.client_connects fun d hd haddr => ?_,
        Carried.stays (Or.inr ⟨hwritten, hstays⟩) rfl⟩
      rcases List.mem_append.mp hd with hd | hd
      · obtain ⟨x, hx, hsession⟩ :=
          move.address _ _ localAddr dials ⟨⟨_, reaches⟩, _, greeted⟩ reaches d hd haddr
        obtain ⟨x', hx', hsame⟩ := hstays x hx
        obtain rfl := Option.some.inj hx'
        exact hsession.trans hsame.symm
      · obtain ⟨x, hx, hsession⟩ := hwritten d hd
        obtain rfl := Option.some.inj hx
        exact hsession

/-- The server's small steps, in an operation that numbers no packet. -/
theorem ServerMove.steps {client : Option Endpoint} (move : ServerMove clientId net m₀ op)
    (tunnels : op.tunnels = false)
    (consistent : Consistent clientId net client (m₀.endpoints.get? clientId))
    (steps : EndpointSteps m₀ op clientId (m₀.endpoints.get? clientId) more o) :
    Consistent clientId (net ++ datagrams .toClient more) client o := by
  have hgoal : Consistent clientId (net ++ datagrams .toClient more) client o ∧
      ∀ d ∈ datagrams .toClient more, ∀ packet, d.message ≠ .packet packet := by
    refine steps.invariant (P := fun o before =>
      Consistent clientId (net ++ datagrams .toClient before) client o ∧
        ∀ d ∈ datagrams .toClient before, ∀ packet, d.message ≠ .packet packet) ?_
      ⟨by simpa using consistent, by simp⟩
    intro mid before now next ⟨hmid, hsilent⟩ step
    have hevolved : ∀ f f', mid = some f → Evolves m₀ op clientId f f' now →
        Consistent clientId (net ++ datagrams .toClient (before ++ now)) client (some f') ∧
          ∀ d ∈ datagrams .toClient (before ++ now), ∀ packet, d.message ≠ .packet packet := by
      rintro f f' rfl evolves
      rw [datagrams_append, ← List.append_assoc]
      refine ⟨hmid.server_evolves evolves move.greets (move.arrives.inFlight _), ?_⟩
      refine List.forall_mem_append.mpr ⟨hsilent, fun d hd packet hmessage => ?_⟩
      rcases (evolves.mem_datagrams hd).2.2.2 with hsignal | ⟨htunnels, -⟩
      · rw [hmessage] at hsignal
        exact hsignal
      · simp [tunnels] at htunnels
    cases step with
    | create dials => exact absurd dials.greets (by simp [move.greets])
    | dial dials => exact absurd dials.greets (by simp [move.greets])
    | tunnel hop => exact absurd tunnels (by simp [hop, ManagerOp.tunnels])
    | signal touched sent => exact hevolved _ _ rfl (Evolves.signal touched sent)
    | switch => exact hevolved _ _ rfl (Evolves.switch _)
    | sort sorts found sorted => exact hevolved _ _ rfl (Evolves.sort sorts found sorted)
    | fire => exact hevolved _ _ rfl (Evolves.fire _)
    | drop _ p => exact hevolved _ _ rfl (Evolves.drop p)
    | remove =>
        rw [List.append_nil]
        exact ⟨{ hmid with serverSide := by simp, backed := by simp }, hsilent⟩
    | install hop key installs =>
        rename_i hello _ _ _ _ _ _
        rw [List.append_nil]
        refine ⟨{ hmid with serverSide := ?_, backed := ?_ }, hsilent⟩
        · intro f hf
          obtain rfl := Option.some.inj hf
          refine side_new _ _ _ fun packet hpacket => ?_
          rcases inFlight_append.mp hpacket with hpacket | ⟨d, hd, -, -, hmessage⟩
          · exact move.unused hello (by rw [hop]; rfl) (by rw [key]; exact installs) packet hpacket
          · exact hsilent d hd packet hmessage
        · intro f hf entry hentry
          obtain rfl := Option.some.inj hf
          cases hentry
    | acceptListening hop _ session =>
        rw [List.append_nil]
        obtain ⟨-, d, hd, haddr, hsession⟩ := move.hello _ _ _ _ _ _ _ hop
        exact ⟨hmid.server_connects
          ⟨d, List.mem_append_left _ hd, haddr, hsession.trans session.symm⟩, hsilent⟩
    | acceptEstablished hop _ _ found =>
        rw [List.append_nil]
        obtain ⟨d, hd, haddr, hsession⟩ :=
          move.source _ _ _ (congrArg ManagerOp.reading hop) found
        exact ⟨hmid.server_connects ⟨d, List.mem_append_left _ hd, haddr, hsession⟩, hsilent⟩
  exact hgoal.1

end Moves

end MultiConnect
