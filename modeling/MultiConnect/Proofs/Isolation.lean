/-
Module: MultiConnect.Proofs.Isolation
Layer: Proofs
Purpose: The tunnels of a network are isolated from each other, however its programs are interleaved
  and whichever messages are lost, delayed, repeated or overtaken: what the server takes out of a
  tunnel, the client at its other end has put in; and what a client takes out, the server has put in for
  an address that this very client announced (`traffic_stays_in_its_tunnel`).
Trusted boundary: an address leads to one client; a connected socket yields datagrams of its peer only
Main exports: Sent, Genuine, Isolated, isolated_run, traffic_stays_in_its_tunnel
-/
import MultiConnect.Library.History
import MultiConnect.Proofs.NetworkSteps

namespace MultiConnect

open ConnectionManager

/-- A packet was put into the tunnel between a party and the endpoint that it names as the source: by
    the client for the server, or by the server for an address that the client announced. -/
inductive Sent (deployment : Deployment) (traffic : List Traffic) :
    Party → EndpointId → List UInt8 → Prop
  | byClient {id : EndpointId} {config : ClientConfig} {destination : Ipv4Addr} {bytes : List UInt8}
      (configured : deployment.clients.get? id = some config)
      (routed : .routed (.client id) config.serverId destination bytes ∈ traffic) :
      Sent deployment traffic .server id bytes
  | byServer {id : EndpointId} {config : ClientConfig} {tunnel route : Route}
      {destination : Ipv4Addr} {bytes : List UInt8}
      (configured : deployment.clients.get? id = some config)
      (subnet : config.tunnelConfig.route = some tunnel) (announced : route ∈ config.announced tunnel)
      (reachable : route.reachableFrom destination = true)
      (routed : .routed .server id destination bytes ∈ traffic) :
      Sent deployment traffic (.client id) config.serverId bytes

/-! ### The invariant -/

/-- A hello was written to the server from an address. -/
def HelloFrom (net : List Datagram) (addr : SocketAddr) : Prop :=
  ∃ d ∈ net, d.direction = .toServer ∧ d.clientAddr = addr ∧ ∃ hello, d.message = .hello hello

/-- An acknowledgement was written to a client. -/
def AckTo (deployment : Deployment) (net : List Datagram) (id : EndpointId) : Prop :=
  ∃ d ∈ net, d.direction = .toClient ∧ deployment.owner d.clientAddr = id ∧
    ∃ helloAck, d.message = .helloAck helloAck

/-- Where the server's state comes from. -/
def serverOrigins (deployment : Deployment) (net : List Datagram) (traffic : List Traffic) :
    Origins where
  direction := .toClient
  hears := True
  acked := False
  address k addr := deployment.owner addr = k ∧ HelloFrom net addr
  packet k packet := Sent deployment traffic .server k packet.bytes
  route aem := ∃ config tunnel, deployment.clients.get? aem.endpointId = some config ∧
    config.tunnelConfig.route = some tunnel ∧ aem.address ∈ config.announced tunnel

/-- Where a client's state comes from. -/
def clientOrigins (deployment : Deployment) (net : List Datagram) (traffic : List Traffic)
    (id : EndpointId) (config : ClientConfig) : Origins where
  direction := .toServer
  hears := False
  acked := AckTo deployment net id
  address k addr := k = config.serverId ∧ deployment.owner addr = id
  packet k packet := Sent deployment traffic (.client id) k packet.bytes
  route aem := AckTo deployment net id ∧ aem.endpointId = deployment.server.peerId ∧ ∃ tunnel,
    deployment.server.tunnelConfig.route = some tunnel ∧ aem.address ∈ ServerSettings.announced tunnel

/-- What a message under way may be: a client writes hellos of its own and packets that it routes, the
    server acknowledgements of its own and packets that it routes. -/
def Genuine (deployment : Deployment) (traffic : List Traffic) (d : Datagram) : Prop :=
  match d.direction, d.message with
  | .toServer, .packet packet => Sent deployment traffic .server (deployment.owner d.clientAddr)
      packet.bytes
  | .toServer, .hello hello => hello.id = deployment.owner d.clientAddr ∧ ∃ config tunnel,
      deployment.clients.get? hello.id = some config ∧ config.tunnelConfig.route = some tunnel ∧
        hello.staticRoutes = some (config.announced tunnel)
  | .toServer, .helloAck _ => False
  | .toClient, .packet packet => ∃ source,
      Sent deployment traffic (.client (deployment.owner d.clientAddr)) source packet.bytes
  | .toClient, .hello _ => False
  | .toClient, .helloAck helloAck => helloAck.id = deployment.server.peerId ∧ ∃ tunnel,
      deployment.server.tunnelConfig.route = some tunnel ∧
        helloAck.staticRoutes = some (ServerSettings.announced tunnel)

/-- The server's manager is the one that its program made. -/
structure ServerRuns (deployment : Deployment) (net : List Datagram) (traffic : List Traffic)
    (server : ConnectionManager) : Prop where
  traces : Traces (serverOrigins deployment net traffic) server
  ownId : server.ownId = deployment.server.peerId
  ownStaticRoutes : ∃ tunnel, deployment.server.tunnelConfig.route = some tunnel ∧
    server.ownStaticRoutes = some (ServerSettings.announced tunnel)

/-- A client's manager is the one that its program made. -/
structure ClientRuns (deployment : Deployment) (net : List Datagram) (traffic : List Traffic)
    (id : EndpointId) (config : ClientConfig) (client : ConnectionManager) : Prop where
  traces : Traces (clientOrigins deployment net traffic id config) client
  ownId : client.ownId = id
  ownStaticRoutes : ∃ tunnel, config.tunnelConfig.route = some tunnel ∧
    client.ownStaticRoutes = some (config.announced tunnel)

/-- Every program of the network keeps to its origins, and every message under way is genuine. -/
structure Isolated (deployment : Deployment) (network : Network) (traffic : List Traffic) : Prop where
  net : ∀ d ∈ network.net, Genuine deployment traffic d
  server : ServerRuns deployment network.net traffic network.server
  clients : ∀ id client, network.clients.get? id = some client →
    ∃ config, deployment.clients.get? id = some config ∧
      ClientRuns deployment network.net traffic id config client

/-! ### More traffic, and more of the run -/

section Mono

variable {deployment : Deployment} {traffic traffic' : List Traffic}

theorem Sent.mono {party : Party} {source : EndpointId} {bytes : List UInt8}
    (subset : traffic ⊆ traffic') (h : Sent deployment traffic party source bytes) :
    Sent deployment traffic' party source bytes := by
  cases h with
  | byClient configured routed => exact .byClient configured (subset routed)
  | byServer configured subnet announced reachable routed =>
      exact .byServer configured subnet announced reachable (subset routed)

theorem Genuine.mono {d : Datagram} (subset : traffic ⊆ traffic')
    (h : Genuine deployment traffic d) : Genuine deployment traffic' d := by
  obtain ⟨direction, clientAddr, session, message⟩ := d
  cases direction <;> cases message
  case toServer.packet => exact Sent.mono subset h
  case toClient.packet => exact h.imp fun _ => Sent.mono subset
  all_goals exact h

variable {net net' : List Datagram}

theorem HelloFrom.mono {addr : SocketAddr} (subset : net ⊆ net') (h : HelloFrom net addr) :
    HelloFrom net' addr :=
  h.imp fun _ hd => ⟨subset hd.1, hd.2⟩

theorem AckTo.mono {id : EndpointId} (subset : net ⊆ net') (h : AckTo deployment net id) :
    AckTo deployment net' id :=
  h.imp fun _ hd => ⟨subset hd.1, hd.2⟩

theorem ServerRuns.mono {server : ConnectionManager} (written : net ⊆ net')
    (subset : traffic ⊆ traffic') (h : ServerRuns deployment net traffic server) :
    ServerRuns deployment net' traffic' server where
  traces := h.traces.mono rfl (fun _ _ => And.imp_right (HelloFrom.mono written))
    (fun _ _ => Sent.mono subset) fun _ h => h
  ownId := h.ownId
  ownStaticRoutes := h.ownStaticRoutes

theorem ClientRuns.mono {id : EndpointId} {config : ClientConfig} {client : ConnectionManager}
    (written : net ⊆ net') (subset : traffic ⊆ traffic')
    (h : ClientRuns deployment net traffic id config client) :
    ClientRuns deployment net' traffic' id config client where
  traces := h.traces.mono rfl (fun _ _ h => h) (fun _ _ => Sent.mono subset)
    fun _ => And.imp_left (AckTo.mono written)
  ownId := h.ownId
  ownStaticRoutes := h.ownStaticRoutes

/-- The server's program goes on. -/
theorem ServerRuns.continue {server next : ConnectionManager} {ops : List ManagerOp}
    {outs : List Output} (runs : ServerRuns deployment net traffic server)
    (offers : ∀ op ∈ ops, Offers (serverOrigins deployment net traffic) op)
    (h : Run.run ManagerOp.apply server ops = some (next, outs)) :
    ServerRuns deployment net traffic next := by
  have continues := continues_of_run runs.traces.keyed h
  obtain ⟨tunnel, hroute, hown⟩ := runs.ownStaticRoutes
  exact ⟨(traces_of_run runs.traces offers h).1, continues.ownId.trans runs.ownId, tunnel, hroute,
    continues.ownStaticRoutes.trans hown⟩

/-- The program of a client goes on. -/
theorem ClientRuns.continue {id : EndpointId} {config : ClientConfig} {client next : ConnectionManager}
    {ops : List ManagerOp} {outs : List Output}
    (runs : ClientRuns deployment net traffic id config client)
    (offers : ∀ op ∈ ops, Offers (clientOrigins deployment net traffic id config) op)
    (h : Run.run ManagerOp.apply client ops = some (next, outs)) :
    ClientRuns deployment net traffic id config next := by
  have continues := continues_of_run runs.traces.keyed h
  obtain ⟨tunnel, hroute, hown⟩ := runs.ownStaticRoutes
  exact ⟨(traces_of_run runs.traces offers h).1, continues.ownId.trans runs.ownId, tunnel, hroute,
    continues.ownStaticRoutes.trans hown⟩

end Mono

/-! ### The server -/

section Server

variable {deployment : Deployment} {traffic : List Traffic} {net : List Datagram}
  {server : ConnectionManager}

/-- What the server reads on a connection was written by the client that it leads to. -/
theorem server_reads {id : EndpointId} {index : Nat} {packetBytes : Option Messages}
    {openSocket : OpenSocket} {ack : Nat → SendResult} {now : Instant} {readInfo : ReadInfo}
    (genuine : ∀ d ∈ net, Genuine deployment traffic d)
    (traces : Traces (serverOrigins deployment net traffic) server)
    (arrives : delivers net .toServer server
      (.newEstablishedMessage id index packetBytes openSocket ack now) = true)
    (h : server.awaitIncoming id index packetBytes = some readInfo) :
    Offers (serverOrigins deployment net traffic)
      (.handleEstablishedMessage readInfo openSocket ack now) := by
  obtain ⟨e, entry, found, hentry, rfl, hwritten⟩ := read_of_delivers arrives h
  obtain ⟨howner, hgreeted⟩ := traces.address id e found entry hentry
  rw [← traces.keyed id e found] at howner
  -- a message on the connection is genuine, and comes from the owner of the endpoint
  have hmessage : ∀ message, packetBytes = some message → ∃ d, Genuine deployment traffic d ∧
      d.direction = .toServer ∧ deployment.owner d.clientAddr = e.id ∧ d.message = message := by
    intro message hbytes
    obtain ⟨d, hd, hdirection, haddr, hsame⟩ := hwritten message hbytes
    exact ⟨d, genuine d hd, hdirection, by rw [haddr]; exact howner, hsame⟩
  refine offers_of_read (fun packet hbytes => ?_) (fun hello hbytes => ?_)
    (fun helloAck hbytes => ?_)
  all_goals
    obtain ⟨d, hd, hdirection, hfrom, hsame⟩ := hmessage _ hbytes
    simp only [Genuine, hdirection, hsame, hfrom] at hd
  · exact hd
  · exact ⟨trivial, fun _ _ _ => ⟨howner.trans hd.1.symm, hgreeted⟩⟩

/-- The operations of the server are handed only what the network brings. -/
theorem offers_of_serverOps {network : Network} {event : ServerEvent} {ops : List ManagerOp}
    (genuine : ∀ d ∈ network.net, Genuine deployment traffic d)
    (traces : Traces (serverOrigins deployment network.net traffic) network.server)
    (meets : ServerMeets network event) (hops : serverOps network.server event = some ops) :
    ∀ op ∈ ops, Offers (serverOrigins deployment network.net traffic) op := by
  have hremove : Offers (serverOrigins deployment network.net traffic) .removeDisconnected :=
    offers_of_plain idle_removeDisconnected.plain idle_removeDisconnected.reading
  rcases ops_of_serverEvent hops with ⟨message, sourceAddress, openSocket, firstAck, lastAck, now, rest,
    rfl, hrest, rfl⟩ | ⟨loopEvent, loopOps, rfl, hloop, rfl⟩ | rfl
  · refine List.forall_mem_cons.mpr ⟨offers_of_listen ?_, fun op hop => hrest op hop ▸ hremove⟩
    rintro hello rfl
    obtain ⟨d, hd, hdirection, rfl, hsame⟩ := meets.listens _ _ _ _ _ _ rfl
    have hhello := genuine d hd
    simp only [Genuine, hdirection, hsame] at hhello
    obtain ⟨hid, config, tunnel, configured, subnet, hroutes⟩ := hhello
    refine ⟨trivial, fun _ _ _ => ⟨hid.symm, d, hd, hdirection, rfl, hello, hsame⟩,
      fun route hroute => ⟨config, tunnel, configured, subnet, ?_⟩⟩
    simpa [hroutes] using hroute
  · refine offers_of_loopEvent hloop ?_
    rintro id index packetBytes openSocket ack now readInfo rfl hread
    exact server_reads genuine traces (meets.delivers _ rfl) hread
  · exact List.forall_mem_singleton.mpr hremove

theorem greets_of_serverOps {event : ServerEvent} {ops : List ManagerOp}
    (hops : serverOps server event = some ops) : ∀ op ∈ ops, op.greets = false := by
  rcases ops_of_serverEvent hops with ⟨_, _, _, _, _, _, rest, rfl, hrest, rfl⟩ |
    ⟨loopEvent, loopOps, rfl, hloop, rfl⟩ | rfl
  · exact List.forall_mem_cons.mpr ⟨rfl, fun op hop => hrest op hop ▸ rfl⟩
  · exact List.forall_mem_append.mpr ⟨fun op hop => (plain_of_loopEvent hloop op hop).1, by
      simp [ManagerOp.greets]⟩
  · simp [ManagerOp.greets]

/-- What the server writes is genuine. -/
theorem genuine_of_serverOps {event : ServerEvent} {ops : List ManagerOp} {next : ConnectionManager}
    {outs : List Output} (runs : ServerRuns deployment net traffic server)
    (hops : serverOps server event = some ops)
    (offers : ∀ op ∈ ops, Offers (serverOrigins deployment net traffic) op)
    (h : Run.run ManagerOp.apply server ops = some (next, outs)) :
    ∀ d ∈ datagrams .toClient outs,
      Genuine deployment (traffic ++ event.routed server) d := by
  intro d hd
  obtain ⟨write, hwrite, rfl⟩ := mem_datagrams.mp hd
  obtain ⟨past, op, future, mid, before, hsplit, hpast, continues, hauthored⟩ :=
    authored_of_run runs.traces.keyed h hwrite
  have hop : op ∈ ops := hsplit ▸ by simp
  obtain ⟨haddress, -⟩ : deployment.owner (Direction.toClient.clientAddr write.entry) =
      write.endpointId ∧ HelloFrom net (Direction.toClient.clientAddr write.entry) :=
    (traces_of_run runs.traces offers h).2 _ hwrite
  cases hmessage : write.message with
  | packet packet =>
      rw [hmessage] at hauthored
      rcases ops_of_serverEvent hops with ⟨_, _, _, _, _, _, rest, rfl, hrest, rfl⟩ |
        ⟨loopEvent, loopOps, rfl, hloop, rfl⟩ | rfl
      · obtain ⟨_, _, rfl, -⟩ := hauthored
        rcases List.mem_cons.mp hop with hop | hop
        · cases hop
        · cases hrest _ hop
      · obtain ⟨destination, hk, hrouted⟩ := routed_of_loopEvent hloop hsplit hpast hauthored .server
        obtain ⟨aem, haem, hid, hreachable⟩ := Router.mem_lookup.mp hk
        obtain ⟨config, tunnel, configured, subnet, hannounced⟩ := runs.traces.route aem haem
        refine ⟨config.serverId, ?_⟩
        rw [haddress]
        exact .byServer (hid ▸ configured) subnet hannounced hreachable
          (List.mem_append_right traffic hrouted)
      · obtain ⟨_, _, rfl, -⟩ := hauthored
        simp at hop
  | hello hello =>
      rw [hmessage] at hauthored
      exact absurd hauthored.1 (by simp [greets_of_serverOps hops op hop])
  | helloAck helloAck =>
      rw [hmessage] at hauthored
      obtain ⟨-, hid, hroutes⟩ := hauthored
      obtain ⟨tunnel, subnet, hown⟩ := runs.ownStaticRoutes
      exact ⟨hid.trans (continues.ownId.trans runs.ownId), tunnel, subnet,
        hroutes.trans (continues.ownStaticRoutes.trans hown)⟩

end Server

/-! ### The clients -/

section Client

variable {deployment : Deployment} {traffic : List Traffic} {net : List Datagram} {id : EndpointId}
  {config : ClientConfig} {client next : ConnectionManager} {ops : List ManagerOp}
  {outs : List Output}

/-- What a client reads on a connection was written by the server for this client. -/
theorem client_reads {k : EndpointId} {index : Nat} {packetBytes : Option Messages}
    {openSocket : OpenSocket} {ack : Nat → SendResult} {now : Instant} {readInfo : ReadInfo}
    (configured : deployment.clients.get? id = some config)
    (genuine : ∀ d ∈ net, Genuine deployment traffic d)
    (traces : Traces (clientOrigins deployment net traffic id config) client)
    (arrives : delivers net .toClient client
      (.newEstablishedMessage k index packetBytes openSocket ack now) = true)
    (h : client.awaitIncoming k index packetBytes = some readInfo) :
    Offers (clientOrigins deployment net traffic id config)
      (.handleEstablishedMessage readInfo openSocket ack now) := by
  obtain ⟨e, entry, found, hentry, rfl, hwritten⟩ := read_of_delivers arrives h
  obtain ⟨hk, howner⟩ := traces.address k e found entry hentry
  have hid : e.id = config.serverId := (traces.keyed k e found).trans hk
  have hmessage : ∀ message, packetBytes = some message → ∃ d, Genuine deployment traffic d ∧
      d ∈ net ∧ d.direction = .toClient ∧ deployment.owner d.clientAddr = id ∧
      d.message = message := by
    intro message hbytes
    obtain ⟨d, hd, hdirection, haddr, hsame⟩ := hwritten message hbytes
    exact ⟨d, genuine d hd, hd, hdirection, by rw [haddr]; exact howner, hsame⟩
  refine offers_of_read (fun packet hbytes => ?_) (fun hello hbytes => ?_)
    (fun helloAck hbytes => ?_)
  all_goals
    obtain ⟨d, hd, hwritten, hdirection, hfrom, hsame⟩ := hmessage _ hbytes
    simp only [Genuine, hdirection, hsame, hfrom] at hd
  · obtain ⟨source, hsent⟩ := hd
    cases hsent with
    | byServer configured' subnet announced reachable routed =>
        obtain rfl := Option.some.inj (configured.symm.trans configured')
        have hsent : Sent deployment traffic (.client id) config.serverId packet.bytes :=
          .byServer configured subnet announced reachable routed
        exact hid.symm ▸ hsent
  · obtain ⟨hsource, tunnel, subnet, hroutes⟩ := hd
    have hacked : AckTo deployment net id := ⟨d, hwritten, hdirection, hfrom, helloAck, hsame⟩
    refine ⟨hacked, fun route hroute => ⟨hacked, hsource, tunnel, subnet, ?_⟩⟩
    rw [hroutes] at hroute
    exact hroute

/-- A link of a client that is opened has an address of the client, and leads to its server. -/
theorem client_dials {dials : Nat → Dial} {attempt : ConnectionInfo × Nat} {localAddr : SocketAddr}
    (owned : Owned deployment id config dials)
    (listed : attempt ∈ config.toClientSettings.connectionInfo.zipIdx)
    (reaches : (dials attempt.2).Reaches localAddr) (timeout : UInt64) (now : Instant) :
    (clientOrigins deployment net traffic id config).address attempt.1.destinationEndpointId
      ((clientOrigins deployment net traffic id config).direction.clientAddr (outgoingEntry
        attempt.1.interfaceName attempt.1.destinationAddress localAddr timeout now)) := by
  refine ⟨destination_of_listed listed, owned attempt.2 ?_ localAddr reaches.connect⟩
  have hlt := List.snd_lt_of_mem_zipIdx listed
  simpa [ClientSettings.connectionInfo] using hlt

/-- The attempts that open every link of a client. -/
theorem offers_of_openLinks {dials : Nat → Dial} (owned : Owned deployment id config dials) :
    ∀ op ∈ config.toClientSettings.connectionInfo.zipIdx.map fun (info, index) =>
        ManagerOp.createNewConnection info (dials index),
      Offers (clientOrigins deployment net traffic id config) op := by
  intro op hop
  obtain ⟨⟨info, index⟩, listed, rfl⟩ := List.mem_map.mp hop
  refine offers_of_unread rfl rfl fun _ _ _ localAddr dials reaches timeout now => ?_
  cases dials
  exact client_dials owned listed reaches timeout now

theorem openLinks_not_tunnels {settings : ClientSettings} {dials : Nat → Dial} :
    ∀ op ∈ settings.connectionInfo.zipIdx.map fun (info, index) =>
      ManagerOp.createNewConnection info (dials index), op.tunnels = false := by
  intro op hop
  obtain ⟨_, -, rfl⟩ := List.mem_map.mp hop
  rfl

/-- A packet that an iteration of a client writes was routed by its event. -/
theorem routed_of_clientOps {settings : ClientSettings} {event : ClientEvent}
    {past future : List ManagerOp} {op : ManagerOp} {mid : ConnectionManager} {before : List Output}
    {k : EndpointId} {packet : Packet} (hops : clientOps settings client event = some ops)
    (hsplit : ops = past ++ op :: future)
    (hpast : Run.run ManagerOp.apply client past = some (mid, before))
    (authored : Authored mid op k (.packet packet)) :
    ∃ destination, .routed (.client id) k destination packet.bytes ∈ event.routed id client := by
  have hop : op ∈ ops := hsplit ▸ by simp
  rcases ops_of_clientEvent hops with ⟨loopEvent, loopOps, rfl, hloop, rfl⟩ |
    ⟨sends, dials, rfl, rfl⟩ | ⟨dials, rfl, rfl⟩
  · obtain ⟨destination, -, hrouted⟩ :=
      routed_of_loopEvent hloop hsplit hpast authored (.client id)
    exact ⟨destination, hrouted⟩
  · have htunnels := authored.tunnels
    simp only [List.mem_cons, List.not_mem_nil, or_false] at hop
    rcases hop with rfl | rfl | rfl <;> cases htunnels
  · exact absurd authored.tunnels (by simp [openLinks_not_tunnels op hop])

/-- The operations of a client are handed only what the network brings and its own addresses. -/
theorem offers_of_clientOps {network : Network} {event : ClientEvent}
    (configured : deployment.clients.get? id = some config)
    (genuine : ∀ d ∈ network.net, Genuine deployment traffic d)
    (traces : Traces (clientOrigins deployment network.net traffic id config) client)
    (meets : ClientMeets deployment network id config client event)
    (hops : clientOps config.toClientSettings client event = some ops) :
    ∀ op ∈ ops, Offers (clientOrigins deployment network.net traffic id config) op := by
  rcases ops_of_clientEvent hops with ⟨loopEvent, loopOps, rfl, hloop, rfl⟩ |
    ⟨sends, dials, rfl, rfl⟩ | ⟨dials, rfl, rfl⟩
  · refine offers_of_loopEvent hloop ?_
    rintro k index packetBytes openSocket ack now readInfo rfl hread
    exact client_reads configured genuine traces (meets.delivers _ rfl) hread
  · have owned := meets.keepalive sends dials rfl
    have hgreet : Offers (clientOrigins deployment network.net traffic id config)
        (.greetAllEndpoints sends) :=
      offers_of_unread rfl rfl fun _ _ _ _ dials => nomatch dials
    have hensure : Offers (clientOrigins deployment network.net traffic id config)
        (.ensureEndpointConnections config.serverId config.connectionInfo dials) := by
      refine offers_of_unread rfl rfl fun _ _ _ localAddr attempts reaches timeout now => ?_
      cases attempts with
      | ensure present listed dead => exact client_dials owned listed reaches timeout now
    simp only [List.forall_mem_cons]
    exact ⟨hgreet, hensure, offers_of_plain idle_removeDisconnected.plain
      idle_removeDisconnected.reading, by simp⟩
  · exact offers_of_openLinks (meets.restart dials rfl)

/-- What a client writes is genuine. -/
theorem genuine_of_clientRun (configured : deployment.clients.get? id = some config)
    (runs : ClientRuns deployment net traffic id config client)
    (offers : ∀ op ∈ ops, Offers (clientOrigins deployment net traffic id config) op)
    {routed : List Traffic}
    (packets : ∀ past op future mid before k packet, ops = past ++ op :: future →
      Run.run ManagerOp.apply client past = some (mid, before) →
      Authored mid op k (.packet packet) →
      ∃ destination, .routed (.client id) k destination packet.bytes ∈ routed)
    (h : Run.run ManagerOp.apply client ops = some (next, outs)) :
    ∀ d ∈ datagrams .toServer outs, Genuine deployment (traffic ++ routed) d := by
  intro d hd
  obtain ⟨write, hwrite, rfl⟩ := mem_datagrams.mp hd
  obtain ⟨past, op, future, mid, before, hsplit, hpast, continues, hauthored⟩ :=
    authored_of_run runs.traces.keyed h hwrite
  have hop : op ∈ ops := hsplit ▸ by simp
  obtain ⟨hk, howner⟩ := (traces_of_run runs.traces offers h).2 _ hwrite
  cases hmessage : write.message with
  | packet packet =>
      rw [hmessage] at hauthored
      obtain ⟨destination, hrouted⟩ := packets _ _ _ _ _ _ _ hsplit hpast hauthored
      rw [hk] at hrouted
      have hsent : Sent deployment (traffic ++ routed) .server id packet.bytes :=
        .byClient configured (List.mem_append_right traffic hrouted)
      rw [← howner] at hsent
      exact hsent
  | hello hello =>
      rw [hmessage] at hauthored
      obtain ⟨-, hid, hroutes⟩ := hauthored
      obtain ⟨tunnel, subnet, hown⟩ := runs.ownStaticRoutes
      have hfrom : hello.id = id := hid.trans (continues.ownId.trans runs.ownId)
      exact ⟨hfrom.trans howner.symm, config, tunnel, hfrom ▸ configured, subnet,
        hroutes.trans (continues.ownStaticRoutes.trans hown)⟩
  | helloAck helloAck =>
      rw [hmessage] at hauthored
      obtain ⟨⟨hello, hreceived⟩, -⟩ := hauthored
      exact ((offers op hop).hears hello hreceived).elim

end Client

/-! ### The network -/

section Network

variable {deployment : Deployment} {network next : Network} {traffic traffic' more : List Traffic}
  {net : List Datagram} {event : NetworkEvent} {id : EndpointId} {config : ClientConfig}

theorem mem_delivered {party party' : Party} {source : EndpointId} {bytes : List UInt8}
    {outs : List Output} :
    .delivered party' source bytes ∈ delivered party outs ↔
      party' = party ∧ ∃ packet, .sorted source packet ∈ outs ∧ packet.bytes = bytes := by
  simp only [delivered, List.mem_filterMap]
  constructor
  · rintro ⟨out, hmem, hout⟩
    cases out with
    | write => cases hout
    | sorted endpointId packet =>
        obtain ⟨rfl, rfl, rfl⟩ := Traffic.delivered.inj (Option.some.inj hout)
        exact ⟨rfl, packet, hmem, rfl⟩
  · rintro ⟨rfl, packet, hmem, rfl⟩
    exact ⟨_, hmem, rfl⟩

theorem delivered_not_routed {party party' : Party} {source : EndpointId} {bytes : List UInt8}
    {manager : ConnectionManager} (event : LoopEvent) :
    .delivered party' source bytes ∉ event.routed party manager := by
  unfold LoopEvent.routed
  split <;> simp

theorem clientManager_eq_some {manager : ConnectionManager} (h : clientManager config = some manager) :
    ∃ tunnel localAddress, config.tunnelConfig.route = some tunnel ∧
      manager = ConnectionManager.new localAddress config.peerId (some (config.announced tunnel))
        config.connectionTimeout config.packetSorterDeadline := by
  unfold clientManager at h
  split at h
  · rename_i tunnel first hroute _
    exact ⟨tunnel, _, hroute, (Option.some.inj h).symm⟩
  · cases h

theorem serverMain_eq_some {settings : ServerSettings} {server : ConnectionManager}
    (h : serverMain settings = some server) :
    ∃ tunnel, settings.tunnelConfig.route = some tunnel ∧
      server = ConnectionManager.new settings.serverBindAddress settings.peerId
        (some (ServerSettings.announced tunnel)) settings.connectionTimeout
        settings.packetSorterDeadline := by
  unfold serverMain at h
  split at h
  · rename_i tunnel hroute
    exact ⟨tunnel, hroute, (Option.some.inj h).symm⟩
  · cases h

/-- A server that has just started. -/
theorem serverRuns_new {server : ConnectionManager}
    (h : serverMain deployment.server = some server) : ServerRuns deployment net traffic server := by
  obtain ⟨tunnel, hroute, rfl⟩ := serverMain_eq_some h
  exact ⟨traces_new .., rfl, tunnel, hroute, rfl⟩

/-- A client that has not opened its links yet. -/
theorem clientRuns_new (net : List Datagram) (traffic : List Traffic) {client : ConnectionManager}
    (configured : deployment.clients.get? id = some config)
    (h : clientManager config = some client) : ClientRuns deployment net traffic id config client := by
  obtain ⟨tunnel, localAddress, hroute, rfl⟩ := clientManager_eq_some h
  exact ⟨traces_new .., deployment.peerIds (id, config) (OrdMap.get?_eq_some_iff.mp configured), tunnel,
    hroute, rfl⟩

/-- A client whose first links are open, and what it greeted with. -/
theorem clientRuns_start {dials : Nat → Dial} {client : ConnectionManager} {outs : List Output}
    (configured : deployment.clients.get? id = some config) (owned : Owned deployment id config dials)
    (h : clientMain config dials = some (client, outs)) :
    ClientRuns deployment net traffic id config client ∧
      ∀ d ∈ datagrams .toServer outs, Genuine deployment traffic d := by
  unfold clientMain at h
  split at h
  · rename_i manager hmanager
    have runs := clientRuns_new net traffic configured hmanager
    obtain ⟨hrun, -⟩ := clientStart_eq_some h
    have offers : ∀ op ∈ config.toClientSettings.connectionInfo.zipIdx.map fun (info, index) =>
        ManagerOp.createNewConnection info (dials index),
        Offers (clientOrigins deployment net traffic id config) op := offers_of_openLinks owned
    refine ⟨runs.continue offers hrun, ?_⟩
    rw [← List.append_nil traffic]
    refine genuine_of_clientRun configured runs offers ?_ hrun
    intro past op future mid before k packet hsplit _ authored
    have hop := openLinks_not_tunnels op (by rw [hsplit]; simp)
    exact absurd authored.tunnels (by simp [hop])
  · cases h

/-- A client has moved on, and wrote to the server. -/
theorem Isolated.setClient {client : ConnectionManager} {outs : List Output}
    (isolated : Isolated deployment network traffic) (subset : traffic ⊆ traffic')
    (configured : deployment.clients.get? id = some config)
    (runs : ClientRuns deployment network.net traffic' id config client)
    (genuine : ∀ d ∈ datagrams .toServer outs, Genuine deployment traffic' d) :
    Isolated deployment (network.setClient id client outs) traffic' where
  net := List.forall_mem_append.mpr ⟨fun d hd => (isolated.net d hd).mono subset, genuine⟩
  server := isolated.server.mono (List.subset_append_left ..) subset
  clients other running hother := by
    rw [Network.setClient, OrdMap.get?_insert] at hother
    split at hother
    · rename_i heq
      obtain rfl := Option.some.inj hother
      subst heq
      exact ⟨config, configured, runs.mono (List.subset_append_left ..) (List.Subset.refl traffic')⟩
    · obtain ⟨other, hconfigured, hruns⟩ := isolated.clients other running hother
      exact ⟨other, hconfigured, hruns.mono (List.subset_append_left ..) subset⟩

/-- The server has moved on, and wrote to its clients. -/
theorem Isolated.setServer {server : ConnectionManager} {outs : List Output}
    (isolated : Isolated deployment network traffic) (subset : traffic ⊆ traffic')
    (runs : ServerRuns deployment network.net traffic' server)
    (genuine : ∀ d ∈ datagrams .toClient outs, Genuine deployment traffic' d) :
    Isolated deployment (network.setServer server outs) traffic' where
  net := List.forall_mem_append.mpr ⟨fun d hd => (isolated.net d hd).mono subset, genuine⟩
  server := runs.mono (List.subset_append_left ..) (List.Subset.refl traffic')
  clients other running hother := by
    obtain ⟨config, hconfigured, hruns⟩ := isolated.clients other running hother
    exact ⟨config, hconfigured, hruns.mono (List.subset_append_left ..) subset⟩

/-- A step keeps the network isolated; what comes out of a tunnel was put into it before. -/
theorem isolated_step (isolated : Isolated deployment network traffic)
    (h : networkStep deployment network event = some (next, more)) :
    Isolated deployment next (traffic ++ more) ∧ ∀ party source bytes,
      .delivered party source bytes ∈ more → Sent deployment traffic party source bytes := by
  have hsubset : traffic ⊆ traffic ++ more := List.subset_append_left ..
  cases networkMove_of_step h with
  | startClient configured owned starts =>
      obtain ⟨runs, genuine⟩ := clientRuns_start configured owned starts
      refine ⟨?_, by simp⟩
      rw [List.append_nil]
      exact isolated.setClient (List.Subset.refl traffic) configured runs genuine
  | startServer starts =>
      refine ⟨?_, by simp⟩
      rw [List.append_nil]
      exact isolated.setServer (List.Subset.refl traffic) (serverRuns_new starts) (by simp)
  | @server event after outs meets steps =>
      obtain ⟨ops, hops, hrun⟩ := serverStep_eq_some.mp steps
      have runs := isolated.server
      have offers := offers_of_serverOps isolated.net runs.traces meets hops
      have hafter := (runs.continue offers hrun).mono (List.Subset.refl network.net) hsubset
      refine ⟨isolated.setServer hsubset hafter fun d hd =>
        (genuine_of_serverOps runs hops offers hrun d hd).mono (by simp), ?_⟩
      intro party source bytes hmem
      rcases List.mem_append.mp hmem with hmem | hmem
      · cases event with
        | loop => exact (delivered_not_routed _ hmem).elim
        | newConnection | flushInterfaceLog => cases hmem
      · obtain ⟨rfl, packet, hout, rfl⟩ := mem_delivered.mp hmem
        exact (traces_of_run runs.traces offers hrun).2 _ hout
  | @client id event config client after outs configured running meets steps =>
      obtain ⟨ops, hops, hrun⟩ := clientStep_eq_some.mp steps
      obtain ⟨config', configured', runs⟩ := isolated.clients id client running
      obtain rfl := Option.some.inj (configured.symm.trans configured')
      have offers := offers_of_clientOps configured isolated.net runs.traces meets hops
      have hafter := (runs.continue offers hrun).mono (List.Subset.refl network.net) hsubset
      have hpackets : ∀ past op future mid before k packet, ops = past ++ op :: future →
          Run.run ManagerOp.apply client past = some (mid, before) →
          Authored mid op k (.packet packet) →
          ∃ destination, .routed (.client id) k destination packet.bytes ∈ event.routed id client :=
        fun _ _ _ _ _ _ _ hsplit hpast authored => routed_of_clientOps hops hsplit hpast authored
      refine ⟨isolated.setClient hsubset configured hafter fun d hd =>
        (genuine_of_clientRun configured runs offers hpackets hrun d hd).mono (by simp), ?_⟩
      intro party source bytes hmem
      rcases List.mem_append.mp hmem with hmem | hmem
      · cases event with
        | loop => exact (delivered_not_routed _ hmem).elim
        | sendKeepalive | restart => cases hmem
      · obtain ⟨rfl, packet, hout, rfl⟩ := mem_delivered.mp hmem
        exact (traces_of_run runs.traces offers hrun).2 _ hout

theorem isolated_start {start : Network} (h : networkStart deployment = some start) :
    Isolated deployment start [] := by
  obtain ⟨server, hserver, rfl⟩ := Option.map_eq_some_iff.mp h
  exact ⟨by simp, serverRuns_new hserver, fun id client running => by cases running⟩

/-- What comes out of a tunnel was put into it before. -/
def SentBefore (deployment : Deployment) (before : List Traffic) (traffic : Traffic) : Prop :=
  ∀ party source bytes, traffic = .delivered party source bytes →
    Sent deployment before party source bytes

/-- A run keeps the network isolated; what came out of a tunnel was put into it before. -/
theorem isolated_run {start : Network} {events : List NetworkEvent}
    (begins : networkStart deployment = some start)
    (reached : Run.run (networkStep deployment) start events = some (network, traffic)) :
    Isolated deployment network traffic ∧ History.Preceded (SentBefore deployment) traffic := by
  refine Run.run_induction (C := fun _ _ _ => True)
    (P := fun _ mid past => Isolated deployment mid past ∧
      History.Preceded (SentBefore deployment) past)
    ⟨isolated_start begins, History.preceded_nil _⟩ ?_ (fun _ _ _ _ _ _ _ _ _ _ => trivial) reached
  intro _ event mid past after more _ ⟨hmid, hpast⟩ _ hstep
  obtain ⟨hafter, hdelivered⟩ := isolated_step hmid hstep
  refine ⟨hafter, hpast.append fun out hout between party source bytes hdelivery => ?_⟩
  exact (hdelivered party source bytes (hdelivery ▸ hout)).mono (List.subset_append_left past between)

end Network

/-- However the programs of a network are interleaved, and whatever it does to their messages: a packet
    that comes out of a tunnel at the server was put into it by the client that is named as its source,
    and one that comes out at a client was put into it by the server for an address that this client
    announced. -/
theorem traffic_stays_in_its_tunnel (deployment : Deployment) (start network : Network)
    (begins : networkStart deployment = some start) (events : List NetworkEvent)
    (traffic : List Traffic)
    (reached : Run.run (networkStep deployment) start events = some (network, traffic))
    (before after : List Traffic) (party : Party) (source : EndpointId) (bytes : List UInt8)
    (split : traffic = before ++ .delivered party source bytes :: after) :
    Sent deployment before party source bytes :=
  (isolated_run begins reached).2 before _ after split party source bytes rfl

/-- Two clients whose tunnels meet at one server. -/
def relayDeployment : Deployment where
  server := ⟨1, .v4 2130706434 40000, ⟨.v4 167772161, 4294967040⟩, 10000, 100⟩
  clients :=
    (OrdMap.empty.insert 154 {
      interfaces := [⟨"eth0", .v4 2130706433 0, .v4 2130706434 40000⟩]
      serverId := 1, peerId := 154, tunnelConfig := ⟨.v4 167772162, 4294967295⟩
      staticRoutes := [⟨3232235776, 4294967040⟩]
      connectionTimeout := 10000, packetSorterDeadline := 100 }).insert 155 {
      interfaces := [⟨"eth0", .v4 2130706435 0, .v4 2130706434 40000⟩]
      serverId := 1, peerId := 155, tunnelConfig := ⟨.v4 167772163, 4294967295⟩
      staticRoutes := [], connectionTimeout := 10000, packetSorterDeadline := 100 }
  owner addr := if addr = .v4 2130706433 5000 then 154 else 155
  peerIds := by decide

/-- One client sends a packet to the other: it goes through both tunnels, and the server routes it from
    one into the other. -/
def relayEvents : List NetworkEvent :=
  let openSocket : OpenSocket := fun _ _ => .ok (.v4 2130706434 40000)
  let sent : Nat → SendResult := fun _ => .ok 20
  [.startClient 154 fun _ => ⟨.bound, .ok (), .ok (.v4 2130706433 5000), 7, .ok 20, 0⟩,
    .startClient 155 fun _ => ⟨.bound, .ok (), .ok (.v4 2130706435 5000), 8, .ok 20, 0⟩,
    .server (.newConnection
      (some (.hello ⟨154, 7, some [⟨3232235776, 4294967040⟩, ⟨167772162, 4294967295⟩], 0⟩))
      (.v4 2130706433 5000) openSocket sent sent 1),
    .server (.newConnection (some (.hello ⟨155, 8, some [⟨167772163, 4294967295⟩], 0⟩))
      (.v4 2130706435 5000) openSocket sent sent 1),
    .client 154 (.loop (.newEstablishedMessage 1 0
      (some (.helloAck ⟨1, 7, some [⟨0, 0⟩, ⟨167772161, 4294967040⟩], 0⟩)) openSocket sent 2)),
    .client 154 (.loop (.tunnelPacket (.ipv4 167772163) [69] fun _ => sent)),
    .server (.loop (.newEstablishedMessage 154 0 (some (.packet ⟨0, 1, [69]⟩)) openSocket sent 3)),
    .server (.loop (.newSortedPacket 154 (.ok ()))),
    .server (.loop (.tunnelPacket (.ipv4 167772163) [69] fun _ => sent)),
    .client 155 (.loop (.newEstablishedMessage 1 0 (some (.packet ⟨0, 155, [69]⟩)) openSocket sent
      4)),
    .client 155 (.loop (.newSortedPacket 1 (.ok ())))]

theorem traffic_stays_in_its_tunnel_relayed :
    ∃ start network, networkStart relayDeployment = some start ∧
      Run.run (networkStep relayDeployment) start relayEvents = some (network,
        [.routed (.client 154) 1 167772163 [69], .delivered .server 154 [69],
          .routed .server 155 167772163 [69], .delivered (.client 155) 1 [69]]) ∧
      Sent relayDeployment [.routed (.client 154) 1 167772163 [69], .delivered .server 154 [69],
        .routed .server 155 167772163 [69]] (.client 155) 1 [69] := by
  have hrun : ((networkStart relayDeployment).bind fun start =>
      (Run.run (networkStep relayDeployment) start relayEvents).map (·.2)) =
        some [.routed (.client 154) 1 167772163 [69], .delivered .server 154 [69],
          .routed .server 155 167772163 [69], .delivered (.client 155) 1 [69]] := by decide
  obtain ⟨start, hstart, htraffic⟩ := Option.bind_eq_some_iff.mp hrun
  obtain ⟨⟨network, traffic⟩, hreached, rfl⟩ := Option.map_eq_some_iff.mp htraffic
  exact ⟨start, network, hstart, hreached, traffic_stays_in_its_tunnel relayDeployment start network
    hstart relayEvents _ hreached _ [] _ _ _ rfl⟩

end MultiConnect
