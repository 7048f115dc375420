/-
Module: MultiConnect.Settings
Layer: Model
Purpose: The configuration of the two programs (`settings.rs`) and what each `main` makes of it before
  its loop begins: the manager with the routes that it announces, and for the client the first
  connections. What only the TUN device and the log files are set up with is left out.
Trusted boundary: the sockets and the TUN device that are set up before can be made
Main exports: ServerSettings, ClientConfig, clientMain, serverMain
-/
import MultiConnect.EventLoops

namespace MultiConnect

inductive IpAddr where
  | v4 (ip : Ipv4Addr)
  | v6 (ip : BitVec 128)
deriving DecidableEq, Repr

structure TunnelSettings where
  tunnelDeviceAddress : IpAddr
  netmask : Ipv4Addr
deriving DecidableEq, Repr

structure ServerSettings where
  peerId : EndpointId
  serverBindAddress : SocketAddr
  tunnelConfig : TunnelSettings
  connectionTimeout : UInt64
  packetSorterDeadline : UInt64
deriving DecidableEq, Repr

structure RouteConfig where
  address : Ipv4Addr
  subnetMask : Ipv4Addr
deriving DecidableEq, Repr

/-- The whole configuration of a client: what its loop reads, and what its manager is made from. -/
structure ClientConfig extends ClientSettings where
  peerId : EndpointId
  tunnelConfig : TunnelSettings
  staticRoutes : List RouteConfig
  connectionTimeout : UInt64
  packetSorterDeadline : UInt64
deriving DecidableEq, Repr

/-- The subnet of the tunnel, seen from a device that has an address in it. -/
def TunnelSettings.route (tunnelConfig : TunnelSettings) : Option Route :=
  match tunnelConfig.tunnelDeviceAddress with
  | .v4 ip => some ⟨ip, tunnelConfig.netmask⟩
  | .v6 _ => none

/-! ### The client -/

/-- What a client announces: the subnets of its configuration, and that of its tunnel. -/
def ClientConfig.announced (config : ClientConfig) (tunnel : Route) : List Route :=
  (config.staticRoutes.map fun route => ⟨route.address, route.subnetMask⟩) ++ [tunnel]

/-- The manager of a client; without an IPv4 tunnel, or without an interface, the program panics. -/
def clientManager (config : ClientConfig) : Option ConnectionManager :=
  match config.tunnelConfig.route, config.interfaces.head? with
  | some tunnel, some first =>
      some (ConnectionManager.new first.bindAddress config.peerId (some (config.announced tunnel))
        config.connectionTimeout config.packetSorterDeadline)
  | _, _ => none

/-- The client up to its loop. -/
def clientMain (config : ClientConfig) (dials : Nat → Dial) :
    Option (ConnectionManager × List Output) :=
  match clientManager config with
  | some manager => clientStart config.toClientSettings dials manager
  | none => none

/-! ### The server -/

/-- What the server announces: every address, and the subnet of its tunnel. -/
def ServerSettings.announced (tunnel : Route) : List Route := [⟨0, 0⟩, tunnel]

/-- The server up to its loop; without an IPv4 tunnel the program panics. -/
def serverMain (settings : ServerSettings) : Option ConnectionManager :=
  match settings.tunnelConfig.route with
  | some tunnel =>
      some (ConnectionManager.new settings.serverBindAddress settings.peerId
        (some (ServerSettings.announced tunnel)) settings.connectionTimeout
        settings.packetSorterDeadline)
  | none => none

end MultiConnect
