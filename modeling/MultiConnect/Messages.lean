/-
Module: MultiConnect.Messages
Layer: Model
Purpose: The data that travels between two peers (`messages.rs`), socket addresses, the routes that are
  announced (`Route` of `router.rs`), and the results that the operating system hands back. A datagram
  is read at the level where the program reads it: what `bincode` makes of its bytes, which is a
  message, or nothing when the bytes do not decode. In the same way a duplication command is what
  `serde_json` makes of it, and a packet from the TUN device comes with what `etherparse` makes of it.
Trusted boundary: bincode decodes what it encoded
Main exports: Packet, Hello, HelloAck, Messages, SocketAddr, ErrorKind, SlicedPacket
-/
import Mathlib.Order.Lattice
import MultiConnect.Library.Runtime

/-- Sequence numbers and endpoint ids are compared as unsigned integers. -/
instance instLinearOrderUInt64 : LinearOrder UInt64 where
  le_refl := UInt64.le_refl
  le_trans _ _ _ := UInt64.le_trans
  lt_iff_le_not_ge _ _ := by grind
  le_antisymm _ _ := UInt64.le_antisymm
  le_total := UInt64.le_total
  toDecidableLE := inferInstance
  toDecidableLT := inferInstance

instance instLinearOrderUInt16 : LinearOrder UInt16 where
  le_refl := UInt16.le_refl
  le_trans _ _ _ := UInt16.le_trans
  lt_iff_le_not_ge _ _ := by grind
  le_antisymm _ _ := UInt16.le_antisymm
  le_total := UInt16.le_total
  toDecidableLE := inferInstance
  toDecidableLT := inferInstance

namespace MultiConnect

/-- `u64::MAX`. -/
def u64Max : UInt64 := 18446744073709551615

@[simp] theorem toNat_u64Max : u64Max.toNat = 18446744073709551615 := rfl

/-! ### Addresses -/

abbrev EndpointId := UInt16

abbrev Uuid := BitVec 128

abbrev Ipv4Addr := BitVec 32

/-- An IP address with a port. -/
inductive SocketAddr where
  | v4 (ip : Ipv4Addr) (port : UInt16)
  | v6 (ip : BitVec 128) (port : UInt16) (flowinfo scopeId : UInt32)
deriving DecidableEq, Repr

/-- A subnet that an endpoint announces as reachable through it. -/
structure Route where
  address : Ipv4Addr
  subnetMask : Ipv4Addr
deriving DecidableEq, Repr

/-! ### Messages -/

/-- A tunnelled IP packet. -/
structure Packet where
  seq : UInt64
  id : EndpointId
  bytes : List UInt8
deriving DecidableEq, Repr

structure Hello where
  id : EndpointId
  sessionId : Uuid
  staticRoutes : Option (List Route)
  helloSeq : UInt64
deriving DecidableEq, Repr

structure HelloAck where
  id : EndpointId
  sessionId : Uuid
  staticRoutes : Option (List Route)
  helloAckSeq : UInt64
deriving DecidableEq, Repr

inductive Messages where
  | packet (packet : Packet)
  | hello (hello : Hello)
  | helloAck (helloAck : HelloAck)
deriving DecidableEq, Repr

/-- The state that a selective duplication command asks for. -/
structure InterfaceState where
  interfaceName : String
  enabled : Bool
deriving DecidableEq, Repr

inductive DuplicationCommands where
  | interfaceState (state : InterfaceState)
deriving DecidableEq, Repr

/-- One configured link of a client (`ConnectionInfo` of `lib.rs`). -/
structure ConnectionInfo where
  interfaceName : String
  localAddress : SocketAddr
  destinationAddress : SocketAddr
  destinationEndpointId : EndpointId
deriving DecidableEq, Repr

/-! ### Results from outside the program -/

/-- The kinds of socket errors that the program tells apart. -/
inductive ErrorKind where
  | wouldBlock
  | connectionRefused
  | networkUnreachable
  | other
deriving DecidableEq, Repr

/-- What `SlicedPacket::from_ip` says about the bytes read from the TUN device. -/
inductive SlicedPacket where
  | error
  | ipv4 (destination : Ipv4Addr)
  | ipv6
  | noIp
deriving DecidableEq, Repr

end MultiConnect
