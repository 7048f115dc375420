/-
Module: MultiConnect.Connection
Layer: Model
Purpose: One UDP connection to a peer (`connection.rs`): a connected socket, the timer that drops the
  connection when hellos stay away, a state, and the flag of selective duplication. The raw copy of the
  socket, the receive buffer and `Drop` manage one file descriptor and carry no behaviour of their own.
Trusted boundary: what the operating system answers to a send
Main exports: UdpSocket, ConnectionState, Connection, SendResult, Connection.write
-/
import MultiConnect.Messages

namespace MultiConnect

/-- A connected UDP socket: its own address and the address of the only peer it talks to. -/
structure UdpSocket where
  localAddr : SocketAddr
  peerAddr : SocketAddr
deriving DecidableEq, Repr

inductive ConnectionState where
  | startup
  | connected
  | disconnected
deriving DecidableEq, Repr

structure Connection where
  socket : UdpSocket
  interfaceName : Option String
  localAddress : SocketAddr
  connectionTimeoutDuration : Duration
  connectionTimeout : Timer
  state : ConnectionState
  peerAddr : SocketAddr
  enabled : Bool
deriving DecidableEq

/-- What a send on a non-blocking socket answers: the bytes sent, or an error. -/
abbrev SendResult := Except ErrorKind Nat

namespace Connection

def new (socket : UdpSocket) (interfaceName : Option String) (connectionTimeout : UInt64)
    (now : Instant) : Connection where
  socket := socket
  interfaceName := interfaceName
  localAddress := socket.localAddr
  connectionTimeoutDuration := Duration.fromMillis connectionTimeout
  connectionTimeout := Timer.after now (Duration.fromMillis connectionTimeout)
  state := .startup
  peerAddr := socket.peerAddr
  enabled := true

def resetHelloTimeout (connection : Connection) (now : Instant) : Connection :=
  { connection with
    connectionTimeout :=
      connection.connectionTimeout.setAfter now connection.connectionTimeoutDuration }

/-- A busy socket drops the packet and counts as written; every other error is passed on. -/
def write (sent : SendResult) : SendResult :=
  match sent with
  | .ok sendBytes => .ok sendBytes
  | .error .wouldBlock => .ok 0
  | .error e => .error e

def getInterfaceName (connection : Connection) : String :=
  connection.interfaceName.getD "DYN-interface"

/-- The hello timeout fires: the peer address and the interface name of the connection, and the
    connection with its timer spent. -/
def awaitConnectionTimeout (connection : Connection) (now : Instant) :
    Option (Connection × SocketAddr × String) :=
  if connection.connectionTimeout.isDue now then
    some ({ connection with connectionTimeout := Timer.never },
      connection.peerAddr, connection.getInterfaceName)
  else none

def enable (connection : Connection) : Connection := { connection with enabled := true }

def disable (connection : Connection) : Connection := { connection with enabled := false }

def isEnabled (connection : Connection) : Bool := connection.enabled

end Connection

end MultiConnect
