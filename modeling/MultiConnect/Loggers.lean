/-
Module: MultiConnect.Loggers
Layer: Model
Purpose: The logs of the two programs: the lines of `interface_logger.rs` and `packet_sorter_log.rs`, and
  the delay estimates among the debug output. The handling of an event asks for calls of the logs, which
  are made where the configuration has the log. They change nothing, and each panics when it fails; an
  iteration with logs is one of the event loop whose calls all succeed.
Trusted boundary: the log files were created and have their headers; what they answer to a write and to a
  flush
Main exports: LogCall, Loggers, LogAnswers, LogCall.perform, serverStepLogged, clientStepLogged
-/
import MultiConnect.EventLoops

namespace MultiConnect

/-- The file of a log that the configuration can ask for. -/
inductive LogFile where
  | interfaceLog
  | packetSorterLog
deriving DecidableEq, Repr

/-- What the handling of an event asks of the logs. A line begins with the time, in microseconds since
    the epoch. -/
inductive LogCall where
  | addLogLine (file : LogFile) (line : Nat → String)
  | flush (file : LogFile)
  | debugEstimates (hello helloAck : PathLatency)

def InterfaceLogger.addLogLine (endpointId : EndpointId) (packetIndex : UInt64) (interface : String) :
    LogCall :=
  .addLogLine .interfaceLog fun timestamp => s!"{timestamp},{endpointId},{packetIndex},{interface}\n"

def PacketSorterLogger.addLogLine (packetIndex : UInt64) : LogCall :=
  .addLogLine .packetSorterLog fun timestamp => s!"{timestamp},{packetIndex}\n"

/-- Which loggers the settings ask for, and whether the output of `debug!` is on. -/
structure Loggers where
  interfaceLogger : Bool
  packetSorterLogger : Bool
  debugOutput : Bool
deriving DecidableEq, Repr

def Loggers.has (loggers : Loggers) : LogFile → Bool
  | .interfaceLog => loggers.interfaceLogger
  | .packetSorterLog => loggers.packetSorterLogger

/-- A call is made when its log is there. -/
def Loggers.makes (loggers : Loggers) : LogCall → Bool
  | .addLogLine file _ => loggers.has file
  | .flush file => loggers.has file
  | .debugEstimates .. => loggers.debugOutput

/-- What the outside answers to the calls of one iteration: the clock, which can stand before the epoch,
    and the log files. -/
structure LogAnswers where
  timestamp : Option Nat
  write : LogFile → String → Except ErrorKind Nat
  flush : LogFile → Except ErrorKind Unit

/-- Make a call; `none` where it panics. -/
def LogCall.perform (answers : LogAnswers) : LogCall → Option Unit
  | .addLogLine file line =>
      match answers.timestamp with
      | some timestamp =>
          match answers.write file (line timestamp) with
          | .ok _ => some ()
          | .error _ => none
      | none => none
  | .flush file =>
      match answers.flush file with
      | .ok () => some ()
      | .error _ => none
  | .debugEstimates hello helloAck =>
      match hello.delayDifferences, helloAck.delayDifferences with
      | some _, some _ => some ()
      | _, _ => none

/-- The calls that the loggers make all succeed. -/
def Loggers.succeed (loggers : Loggers) (answers : LogAnswers) (calls : List LogCall) : Bool :=
  calls.all fun call => !loggers.makes call || (call.perform answers).isSome

/-! ### What an event asks for -/

/-- A packet of a known endpoint is logged with its interface; a hello and an acknowledgement, once they
    are noted, with the estimates that are drawn from the records. -/
def ConnectionManager.establishedLogCalls (manager : ConnectionManager) (readInfo : ReadInfo)
    (now : Instant) : List LogCall :=
  match readInfo.packetBytes with
  | some (.packet packet) =>
      match manager.endpoints.get? readInfo.endpointId with
      | some _ => [InterfaceLogger.addLogLine readInfo.endpointId packet.seq readInfo.interfaceName]
      | none => []
  | some (.hello hello) =>
      match manager.endpoints.get? hello.id with
      | some endpoint =>
          [.debugEstimates (endpoint.helloPathLatency.insertNewTimestamp hello.helloSeq now)
            endpoint.helloAckPathLatency]
      | none => []
  | some (.helloAck helloAck) =>
      match manager.endpoints.get? helloAck.id with
      | some endpoint =>
          [.debugEstimates endpoint.helloPathLatency
            (endpoint.helloAckPathLatency.insertNewTimestamp helloAck.helloAckSeq now)]
      | none => []
  | none => []

/-- A sorted packet is logged before it goes to the TUN device. -/
def LoopEvent.logCalls (manager : ConnectionManager) : LoopEvent → List LogCall
  | .newEstablishedMessage id index packetBytes _ _ now =>
      match manager.awaitIncoming id index packetBytes with
      | some readInfo => manager.establishedLogCalls readInfo now
      | none => []
  | .newSortedPacket id _ =>
      match manager.awaitEndpointSortedPackets id with
      | some (_, _, packet) => [PacketSorterLogger.addLogLine packet.seq]
      | none => []
  | _ => []

/-- Both logs are flushed once a second. -/
def flushLogs : List LogCall := [.flush .interfaceLog, .flush .packetSorterLog]

def ClientEvent.logCalls (manager : ConnectionManager) : ClientEvent → List LogCall
  | .loop event => event.logCalls manager
  | .sendKeepalive .. => flushLogs
  | .restart .. => []

def ServerEvent.logCalls (manager : ConnectionManager) : ServerEvent → List LogCall
  | .loop event => event.logCalls manager
  | .newConnection .. => []
  | .flushInterfaceLog => flushLogs

/-! ### The loops -/

/-- One iteration of the client that has these loggers. -/
def clientStepLogged (loggers : Loggers) (answers : LogAnswers) (settings : ClientSettings)
    (manager : ConnectionManager) (event : ClientEvent) : Option (ConnectionManager × List Output) :=
  if loggers.succeed answers (event.logCalls manager) then clientStep settings manager event else none

/-- One iteration of the server that has these loggers. -/
def serverStepLogged (loggers : Loggers) (answers : LogAnswers) (manager : ConnectionManager)
    (event : ServerEvent) : Option (ConnectionManager × List Output) :=
  if loggers.succeed answers (event.logCalls manager) then serverStep manager event else none

end MultiConnect
