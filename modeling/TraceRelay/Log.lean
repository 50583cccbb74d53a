import TraceRelay.Failure
import TraceRelay.Text.Decimal

/-! What the library logs about its own work, with the wording of each line in one place. -/

namespace TraceRelay

/-- The levels of log lines. -/
inductive LogLevel where
  | trace
  | debug
  | warn
deriving DecidableEq, Repr, Inhabited

/-- The level's name as it stands in a log line. -/
def LogLevel.name : LogLevel → String
  | .trace => "TRACE"
  | .debug => "DEBUG"
  | .warn => "WARN"

/-- The occurrences that are logged. -/
inductive LogEntry where
  | announcingThread (id : UInt32) (name : String)
  | announcingMethod (id : UInt32) (signature : String)
  | announcingException (id : UInt32) (exception : String)
  | eventDropped
  | encodeFailed (error : IoFailure)
  | discardFailed (error : TransportFailure)
  | unwindingSendFailed (error : TransportFailure)
  | poolCreated (buffers : Nat)
  | poolExhausted (misses : Nat)
  | consumerStarted
  | consumerFinished (bytes : Nat)
  | consumerFailed (error : IoFailure)
  | consumerPanicked
deriving DecidableEq, Repr

namespace LogEntry

/-- The level of the line. -/
def level : LogEntry → LogLevel
  | .announcingThread _ _ => .trace
  | .announcingMethod _ _ => .trace
  | .announcingException _ _ => .trace
  | .eventDropped => .trace
  | .encodeFailed _ => .warn
  | .discardFailed _ => .warn
  | .unwindingSendFailed _ => .warn
  | .poolCreated _ => .debug
  | .poolExhausted _ => .trace
  | .consumerStarted => .debug
  | .consumerFinished _ => .debug
  | .consumerFailed _ => .warn
  | .consumerPanicked => .warn

/-- The text of the line. -/
def message : LogEntry → String
  | .announcingThread _ _ => "announcing thread"
  | .announcingMethod _ _ => "announcing method"
  | .announcingException _ _ => "announcing exception"
  | .eventDropped => "no buffer available, dropping event"
  | .encodeFailed _ => "failed to encode event, discarding buffer"
  | .discardFailed _ => "failed to send discarded buffer"
  | .unwindingSendFailed _ => "failed to send buffer while unwinding"
  | .poolCreated _ => "buffer pool created"
  | .poolExhausted _ => "buffer pool exhausted"
  | .consumerStarted => "writer thread started"
  | .consumerFinished _ => "writer thread finished"
  | .consumerFailed _ => "writer thread had an I/O error"
  | .consumerPanicked => "writer thread panicked"

/-- The named values of the line, each as text. -/
def fields : LogEntry → List (String × String)
  | .announcingThread id name => [("id", Decimal.ofNat id.toNat), ("name", name)]
  | .announcingMethod id signature => [("id", Decimal.ofNat id.toNat), ("signature", signature)]
  | .announcingException id exception => [("id", Decimal.ofNat id.toNat), ("exception", exception)]
  | .eventDropped => []
  | .encodeFailed error => [("error", error.message)]
  | .discardFailed error => [("error", error.message)]
  | .unwindingSendFailed error => [("error", error.message)]
  | .poolCreated buffers => [("buffers", Decimal.ofNat buffers)]
  | .poolExhausted misses => [("misses", Decimal.ofNat misses)]
  | .consumerStarted => []
  | .consumerFinished bytes => [("bytes", Decimal.ofNat bytes)]
  | .consumerFailed error => [("error", error.message)]
  | .consumerPanicked => []

end LogEntry

/-- One step on a state of type `σ`: its result, the state after it and the lines it logged. -/
structure Transition (σ ρ : Type) where
  result : ρ
  state : σ
  log : List LogEntry := []
deriving DecidableEq, Repr

end TraceRelay
