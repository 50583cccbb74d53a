import TraceRelay.Reporting.Reporter

/-! The delivery of one event: its buffer goes back to the supply on every path. -/

namespace TraceRelay

/-- The phases of a delivery. -/
inductive Delivery (β : Type) where
  /-- The supply is asked for a buffer next. -/
  | obtaining (draft : Draft)
  /-- The event is completed next, now that it has a buffer. -/
  | stamping (draft : Draft) (buffer : β)
  /-- The event is written next. -/
  | writing (event : Event) (buffer : β)
  /-- The buffer is given back next, after the write that ended as told. -/
  | returning (written : Outcome IoFailure Unit) (buffer : β)
deriving DecidableEq, Repr

namespace Delivery

/-- What a delivery reports when its write ended as `written` and giving the buffer back ended as
`shipped`. A failure of the write comes before a failure to ship, which is then only logged. -/
def conclude (written : Outcome IoFailure Unit) (shipped : Except TransportFailure Unit) :
    Outcome DeliveryFailure Unit × List LogEntry :=
  match written, shipped with
  | .returned (), .ok () => (.returned (), [])
  | .returned (), .error error => (.failed (.send error), [])
  | .failed cause, .ok () => (.failed (.encode cause), [])
  | .failed cause, .error error => (.failed (.encode cause), [.discardFailed error])
  | .panicked message, .ok () => (.panicked message, [])
  | .panicked message, .error error => (.panicked message, [.unwindingSendFailed error])

/-- What is logged about a write before its buffer is given back. -/
def writeLog : Outcome IoFailure Unit → List LogEntry
  | .failed error => [.encodeFailed error]
  | _ => []

variable {π ε β : Type} [Clearable β] [BufferSupply π β] [EventEncoder ε β]

/-- One access of the reporter, when the clock shows `now`. A supply without a buffer to spare drops
the event, which is no failure. -/
def step (now : Nat) :
    Delivery β → Reporter π ε →
      Transition (Reporter π ε) (Progress (Delivery β) (Outcome DeliveryFailure Unit))
  | .obtaining draft, reporter =>
    let request := BufferSupply.lend reporter.supply
    let state := { reporter with supply := request.state }
    match request.result with
    | .ok (some buffer) =>
      { result := .continues (.stamping draft buffer), state, log := request.log }
    | .ok none =>
      { result := .finished (.returned ()), state, log := request.log ++ [.eventDropped] }
    | .error error => { result := .finished (.failed (.obtain error)), state, log := request.log }
  | .stamping draft buffer, reporter =>
    let (event, numbering) := draft.complete (reporter.elapsed now) reporter.numbering
    { result := .continues (.writing event buffer), state := { reporter with numbering } }
  | .writing event buffer, reporter =>
    let attempt := EventEncoder.encode event reporter.encoder buffer
    let returned :=
      if attempt.outcome = .returned () then attempt.buffer else Clearable.clear attempt.buffer
    { result := .continues (.returning attempt.outcome returned)
      state := { reporter with encoder := attempt.encoder }
      log := writeLog attempt.outcome }
  | .returning written buffer, reporter =>
    let shipment := BufferSupply.ship buffer reporter.supply
    let (outcome, log) := conclude written shipment.result
    { result := .finished outcome
      state := { reporter with supply := shipment.state }
      log := shipment.log ++ log }

end Delivery

end TraceRelay
