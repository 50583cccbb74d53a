import TraceRelay.Reporting.OpenSite
import TraceRelay.Text.Line
import TraceRelay.Transport.Conveyor

/-! A reporter that writes lines into circulating buffers, with the consumer that empties them. -/

namespace TraceRelay

/-- A site whose supply is a pool with its consumer. -/
abbrev Relay (β σ : Type) := Site (Conveyor β σ) LineEncoder

namespace Relay

variable {β σ : Type}

/-- What the calls on the relay see of it. -/
def site (relay : Relay β σ) : Site (Conveyor β σ) LineEncoder := relay

/-- The circulating buffers of the relay. -/
def pool (relay : Relay β σ) : CirculatingPool β := relay.reporter.supply.pool

/-- The guard of the consumer. -/
def guard (relay : Relay β σ) : Guard β σ := relay.reporter.supply.guard

/-- A relay starts with a fresh pool of the given buffers and a consumer to the sink. -/
def start (buffers : List β) (sink : σ) (names : NameSource) (host : Host) : Relay β σ :=
  let (reporter, host) :=
    Reporter.create (Conveyor.start buffers sink) ({} : LineEncoder) names host
  { reporter, host }

/-- What can happen on a relay: something at its site, or a step of the consumer. -/
abbrev Job := OpenSite.Job Unit

/-- Something happens at the site of the relay. -/
abbrev Job.atSite (job : Site.Job) : Job := OpenSite.Job.atSite job

/-- The consumer makes one step. -/
abbrev Job.write : Job := OpenSite.Job.order ()

variable [ByteBuffer β] [PatientSink β] [PatientSink σ]

/-- The consumer is stopped, and has written all that was sent before. -/
def stop (relay : Relay β σ) : Relay β σ :=
  { relay with reporter := { relay.reporter with supply := relay.reporter.supply.release } }

/-- The consumer makes one step, and the encoder stays as it is. -/
def turn (_ : Unit) (collaborators : Conveyor β σ × LineEncoder) : Conveyor β σ × LineEncoder :=
  (collaborators.1.turn, collaborators.2)

/-- Jobs on a relay. A request has an outcome, all else has none. -/
def procedure :
    Procedure (Relay β σ) Job (OpenSite.Phase β Unit) (Option (Outcome DeliveryFailure Unit)) :=
  OpenSite.procedure turn

end Relay

end TraceRelay
