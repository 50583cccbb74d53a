import TraceRelay.Session
import TraceRelay.Transport.Guard

/-! A pool together with the guard of the consumer that empties its buffers. -/

namespace TraceRelay

/-- The pool and the guard of its consumer. -/
structure Conveyor (β σ : Type) where
  pool : CirculatingPool β
  guard : Guard β σ
deriving DecidableEq, Repr

namespace Conveyor

variable {β σ : Type}

/-- A fresh pool of the given buffers with a consumer that writes to the sink. -/
def start (buffers : List β) (sink : σ) : Conveyor β σ :=
  let (guard, pool) := Guard.spawn sink (CirculatingPool.ofBuffers buffers).state
  { pool, guard }

/-- The consumer makes one step. -/
def turn [ByteBuffer β] [ByteSink σ] (conveyor : Conveyor β σ) : Conveyor β σ :=
  let (guard, pool) := conveyor.guard.turn conveyor.pool
  { pool, guard }

/-- The guard is let go. -/
def release [ByteBuffer β] [PatientSink σ] (conveyor : Conveyor β σ) : Conveyor β σ :=
  let released := conveyor.guard.release conveyor.pool
  { pool := released.state, guard := released.result }

instance : BufferSupply (Conveyor β σ) β where
  lend conveyor :=
    let lent := conveyor.pool.lend
    { lent with state := { conveyor with pool := lent.state } }
  ship buffer conveyor :=
    let shipped := conveyor.pool.enqueue (.buffer buffer)
    { shipped with state := { conveyor with pool := shipped.state } }

/-- What the producers and the consumer do. Letting go of the guard takes two acts, the request to
stop and the wait for the consumer's end. -/
inductive Act (β : Type) where
  | lend
  | send (buffer : β)
  | stop
  | join
  /-- A holder of a sending end goes away. -/
  | leave
  /-- The consumer makes one step. -/
  | turn
deriving DecidableEq, Repr

/-- What an act leads to. -/
inductive Answer (β : Type) where
  | lent (buffer? : Option β)
  | sent (message : Message β) (result : Except TransportFailure Unit)
  | joined (outcome : Outcome IoFailure Unit)
  /-- The consumer has not ended yet. -/
  | waits
  /-- The consumer has made a step, with which it may have put a buffer back. -/
  | turned (returned? : Option β)
  | done
  /-- Nobody is left who could send. -/
  | refused
deriving Repr

/-- The buffer that the consumer puts back with its next step. -/
def returning? (conveyor : Conveyor β σ) : Option β :=
  match conveyor.guard.consumer with
  | .inl (.writing _ _ buffer []) => some buffer
  | _ => none

/-- A message is sent, if somebody can still send. -/
def dispatch (message : Message β) (conveyor : Conveyor β σ) : Answer β × Conveyor β σ :=
  if conveyor.pool.senders = 0 then (.refused, conveyor)
  else
    let sent := conveyor.pool.enqueue message
    (.sent message sent.result, { conveyor with pool := sent.state })

/-- One act. -/
def perform [ByteBuffer β] [ByteSink σ] : Act β → Conveyor β σ → Answer β × Conveyor β σ
  | .lend, conveyor =>
    let lending := conveyor.pool.lend
    match lending.result with
    | .ok buffer? => (.lent buffer?, { conveyor with pool := lending.state })
    | .error _ => (.refused, conveyor)
  | .send buffer, conveyor => conveyor.dispatch (.buffer buffer)
  | .stop, conveyor => conveyor.dispatch .stop
  | .join, conveyor =>
    match conveyor.guard.consumer with
    | .inl _ => (.waits, conveyor)
    | .inr outcome => (.joined outcome, { conveyor with pool := conveyor.pool.dropSender })
  | .leave, conveyor => (.done, { conveyor with pool := conveyor.pool.dropSender })
  | .turn, conveyor => (.turned conveyor.returning?, conveyor.turn)

/-- The messages that have reached the channel, in order. -/
def sent (past : List (Act β × Answer β)) : List (Message β) :=
  past.filterMap fun
    | (_, .sent message (.ok ())) => some message
    | _ => none

/-- The buffers that have reached the channel, in order. -/
def buffersSent (past : List (Act β × Answer β)) : List β :=
  (sent past).filterMap Message.buffer?

/-- The buffers that producers have got from the pool, in order. -/
def lent (past : List (Act β × Answer β)) : List β :=
  past.filterMap fun
    | (_, .lent buffer?) => buffer?
    | _ => none

/-- The buffers that the consumer has put back, in order. -/
def returned (past : List (Act β × Answer β)) : List β :=
  past.filterMap fun
    | (_, .turned returned?) => returned?
    | _ => none

end Conveyor

end TraceRelay
