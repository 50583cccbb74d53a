import TraceRelay.Transport.Supply

/-! Buffers that circulate between the producers of events and one consumer. -/

namespace TraceRelay

/-- What travels over the channel: a filled buffer, or the request to stop. -/
inductive Message (β : Type) where
  | buffer (content : β)
  | stop
deriving DecidableEq, Repr

/-- The buffer in a message. -/
def Message.buffer? {β : Type} : Message β → Option β
  | .buffer content => some content
  | .stop => none

@[simp] theorem Message.buffer?_buffer {β : Type} (content : β) :
    (Message.buffer content).buffer? = some content := rfl

@[simp] theorem Message.buffer?_stop {β : Type} : (Message.stop : Message β).buffer? = none := rfl

/-- The pool with both of its ends: the queue of free buffers and the channel of filled ones. -/
structure CirculatingPool (β : Type) where
  /-- The buffers that producers can obtain, the next one first. -/
  free : List β
  /-- The number of places in the queue of free buffers. -/
  places : Nat
  /-- The number of times that a producer found no free buffer. A 64-bit counter keeps it, which is
  taken here to be large enough. -/
  misses : Nat := 0
  /-- What was sent and is not received yet, the oldest first. -/
  queued : List (Message β) := []
  /-- The consumer has not gone away. -/
  hasReceiver : Bool := true
  /-- The number of holders of a sending end: the pool itself and the guards of its consumers. -/
  senders : Nat := 1
deriving DecidableEq, Repr

/-- What the consumer finds when it waits for the next message. -/
inductive Reception (β : Type) where
  | message (content : Message β)
  /-- Nothing is there yet, and somebody can still send. -/
  | nothingYet
  /-- Nothing is there, and nobody is left who could send. -/
  | disconnected
deriving DecidableEq, Repr

namespace CirculatingPool

variable {β : Type}

/-- A pool of the given buffers. The queue has a place for each of them, and always at least one. -/
def ofBuffers (buffers : List β) : Transition (CirculatingPool β) Unit where
  result := ()
  state := { free := buffers, places := max buffers.length 1 }
  log := [.poolCreated buffers.length]

/-- The number of free buffers. -/
def freeCount (pool : CirculatingPool β) : Nat := pool.free.length

/-- A producer takes the free buffer that has waited longest, or misses. -/
def lend (pool : CirculatingPool β) :
    Transition (CirculatingPool β) (Except TransportFailure (Option β)) :=
  match pool.free with
  | buffer :: rest => { result := .ok (some buffer), state := { pool with free := rest } }
  | [] =>
    let misses := pool.misses + 1
    { result := .ok none, state := { pool with misses }, log := [.poolExhausted misses] }

/-- A message is queued for the consumer, unless it has gone away. -/
def enqueue (message : Message β) (pool : CirculatingPool β) :
    Transition (CirculatingPool β) (Except TransportFailure Unit) :=
  if pool.hasReceiver then
    { result := .ok (), state := { pool with queued := pool.queued ++ [message] } }
  else { result := .error .disconnected, state := pool }

instance : BufferSupply (CirculatingPool β) β where
  lend := lend
  ship buffer := enqueue (.buffer buffer)

/-- The consumer asks for the oldest message. -/
def receive (pool : CirculatingPool β) : Reception β × CirculatingPool β :=
  match pool.queued with
  | message :: rest => (.message message, { pool with queued := rest })
  | [] => (if pool.senders = 0 then .disconnected else .nothingYet, pool)

theorem queued_of_receive {pool after : CirculatingPool β} {message : Message β}
    (received : pool.receive = (.message message, after)) :
    pool.queued = message :: after.queued := by
  unfold receive at received
  split at received
  · rename_i queue
    cases received
    exact queue
  · split at received <;> cases received

theorem receive_of_cons {pool : CirculatingPool β} {message : Message β} {rest : List (Message β)}
    (queue : pool.queued = message :: rest) :
    pool.receive = (.message message, { pool with queued := rest }) := by
  simp [receive, queue]

theorem receive_of_nil {pool : CirculatingPool β} (queue : pool.queued = []) :
    pool.receive = (if pool.senders = 0 then .disconnected else .nothingYet, pool) := by
  simp [receive, queue]

/-- The consumer takes all that is queued. -/
def receiveAll (pool : CirculatingPool β) : List (Message β) × CirculatingPool β :=
  (pool.queued, { pool with queued := [] })

/-- The consumer returns a buffer. It is emptied, and lost if there is no place for it. -/
def putBack [Clearable β] (buffer : β) (pool : CirculatingPool β) : CirculatingPool β :=
  if pool.free.length < pool.places then
    { pool with free := pool.free ++ [Clearable.clear buffer] }
  else pool

/-- The consumer goes away, and what was queued for it is lost. -/
def dropReceiver (pool : CirculatingPool β) : CirculatingPool β :=
  { pool with hasReceiver := false, queued := [] }

/-- One more holder of a sending end appears. -/
def addSender (pool : CirculatingPool β) : CirculatingPool β :=
  { pool with senders := pool.senders + 1 }

/-- One holder of a sending end goes away. -/
def dropSender (pool : CirculatingPool β) : CirculatingPool β :=
  { pool with senders := pool.senders - 1 }

end CirculatingPool

end TraceRelay
