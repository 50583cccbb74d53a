import TraceRelay.Session
import TraceRelay.Transport.CirculatingPool

/-! A pool together with those who hold its buffers, which bear numbers. -/

namespace TraceRelay

/-- A buffer that bears a number. -/
structure Numbered (β : Type) where
  number : Nat
  buffer : β
deriving DecidableEq, Repr

instance {β : Type} [Clearable β] : Clearable (Numbered β) where
  clear numbered := { numbered with buffer := Clearable.clear numbered.buffer }

/-- The buffer with the given number, and the others. -/
def Numbered.pick {β : Type} (number : Nat) (buffers : List (Numbered β)) :
    Option (Numbered β × List (Numbered β)) :=
  (buffers.find? (·.number = number)).map fun found => (found, buffers.eraseP (·.number = number))

/-- The pool, and the buffers that have left it. -/
structure Circulation (β : Type) where
  pool : CirculatingPool (Numbered β)
  /-- The buffers that producers hold. -/
  lent : List (Numbered β) := []
  /-- The buffers that the consumer holds. -/
  received : List (Numbered β) := []
deriving Repr

namespace Circulation

variable {β : Type}

/-- What the producers and the consumer do. -/
inductive Act (β : Type) where
  | obtain
  | write (number : Nat) (change : β → β)
  | send (number : Nat)
  /-- A producer drops a buffer. -/
  | discard (number : Nat)
  /-- Somebody sends the request to stop. -/
  | stop
  /-- A holder of a sending end goes away. -/
  | leave
  | receive
  | receiveAll
  | recycle (number : Nat)
  /-- The consumer drops a buffer. -/
  | forgo (number : Nat)
  /-- The consumer goes away, and what is queued for it is dropped. -/
  | hangUp

/-- What an act leads to. -/
inductive Answer (β : Type) where
  | obtained (buffer? : Option (Numbered β))
  | sent (message : Message (Numbered β)) (result : Except TransportFailure Unit)
  | received (reception : Reception (Numbered β))
  | receivedAll (messages : List (Message (Numbered β)))
  | dropped (buffers : List (Numbered β))
  | done
  /-- Nobody holds what the act needs. -/
  | refused
deriving Repr

/-- The buffers are numbered from 0 on and put into a pool. -/
def start (buffers : List β) : Circulation β where
  pool := (CirculatingPool.ofBuffers
    (buffers.zipIdx.map fun (buffer, number) => { number, buffer })).state

/-- A message is sent, if somebody can still send. -/
def dispatch (message : Message (Numbered β)) (circulation : Circulation β) :
    Answer β × Circulation β :=
  let sent := circulation.pool.enqueue message
  (.sent message sent.result, { circulation with pool := sent.state })

/-- A producer uses a buffer that it holds, which is no longer in its hands then. -/
def useLent (number : Nat) (circulation : Circulation β)
    (use : Numbered β → Circulation β → Answer β × Circulation β) : Answer β × Circulation β :=
  match Numbered.pick number circulation.lent with
  | none => (.refused, circulation)
  | some (buffer, lent) => use buffer { circulation with lent }

/-- The consumer uses a buffer that it holds, which is no longer in its hands then. -/
def useReceived (number : Nat) (circulation : Circulation β)
    (use : Numbered β → Circulation β → Answer β × Circulation β) : Answer β × Circulation β :=
  match Numbered.pick number circulation.received with
  | none => (.refused, circulation)
  | some (buffer, received) => use buffer { circulation with received }

/-- One act. It is refused if its buffer is not in the right hands, or if the end of the pool that
it needs is gone. -/
def perform [Clearable β] : Act β → Circulation β → Answer β × Circulation β
  | .obtain, circulation =>
    if circulation.pool.senders = 0 then (.refused, circulation)
    else
      let lending := circulation.pool.lend
      match lending.result with
      | .ok buffer? =>
        (.obtained buffer?,
          { circulation with pool := lending.state, lent := circulation.lent ++ buffer?.toList })
      | .error _ => (.refused, circulation)
  | .write number change, circulation =>
    circulation.useLent number fun buffer rest =>
      (.done, { rest with lent := { buffer with buffer := change buffer.buffer } :: rest.lent })
  | .send number, circulation =>
    if circulation.pool.senders = 0 then (.refused, circulation)
    else circulation.useLent number fun buffer rest => rest.dispatch (.buffer buffer)
  | .discard number, circulation =>
    circulation.useLent number fun buffer rest => (.dropped [buffer], rest)
  | .stop, circulation =>
    if circulation.pool.senders = 0 then (.refused, circulation)
    else circulation.dispatch .stop
  | .leave, circulation => (.done, { circulation with pool := circulation.pool.dropSender })
  | .receive, circulation =>
    if circulation.pool.hasReceiver then
      let (reception, pool) := circulation.pool.receive
      let buffers := match reception with
        | .message message => message.buffer?.toList
        | _ => []
      (.received reception, { circulation with pool, received := circulation.received ++ buffers })
    else (.refused, circulation)
  | .receiveAll, circulation =>
    if circulation.pool.hasReceiver then
      let (messages, pool) := circulation.pool.receiveAll
      (.receivedAll messages,
        { circulation with
          pool, received := circulation.received ++ messages.filterMap Message.buffer? })
    else (.refused, circulation)
  | .recycle number, circulation =>
    if circulation.pool.hasReceiver then
      circulation.useReceived number fun buffer rest =>
        (.done, { rest with pool := rest.pool.putBack buffer })
    else (.refused, circulation)
  | .forgo number, circulation =>
    circulation.useReceived number fun buffer rest => (.dropped [buffer], rest)
  | .hangUp, circulation =>
    if circulation.pool.hasReceiver then
      (.dropped (circulation.pool.queued.filterMap Message.buffer?),
        { circulation with pool := circulation.pool.dropReceiver })
    else (.refused, circulation)

/-- The numbers of the buffers that are free, on the channel, or in somebody's hands. -/
def whereabouts (circulation : Circulation β) : List Nat :=
  (circulation.pool.free ++ circulation.pool.queued.filterMap Message.buffer? ++
    circulation.lent ++ circulation.received).map (·.number)

/-- The messages that have reached the channel, in order. -/
def sent (past : List (Act β × Answer β)) : List (Message (Numbered β)) :=
  past.filterMap fun
    | (_, .sent message (.ok ())) => some message
    | _ => none

/-- The messages that the consumer has received, in order. -/
def heard (past : List (Act β × Answer β)) : List (Message (Numbered β)) :=
  past.flatMap fun
    | (_, .received (.message message)) => [message]
    | (_, .receivedAll messages) => messages
    | _ => []

/-- The buffers that were lost: sent when the consumer had gone away, or dropped by their holder, or
queued for the consumer when it went away. -/
def lost (past : List (Act β × Answer β)) : List (Numbered β) :=
  past.flatMap fun
    | (.send _, .sent (.buffer buffer) (.error .disconnected)) => [buffer]
    | (.discard _, .dropped buffers) => buffers
    | (.forgo _, .dropped buffers) => buffers
    | (.hangUp, .dropped buffers) => buffers
    | _ => []

/-- The buffers that producers have obtained, with a `none` for every time when there was no free
one. -/
def obtained (past : List (Act β × Answer β)) : List (Option (Numbered β)) :=
  past.filterMap fun
    | (_, .obtained buffer?) => some buffer?
    | _ => none

end Circulation

end TraceRelay
