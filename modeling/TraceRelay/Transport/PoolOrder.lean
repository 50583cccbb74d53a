import TraceRelay.Transport.CirculatingPool

/-! What happens to a circulating pool while others report into it. -/

namespace TraceRelay

/-- What the consumer of a pool does with its end. -/
inductive ConsumerMove (β : Type) where
  | receive
  | receiveAll
  | putBack (buffer : β)
  | hangUp
deriving DecidableEq, Repr

/-- The pool after a move of its consumer. -/
def ConsumerMove.made {β : Type} [Clearable β] : ConsumerMove β → CirculatingPool β →
    CirculatingPool β
  | .receive, pool => pool.receive.2
  | .receiveAll, pool => pool.receiveAll.2
  | .putBack buffer, pool => pool.putBack buffer
  | .hangUp, pool => pool.dropReceiver

/-- What reaches a pool and an encoder from outside. -/
inductive PoolOrder (β δ : Type) where
  | consumer (move : ConsumerMove β)
  | stop
  /-- One more holder of a sending end appears. -/
  | attach
  /-- One holder of a sending end goes away. -/
  | detach
  | encoding (order : δ)
deriving DecidableEq, Repr

/-- The pool and the encoder after they have obeyed. A consumer that has gone away makes no
moves. -/
def PoolOrder.obeyed {β ε δ : Type} [Clearable β] (told : δ → ε → ε) :
    PoolOrder β δ → CirculatingPool β × ε → CirculatingPool β × ε
  | .consumer move, (pool, encoder) => (if pool.hasReceiver then move.made pool else pool, encoder)
  | .stop, (pool, encoder) => ((pool.enqueue .stop).state, encoder)
  | .attach, (pool, encoder) => (pool.addSender, encoder)
  | .detach, (pool, encoder) => (pool.dropSender, encoder)
  | .encoding order, (pool, encoder) => (pool, told order encoder)

end TraceRelay
