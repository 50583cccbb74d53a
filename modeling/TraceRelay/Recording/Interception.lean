import TraceRelay.Transport.Supply

/-! A supply in front of another one that can fail a request before the other hears of it. -/

namespace TraceRelay

/-- The supply `inner`, whose next request for a buffer is answered by the failure `pending`, if
there is one. -/
structure InterceptedSupply (π : Type) where
  inner : π
  pending : Option TransportFailure := none
deriving DecidableEq, Repr

/-- The next request for a buffer is to fail. -/
def InterceptedSupply.intercept {π : Type} (failure : TransportFailure)
    (supply : InterceptedSupply π) : InterceptedSupply π :=
  { supply with pending := some failure }

instance {π β : Type} [BufferSupply π β] : BufferSupply (InterceptedSupply π) β where
  lend supply :=
    match supply.pending with
    | some failure => { result := .error failure, state := { supply with pending := none } }
    | none =>
      let request := BufferSupply.lend supply.inner
      { request with state := { supply with inner := request.state } }
  ship buffer supply :=
    let shipment := BufferSupply.ship buffer supply.inner
    { shipment with state := { supply with inner := shipment.state } }

end TraceRelay
