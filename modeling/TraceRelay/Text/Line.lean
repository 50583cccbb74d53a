import TraceRelay.Text.Bytes
import TraceRelay.Text.Decimal
import TraceRelay.Transport.Supply
import TraceRelay.Transport.Sink

/-! Events as lines of text, written piece by piece. -/

namespace TraceRelay

/-- The pieces of the line that shows a sequenced event start with its number and its time. -/
def Stamp.pieces (stamp : Stamp) : List String :=
  ["#", Decimal.ofNat stamp.sequence.toNat, " @"] ++ Decimal.pieces stamp.timestamp.toInt

/-- The pieces of the line that shows an activity of a thread, after its stamp. -/
def Activity.pieces (thread : ThreadId) : Activity MethodId ExceptionId → List String
  | .entry method =>
    [" entry method=", Decimal.ofNat method.toNat, " thread=", Decimal.ofNat thread.toNat]
  | .exit method line =>
    [" exit method=", Decimal.ofNat method.toNat, " line="] ++ Decimal.pieces line.toInt ++
      [" thread=", Decimal.ofNat thread.toNat]
  | .exception raised method line =>
    [" exception method=", Decimal.ofNat method.toNat, " exception=",
      Decimal.ofNat raised.toNat, " line="] ++ Decimal.pieces line.toInt ++
      [" thread=", Decimal.ofNat thread.toNat]
  | .bubble raised method =>
    [" bubble method=", Decimal.ofNat method.toNat, " exception=", Decimal.ofNat raised.toNat,
      " thread=", Decimal.ofNat thread.toNat]

namespace Event

/-- The pieces of the event's line, without its end. -/
def pieces : Event → List String
  | .methodMapping id signature => ["map-method ", Decimal.ofNat id.toNat, " ", signature]
  | .exceptionMapping id exception => ["map-exception ", Decimal.ofNat id.toNat, " ", exception]
  | .threadMapping id timestamp name =>
    ["map-thread ", Decimal.ofNat id.toNat, " @"] ++ Decimal.pieces timestamp.toInt ++ [" ", name]
  | .activity stamp thread act => stamp.pieces ++ act.pieces thread
  | .marker stamp key value => stamp.pieces ++ [" marker ", key, "=", value]

/-- The line that shows the event. -/
def line (event : Event) : String := String.join (event.pieces ++ ["\n"])

end Event

/-- The encoder that writes events as lines of text. -/
structure LineEncoder where
deriving DecidableEq, Repr, Inhabited

instance {σ : Type} [PatientSink σ] : EventEncoder LineEncoder σ where
  encode event encoder sink :=
    let (outcome, buffer) := writePieces ((event.pieces ++ ["\n"]).map textBytes) sink
    { outcome, encoder, buffer }

end TraceRelay
