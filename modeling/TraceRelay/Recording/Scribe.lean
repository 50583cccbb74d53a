import TraceRelay.Recording.Transcript

/-! The encoder that writes events into transcripts. It can be told to spoil a write. -/

namespace TraceRelay

/-- The write that a scribe is told to spoil. -/
inductive FaultPoint where
  /-- The next write of the kind fails. -/
  | write (kind : EventKind)
  /-- The next write panics, whatever its kind. -/
  | panic
deriving DecidableEq, Repr

/-- The fault point with the given name: that of a kind of event, or `Panic`. -/
def FaultPoint.ofName? (name : String) : Option FaultPoint :=
  if name = "Panic" then some .panic else (EventKind.ofName? name).map .write

/-- The scribe keeps events as values and remembers the write that it has to spoil. -/
structure Scribe where
  armed : Option FaultPoint := none
deriving DecidableEq, Repr, Inhabited

namespace Scribe

/-- The scribe is told to spoil a write. An earlier order that is still open lapses. -/
def arm (point : FaultPoint) (_scribe : Scribe) : Scribe := { armed := some point }

/-- A write records its event. A write that has to be spoiled uses the fault up, records a torn
event of its own kind and then fails or panics. -/
def encode (event : Event) (scribe : Scribe) (transcript : Transcript) :
    Attempt Scribe Transcript :=
  let spoiled (outcome : Outcome IoFailure Unit) : Attempt Scribe Transcript :=
    { outcome, encoder := {}, buffer := transcript.append (.torn event.kind) }
  let recorded : Attempt Scribe Transcript :=
    { outcome := .returned (), encoder := scribe, buffer := transcript.append (.complete event) }
  match scribe.armed with
  | some .panic => spoiled (.panicked ("injected panic while writing " ++ event.kind.name))
  | some (.write kind) =>
    if kind = event.kind then spoiled (.failed { message := "injected failure" }) else recorded
  | none => recorded

end Scribe

instance : EventEncoder Scribe Transcript where
  encode := Scribe.encode

end TraceRelay
