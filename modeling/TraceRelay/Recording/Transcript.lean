import TraceRelay.Transport.Supply

/-! Buffers that keep events as values, so that what was written can be looked at. -/

namespace TraceRelay

/-- What a write leaves in a transcript: its event, or the trace of a failure that was asked for. -/
inductive TranscriptEntry where
  | complete (event : Event)
  | torn (kind : EventKind)
deriving DecidableEq, Repr

/-- The transcript lists what was written to it, the oldest entry first. -/
structure Transcript where
  entries : List TranscriptEntry := []
deriving DecidableEq, Repr, Inhabited

/-- The transcript with one more entry. -/
def Transcript.append (transcript : Transcript) (entry : TranscriptEntry) : Transcript :=
  { entries := transcript.entries ++ [entry] }

instance : Clearable Transcript where
  clear _ := {}

end TraceRelay
