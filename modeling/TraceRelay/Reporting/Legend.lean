import TraceRelay.Event
import TraceRelay.Table

/-! How a stream of events is read back by its mappings. -/

namespace TraceRelay

/-- What a reader of a stream has learnt about its ids. -/
structure Legend where
  methods : Table MethodId String := {}
  exceptions : Table ExceptionId String := {}
  threads : Table ThreadId String := {}
deriving DecidableEq, Repr, Inhabited

/-- What the traced program did, in texts: an activity of a thread, or a marker. -/
inductive Report where
  | activity (thread : String) (act : Activity String String)
  | marker (key value : String)
deriving DecidableEq, Repr

/-- The report in words: who did what, and where. -/
def Report.text : Report → String
  | .activity thread (.entry method) => thread ++ " entry " ++ method
  | .activity thread (.exit method _) => thread ++ " exit " ++ method
  | .activity thread (.exception raised method _) =>
    thread ++ " exception " ++ raised ++ " " ++ method
  | .activity thread (.bubble raised method) => thread ++ " bubble " ++ raised ++ " " ++ method
  | .marker key value => "marker " ++ key ++ "=" ++ value

namespace Legend

/-- A mapping replaces what was known of its id, and other events teach nothing. -/
def learn (legend : Legend) : Event → Legend
  | .methodMapping id signature => { legend with methods := legend.methods.insert id signature }
  | .exceptionMapping id exception =>
    { legend with exceptions := legend.exceptions.insert id exception }
  | .threadMapping id _ name => { legend with threads := legend.threads.insert id name }
  | _ => legend

/-- The legend of a whole stream. -/
def ofEvents (events : List Event) : Legend := events.foldl learn {}

/-- The activity with its ids read as texts, if all of them are known. -/
def readActivity? (legend : Legend) :
    Activity MethodId ExceptionId → Option (Activity String String)
  | .entry method => do return .entry (← legend.methods.find? method)
  | .exit method line => do return .exit (← legend.methods.find? method) line
  | .exception raised method line => do
    return .exception (← legend.exceptions.find? raised) (← legend.methods.find? method) line
  | .bubble raised method => do
    return .bubble (← legend.exceptions.find? raised) (← legend.methods.find? method)

/-- The report that a sequenced event makes. A mapping makes none, nor does an event with an unknown
id. -/
def read? (legend : Legend) : Event → Option Report
  | .activity _ thread act => do
    return .activity (← legend.threads.find? thread) (← legend.readActivity? act)
  | .marker _ key value => some (.marker key value)
  | _ => none

/-- The sequenced events of a stream, each read by what the stream has taught before it. -/
def readStream (legend : Legend) : List Event → List (Option Report)
  | [] => []
  | event :: rest =>
    match event.stamp? with
    | some _ => legend.read? event :: (legend.learn event).readStream rest
    | none => (legend.learn event).readStream rest

end Legend

end TraceRelay
