import TraceRelay.Numbering

/-! The activities of a traced program, and the events that go into buffers. -/

namespace TraceRelay

/-- The id of a method signature. -/
abbrev MethodId := UInt32

/-- The id of an exception class. -/
abbrev ExceptionId := UInt32

/-- The id of a traced thread. -/
abbrev ThreadId := UInt32

/-- The milliseconds since a reporter was created, as a signed 32-bit number. -/
abbrev Timestamp := Int32

/-- The whole milliseconds in `nanoseconds`, reduced to the low 32 bits and read as signed. -/
def Timestamp.ofNanoseconds (nanoseconds : Nat) : Timestamp := Int32.ofNat (nanoseconds / 1000000)

/-- The stamp says when an event happened and where it falls in the global order. -/
structure Stamp where
  timestamp : Timestamp
  sequence : UInt32
deriving DecidableEq, Repr, Inhabited

/-- What a thread of the traced program does. Methods are named by values of `μ` and exceptions by
values of `ξ`. -/
inductive Activity (μ ξ : Type) where
  | entry (method : μ)
  | exit (method : μ) (line : Int32)
  | exception (raised : ξ) (method : μ) (line : Int32)
  | bubble (raised : ξ) (method : μ)
deriving DecidableEq, Repr

namespace Activity

variable {μ ξ ν ζ : Type}

/-- The method in which the activity takes place. -/
def method : Activity μ ξ → μ
  | .entry method => method
  | .exit method _ => method
  | .exception _ method _ => method
  | .bubble _ method => method

/-- The exception that the activity is about. -/
def raised? : Activity μ ξ → Option ξ
  | .entry _ => none
  | .exit _ _ => none
  | .exception raised _ _ => some raised
  | .bubble raised _ => some raised

/-- The same activity with its method and its exception renamed. -/
def map (renameMethod : μ → ν) (renameException : ξ → ζ) : Activity μ ξ → Activity ν ζ
  | .entry method => .entry (renameMethod method)
  | .exit method line => .exit (renameMethod method) line
  | .exception raised method line =>
    .exception (renameException raised) (renameMethod method) line
  | .bubble raised method => .bubble (renameException raised) (renameMethod method)

@[simp] theorem method_map (renameMethod : μ → ν) (renameException : ξ → ζ)
    (activity : Activity μ ξ) :
    (activity.map renameMethod renameException).method = renameMethod activity.method := by
  cases activity <;> rfl

@[simp] theorem raised?_map (renameMethod : μ → ν) (renameException : ξ → ζ)
    (activity : Activity μ ξ) :
    (activity.map renameMethod renameException).raised? =
      activity.raised?.map renameException := by
  cases activity <;> rfl

end Activity

/-- The kinds of events. -/
inductive EventKind where
  | methodMapping
  | exceptionMapping
  | threadMapping
  | entry
  | exit
  | exception
  | bubble
  | marker
deriving DecidableEq, Repr, Inhabited

/-- All kinds of events. -/
def EventKind.all : List EventKind :=
  [.methodMapping, .exceptionMapping, .threadMapping, .entry, .exit, .exception, .bubble, .marker]

/-- The kind's name as it stands in reports. -/
def EventKind.name : EventKind → String
  | .methodMapping => "MapMethodSignature"
  | .exceptionMapping => "MapException"
  | .threadMapping => "MapThreadName"
  | .entry => "MethodEntry"
  | .exit => "MethodExit"
  | .exception => "Exception"
  | .bubble => "ExceptionBubble"
  | .marker => "Marker"

/-- The kind with the given name. -/
def EventKind.ofName? (name : String) : Option EventKind :=
  EventKind.all.find? fun kind => kind.name = name

/-- The kind of event that reports the activity. -/
def Activity.kind {μ ξ : Type} : Activity μ ξ → EventKind
  | .entry _ => .entry
  | .exit _ _ => .exit
  | .exception _ _ _ => .exception
  | .bubble _ _ => .bubble

/-- An event as it is written into a buffer. -/
inductive Event where
  | methodMapping (id : MethodId) (signature : String)
  | exceptionMapping (id : ExceptionId) (exception : String)
  | threadMapping (id : ThreadId) (timestamp : Timestamp) (name : String)
  | activity (stamp : Stamp) (thread : ThreadId) (act : Activity MethodId ExceptionId)
  | marker (stamp : Stamp) (key value : String)
deriving DecidableEq, Repr

namespace Event

/-- The kind of the event. -/
def kind : Event → EventKind
  | .methodMapping _ _ => .methodMapping
  | .exceptionMapping _ _ => .exceptionMapping
  | .threadMapping _ _ _ => .threadMapping
  | .activity _ _ act => act.kind
  | .marker _ _ _ => .marker

/-- The id that a mapping maps, together with the kind of the mapping. -/
def mapped? : Event → Option (EventKind × UInt32)
  | .methodMapping id _ => some (.methodMapping, id)
  | .exceptionMapping id _ => some (.exceptionMapping, id)
  | .threadMapping id _ _ => some (.threadMapping, id)
  | _ => none

/-- The stamp of a sequenced event. Mappings have none. -/
def stamp? : Event → Option Stamp
  | .activity stamp _ _ => some stamp
  | .marker stamp _ _ => some stamp
  | _ => none

end Event

/-- An event that still lacks what is fixed only once its buffer is in hand: the sequence number of
an activity or a marker, and the time of a thread mapping. -/
inductive Draft where
  | methodMapping (id : MethodId) (signature : String)
  | exceptionMapping (id : ExceptionId) (exception : String)
  | threadMapping (id : ThreadId) (name : String)
  | activity (entered : Timestamp) (thread : ThreadId) (act : Activity MethodId ExceptionId)
  | marker (entered : Timestamp) (key value : String)
deriving DecidableEq, Repr

namespace Draft

/-- The finished event. An activity or a marker keeps the time of its draft and draws a sequence
number, a thread mapping takes the time `current`, and the other mappings carry neither. -/
def complete (current : Timestamp) (numbering : Numbering) : Draft → Event × Numbering
  | .methodMapping id signature => (.methodMapping id signature, numbering)
  | .exceptionMapping id exception => (.exceptionMapping id exception, numbering)
  | .threadMapping id name => (.threadMapping id current name, numbering)
  | .activity entered thread act =>
    let (sequence, numbering) := numbering.draw
    (.activity { timestamp := entered, sequence } thread act, numbering)
  | .marker entered key value =>
    let (sequence, numbering) := numbering.draw
    (.marker { timestamp := entered, sequence } key value, numbering)

/-- The draft of a sequenced event draws a number when it is completed. -/
def isSequenced : Draft → Bool
  | .activity _ _ _ => true
  | .marker _ _ _ => true
  | _ => false

end Draft

end TraceRelay
