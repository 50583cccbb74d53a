/-! The causes of failure, each with its wording in one place. -/

namespace TraceRelay

/-- The kinds of failure that writing bytes can have. -/
inductive IoFailureKind where
  | other
  | brokenPipe
  | permissionDenied
  | timedOut
  | invalidData
  | writeZero
deriving DecidableEq, Repr, Inhabited

/-- All kinds of failure of writing. -/
def IoFailureKind.all : List IoFailureKind :=
  [.other, .brokenPipe, .permissionDenied, .timedOut, .invalidData, .writeZero]

/-- The kind's name as it stands in reports. -/
def IoFailureKind.name : IoFailureKind → String
  | .other => "Other"
  | .brokenPipe => "BrokenPipe"
  | .permissionDenied => "PermissionDenied"
  | .timedOut => "TimedOut"
  | .invalidData => "InvalidData"
  | .writeZero => "WriteZero"

/-- The kind with the given name. -/
def IoFailureKind.ofName? (name : String) : Option IoFailureKind :=
  IoFailureKind.all.find? fun kind => kind.name = name

/-- A failure to write bytes: its kind and its text. -/
structure IoFailure where
  kind : IoFailureKind := .other
  message : String
deriving DecidableEq, Repr, Inhabited

/-- The failure of a write whose sink accepts no byte at all. -/
def IoFailure.writeZero : IoFailure where
  kind := .writeZero
  message := "failed to write whole buffer"

/-- The failures of a supply of buffers. -/
inductive TransportFailure where
  /-- Nobody is left to receive filled buffers. -/
  | disconnected
  /-- The supply failed to lend a buffer for a reason other than lack of free buffers. -/
  | obtain (reason : String)
deriving DecidableEq, Repr, Inhabited

/-- The failure's name as it stands in reports. -/
def TransportFailure.name : TransportFailure → String
  | .disconnected => "Disconnected"
  | .obtain _ => "Obtain"

/-- The text of a transport failure. -/
def TransportFailure.message : TransportFailure → String
  | .disconnected => "transport disconnected"
  | .obtain reason => "failed to obtain buffer: " ++ reason

/-- The failures that a delivery reports to its caller. That there is no free buffer is not one of
them. -/
inductive DeliveryFailure where
  | obtain (cause : TransportFailure)
  /-- The encoder gave up, and its buffer was emptied and given back. -/
  | encode (cause : IoFailure)
  | send (cause : TransportFailure)
deriving DecidableEq, Repr, Inhabited

/-- The failure's name as it stands in reports. -/
def DeliveryFailure.name : DeliveryFailure → String
  | .obtain _ => "Obtain"
  | .encode _ => "Encode"
  | .send _ => "Send"

/-- The name of what made the delivery fail. -/
def DeliveryFailure.causeName : DeliveryFailure → String
  | .obtain cause => cause.name
  | .encode cause => cause.kind.name
  | .send cause => cause.name

/-- The text of a failed delivery, which leaves out its cause. -/
def DeliveryFailure.message : DeliveryFailure → String
  | .obtain _ => "could not obtain a buffer"
  | .encode _ => "could not encode event"
  | .send _ => "could not send buffer"

/-- The text of what made the delivery fail. -/
def DeliveryFailure.causeMessage : DeliveryFailure → String
  | .obtain cause => cause.message
  | .encode cause => cause.message
  | .send cause => cause.message

end TraceRelay
