import TraceRelay.Reporting.Delivery

/-! The calls on a reporter, one access of shared state at a time. -/

namespace TraceRelay

/-- What a reporter can be asked to do. -/
inductive Request where
  | mapMethod (signature : String) (id : MethodId)
  | mapException (exception : String) (id : ExceptionId)
  | mapThread (name : String) (id : ThreadId)
  | report (activity : Activity String String)
  | marker (key value : String)
deriving DecidableEq, Repr

/-- What a delivery within a call is for, with what the call has found out so far. -/
inductive Purpose where
  | announceThread (activity : Activity String String) (entered : Timestamp)
      (announcement : ThreadAnnouncement)
  | announceMethod (activity : Activity String String) (entered : Timestamp) (thread : ThreadId)
      (id : MethodId)
  | announceException (activity : Activity String String) (entered : Timestamp)
      (thread : ThreadId) (method : MethodId) (raised : String) (id : ExceptionId)
  /-- The delivery carries the call's own event. -/
  | answer
deriving DecidableEq, Repr

/-- The phases of a call, which finds out its ids, announces those that are new and then delivers
its own event. An activity is timed when its call is entered. -/
inductive Call (β : Type) where
  | entering (request : Request)
  | identifying (activity : Activity String String) (entered : Timestamp)
      (phase : Identification)
  | resolvingMethod (activity : Activity String String) (entered : Timestamp)
      (thread : ThreadId) (phase : Resolution)
  | resolvingException (activity : Activity String String) (entered : Timestamp)
      (thread : ThreadId) (method : MethodId) (raised : String) (phase : Resolution)
  | delivering (purpose : Purpose) (delivery : Delivery β)
deriving DecidableEq, Repr

/-- What a call reads and changes: a reporter and its host. -/
structure Site (π ε : Type) where
  reporter : Reporter π ε
  host : Host
deriving DecidableEq, Repr

/-- A site with a new reporter on a host. -/
def Site.create {π ε : Type} (supply : π) (encoder : ε) (names : NameSource) (host : Host) :
    Site π ε :=
  let (reporter, host) := Reporter.create supply encoder names host
  { reporter, host }

namespace Call

variable {π ε β : Type}

/-- The delivery of the call's own event. -/
def answering (draft : Draft) : Call β := .delivering .answer (.obtaining draft)

/-- The call's first step reads the time. -/
def enter (entered : Timestamp) : Request → Call β
  | .mapMethod signature id => answering (.methodMapping id signature)
  | .mapException exception id => answering (.exceptionMapping id exception)
  | .mapThread name id => answering (.threadMapping id name)
  | .report activity => .identifying activity entered .readName
  | .marker key value => answering (.marker entered key value)

/-- The call knows its thread, and turns to its method. -/
def withThread (activity : Activity String String) (entered : Timestamp) (thread : ThreadId) :
    Call β :=
  .resolvingMethod activity entered thread .lookup

/-- The call knows all its ids, and turns to its own event. -/
def withIds (activity : Activity String String) (entered : Timestamp) (thread : ThreadId)
    (method : MethodId) (raised : ExceptionId) : Call β :=
  answering (.activity entered thread (activity.map (fun _ => method) fun _ => raised))

/-- The call knows its thread and its method, and turns to its exception, if it is about one. -/
def withMethod (activity : Activity String String) (entered : Timestamp) (thread : ThreadId)
    (method : MethodId) : Call β :=
  match activity with
  | .entry _ => answering (.activity entered thread (.entry method))
  | .exit _ line => answering (.activity entered thread (.exit method line))
  | .exception raised _ _ => .resolvingException activity entered thread method raised .lookup
  | .bubble raised _ => .resolvingException activity entered thread method raised .lookup

/-- A delivery has succeeded. A delivered announcement leads the call back to the lookup that asked
for it, and the delivery of its own event ends the call. -/
def resume : Purpose → Progress (Call β) (Outcome DeliveryFailure Unit)
  | .announceThread activity entered announcement =>
    .continues (.identifying activity entered (.settle announcement))
  | .announceMethod activity entered thread id =>
    .continues (.resolvingMethod activity entered thread (.conclude id))
  | .announceException activity entered thread method raised id =>
    .continues (.resolvingException activity entered thread method raised (.conclude id))
  | .answer => .finished (.returned ())

variable [Clearable β] [BufferSupply π β] [EventEncoder ε β]

/-- One access of shared state by a call that `thread` makes. -/
def step (thread : Thread) :
    Call β → Site π ε →
      Transition (Site π ε) (Progress (Call β) (Outcome DeliveryFailure Unit))
  | .entering request, site =>
    { result := .continues (enter (site.reporter.elapsed site.host.clock) request)
      state := site }
  | .identifying activity entered phase, site =>
    let (found, tracked) :=
      phase.step thread { tracker := site.reporter.tracker, host := site.host }
    let state : Site π ε :=
      { reporter := { site.reporter with tracker := tracked.tracker }, host := tracked.host }
    match found with
    | .continues phase => { result := .continues (.identifying activity entered phase), state }
    | .announces announcement =>
      { result := .continues (.delivering (.announceThread activity entered announcement)
          (.obtaining (.threadMapping announcement.id announcement.name)))
        state
        log := [.announcingThread announcement.id announcement.name] }
    | .returns id => { result := .continues (withThread activity entered id), state }
  | .resolvingMethod activity entered caller phase, site =>
    let (found, methods) := phase.step activity.method site.reporter.methods
    let state := { site with reporter := { site.reporter with methods } }
    match found with
    | .continues phase =>
      { result := .continues (.resolvingMethod activity entered caller phase), state }
    | .announces id =>
      { result := .continues (.delivering (.announceMethod activity entered caller id)
          (.obtaining (.methodMapping id activity.method)))
        state
        log := [.announcingMethod id activity.method] }
    | .returns method =>
      { result := .continues (withMethod activity entered caller method), state }
  | .resolvingException activity entered caller method raised phase, site =>
    let (found, exceptions) := phase.step raised site.reporter.exceptions
    let state := { site with reporter := { site.reporter with exceptions } }
    match found with
    | .continues phase =>
      { result := .continues (.resolvingException activity entered caller method raised phase)
        state }
    | .announces id =>
      { result := .continues
          (.delivering (.announceException activity entered caller method raised id)
            (.obtaining (.exceptionMapping id raised)))
        state
        log := [.announcingException id raised] }
    | .returns id => { result := .continues (withIds activity entered caller method id), state }
  | .delivering purpose delivery, site =>
    let delivered := delivery.step site.host.clock site.reporter
    let result := match delivered.result with
      | .continues delivery => .continues (.delivering purpose delivery)
      | .finished (.returned ()) => resume purpose
      | .finished outcome => .finished outcome
    { result, state := { site with reporter := delivered.state }, log := delivered.log }

end Call

/-- What can happen at a site: a thread makes a request, or the host changes. -/
inductive Site.Job where
  | request (thread : Thread) (request : Request)
  | change (change : Host.Change)
deriving DecidableEq, Repr

/-- The phases of a job at a site. -/
inductive Site.Phase (β : Type) where
  | calling (thread : Thread) (call : Call β)
  | changing (change : Host.Change)
deriving DecidableEq, Repr

/-- The first phase of a job. -/
def Site.Job.start {β : Type} : Job → Phase β
  | .request thread wanted => .calling thread (.entering wanted)
  | .change wanted => .changing wanted

/-- Jobs at a site. A request has an outcome, a change of the host has none. -/
def Site.procedure {π ε β : Type} [Clearable β] [BufferSupply π β] [EventEncoder ε β] :
    Procedure (Site π ε) Job (Phase β) (Option (Outcome DeliveryFailure Unit)) where
  start := Job.start
  step
    | _, .calling thread call, site =>
      let moved := call.step thread site
      match moved.result with
      | .continues call => (.continues (.calling thread call), moved.state)
      | .finished outcome => (.finished (some outcome), moved.state)
    | _, .changing change, site => (.finished none, { site with host := site.host.apply change })

end TraceRelay
