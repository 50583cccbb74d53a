import TraceRelay.Reporting.OpenSite

/-! Trackers and reporters that live on one host as long as somebody holds them. -/

namespace TraceRelay

/-- A tracker by itself, or a reporter together with its tracker. -/
inductive Member (π ε : Type) where
  | tracking (tracker : Tracker)
  | reporting (reporter : Reporter π ε)
deriving DecidableEq, Repr

namespace Member

variable {π ε : Type}

/-- The tracker that the member is or has. -/
def tracker : Member π ε → Tracker
  | .tracking tracker => tracker
  | .reporting reporter => reporter.tracker

/-- The host after a thread has dropped the member. -/
def drop (thread : Thread) (host : Host) : Member π ε → Host
  | .tracking tracker => { host with memos := host.memos.dropTracker thread tracker.key }
  | .reporting reporter => reporter.drop thread host

end Member

/-- What a member is made of. -/
inductive Blueprint (π ε : Type) where
  | tracking (names : NameSource)
  | reporting (supply : π) (encoder : ε) (names : NameSource)
deriving DecidableEq, Repr

/-- A new member on its host. -/
def Blueprint.build {π ε : Type} (host : Host) : Blueprint π ε → Member π ε × Host
  | .tracking names =>
    let (tracker, host) := host.newTracker names
    (.tracking tracker, host)
  | .reporting supply encoder names =>
    let (reporter, host) := Reporter.create supply encoder names host
    (.reporting reporter, host)

/-- What a thread can ask a member for. -/
inductive Service (ω : Type) where
  /-- The thread asks a tracker for its own id. The announcement, if one is due, ends as told. -/
  | recognition (announcement : Outcome ω Unit)
  /-- The thread calls a reporter. -/
  | reporting (request : Request)
deriving DecidableEq, Repr

/-- What came of a job in a community. -/
inductive Reply (ω : Type) where
  | done
  /-- There is no such member, or it does not do such things, or its name is taken. -/
  | refused
  | recognized (outcome : Outcome ω ThreadId)
  | called (outcome : Outcome DeliveryFailure Unit)
deriving DecidableEq, Repr

namespace Service

variable {π ε β ω : Type}

/-- The phases of a service. -/
inductive Phase (β : Type) where
  /-- The member is looked for next. -/
  | opening
  | recognizing (phase : Recognition)
  | calling (call : Call β)
deriving DecidableEq, Repr

/-- The first phase of a service in which the member is at work, if the member offers it. -/
def start : Service ω → Member π ε → Option (Phase β)
  | .recognition _, .tracking _ => some (.recognizing (.identifying .readName))
  | .reporting request, .reporting _ => some (.calling (.entering request))
  | _, _ => none

variable [Clearable β] [BufferSupply π β] [EventEncoder ε β]

/-- One access of shared state that a member makes for a thread, if it is at work for it. -/
def step (thread : Thread) :
    Service ω → Phase β → Member π ε → Host →
      Option (Progress (Phase β) (Reply ω) × Member π ε × Host)
  | .recognition announcement, .recognizing phase, .tracking tracker, host =>
    let (moved, tracked) := phase.step { thread, announcement } { tracker, host }
    some (moved.map .recognizing .recognized, .tracking tracked.tracker, tracked.host)
  | .reporting _, .calling call, .reporting reporter, host =>
    let moved := call.step thread { reporter, host }
    some (moved.result.map .calling .called, .reporting moved.state.reporter, moved.state.host)
  | _, _, _, _ => none

end Service

/-- A member with those who hold it. -/
structure Tenancy (π ε : Type) where
  member : Member π ε
  /-- The owner has not released the member. -/
  owned : Bool := true
  /-- The number of calls in progress. -/
  calls : Nat := 0
deriving DecidableEq, Repr

/-- A host with the members that live on it, by name. -/
structure Community (π ε : Type) where
  host : Host := {}
  members : Table String (Tenancy π ε) := {}
deriving DecidableEq, Repr

namespace Community

variable {π ε β ω δ : Type}

/-- The member of the given name is in a new state, and so is the host. -/
def keep (name : String) (tenancy : Tenancy π ε) (host : Host) (community : Community π ε) :
    Community π ε :=
  { host, members := community.members.insert name tenancy }

/-- The member of the given name is dropped by a thread. -/
def lose (thread : Thread) (name : String) (member : Member π ε) (host : Host)
    (community : Community π ε) : Community π ε :=
  { host := member.drop thread host, members := community.members.erase name }

/-- The member of the given name is in a new state, after the thread may have let go of it. -/
def settle (thread : Thread) (name : String) (tenancy : Tenancy π ε) (host : Host)
    (community : Community π ε) : Community π ε :=
  if tenancy.owned = true ∨ 0 < tenancy.calls then community.keep name tenancy host
  else community.lose thread name tenancy.member host

/-- What can be done about the member of a name. -/
inductive Task (π ε ω δ : Type) where
  | make (blueprint : Blueprint π ε)
  | serve (thread : Thread) (service : Service ω)
  /-- The supply and the encoder of a reporter get an order from outside. -/
  | order (order : δ)
  /-- The owner, on the given thread, lets go of the member. -/
  | release (thread : Thread)
  /-- The work of the member takes its time. -/
  | linger (nanoseconds : Nat)
deriving DecidableEq, Repr

/-- What can happen in a community. -/
inductive Job (π ε ω δ : Type) where
  | task (name : String) (task : Task π ε ω δ)
  | change (change : Host.Change)
deriving DecidableEq, Repr

variable [Clearable β] [BufferSupply π β] [EventEncoder ε β]

/-- One access that the member of the given name makes for a thread. The last one ends the call. -/
def attend (thread : Thread) (name : String) (service : Service ω) (phase : Service.Phase β)
    (community : Community π ε) : Progress (Service.Phase β) (Reply ω) × Community π ε :=
  match community.members.find? name with
  | none => (.finished .refused, community)
  | some tenancy =>
    match service.step thread phase tenancy.member community.host with
    | none => (.finished .refused, community)
    | some (.continues phase, member, host) =>
      (.continues phase, community.settle thread name { tenancy with member } host)
    | some (.finished reply, member, host) =>
      (.finished reply,
        community.settle thread name { tenancy with member, calls := tenancy.calls - 1 } host)

/-- One access on behalf of a task. Every name stands for one member at a time, and a member that
its owner has released takes on no more calls. -/
def perform (obeys : δ → π × ε → π × ε) (name : String) :
    Task π ε ω δ → Service.Phase β → Community π ε →
      Progress (Service.Phase β) (Reply ω) × Community π ε
  | .make blueprint, _, community =>
    match community.members.find? name with
    | some _ => (.finished .refused, community)
    | none =>
      let (member, host) := blueprint.build community.host
      (.finished .done, community.keep name { member } host)
  | .serve _ service, .opening, community =>
    match community.members.find? name with
    | some { member, owned := true, calls } =>
      match service.start member with
      | some phase =>
        (.continues phase,
          community.keep name { member, calls := calls + 1 } community.host)
      | none => (.finished .refused, community)
    | _ => (.finished .refused, community)
  | .serve thread service, phase, community => community.attend thread name service phase
  | .order order, _, community =>
    match community.members.find? name with
    | some { member := .reporting reporter, owned, calls } =>
      let site := OpenSite.obey obeys order { reporter, host := community.host }
      (.finished .done,
        community.keep name { member := .reporting site.reporter, owned, calls } site.host)
    | _ => (.finished .refused, community)
  | .release thread, _, community =>
    match community.members.find? name with
    | some { member, owned := true, calls } =>
      (.finished .done,
        community.settle thread name { member, owned := false, calls } community.host)
    | _ => (.finished .refused, community)
  | .linger nanoseconds, _, community =>
    (.finished .done,
      { community with host := community.host.apply (.advance nanoseconds) })

/-- Jobs in a community. -/
def procedure (obeys : δ → π × ε → π × ε) :
    Procedure (Community π ε) (Job π ε ω δ) (Service.Phase β) (Reply ω) where
  start _ := .opening
  step
    | .task name task, phase, community => perform obeys name task phase community
    | .change change, _, community =>
      (.finished .done, { community with host := community.host.apply change })

end Community

end TraceRelay
