import TraceRelay.Proofs.Stream.Alone

/-! How far a call has come, and what it has changed, when it makes each of its deliveries. -/

namespace TraceRelay

section Lookups

variable {earlier due made : List (Stage × Draft)}

/-- How far a lookup has come that began when the table was `origin` and the deliveries in `earlier`
had been attempted. It announces what is `due` before it concludes. -/
def Resolution.Seeks (key : String) (origin : IdTable String) (earlier due : List (Stage × Draft)) :
    Resolution → IdTable String → List (Stage × Draft) → Prop
  | .lookup, table, made => table = origin ∧ made = earlier
  | .claim, table, made => origin.find? key = none ∧ table = origin ∧ made = earlier
  | .draw, table, made => origin.find? key = none ∧ table = origin.claimed key ∧ made = earlier
  | .replace id, table, made =>
    origin.find? key = none ∧ id = origin.upcoming ∧ table = origin.drawn key ∧ made = earlier
  | .reuse _, _, _ => False
  | .conclude id, table, made =>
    origin.find? key = none ∧ id = origin.upcoming ∧ table = origin.registered key ∧
      made = earlier ++ due

/-- What an access has made of such a lookup. -/
def Resolution.Finds (key : String) (origin : IdTable String) (earlier due : List (Stage × Draft)) :
    Lookup Resolution UInt32 UInt32 → IdTable String → List (Stage × Draft) → Prop
  | .continues phase, table, made => phase.Seeks key origin earlier due table made
  | .announces id, table, made =>
    origin.find? key = none ∧ id = origin.upcoming ∧ table = origin.registered key ∧ made = earlier
  | .returns id, table, made =>
    id = origin.idOf key ∧ table = origin.registered key ∧ made = earlier ++ due

theorem Resolution.Seeks.step {phase : Resolution} {key : String} {origin table : IdTable String}
    (known : (origin.find? key).isSome → due = [])
    (seeks : phase.Seeks key origin earlier due table made) :
    Finds key origin earlier due (phase.step key table).1 (phase.step key table).2 made := by
  cases phase with
  | lookup =>
    obtain ⟨rfl, rfl⟩ := seeks
    cases found : table.find? key with
    | some id =>
      rw [step_lookup_of_found found]
      refine ⟨(IdTable.idOf_of_found found).symm, ?_, ?_⟩
      · rw [IdTable.registered, found]
        rfl
      · rw [known (by rw [found]; rfl), List.append_nil]
    | none =>
      rw [step_lookup_of_absent found]
      exact ⟨found, rfl, rfl⟩
  | claim =>
    obtain ⟨absent, rfl, rfl⟩ := seeks
    rw [step_claim_of_absent absent]
    exact ⟨absent, rfl, rfl⟩
  | draw =>
    obtain ⟨absent, rfl, rfl⟩ := seeks
    exact ⟨absent, rfl, rfl, rfl⟩
  | replace id =>
    obtain ⟨absent, rfl, rfl, rfl⟩ := seeks
    rw [step_replace_drawn absent]
    exact ⟨absent, rfl, rfl, rfl⟩
  | reuse => exact seeks.elim
  | conclude id =>
    obtain ⟨absent, rfl, rfl, rfl⟩ := seeks
    rw [step_conclude_registered absent]
    exact ⟨(IdTable.idOf_of_absent absent).symm, rfl, rfl⟩

/-- How far the lookup of a thread has come that began when the tracker and its host were
`origin`. -/
def Identification.Seeks (thread : Thread) (origin : TrackedHost) :
    Identification → TrackedHost → List (Stage × Draft) → Prop
  | .readName, tracked, made => tracked = origin ∧ made = []
  | .consult name, tracked, made => name = origin.nameOf thread ∧ tracked = origin ∧ made = []
  | .settle announcement, tracked, made =>
    origin.announced? thread ≠ some (origin.nameOf thread) ∧
      announcement = origin.announcement thread ∧ tracked = origin.enrol thread ∧
      made = OpenSite.threadDue origin thread

/-- What an access has made of such a lookup. -/
def Identification.Finds (thread : Thread) (origin : TrackedHost) :
    Lookup Identification ThreadAnnouncement ThreadId → TrackedHost → List (Stage × Draft) → Prop
  | .continues phase, tracked, made => phase.Seeks thread origin tracked made
  | .announces announcement, tracked, made =>
    origin.announced? thread ≠ some (origin.nameOf thread) ∧
      announcement = origin.announcement thread ∧ tracked = origin.enrol thread ∧ made = []
  | .returns id, tracked, made =>
    id = origin.idOf thread ∧ tracked = origin.recognized thread ∧
      made = OpenSite.threadDue origin thread

theorem Identification.Seeks.step {phase : Identification} {thread : Thread}
    {origin tracked : TrackedHost} (seeks : phase.Seeks thread origin tracked made) :
    Finds thread origin (phase.step thread tracked).1 (phase.step thread tracked).2 made := by
  cases phase with
  | readName =>
    obtain ⟨rfl, rfl⟩ := seeks
    exact ⟨rfl, rfl, rfl⟩
  | consult name =>
    obtain ⟨rfl, rfl, rfl⟩ := seeks
    by_cases told : tracked.announced? thread = some (tracked.nameOf thread)
    · rw [step_consult_of_told told]
      refine ⟨rfl, ?_, ?_⟩
      · rw [TrackedHost.recognized, if_pos told]
      · rw [OpenSite.threadDue, if_pos told]
    · rw [step_consult_of_untold told]
      exact ⟨told, rfl, rfl, rfl⟩
  | settle announcement =>
    obtain ⟨untold, rfl, rfl, rfl⟩ := seeks
    rw [step_settle_of_untold untold]
    exact ⟨rfl, rfl, rfl⟩

end Lookups

namespace OpenSite

variable {π ε β δ : Type}

theorem mappingDue_of_absent {table : IdTable String} {key : String}
    (absent : table.find? key = none) (stage : Stage) (draft : UInt32 → String → Draft) :
    mappingDue table stage draft key = [(stage, draft table.upcoming key)] := by
  rw [mappingDue, absent, IdTable.idOf_of_absent absent]
  rfl

theorem mappingDue_of_found {table : IdTable String} {key : String}
    (found : (table.find? key).isSome) (stage : Stage) (draft : UInt32 → String → Draft) :
    mappingDue table stage draft key = [] := by
  rw [mappingDue, if_pos found]

theorem threadDue_of_untold {tracked : TrackedHost} {thread : Thread}
    (untold : tracked.announced? thread ≠ some (tracked.nameOf thread)) :
    threadDue tracked thread =
      [(.thread, .threadMapping (tracked.idOf thread) (tracked.nameOf thread))] := by
  rw [threadDue, if_neg untold]

/-- The deliveries that a request has to make, in their order, if it is entered at the given
time. -/
def duties (thread : Thread) (request : Request) (entered : Timestamp) (site : Site π ε) :
    List (Stage × Draft) :=
  match request with
  | .mapMethod signature id => [(.answer, .methodMapping id signature)]
  | .mapException exception id => [(.answer, .exceptionMapping id exception)]
  | .mapThread name id => [(.answer, .threadMapping id name)]
  | .report activity =>
    mappingsDue site thread activity ++
      [(.answer, .activity entered (site.tracked.idOf thread)
        (activity.map site.reporter.methods.idOf site.reporter.exceptions.idOf))]
  | .marker key value => [(.answer, .marker entered key value)]

/-- The site as a request leaves it that ends with its delivery for the given stage. -/
def leftAt (thread : Thread) (request : Request) (stage : Stage) (site : Site π ε) : Site π ε :=
  match request with
  | .report activity =>
    match stage with
    | .thread => site.withTracked (site.tracked.enrol thread)
    | .method =>
      Register.methods.put (site.reporter.methods.registered activity.method)
        (site.withTracked (site.tracked.recognized thread))
    | .exception => afterReport thread activity site
    | .answer => afterReport thread activity site
  | _ => site

/-- A call is between two deliveries. It began at the site `origin`, has come to the given one, and
has attempted the given deliveries on its way. -/
def Between (origin : Site Dry Dry) (thread : Thread) (request : Request) :
    Call β → Site Dry Dry → List (Stage × Draft) → Prop
  | .entering own, site, made => own = request ∧ site = origin ∧ made = []
  | .identifying activity _ phase, site, made =>
    request = .report activity ∧ ∃ tracked, site = origin.withTracked tracked ∧
      phase.Seeks thread origin.tracked tracked made
  | .resolvingMethod activity _ caller phase, site, made =>
    request = .report activity ∧ caller = origin.tracked.idOf thread ∧
      ∃ table, site = Register.methods.put table
          (origin.withTracked (origin.tracked.recognized thread)) ∧
        phase.Seeks activity.method origin.reporter.methods (threadDue origin.tracked thread)
          (mappingDue origin.reporter.methods .method .methodMapping activity.method) table made
  | .resolvingException activity _ caller method raised phase, site, made =>
    request = .report activity ∧ caller = origin.tracked.idOf thread ∧
      method = origin.reporter.methods.idOf activity.method ∧ activity.raised? = some raised ∧
      ∃ table, site = Register.exceptions.put table (leftAt thread request .method origin) ∧
        phase.Seeks raised origin.reporter.exceptions
          (threadDue origin.tracked thread ++
            mappingDue origin.reporter.methods .method .methodMapping activity.method)
          (mappingDue origin.reporter.exceptions .exception .exceptionMapping raised) table made
  | .delivering _ _, _, _ => False

/-- A call has come to a delivery, or is making it. The deliveries in `made` have been attempted
before. -/
structure Awaits (β : Type) (origin : Site Dry Dry) (thread : Thread) (request : Request)
    (purpose : Purpose) (draft : Draft) (site : Site Dry Dry) (made : List (Stage × Draft)) :
    Prop where
  left : site = leftAt thread request purpose.stage origin
  due : ∃ entered later,
    duties thread request entered origin = made ++ (purpose.stage, draft) :: later ∧
      (purpose = .answer → later = [])
  resumes : ∀ next : Call β, Call.resume purpose = .continues next →
    Between origin thread request next site (made ++ [(purpose.stage, draft)])

/-- A call has come to a phase in which it is between two deliveries, or begins the next one. -/
def Reaches (origin : Site Dry Dry) (thread : Thread) (request : Request) (call : Call β)
    (site : Site Dry Dry) (made : List (Stage × Draft)) : Prop :=
  Between origin thread request call site made ∨
    ∃ purpose draft, call = .delivering purpose (.obtaining draft) ∧
      Awaits β origin thread request purpose draft site made

section Steps

variable {origin : Site Dry Dry} {thread : Thread} {request : Request}
  {activity : Activity String String} {entered : Timestamp} {made : List (Stage × Draft)}

/-- A call that begins the delivery of its own event. -/
theorem reaches_answering {site : Site Dry Dry} {draft : Draft} (entered : Timestamp)
    (left : site = leftAt thread request .answer origin)
    (due : duties thread request entered origin = made ++ [(.answer, draft)]) :
    Reaches origin thread request (Call.answering draft : Call β) site made := by
  refine .inr ⟨.answer, draft, rfl, left, ⟨entered, [], due, fun _ => rfl⟩, ?_⟩
  intro next goesOn
  cases goesOn

/-- An access that enters the call. -/
theorem reaches_enter (origin : Site Dry Dry) (thread : Thread) (request : Request)
    (entered : Timestamp) :
    Reaches origin thread request (Call.enter entered request : Call β) origin [] := by
  cases request with
  | report activity => exact .inl ⟨rfl, origin.tracked, rfl, rfl, rfl⟩
  | mapMethod | mapException | mapThread | marker =>
    exact reaches_answering entered rfl rfl

/-- What the lookup of its thread leads a call to. -/
theorem reaches_identified {found : Lookup Identification ThreadAnnouncement ThreadId}
    {tracked : TrackedHost}
    (finds : Identification.Finds thread origin.tracked found tracked made) :
    Reaches origin thread (.report activity) (identified activity entered found : Call β)
      (origin.withTracked tracked) made := by
  cases found with
  | continues phase => exact .inl ⟨rfl, tracked, rfl, finds⟩
  | announces announcement =>
    obtain ⟨untold, rfl, rfl, rfl⟩ := finds
    have due := threadDue_of_untold untold
    obtain ⟨later, whole⟩ : ∃ later, duties thread (.report activity) entered origin =
        (.thread, .threadMapping (origin.tracked.idOf thread) (origin.tracked.nameOf thread)) ::
          later := by
      rw [duties, mappingsDue, due]
      exact ⟨_, rfl⟩
    refine .inr ⟨_, _, rfl, rfl, ⟨entered, later, whole, nofun⟩, ?_⟩
    intro next goesOn
    cases goesOn
    exact ⟨rfl, _, rfl, untold, rfl, rfl, due.symm⟩
  | returns id =>
    obtain ⟨rfl, rfl, rfl⟩ := finds
    exact .inl ⟨rfl, rfl, _, rfl, rfl, rfl⟩

/-- A call that knows its thread and its method turns to its exception, or to its own event. -/
theorem reaches_withMethod :
    Reaches origin thread (.report activity)
      (Call.withMethod activity entered (origin.tracked.idOf thread)
        (origin.reporter.methods.idOf activity.method) : Call β)
      (leftAt thread (.report activity) .method origin)
      (threadDue origin.tracked thread ++
        mappingDue origin.reporter.methods .method .methodMapping activity.method) := by
  cases activity with
  | entry | exit =>
    refine reaches_answering entered rfl ?_
    rw [duties, mappingsDue, Activity.raised?, Option.toList_none, List.flatMap_nil,
      List.append_nil]
    rfl
  | exception raised own line =>
    exact .inl ⟨rfl, rfl, rfl, rfl, origin.reporter.exceptions, rfl, rfl, rfl⟩
  | bubble raised own =>
    exact .inl ⟨rfl, rfl, rfl, rfl, origin.reporter.exceptions, rfl, rfl, rfl⟩

/-- What the lookup of its method leads a call to. -/
theorem reaches_resolvedMethod {found : Lookup Resolution UInt32 UInt32} {table : IdTable String}
    (finds : Resolution.Finds activity.method origin.reporter.methods
      (threadDue origin.tracked thread)
      (mappingDue origin.reporter.methods .method .methodMapping activity.method) found table
      made) :
    Reaches origin thread (.report activity)
      (resolvedMethod activity entered (origin.tracked.idOf thread) found : Call β)
      (Register.methods.put table (origin.withTracked (origin.tracked.recognized thread)))
      made := by
  cases found with
  | continues phase => exact .inl ⟨rfl, rfl, table, rfl, finds⟩
  | announces id =>
    obtain ⟨absent, rfl, rfl, rfl⟩ := finds
    have due := mappingDue_of_absent absent .method .methodMapping
    obtain ⟨later, whole⟩ : ∃ later, duties thread (.report activity) entered origin =
        threadDue origin.tracked thread ++
          (.method, .methodMapping origin.reporter.methods.upcoming activity.method) :: later := by
      rw [duties, mappingsDue, due, List.append_assoc, List.append_assoc]
      exact ⟨_, rfl⟩
    refine .inr ⟨_, _, rfl, rfl, ⟨entered, later, whole, nofun⟩, ?_⟩
    intro next goesOn
    cases goesOn
    exact ⟨rfl, rfl, _, rfl, absent, rfl, rfl, by rw [due]; rfl⟩
  | returns id =>
    obtain ⟨rfl, rfl, rfl⟩ := finds
    exact reaches_withMethod

/-- The deliveries of a report that raises an exception. -/
theorem duties_of_raised {raised : String} (raises : activity.raised? = some raised) :
    duties thread (.report activity) entered origin =
      threadDue origin.tracked thread ++
        mappingDue origin.reporter.methods .method .methodMapping activity.method ++
        mappingDue origin.reporter.exceptions .exception .exceptionMapping raised ++
        [(.answer, .activity entered (origin.tracked.idOf thread)
          (activity.map (fun _ => origin.reporter.methods.idOf activity.method)
            fun _ => origin.reporter.exceptions.idOf raised))] := by
  rw [duties, mappingsDue, raises, Option.toList_some, List.flatMap_singleton]
  cases activity with
  | entry | exit => cases raises
  | exception | bubble =>
    cases raises
    rfl

theorem leftAt_of_raised {raised : String} (raises : activity.raised? = some raised) :
    afterReport thread activity origin =
      Register.exceptions.put (origin.reporter.exceptions.registered raised)
        (leftAt thread (.report activity) .method origin) := by
  rw [afterReport, raises]
  rfl

/-- What the lookup of its exception leads a call to. -/
theorem reaches_resolvedException {raised : String} {found : Lookup Resolution UInt32 UInt32}
    {table : IdTable String} (raises : activity.raised? = some raised)
    (finds : Resolution.Finds raised origin.reporter.exceptions
      (threadDue origin.tracked thread ++
        mappingDue origin.reporter.methods .method .methodMapping activity.method)
      (mappingDue origin.reporter.exceptions .exception .exceptionMapping raised) found table
      made) :
    Reaches origin thread (.report activity)
      (resolvedException activity entered (origin.tracked.idOf thread)
        (origin.reporter.methods.idOf activity.method) raised found : Call β)
      (Register.exceptions.put table (leftAt thread (.report activity) .method origin)) made := by
  cases found with
  | continues phase => exact .inl ⟨rfl, rfl, rfl, raises, table, rfl, finds⟩
  | announces id =>
    obtain ⟨absent, rfl, rfl, rfl⟩ := finds
    have due := mappingDue_of_absent absent .exception .exceptionMapping
    obtain ⟨later, whole⟩ : ∃ later, duties thread (.report activity) entered origin =
        threadDue origin.tracked thread ++
          mappingDue origin.reporter.methods .method .methodMapping activity.method ++
          (.exception, .exceptionMapping origin.reporter.exceptions.upcoming raised) :: later := by
      rw [duties_of_raised raises, due, List.append_assoc _ [_]]
      exact ⟨_, rfl⟩
    refine .inr ⟨_, _, rfl, (leftAt_of_raised raises).symm, ⟨entered, later, whole, nofun⟩, ?_⟩
    intro next goesOn
    cases goesOn
    exact ⟨rfl, rfl, rfl, raises, _, rfl, absent, rfl, rfl, by rw [due]; rfl⟩
  | returns id =>
    obtain ⟨rfl, rfl, rfl⟩ := finds
    exact reaches_answering entered (leftAt_of_raised raises).symm (duties_of_raised raises)

/-- A phase of a lookup of a thread looks at neither the clock nor what else the site holds. -/
theorem outline_identifying (thread : Thread) (phase : Identification) (site : Site π ε) :
    (phase.step thread (site.outline 0).tracked).1 = (phase.step thread site.tracked).1 ∧
      (site.withTracked (phase.step thread site.tracked).2).outline 0 =
        (site.outline 0).withTracked (phase.step thread (site.outline 0).tracked).2 := by
  have unclocked : phase.step thread (site.outline 0).tracked = _ :=
    phase.step_clock thread site.reporter.tracker site.host 0
  rw [unclocked]
  exact ⟨rfl, rfl⟩

theorem outline_register {site : Site π ε} (register : Register) (table : IdTable String) :
    (register.put table site).outline 0 = register.put table (site.outline 0) := by
  cases register <;> rfl

variable [Clearable β] [BufferSupply π β] [EventEncoder ε β]

/-- An access between two deliveries leads the call on, without a failure. -/
theorem Between.step {call : Call β} {site : Site π ε}
    (between : Between origin thread request call (site.outline 0) made) :
    ∃ next, (call.step thread site).result = .continues next ∧
      Reaches origin thread request next ((call.step thread site).state.outline 0) made := by
  cases call with
  | entering own =>
    obtain ⟨rfl, left, rfl⟩ := between
    refine ⟨_, rfl, ?_⟩
    change Reaches origin thread own (Call.enter _ own) (site.outline 0) []
    rw [left]
    exact reaches_enter origin thread own _
  | identifying activity entered phase =>
    obtain ⟨rfl, tracked, left, seeks⟩ := between
    obtain ⟨found, moved⟩ := outline_identifying thread phase site
    refine ⟨_, (step_identifying ..).2, ?_⟩
    rw [state_identifying, moved, ← found, left]
    exact reaches_identified seeks.step
  | resolvingMethod activity entered caller phase =>
    obtain ⟨rfl, rfl, table, left, seeks⟩ := between
    have own : site.reporter.methods = table := congrArg (fun site => site.reporter.methods) left
    refine ⟨_, (step_resolvingMethod ..).2, ?_⟩
    rw [state_resolvingMethod, outline_register, left, put_put, own]
    exact reaches_resolvedMethod (seeks.step fun found => mappingDue_of_found found _ _)
  | resolvingException activity entered caller method raised phase =>
    obtain ⟨rfl, rfl, rfl, raises, table, left, seeks⟩ := between
    have own : site.reporter.exceptions = table :=
      congrArg (fun site => site.reporter.exceptions) left
    refine ⟨_, (step_resolvingException ..).2, ?_⟩
    rw [state_resolvingException, outline_register, left, put_put, own]
    exact reaches_resolvedException raises
      (seeks.step fun found => mappingDue_of_found found _ _)
  | delivering => exact between.elim

end Steps

end OpenSite

end TraceRelay
