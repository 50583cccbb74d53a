import TraceRelay.Proofs.Stream.Course

/-! The course of a call that is made while no other one is in progress. -/

namespace TraceRelay

section Tables

variable {κ : Type} [DecidableEq κ]

/-- The id of the key, or the id that the next new key gets. -/
def IdTable.idOf (table : IdTable κ) (key : κ) : UInt32 := (table.find? key).getD table.upcoming

theorem IdTable.idOf_of_found {table : IdTable κ} {key : κ} {id : UInt32}
    (found : table.find? key = some id) : table.idOf key = id := by
  rw [idOf, found, Option.getD_some]

theorem IdTable.idOf_of_absent {table : IdTable κ} {key : κ} (absent : table.find? key = none) :
    table.idOf key = table.upcoming := by
  rw [idOf, absent, Option.getD_none]

/-- The table in which the key has an id: its old one, or the next one. -/
def IdTable.registered (table : IdTable κ) (key : κ) : IdTable κ :=
  if (table.find? key).isSome then table
  else
    { ids := (table.ids.insert key IdTable.pending).insert key table.upcoming
      upcoming := table.upcoming + 1 }

theorem IdTable.registered_of_absent {table : IdTable κ} {key : κ}
    (absent : table.find? key = none) :
    table.registered key =
      { ids := (table.ids.insert key IdTable.pending).insert key table.upcoming
        upcoming := table.upcoming + 1 } := by
  rw [registered, absent]
  rfl

/-- The table in which a new key is marked as pending. -/
def IdTable.claimed (table : IdTable κ) (key : κ) : IdTable κ :=
  { table with ids := table.ids.insert key IdTable.pending }

/-- The table in which a new key is marked as pending, and its id has been drawn. -/
def IdTable.drawn (table : IdTable κ) (key : κ) : IdTable κ :=
  { table.claimed key with upcoming := table.upcoming + 1 }

theorem IdTable.find?_registered {table : IdTable κ} {key : κ}
    (room : table.upcoming ≠ IdTable.pending) (other : κ) :
    (table.registered key).find? other =
      if other = key then some (table.idOf key) else table.find? other := by
  cases found : table.find? key with
  | some id =>
    by_cases own : other = key
    · subst own
      simp [registered, idOf, found]
    · simp [registered, found, own]
  | none =>
    by_cases own : other = key
    · subst own
      simp [registered, idOf, found, find?_eq_some, Table.find?_insert, room]
    · rw [registered, if_neg (by simp [found]), if_neg own]
      simp [find?, Table.find?_insert, own]

namespace Resolution

variable {table : IdTable κ} {key : κ}

theorem step_lookup_of_found {id : UInt32} (found : table.find? key = some id) :
    lookup.step key table = (.returns id, table) := by
  rw [step, found]

theorem step_lookup_of_absent (absent : table.find? key = none) :
    lookup.step key table = (.continues .claim, table) := by
  rw [step, absent]

/-- A key without an id is marked, unless a mark has been left at it. -/
theorem step_claim_of_absent (absent : table.find? key = none) :
    claim.step key table = (.continues .draw, table.claimed key) := by
  rcases IdTable.find?_eq_none.mp absent with unlisted | marked
  · rw [step, unlisted]
    rfl
  · have same : table.claimed key = table := by
      rw [IdTable.claimed, Table.insert_of_found marked]
    rw [step, marked, same]
    rfl

theorem step_draw_claimed :
    draw.step key (table.claimed key) = (.continues (.replace table.upcoming), table.drawn key) :=
  rfl

theorem step_replace_drawn (absent : table.find? key = none) :
    (replace table.upcoming).step key (table.drawn key) =
      (.announces table.upcoming, table.registered key) := by
  rw [IdTable.registered_of_absent absent]
  simp [step, IdTable.drawn, IdTable.claimed, Table.find?_insert]

theorem step_conclude_registered (absent : table.find? key = none) :
    (conclude table.upcoming).step key (table.registered key) =
      (.returns table.upcoming, table.registered key) := by
  rw [IdTable.registered_of_absent absent]
  simp [step, Table.find?_insert]

end Resolution

end Tables

namespace TrackedHost

/-- The current name of a thread, empty if it has none. -/
def nameOf (tracked : TrackedHost) (thread : Thread) : String :=
  (tracked.host.nameOf tracked.tracker.names thread).getD ""

/-- The id of a thread, or the id that the next new thread gets. -/
def idOf (tracked : TrackedHost) (thread : Thread) : ThreadId :=
  ((tracked.memo? thread).map ThreadMemo.id).getD tracked.tracker.upcoming

/-- The name that the last successful announcement of the thread gave, as the tracker remembers
it. -/
def announced? (tracked : TrackedHost) (thread : Thread) : Option String :=
  (tracked.memo? thread).bind ThreadMemo.announced

/-- The tracker remembers the thread, with its old id or with the next one. -/
def enrol (tracked : TrackedHost) (thread : Thread) : TrackedHost :=
  if (tracked.memo? thread).isSome then tracked
  else
    { tracked.remember thread { id := tracked.tracker.upcoming } with
      tracker := { tracked.tracker with upcoming := tracked.tracker.upcoming + 1 } }

/-- The tracker remembers that the thread has been announced under its current name. -/
def recognized (tracked : TrackedHost) (thread : Thread) : TrackedHost :=
  if tracked.announced? thread = some (tracked.nameOf thread) then tracked
  else (tracked.enrol thread).remember thread
    { id := tracked.idOf thread, announced := some (tracked.nameOf thread) }

theorem memo?_enrol (tracked : TrackedHost) (thread other : Thread) :
    (tracked.enrol thread).memo? other =
      if other = thread then
        some { id := tracked.idOf thread, announced := tracked.announced? thread }
      else tracked.memo? other := by
  cases found : tracked.memo? thread with
  | some memo =>
    by_cases own : other = thread
    · subst own
      simp [enrol, idOf, announced?, found]
    · simp [enrol, found, own]
  | none =>
    rw [enrol, if_neg (by simp [found])]
    refine (tracked.memo?_remember thread other _).trans ?_
    simp [idOf, announced?, found]

theorem memo?_recognized (tracked : TrackedHost) (thread other : Thread) :
    (tracked.recognized thread).memo? other =
      if other = thread then
        some { id := tracked.idOf thread, announced := some (tracked.nameOf thread) }
      else tracked.memo? other := by
  unfold recognized
  split
  · rename_i told
    by_cases own : other = thread
    · subst own
      obtain ⟨⟨id, announced⟩, found, told⟩ := Option.bind_eq_some_iff.mp told
      cases told
      simp [idOf, found]
    · rw [if_neg own]
  · rw [memo?_remember]
    by_cases own : other = thread
    · rw [if_pos own, if_pos own]
    · rw [if_neg own, if_neg own, memo?_enrol, if_neg own]

/-- The announcement that is due when the thread has not been announced under its name. -/
def announcement (tracked : TrackedHost) (thread : Thread) : ThreadAnnouncement :=
  { id := tracked.idOf thread, name := tracked.nameOf thread }

end TrackedHost

namespace Identification

variable {tracked : TrackedHost} {thread : Thread}

theorem step_readName : readName.step thread tracked =
    (.continues (.consult (tracked.nameOf thread)), tracked) := rfl

/-- A thread that has been announced under its name is known. -/
theorem step_consult_of_told (told : tracked.announced? thread = some (tracked.nameOf thread)) :
    (consult (tracked.nameOf thread)).step thread tracked =
      (.returns (tracked.idOf thread), tracked) := by
  obtain ⟨memo, found, announced⟩ := Option.bind_eq_some_iff.mp told
  have own : tracked.idOf thread = memo.id := by rw [TrackedHost.idOf, found]; rfl
  rw [step, found, own]
  exact if_pos announced

/-- Any other thread is enrolled, and has to be announced. -/
theorem step_consult_of_untold (untold : tracked.announced? thread ≠ some (tracked.nameOf thread)) :
    (consult (tracked.nameOf thread)).step thread tracked =
      (.announces (tracked.announcement thread), tracked.enrol thread) := by
  cases found : tracked.memo? thread with
  | none => simp [step, found, TrackedHost.announcement, TrackedHost.idOf, TrackedHost.enrol,
      TrackedHost.remember]
  | some memo =>
    have unlike : memo.announced ≠ some (tracked.nameOf thread) := by
      simpa [TrackedHost.announced?, found] using untold
    simp [step, found, TrackedHost.announcement, TrackedHost.idOf, TrackedHost.enrol, unlike]

theorem step_settle_of_untold (untold : tracked.announced? thread ≠ some (tracked.nameOf thread)) :
    (settle (tracked.announcement thread)).step thread (tracked.enrol thread) =
      (.returns (tracked.idOf thread), tracked.recognized thread) := by
  have found := tracked.memo?_enrol thread thread
  rw [if_pos rfl] at found
  rw [step, found, TrackedHost.recognized, if_neg untold]
  rfl

end Identification

/-- The site with another state of the tracker and its host. -/
def Site.withTracked {π ε : Type} (tracked : TrackedHost) (site : Site π ε) : Site π ε :=
  { reporter := { site.reporter with tracker := tracked.tracker }, host := tracked.host }

/-- The site with another table. -/
def Register.put {π ε : Type} (register : Register) (table : IdTable String) (site : Site π ε) :
    Site π ε :=
  { site with
    reporter := match register with
      | .methods => { site.reporter with methods := table }
      | .exceptions => { site.reporter with exceptions := table } }

namespace OpenSite

variable {δ : Type} (clock : Turn → Nat) (thread : Thread) (request : Request)

/-- A call in progress on its own, at a site of which only the outline counts. It has asked for
buffers for the given events. -/
def Outline.calling (call : Call Empty) (site : Site Dry Dry) (asks : List (Stage × Draft)) :
    Outline δ where
  strand :=
    { jobs := []
      going := some (.atSite (.request thread request),
        .atSite (.request thread request) (.calling thread call)) }
  site := site.outline 0
  asks := asks.map fun entry => (⟨⟨0, 0⟩, entry.1⟩, entry.2)

/-- A call that has returned, and has asked for buffers for the given events. -/
def Outline.returned (site : Site Dry Dry) (asks : List (Stage × Draft)) : Outline δ where
  strand := { jobs := [], ended := [(.atSite (.request thread request), some (.returned ()))] }
  site := site.outline 0
  asks := asks.map fun entry => (⟨⟨0, 0⟩, entry.1⟩, entry.2)

/-- Steps lead from the first outline to the last one. -/
def Leads (first last : Outline δ) : Prop := ∃ steps, (Outline.advance clock)^[steps] first = last

theorem Leads.refl (outline : Outline δ) : Leads clock outline outline := ⟨0, rfl⟩

variable {clock thread request}

theorem Leads.trans {first second third : Outline δ} (early : Leads clock first second)
    (late : Leads clock second third) : Leads clock first third := by
  obtain ⟨steps, rfl⟩ := early
  obtain ⟨more, rfl⟩ := late
  exact ⟨more + steps, Function.iterate_add_apply _ _ _ _⟩

theorem Leads.head {first second third : Outline δ} (step : first.advance clock = second)
    (late : Leads clock second third) : Leads clock first third :=
  Leads.trans ⟨1, step⟩ late

variable {call next : Call Empty} {site after : Site Dry Dry} {asks : List (Stage × Draft)}

/-- The event for which a call asks for a buffer next. -/
def asksFor : Call Empty → List (Stage × Draft)
  | .delivering purpose (.obtaining draft) => [(purpose.stage, draft)]
  | _ => []

theorem draft?_eq_asksFor (call : Call Empty) :
    ((.atSite (.request thread request) (.calling thread call) : Phase Empty δ).draft?
      ⟨0, 0⟩).toList = (asksFor call).map fun entry => (⟨⟨0, 0⟩, entry.1⟩, entry.2) := by
  cases call with
  | delivering purpose delivery => cases delivery <;> rfl
  | entering | identifying | resolvingMethod | resolvingException => rfl

/-- An access of the call is a step of its outline. -/
theorem leads_of_continues
    (stepped : (call.step thread (site.outline (clock ⟨0, 0⟩))).result = .continues next)
    (left : (call.step thread (site.outline (clock ⟨0, 0⟩))).state.outline 0 = after.outline 0) :
    Leads clock (Outline.calling thread request call site asks : Outline δ)
      (.calling thread request next after (asks ++ asksFor call)) := by
  refine Leads.head ?_ (Leads.refl _ _)
  rw [Outline.advance_of_going clock rfl (step_calling ..)]
  simp only [Outline.calling, Outline.mk.injEq, List.map_append]
  refine ⟨?_, ?_, congrArg _ (draft?_eq_asksFor call)⟩
  · change Strand.after _ _ (Phase.ofCall _ _
      (call.step thread (site.outline (clock ⟨0, 0⟩))).result) = _
    rw [stepped]
    rfl
  · exact left

/-- An access of a call that asks for no buffer. -/
theorem leads_silently (silent : asksFor call = [])
    (stepped : (call.step thread (site.outline (clock ⟨0, 0⟩))).result = .continues next)
    (left : (call.step thread (site.outline (clock ⟨0, 0⟩))).state.outline 0 = after.outline 0) :
    Leads clock (Outline.calling thread request call site asks : Outline δ)
      (.calling thread request next after asks) := by
  have leads : Leads clock (Outline.calling thread request call site asks : Outline δ) _ :=
    leads_of_continues stepped left
  rwa [silent, List.append_nil] at leads

/-- The access with which a call asks for the buffer of its own event is its last one. -/
theorem leads_answering (draft : Draft) :
    Leads clock (Outline.calling thread request (Call.answering draft) site asks : Outline δ)
      (.returned thread request site (asks ++ [(.answer, draft)])) := by
  refine Leads.head ?_ (Leads.refl _ _)
  rw [Outline.advance_of_going clock rfl (step_calling ..)]
  simp only [Outline.returned, Outline.calling, List.map_append]
  rfl

/-- An access with which a call asks for a buffer for a mapping. -/
theorem leads_mapping {purpose : Purpose} (draft : Draft)
    (resumes : Call.resume purpose = .continues next) :
    Leads clock (Outline.calling thread request (.delivering purpose (.obtaining draft)) site asks :
        Outline δ)
      (.calling thread request next site (asks ++ [(purpose.stage, draft)])) :=
  leads_of_continues resumes rfl

/-- What an access of a lookup leads a call to. -/
def lookedUp (resolving : Resolution → Call Empty) (purpose : UInt32 → Purpose)
    (draft : UInt32 → Draft) (found : UInt32 → Call Empty) :
    Lookup Resolution UInt32 UInt32 → Call Empty
  | .continues phase => resolving phase
  | .announces id => .delivering (purpose id) (.obtaining (draft id))
  | .returns id => found id

/-- How a call looks a key up in a table. It is in the call `resolving phase` while it does so, is
led to `found id` by the id of the key, and announces a new id by the draft with the given
purpose. -/
structure Looks (thread : Thread) (register : Register) (key : String)
    (resolving : Resolution → Call Empty) (purpose : UInt32 → Purpose) (draft : UInt32 → Draft)
    (found : UInt32 → Call Empty) : Prop where
  result : ∀ phase (site : Site Dry Dry), ((resolving phase).step thread site).result = .continues
    (lookedUp resolving purpose draft found (phase.step key (register.table site.reporter)).1)
  state : ∀ phase (site : Site Dry Dry), ((resolving phase).step thread site).state =
    register.put (phase.step key (register.table site.reporter)).2 site
  resumes : ∀ id, Call.resume (purpose id) = .continues (resolving (.conclude id))
  silent : ∀ phase, asksFor (resolving phase) = []

theorem state_resolvingMethod {π ε β : Type} [Clearable β] [BufferSupply π β] [EventEncoder ε β]
    (thread : Thread) (activity : Activity String String) (entered : Timestamp)
    (caller : ThreadId) (phase : Resolution) (site : Site π ε) :
    ((Call.resolvingMethod activity entered caller phase : Call β).step thread site).state =
      Register.methods.put (phase.step activity.method site.reporter.methods).2 site := by
  simp only [Call.step]
  split <;> rfl

theorem state_resolvingException {π ε β : Type} [Clearable β] [BufferSupply π β]
    [EventEncoder ε β] (thread : Thread) (activity : Activity String String) (entered : Timestamp)
    (caller : ThreadId) (method : MethodId) (raised : String) (phase : Resolution)
    (site : Site π ε) :
    ((Call.resolvingException activity entered caller method raised phase : Call β).step thread
      site).state =
        Register.exceptions.put (phase.step raised site.reporter.exceptions).2 site := by
  simp only [Call.step]
  split <;> rfl

theorem looks_method (thread : Thread) (activity : Activity String String) (entered : Timestamp)
    (caller : ThreadId) :
    Looks thread .methods activity.method (.resolvingMethod activity entered caller)
      (.announceMethod activity entered caller) (.methodMapping · activity.method)
      (Call.withMethod activity entered caller) where
  result phase site := by
    simp only [Call.step, Register.table]
    split <;> rename_i found <;> rw [found] <;> rfl
  state phase site := state_resolvingMethod thread activity entered caller phase site
  resumes id := rfl
  silent phase := rfl

theorem looks_exception (thread : Thread) (activity : Activity String String) (entered : Timestamp)
    (caller : ThreadId) (method : MethodId) (raised : String) :
    Looks thread .exceptions raised (.resolvingException activity entered caller method raised)
      (.announceException activity entered caller method raised) (.exceptionMapping · raised)
      (Call.withIds activity entered caller method) where
  result phase site := by
    simp only [Call.step, Register.table]
    split <;> rename_i found <;> rw [found] <;> rfl
  state phase site :=
    state_resolvingException thread activity entered caller method raised phase site
  resumes id := rfl
  silent phase := rfl

section Lookups

variable {register : Register} {key : String} {resolving : Resolution → Call Empty}
  {purpose : UInt32 → Purpose} {draft : UInt32 → Draft} {found : UInt32 → Call Empty}

theorem table_put {π ε : Type} (register : Register) (table : IdTable String) (site : Site π ε) :
    register.table (register.put table site).reporter = table := by
  cases register <;> rfl

theorem table_outline {π ε : Type} (register : Register) (now : Nat) (site : Site π ε) :
    register.table (site.outline now).reporter = register.table site.reporter := by
  cases register <;> rfl

theorem put_put {π ε : Type} (register : Register) (table later : IdTable String)
    (site : Site π ε) : register.put later (register.put table site) = register.put later site := by
  cases register <;> rfl

theorem outline_put (register : Register) (table : IdTable String) (now : Nat)
    (site : Site Dry Dry) : (register.put table (site.outline now)).outline 0 =
      (register.put table site).outline 0 := by
  cases register <;> rfl

/-- One access of a lookup. -/
theorem Looks.leads (looks : Looks thread register key resolving purpose draft found)
    {phase : Resolution} {table after : IdTable String}
    {moved : Lookup Resolution UInt32 UInt32} (resolved : phase.step key table = (moved, after)) :
    Leads clock (Outline.calling thread request (resolving phase) (register.put table site) asks :
        Outline δ)
      (.calling thread request (lookedUp resolving purpose draft found moved)
        (register.put after site) asks) := by
  have left : ((resolving phase).step thread
      ((register.put table site).outline (clock ⟨0, 0⟩))).state.outline 0 =
        (register.put after site).outline 0 := by
    rw [looks.state, table_outline, table_put, resolved, outline_put, put_put]
  have made := looks.result phase ((register.put table site).outline (clock ⟨0, 0⟩))
  rw [table_outline, table_put, resolved] at made
  exact leads_silently (looks.silent phase) made left

/-- A lookup leads to the id of its key. It asks for a buffer just if the key is new. -/
theorem Looks.leads_found (looks : Looks thread register key resolving purpose draft found)
    (table : IdTable String) :
    Leads clock (Outline.calling thread request (resolving .lookup) (register.put table site) asks :
        Outline δ)
      (.calling thread request (found (table.idOf key)) (register.put (table.registered key) site)
        (asks ++ if (table.find? key).isSome then []
          else [((purpose (table.idOf key)).stage, draft (table.idOf key))])) := by
  cases known : table.find? key with
  | some id =>
    have own : table.idOf key = id := IdTable.idOf_of_found known
    have same : table.registered key = table := by rw [IdTable.registered, known]; rfl
    rw [own, same, Option.isSome_some, if_pos rfl, List.append_nil]
    exact looks.leads (Resolution.step_lookup_of_found known)
  | none =>
    have own : table.idOf key = table.upcoming := IdTable.idOf_of_absent known
    rw [own, Option.isSome_none, if_neg Bool.false_ne_true]
    exact (looks.leads (Resolution.step_lookup_of_absent known)).trans <|
      (looks.leads (Resolution.step_claim_of_absent known)).trans <|
      (looks.leads Resolution.step_draw_claimed).trans <|
      (looks.leads (Resolution.step_replace_drawn known)).trans <|
        (leads_mapping (draft table.upcoming) (looks.resumes table.upcoming)).trans
          (looks.leads (Resolution.step_conclude_registered known))

end Lookups

theorem state_identifying {π ε β : Type} [Clearable β] [BufferSupply π β] [EventEncoder ε β]
    (thread : Thread) (activity : Activity String String) (entered : Timestamp)
    (phase : Identification) (site : Site π ε) :
    ((Call.identifying activity entered phase : Call β).step thread site).state =
      site.withTracked (phase.step thread site.tracked).2 := by
  simp only [Call.step]
  split <;> rfl

/-- One access of the lookup of a thread. -/
theorem leads_identified {activity : Activity String String} {entered : Timestamp}
    {phase : Identification} {found : Lookup Identification ThreadAnnouncement ThreadId}
    {before after : TrackedHost} (resolved : phase.step thread before = (found, after)) :
    Leads clock (Outline.calling thread request (.identifying activity entered phase)
        (site.withTracked before) asks : Outline δ)
      (.calling thread request (identified activity entered found) (site.withTracked after)
        asks) := by
  have clocked : phase.step thread ((site.withTracked before).outline (clock ⟨0, 0⟩)).tracked =
      (found, { tracker := after.tracker, host := { after.host with clock := clock ⟨0, 0⟩ } }) := by
    have moved := phase.step_clock thread before.tracker before.host (clock ⟨0, 0⟩)
    rw [resolved] at moved
    exact moved
  apply leads_silently rfl
  · rw [(step_identifying ..).2, clocked]
  · rw [state_identifying, clocked]
    rfl

/-- The lookup of a thread leads to the id of the thread. It asks for a buffer just if the thread
has not been announced under its name. -/
theorem leads_identifying (activity : Activity String String) (entered : Timestamp)
    (tracked : TrackedHost) :
    Leads clock (Outline.calling thread request (.identifying activity entered .readName)
        (site.withTracked tracked) asks : Outline δ)
      (.calling thread request (Call.withThread activity entered (tracked.idOf thread))
        (site.withTracked (tracked.recognized thread))
        (asks ++ if tracked.announced? thread = some (tracked.nameOf thread) then []
          else [(.thread, .threadMapping (tracked.idOf thread) (tracked.nameOf thread))])) := by
  have reads : Leads clock
      (Outline.calling thread request (.identifying activity entered .readName)
        (site.withTracked tracked) asks : Outline δ)
      (.calling thread request (.identifying activity entered (.consult (tracked.nameOf thread)))
        (site.withTracked tracked) asks) :=
    leads_identified Identification.step_readName
  by_cases told : tracked.announced? thread = some (tracked.nameOf thread)
  · rw [if_pos told, List.append_nil, TrackedHost.recognized, if_pos told]
    exact reads.trans (leads_identified (Identification.step_consult_of_told told))
  · rw [if_neg told]
    exact reads.trans <| (leads_identified (Identification.step_consult_of_untold told)).trans <|
      (leads_mapping _ rfl).trans (leads_identified (Identification.step_settle_of_untold told))

/-- The mapping that a lookup has to announce: none, if the key has an id already. -/
def mappingDue (table : IdTable String) (stage : Stage) (draft : UInt32 → String → Draft)
    (key : String) : List (Stage × Draft) :=
  if (table.find? key).isSome then [] else [(stage, draft (table.idOf key) key)]

/-- The mapping that the lookup of a thread has to announce. -/
def threadDue (tracked : TrackedHost) (thread : Thread) : List (Stage × Draft) :=
  if tracked.announced? thread = some (tracked.nameOf thread) then []
  else [(.thread, .threadMapping (tracked.idOf thread) (tracked.nameOf thread))]

/-- The mappings that a report has to announce. -/
def mappingsDue {π ε : Type} (site : Site π ε) (thread : Thread)
    (activity : Activity String String) : List (Stage × Draft) :=
  threadDue site.tracked thread ++
    mappingDue site.reporter.methods .method .methodMapping activity.method ++
    activity.raised?.toList.flatMap
      (mappingDue site.reporter.exceptions .exception .exceptionMapping)

/-- The table in which the key has an id, if there is a key. -/
def registeredAny (table : IdTable String) (key? : Option String) : IdTable String :=
  key?.elim table table.registered

/-- The site after a report. -/
def afterReport {π ε : Type} (thread : Thread) (activity : Activity String String)
    (site : Site π ε) : Site π ε :=
  Register.exceptions.put (registeredAny site.reporter.exceptions activity.raised?)
    (Register.methods.put (site.reporter.methods.registered activity.method)
      (site.withTracked (site.tracked.recognized thread)))

/-- The method of a report leads to its event, past the lookup of its exception if it has one. -/
theorem leads_withMethod {activity : Activity String String} {entered : Timestamp}
    {caller : ThreadId} {method : MethodId} (table : IdTable String) :
    Leads clock (Outline.calling thread request (Call.withMethod activity entered caller method)
        (Register.exceptions.put table site) asks : Outline δ)
      (.returned thread request
        (Register.exceptions.put (registeredAny table activity.raised?) site)
        (asks ++ activity.raised?.toList.flatMap (mappingDue table .exception .exceptionMapping) ++
          [(.answer, .activity entered caller (activity.map (fun _ => method) table.idOf))])) := by
  cases activity with
  | entry | exit =>
    rw [Activity.raised?, Option.toList_none, List.flatMap_nil, List.append_nil]
    exact leads_answering _
  | exception raised own line =>
    rw [Activity.raised?, Option.toList_some, List.flatMap_singleton]
    have looks := looks_exception thread (.exception raised own line) entered caller method raised
    exact (looks.leads_found table).trans (leads_answering _)
  | bubble raised own =>
    rw [Activity.raised?, Option.toList_some, List.flatMap_singleton]
    have looks := looks_exception thread (.bubble raised own) entered caller method raised
    exact (looks.leads_found table).trans (leads_answering _)

variable (clock thread)

/-- The course of a report. -/
theorem leads_report (activity : Activity String String) (site : Site Dry Dry) :
    Leads clock (Outline.mk { jobs := [.atSite (.request thread (.report activity))] }
        (site.outline 0) [] : Outline δ)
      (.returned thread (.report activity) (afterReport thread activity site)
        (mappingsDue site thread activity ++
          [(.answer, .activity (site.reporter.elapsed (clock ⟨0, 0⟩)) (site.tracked.idOf thread)
            (activity.map site.reporter.methods.idOf site.reporter.exceptions.idOf))])) := by
  let entered := site.reporter.elapsed (clock ⟨0, 0⟩)
  let recognized := site.withTracked (site.tracked.recognized thread)
  let named := Register.methods.put (site.reporter.methods.registered activity.method) recognized
  let request : Request := .report activity
  have starts : (Outline.mk { jobs := [.atSite (.request thread request)] } (site.outline 0) [] :
      Outline δ).advance clock = .calling thread request (.entering request) site [] := rfl
  have enters : Leads clock (Outline.calling thread request (.entering request) site [] : Outline δ)
      (.calling thread request (.identifying activity entered .readName) site []) :=
    leads_silently rfl rfl rfl
  have identifies : Leads clock
      (Outline.calling thread request (.identifying activity entered .readName) site [] : Outline δ)
      (.calling thread request (Call.withThread activity entered (site.tracked.idOf thread))
        recognized (threadDue site.tracked thread)) :=
    leads_identifying activity entered site.tracked
  have resolves : Leads clock
      (Outline.calling thread request
        (Call.withThread activity entered (site.tracked.idOf thread))
        (Register.methods.put site.reporter.methods recognized) (threadDue site.tracked thread) :
          Outline δ)
      (.calling thread request (Call.withMethod activity entered (site.tracked.idOf thread)
          (site.reporter.methods.idOf activity.method)) named
        (threadDue site.tracked thread ++
          mappingDue site.reporter.methods .method .methodMapping activity.method)) :=
    (looks_method ..).leads_found site.reporter.methods
  have answers : Leads clock
      (Outline.calling thread request (Call.withMethod activity entered (site.tracked.idOf thread)
          (site.reporter.methods.idOf activity.method))
        (Register.exceptions.put site.reporter.exceptions named)
        (threadDue site.tracked thread ++
          mappingDue site.reporter.methods .method .methodMapping activity.method) : Outline δ) _ :=
    leads_withMethod site.reporter.exceptions
  have same : activity.map (fun _ => site.reporter.methods.idOf activity.method)
      site.reporter.exceptions.idOf =
        activity.map site.reporter.methods.idOf site.reporter.exceptions.idOf := by
    cases activity <;> rfl
  rw [same] at answers
  exact Leads.head starts <| enters.trans <| identifies.trans <| resolves.trans answers

/-- The course of a marker. -/
theorem leads_marker (key value : String) (site : Site Dry Dry) :
    ∃ entered, Leads clock (Outline.mk { jobs := [.atSite (.request thread (.marker key value))] }
        (site.outline 0) [] : Outline δ)
      (.returned thread (.marker key value) site [(.answer, .marker entered key value)]) := by
  have starts : (Outline.mk { jobs := [.atSite (.request thread (.marker key value))] }
      (site.outline 0) [] : Outline δ).advance clock =
        .calling thread (.marker key value) (.entering (.marker key value)) site [] := rfl
  let entered := (site.outline (clock ⟨0, 0⟩)).reporter.elapsed (clock ⟨0, 0⟩)
  have enters : Leads clock
      (Outline.calling thread (.marker key value) (.entering (.marker key value)) site [] :
        Outline δ)
      (.calling thread (.marker key value) (Call.answering (.marker entered key value)) site []) :=
    leads_silently rfl rfl rfl
  exact ⟨entered, Leads.head starts (enters.trans (leads_answering _))⟩

end OpenSite

end TraceRelay
