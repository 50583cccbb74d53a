import TraceRelay.Proofs.Stream.Sequential
import TraceRelay.Proofs.Stream.Shipments

/-! The ids in an event have been announced for the texts that its call was asked to report. -/

namespace TraceRelay

/-- The id by which a table of ids is used in an activity. -/
def Register.id? (register : Register) (act : Activity MethodId ExceptionId) : Option UInt32 :=
  match register with
  | .methods => some act.method
  | .exceptions => act.raised?

/-- The activity in ids is the one in texts, with an id in the place of each text that the text
holds. -/
def Activity.Encodes (holds : Register → String → UInt32 → Prop)
    (activity : Activity String String) (act : Activity MethodId ExceptionId) : Prop :=
  ∃ method raised, act = activity.map (fun _ => method) (fun _ => raised) ∧
    holds .methods activity.method method ∧
    ∀ text, activity.raised? = some text → holds .exceptions text raised

theorem Activity.Encodes.mono {holds after : Register → String → UInt32 → Prop}
    {activity : Activity String String} {act : Activity MethodId ExceptionId}
    (encodes : activity.Encodes holds act)
    (grown : ∀ register text id, holds register text id → after register text id) :
    activity.Encodes after act := by
  obtain ⟨method, raised, same, named, raises⟩ := encodes
  exact ⟨method, raised, same, grown _ _ _ named,
    fun text found => grown _ _ _ (raises text found)⟩

/-- Each id that is used is one that a text of the activity holds. -/
theorem Activity.Encodes.exists_name {holds : Register → String → UInt32 → Prop}
    {activity : Activity String String} {act : Activity MethodId ExceptionId}
    (encodes : activity.Encodes holds act) {register : Register} {id : UInt32}
    (used : register.id? act = some id) :
    ∃ text, register.names? activity = some text ∧ holds register text id := by
  obtain ⟨method, raised, rfl, named, raises⟩ := encodes
  cases register with
  | methods =>
    simp only [Register.id?, method_map, Option.some.injEq] at used
    subst used
    exact ⟨activity.method, rfl, named⟩
  | exceptions =>
    simp only [Register.id?, raised?_map, Option.map_eq_some_iff] at used
    obtain ⟨text, found, rfl⟩ := used
    exact ⟨text, found, raises text found⟩

namespace OpenSite

variable {π ε β δ : Type} {holds after : Register → String → UInt32 → Prop}
  {written : Stage → Option Event} {request : Request} {draft : Draft} {purpose : Purpose}

/-- The draft of a call's own event is what the call was asked to report, in ids that the texts
hold. -/
def Fulfils (holds : Register → String → UInt32 → Prop) (request : Request) : Draft → Prop
  | .activity _ _ act => ∃ activity, request = .report activity ∧ activity.Encodes holds act
  | .marker _ key value => request = .marker key value
  | _ => False

/-- The draft is what a delivery with the given purpose has to carry on behalf of the request. -/
def Suits (holds : Register → String → UInt32 → Prop) (request : Request) (draft : Draft) :
    Purpose → Prop
  | .announceThread activity _ announcement =>
    request = .report activity ∧ draft = .threadMapping announcement.id announcement.name
  | .announceMethod activity _ _ id =>
    request = .report activity ∧ draft = .methodMapping id activity.method
  | .announceException activity _ _ method raised id =>
    request = .report activity ∧ holds .methods activity.method method ∧
      activity.raised? = some raised ∧ draft = .exceptionMapping id raised
  | .answer => Fulfils holds request draft

/-- A call in progress has not lost track of its request, and the ids that it has found are held by
the texts of the request. -/
def Tracks (holds : Register → String → UInt32 → Prop) (written : Stage → Option Event)
    (request : Request) : Call β → Prop
  | .entering wanted => wanted = request
  | .identifying activity _ _ => request = .report activity
  | .resolvingMethod activity _ _ _ => request = .report activity
  | .resolvingException activity _ _ method raised _ =>
    request = .report activity ∧ holds .methods activity.method method ∧
      activity.raised? = some raised
  | .delivering purpose delivery =>
    ∃ draft, Suits holds request draft purpose ∧ delivery.Carries (written purpose.stage) draft

theorem Suits.mono (suits : Suits holds request draft purpose)
    (grown : ∀ register text id, holds register text id → after register text id) :
    Suits after request draft purpose := by
  cases purpose with
  | announceThread | announceMethod => exact suits
  | announceException activity entered caller method raised id =>
    obtain ⟨asked, named, rest⟩ := suits
    exact ⟨asked, grown _ _ _ named, rest⟩
  | answer =>
    cases draft with
    | methodMapping | exceptionMapping | threadMapping => exact suits.elim
    | marker => exact suits
    | activity entered caller act =>
      obtain ⟨activity, asked, encodes⟩ := suits
      exact ⟨activity, asked, encodes.mono grown⟩

theorem Tracks.mono {call : Call β} (tracks : Tracks holds written request call)
    (grown : ∀ register text id, holds register text id → after register text id) :
    Tracks after written request call := by
  cases call with
  | entering | identifying | resolvingMethod => exact tracks
  | resolvingException activity entered caller method raised phase =>
    obtain ⟨asked, named, raises⟩ := tracks
    exact ⟨asked, grown _ _ _ named, raises⟩
  | delivering purpose delivery =>
    obtain ⟨draft, suits, carries⟩ := tracks
    exact ⟨draft, suits.mono grown, carries⟩

theorem tracks_enter (reports : request.isReport = true) (entered : Timestamp) :
    Tracks holds written request (Call.enter entered request : Call β) := by
  cases request with
  | mapMethod | mapException | mapThread => cases reports
  | report activity => rfl
  | marker key value => exact ⟨.marker entered key value, rfl, rfl⟩

theorem tracks_withMethod {activity : Activity String String} (entered : Timestamp)
    (caller : ThreadId) {method : MethodId} (asked : request = .report activity)
    (named : holds .methods activity.method method) :
    Tracks holds written request (Call.withMethod activity entered caller method : Call β) := by
  cases activity with
  | entry signature =>
    exact ⟨.activity entered caller (.entry method),
      ⟨_, asked, method, 0, rfl, named, nofun⟩, rfl⟩
  | exit signature line =>
    exact ⟨.activity entered caller (.exit method line),
      ⟨_, asked, method, 0, rfl, named, nofun⟩, rfl⟩
  | exception | bubble => exact ⟨asked, named, rfl⟩

theorem tracks_withIds {activity : Activity String String} (entered : Timestamp)
    (caller : ThreadId) {method : MethodId} {raised : String} {id : ExceptionId}
    (asked : request = .report activity) (named : holds .methods activity.method method)
    (raises : activity.raised? = some raised) (found : holds .exceptions raised id) :
    Tracks holds written request (Call.withIds activity entered caller method id : Call β) := by
  refine ⟨.activity entered caller (activity.map (fun _ => method) fun _ => id),
    ⟨activity, asked, method, id, rfl, named, ?_⟩, rfl⟩
  intro text same
  rw [raises] at same
  cases same
  exact found

theorem tracks_resume {next : Call β} (suits : Suits holds request draft purpose)
    (goesOn : Call.resume purpose = .continues next) : Tracks holds written request next := by
  cases purpose with
  | announceThread | announceMethod =>
    cases goesOn
    exact suits.1
  | announceException activity entered caller method raised id =>
    cases goesOn
    exact ⟨suits.1, suits.2.1, suits.2.2.1⟩
  | answer => cases goesOn

variable [Clearable β] [BufferSupply π β] [EventEncoder ε β] {obeys : δ → π × ε → π × ε}
  {past : List (SiteAccess π ε β δ)} {access : SiteAccess π ε β δ} {siteJob : Site.Job}
  {thread : Thread} {call next : Call β}

/-- A delivery leads its call on or carries its draft on. -/
theorem tracks_delivering {delivery : Delivery β}
    (calling : access.phase = .atSite siteJob (.calling thread (.delivering purpose delivery)))
    (tracks : Tracks holds (fun stage => (chronicle past).written ⟨access.turn, stage⟩) request
      (.delivering purpose delivery))
    (goesOn : ((Call.delivering purpose delivery).step thread access.before).result =
      .continues next) :
    Tracks holds (fun stage => (chronicle (past ++ [access])).written ⟨access.turn, stage⟩) request
      next := by
  obtain ⟨draft, suits, carries⟩ := tracks
  rcases carries_delivering calling carries goesOn with ⟨later, rfl, -, carried⟩ | ⟨resumes, -⟩
  · exact ⟨draft, suits, carried⟩
  · exact tracks_resume suits resumes

/-- A call keeps track of its request with each of its accesses, if each lookup that ends has found
an id that its text holds. -/
theorem Tracks.step
    (tracks : Tracks holds (fun stage => (chronicle past).written ⟨access.turn, stage⟩) request
      call)
    (reports : request.isReport = true)
    (calling : access.phase = .atSite siteJob (.calling thread call))
    (returned : ∀ (register : Register) key phase id table,
      register.inquiry? call = some (key, .resolving phase) →
      phase.step key (register.table access.before.reporter) = (.returns id, table) →
      holds register key id)
    (goesOn : (call.step thread access.before).result = .continues next) :
    Tracks holds (fun stage => (chronicle (past ++ [access])).written ⟨access.turn, stage⟩) request
      next := by
  cases call with
  | entering wanted =>
    have same : wanted = request := tracks
    subst same
    cases goesOn
    exact tracks_enter reports _
  | identifying activity entered phase =>
    rw [(step_identifying thread activity entered phase access.before).2] at goesOn
    cases goesOn
    cases (phase.step thread access.before.tracked).1 with
    | continues phase => exact tracks
    | announces announcement => exact ⟨_, ⟨tracks, rfl⟩, rfl⟩
    | returns id => exact tracks
  | resolvingMethod activity entered caller phase =>
    rw [(step_resolvingMethod thread activity entered caller phase access.before).2] at goesOn
    cases goesOn
    cases resolved : phase.step activity.method access.before.reporter.methods with
    | mk found table =>
      cases found with
      | continues phase => exact tracks
      | announces id => exact ⟨_, ⟨tracks, rfl⟩, rfl⟩
      | returns id =>
        exact tracks_withMethod entered caller tracks (returned .methods _ _ _ _ rfl resolved)
  | resolvingException activity entered caller method raised phase =>
    rw [(step_resolvingException thread activity entered caller method raised phase
      access.before).2] at goesOn
    cases goesOn
    obtain ⟨asked, named, raises⟩ := tracks
    cases resolved : phase.step raised access.before.reporter.exceptions with
    | mk found table =>
      cases found with
      | continues phase => exact ⟨asked, named, raises⟩
      | announces id => exact ⟨_, ⟨asked, named, raises, rfl⟩, rfl⟩
      | returns id =>
        exact tracks_withIds entered caller asked named raises
          (returned .exceptions _ _ _ _ rfl resolved)
  | delivering purpose delivery => exact tracks_delivering calling tracks goesOn

omit [Clearable β] [BufferSupply π β] [EventEncoder ε β] in
theorem drawn_le (register : Register) (earlier later : List (SiteAccess π ε β δ)) :
    drawn register earlier ≤ drawn register (earlier ++ later) := by
  simp [drawn]

/-- Accesses have given the id to the text. -/
def Given (past : List (SiteAccess π ε β δ)) (register : Register) (text : String)
    (id : UInt32) : Prop :=
  (text, id) ∈ announced register past

omit [Clearable β] [BufferSupply π β] [EventEncoder ε β] in
theorem Given.mono {register : Register} {text : String} {id : UInt32}
    (given : Given past register text id) (later : List (SiteAccess π ε β δ)) :
    Given (past ++ later) register text id := by
  unfold Given announced
  rw [List.filterMap_append]
  exact List.mem_append_left _ given

section Runs

variable (obeys) (site : Site π ε) (new : ∀ register : Register, register.table site.reporter = {})
  (work : List (List (Job δ))) (reports : ∀ jobs ∈ work, ∀ job ∈ jobs, job.isReport = true)
  (schedule : List Nat)
  (few : ∀ register, drawn register
    ((Interleaving.fresh site work).accesses (procedure obeys) schedule) < 2 ^ 32)
  {earlier later : List (SiteAccess π ε β δ)}

include new few in
/-- A lookup that returns an id returns one that has been given to its text. -/
theorem given_of_returns
    (same : (Interleaving.fresh site work).accesses (procedure obeys) schedule =
      earlier ++ access :: later)
    (calling : access.phase.call? = some call) {register : Register} {key : String}
    {phase : Resolution} {id : UInt32} {table : IdTable String}
    (own : register.inquiry? call = some (key, .resolving phase))
    (resolved : phase.step key (register.table access.before.reporter) = (.returns id, table)) :
    Given earlier register key id := by
  have inquires : access.phase.inquiry? register = some (key, .resolving phase) := by
    rw [Phase.inquiry?, calling, Option.bind_some, own]
  have room : drawn register earlier + phase.draws < 2 ^ 32 := by
    have within := drawn_le register (earlier ++ [access]) later
    have all := few register
    rw [← List.append_cons, ← same] at within
    rw [drawn_concat, inquires] at within
    exact Nat.lt_of_le_of_lt within all
  obtain ⟨first, number, rest, strand, -, before, makes, -, -⟩ :=
    Interleaving.exists_makes (procedure obeys) _ schedule earlier later access same
  have consistent := consistent_run register site (new register) work first (by
    rw [before]
    omega)
  obtain ⟨front, back, underway, -⟩ := makes.underway
  rw [before, underway, ← makes.before] at consistent
  simp only [List.filterMap_append, filterMap_singleton, Access.engagement, inquires,
    Option.toList_some] at consistent
  exact (consistent.find?_iff key id).mp (Inquiry.found_of_returns resolved room consistent)

include new few reports in
/-- Every call keeps track of its request in every run of reports. -/
theorem tracks_run
    (same : (Interleaving.fresh site work).accesses (procedure obeys) schedule =
      earlier ++ access :: later)
    (calling : access.phase.call? = some call) : ∃ caller request,
      access.job = .atSite (.request caller request) ∧ Tracks (Given earlier)
        (fun stage => (chronicle earlier).written ⟨access.turn, stage⟩) request call := by
  have kept := (Interleaving.underway_induction (motive := fun past engagement => ∀ later,
    (Interleaving.fresh site work).accesses (procedure obeys) schedule = past ++ later →
    engagement.job.isReport = true → ∀ call, engagement.phase.call? = some call →
    ∃ caller request, engagement.job = .atSite (.request caller request) ∧ Tracks (Given past)
      (fun stage => (chronicle past).written ⟨engagement.turn, stage⟩) request call)
    (procedure obeys) site work ?_ ?_ ?_ schedule).2 earlier access later same
  · have made : access ∈ (Interleaving.fresh site work).accesses (procedure obeys) schedule :=
      same ▸ List.mem_append_right _ List.mem_cons_self
    obtain ⟨jobs, listed, inside⟩ :=
      Interleaving.mem_work_of_accesses (procedure obeys) site work schedule made
    exact kept _ same (reports jobs (List.mem_of_getElem? listed) _ inside) call calling
  · intro past turn job silent later split reporting call calling
    cases job with
    | order wanted => cases calling
    | atSite siteJob =>
      cases siteJob with
      | change wanted => cases calling
      | request caller wanted =>
        cases calling
        exact ⟨caller, wanted, rfl, rfl⟩
  · intro past other engagement different kept later split reporting call calling
    obtain ⟨caller, request, job, tracks⟩ :=
      kept (other :: later) (by simpa using split) reporting call calling
    refine ⟨caller, request, job, ?_⟩
    simp only [written_other past different]
    exact tracks.mono fun _ _ _ given => given.mono [other]
  · rintro past ⟨turn, job, phase, found, moved, left⟩ next made goesOn kept later split
      reporting call calling
    have before := split.trans (List.append_cons past _ later).symm
    simp only at made
    cases happens_of_step made with
    | ends | changes | obeys => cases goesOn
    | goesOn siteJob thread stepping next stepped =>
      cases goesOn
      cases calling
      obtain ⟨caller, request, rfl, tracks⟩ := kept _ before reporting _ rfl
      refine ⟨caller, request, rfl, ?_⟩
      refine (tracks.mono fun _ _ _ given => given.mono [_]).step reporting rfl ?_ stepped
      intro register key phase id table resolves resolved
      exact (given_of_returns obeys site new work schedule few before rfl resolves resolved).mono _

include new few reports in
/-- A delivery that ships its event ships what suits the request of its call. -/
theorem shipment_of_ends {purpose : Purpose}
    (made : access ∈ (Interleaving.fresh site work).accesses (procedure obeys) schedule)
    (ends : ends? access = some (purpose, true)) : ∃ caller request draft event,
      access.job = .atSite (.request caller request) ∧
        Suits (Given ((Interleaving.fresh site work).accesses (procedure obeys) schedule)) request
          draft purpose ∧ draft.Becomes event ∧
        (chronicle ((Interleaving.fresh site work).accesses (procedure obeys)
          schedule)).shipment? access =
            some { id := ⟨access.turn, purpose.stage⟩, job := access.job, event } := by
  obtain ⟨earlier, later, same⟩ := List.append_of_mem made
  obtain ⟨left, returning, -⟩ := ends?_eq_shipped.mp ends
  obtain ⟨siteJob, thread, delivering⟩ := calling_of_delivery returning
  have calling : access.phase.call? =
      some (.delivering purpose (.returning (.returned ()) left)) := by
    rw [delivering, Phase.call?]
  obtain ⟨caller, request, job, draft, suits, event, written, becomes⟩ :=
    tracks_run obeys site new work reports schedule few same calling
  obtain ⟨write, before, buffer, writes⟩ := exists_write_of_written written
  have kept := written_of_writes (wrote_nodup obeys site work schedule)
    (same ▸ List.mem_append_left _ before) writes
  have delivers := delivers?_iff_ends.mpr ⟨purpose, ends, rfl⟩
  refine ⟨caller, request, draft, event, job, suits.mono ?_, becomes, ?_⟩
  · rw [same]
    exact fun _ _ _ given => given.mono _
  · rw [Chronicle.shipment?, delivers, Option.bind_some, kept, Option.map_some]

include new few reports in
/-- Every shipment carries what suits the request of its call. -/
theorem exists_suits {shipment : Shipment δ} (member : shipment ∈ shipments
      ((Interleaving.fresh site work).accesses (procedure obeys) schedule)) :
    ∃ caller request draft purpose, shipment.job = .atSite (.request caller request) ∧
      Suits (Given ((Interleaving.fresh site work).accesses (procedure obeys) schedule)) request
        draft purpose ∧ draft.Becomes shipment.event := by
  obtain ⟨access, made, ships⟩ := List.mem_filterMap.mp member
  obtain ⟨id, delivers, -⟩ := Option.bind_eq_some_iff.mp ships
  obtain ⟨purpose, ends, -⟩ := delivers?_iff_ends.mp delivers
  obtain ⟨caller, request, draft, event, job, suits, becomes, own⟩ :=
    shipment_of_ends obeys site new work reports schedule few made ends
  cases ships.symm.trans own
  exact ⟨caller, request, draft, purpose, job, suits, becomes⟩

end Runs

end OpenSite

end TraceRelay
