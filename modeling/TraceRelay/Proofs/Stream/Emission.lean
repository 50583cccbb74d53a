import TraceRelay.Proofs.Reporting.Lookups
import TraceRelay.Proofs.Stream.Reading
import TraceRelay.Proofs.Stream.Series
import TraceRelay.Proofs.Threads.Announced
import TraceRelay.Recording.Directive

/-! A call that meets no failure ships its own event and the mappings still missing before it. -/

namespace TraceRelay.OpenSite

/-- A request that a thread makes on its own, the quiet jobs beside it, and the schedule. -/
structure SoleCall (δ : Type) where
  thread : Thread
  request : Request
  others : List (List (Job δ)) := []
  schedule : List Nat

section Completion

/-- Unsequenced drafts are completed without a draw. -/
theorem completeAll_append_unsequenced (current : DeliveryId → Timestamp) (numbering : Numbering)
    (mappings later : List (DeliveryId × Draft))
    (unsequenced : ∀ entry ∈ mappings, entry.2.isSequenced = false) :
    completeAll current numbering (mappings ++ later) =
      (mappings.map (fun entry => (entry.1, (entry.2.complete (current entry.1) {}).1)) ++
        (completeAll current numbering later).1, (completeAll current numbering later).2) := by
  induction mappings with
  | nil => rfl
  | cons entry rest ih =>
    have rest := ih fun other member => unsequenced other (List.mem_cons_of_mem _ member)
    have own := unsequenced entry List.mem_cons_self
    obtain ⟨id, draft⟩ := entry
    cases draft with
    | methodMapping | exceptionMapping | threadMapping =>
      simp only [List.cons_append, completeAll, Draft.complete, rest, List.map_cons]
    | activity | marker => cases own

end Completion

namespace SoleCall

variable {π ε β δ : Type} [Clearable β] [BufferSupply π β] [EventEncoder ε β]

/-- The call is made on the first strand. -/
def initial (call : SoleCall δ) (site : Site π ε) : Traffic π ε β δ :=
  .fresh site ([.atSite (.request call.thread call.request)] :: call.others)

/-- The accesses of the call and of the quiet jobs. -/
def accesses (obeys : δ → π × ε → π × ε) (site : Site π ε) (call : SoleCall δ) :
    List (SiteAccess π ε β δ) :=
  (call.initial site).accesses (procedure obeys) call.schedule

/-- What the call and the quiet jobs lead to. -/
def final (obeys : δ → π × ε → π × ε) (site : Site π ε) (call : SoleCall δ) : Traffic π ε β δ :=
  (call.initial site).run (procedure obeys) call.schedule

/-- The other strands are quiet, the first one has turns enough, no delivery meets an error or a
panic, and each gets a buffer. -/
structure Succeeds (obeys : δ → π × ε → π × ε) (site : Site π ε) (call : SoleCall δ) : Prop where
  quiet : ∀ jobs ∈ call.others, ∀ job ∈ jobs, job.isQuiet = true
  enough : 31 ≤ call.schedule.count 0
  smooth : ∀ access ∈ call.accesses obeys site, Smooth access
  served : ∀ access ∈ call.accesses obeys site,
    (asks? access).isSome = true → (obtains? access).isSome = true

/-- The call ends, and returns. -/
def Returns (obeys : δ → π × ε → π × ε) (site : Site π ε) (call : SoleCall δ) : Prop :=
  ∃ strand, (call.final obeys site).strands[0]? = some strand ∧ strand.isDone = true ∧
    strand.results = [(.atSite (.request call.thread call.request), some (.returned ()))]

variable {obeys : δ → π × ε → π × ε} {site : Site π ε} {call : SoleCall δ}

/-- The accesses of a call that succeeds are undisturbed, whatever the clock shows. -/
theorem Succeeds.exists_undisturbed (succeeds : call.Succeeds obeys site) :
    ∃ clock, Undisturbed clock (call.accesses obeys site) := by
  obtain ⟨clock, steady⟩ := exists_clock obeys site
    ([.atSite (.request call.thread call.request)] :: call.others) call.schedule
  exact ⟨clock, undisturbed_run obeys site _ succeeds.quiet call.schedule succeeds.smooth steady⟩

/-- The call ends where its course leads, and ships the events of all the drafts on its course. -/
theorem Succeeds.concludes (succeeds : call.Succeeds obeys site)
    {clock : Turn → Option Stage → Nat}
    (undisturbed : Undisturbed clock (call.accesses obeys site)) {after : Site Dry Dry}
    {asks : List (Stage × Draft)}
    (leads : Leads (fun turn => clock turn none)
      (Outline.mk { jobs := [.atSite (.request call.thread call.request)] } (site.outline 0) [] :
        Outline δ)
      (.returned call.thread call.request after asks)) :
    call.Returns obeys site ∧ (call.final obeys site).shared.outline 0 = after.outline 0 ∧
    completeAll (timeAt clock site.reporter.createdAt) site.reporter.numbering
        (asks.map fun entry => (⟨⟨0, 0⟩, entry.1⟩, entry.2)) =
      (delivered (call.accesses obeys site),
        (call.final obeys site).shared.reporter.numbering) := by
  obtain ⟨strand, found, done, ended, left, completed⟩ :=
    OpenSite.concludes undisturbed succeeds.served succeeds.enough leads rfl rfl rfl
  refine ⟨⟨strand, found, done, ?_⟩, left, completed⟩
  rw [Strand.results, ended]
  rfl

end SoleCall

/-- The events of the mappings that a report has to announce. -/
theorem events_mappingsDue {π ε : Type} (current : DeliveryId → Timestamp) (turn : Turn)
    (site : Site π ε) (thread : Thread) (activity : Activity String String) :
    (mappingsDue site thread activity).map
        (fun entry => (entry.2.complete (current ⟨turn, entry.1⟩) {}).1) =
      (if site.tracked.announced? thread = some (site.tracked.nameOf thread) then []
        else [.threadMapping (site.tracked.idOf thread) (current ⟨turn, .thread⟩)
          (site.tracked.nameOf thread)]) ++
      (if (site.reporter.methods.find? activity.method).isSome then []
        else [.methodMapping (site.reporter.methods.idOf activity.method) activity.method]) ++
      activity.raised?.toList.flatMap fun raised =>
        if (site.reporter.exceptions.find? raised).isSome then []
        else [.exceptionMapping (site.reporter.exceptions.idOf raised) raised] := by
  rw [mappingsDue, List.map_append, List.map_append, List.map_flatMap]
  congr 1
  · congr 1
    · rw [threadDue]
      split <;> rfl
    · rw [mappingDue]
      split <;> rfl
  · apply List.flatMap_congr
    intro raised _
    rw [mappingDue]
    split <;> rfl

/-- The same, where it is known which name the thread has last been announced under, and which keys
have ids. -/
theorem events_mappingsDue_of_known {π ε : Type} (current : DeliveryId → Timestamp) (turn : Turn)
    {site : Site π ε} {thread : Thread} {named? : Option String}
    {known : Register → List String}
    (told : site.tracked.announced? thread = named?)
    (settled : ∀ register : Register, ∀ key,
      ((register.table site.reporter).find? key).isSome ↔ key ∈ known register)
    (activity : Activity String String) :
    (mappingsDue site thread activity).map
        (fun entry => (entry.2.complete (current ⟨turn, entry.1⟩) {}).1) =
      (if named? = some (site.tracked.nameOf thread) then []
        else [.threadMapping (site.tracked.idOf thread) (current ⟨turn, .thread⟩)
          (site.tracked.nameOf thread)]) ++
      (if activity.method ∈ known .methods then []
        else [.methodMapping (site.reporter.methods.idOf activity.method) activity.method]) ++
      activity.raised?.toList.flatMap fun raised =>
        if raised ∈ known .exceptions then []
        else [.exceptionMapping (site.reporter.exceptions.idOf raised) raised] := by
  have methods : (site.reporter.methods.find? activity.method).isSome = true ↔
      activity.method ∈ known .methods := settled .methods activity.method
  rw [events_mappingsDue, told, if_congr methods rfl rfl]
  congr 1
  exact List.flatMap_congr fun raised _ => if_congr (settled .exceptions raised) rfl rfl

theorem unsequenced_of_due {π ε : Type} {site : Site π ε} {thread : Thread}
    {activity : Activity String String} {entry : Stage × Draft}
    (due : entry ∈ mappingsDue site thread activity) : entry.2.isSequenced = false := by
  simp only [mappingsDue, List.mem_append, List.mem_flatMap] at due
  rcases due with (thread | method) | ⟨raised, _, exception⟩
  · rw [threadDue] at thread
    split at thread <;> simp at thread
    rw [thread]
    rfl
  · rw [mappingDue] at method
    split at method <;> simp at method
    rw [method]
    rfl
  · rw [mappingDue] at exception
    split at exception <;> simp at exception
    rw [exception]
    rfl

/-- The key that a report looks up in a table. -/
def keyOf? (activity : Activity String String) : Register → Option String
  | .methods => some activity.method
  | .exceptions => activity.raised?

theorem table_afterReport {π ε : Type} (register : Register) (thread : Thread)
    (activity : Activity String String) (site : Site π ε) :
    register.table (afterReport thread activity site).reporter =
      registeredAny (register.table site.reporter) (keyOf? activity register) := by
  cases register <;> rfl

/-- A counter of ids that has not run over has not come back to the mark of pending keys. -/
theorem upcoming_ne_pending {table : IdTable String} {draws : Nat}
    (upcoming : table.upcoming = UInt32.ofNat (draws + 1)) (few : draws + 1 < 2 ^ 32) :
    table.upcoming ≠ IdTable.pending := by
  intro zero
  have value := congrArg UInt32.toNat (upcoming.symm.trans zero)
  rw [UInt32.toNat_ofNat_of_lt' few] at value
  cases value

theorem find?_registeredAny {table : IdTable String} (room : table.upcoming ≠ IdTable.pending)
    (key? : Option String) (key : String) :
    (registeredAny table key?).find? key =
      if key? = some key then some (table.idOf key) else table.find? key := by
  cases key? with
  | none => rfl
  | some own =>
    change (table.registered own).find? key = _
    rw [IdTable.find?_registered room]
    by_cases same : own = key
    · simp [same]
    · simp [same, Ne.symm same]

variable {π ε β δ : Type} [Clearable β] [BufferSupply π β] [EventEncoder ε β]

/-- The stream of a call is what its course makes of its drafts. -/
theorem SoleCall.stream_eq {obeys : δ → π × ε → π × ε} {site : Site π ε} {call : SoleCall δ}
    {completed : List (DeliveryId × Event)}
    (delivers : delivered (call.accesses obeys site) = completed) :
    (chronicle (call.accesses obeys site)).stream = completed.map Prod.snd := by
  rw [← delivers]
  exact (map_snd_delivered obeys site _ call.schedule).symm

/-- A report that succeeds ships the mappings that are due, and its own event. -/
theorem SoleCall.Succeeds.reports {obeys : δ → π × ε → π × ε} {site : Site π ε} {call : SoleCall δ}
    (succeeds : call.Succeeds obeys site) {activity : Activity String String}
    (asks : call.request = .report activity) :
    call.Returns obeys site ∧
    (call.final obeys site).shared.outline 0 =
      (afterReport call.thread activity (site.outline 0)).outline 0 ∧
    (call.final obeys site).shared.reporter.numbering = site.reporter.numbering.draw.2 ∧
    ∃ entered, ∃ current : DeliveryId → Timestamp,
      (chronicle (call.accesses obeys site)).stream =
        (mappingsDue site call.thread activity).map
          (fun entry => (entry.2.complete (current ⟨⟨0, 0⟩, entry.1⟩) {}).1) ++
        [.activity ⟨entered, site.reporter.upcomingNumber⟩ (site.tracked.idOf call.thread)
          (activity.map site.reporter.methods.idOf site.reporter.exceptions.idOf)] := by
  obtain ⟨clock, undisturbed⟩ := succeeds.exists_undisturbed
  have leads := leads_report (δ := δ) (fun turn => clock turn none) call.thread activity
    (site.outline 0)
  rw [← asks] at leads
  obtain ⟨returns, left, completed⟩ := succeeds.concludes undisturbed leads
  rw [List.map_append, completeAll_append_unsequenced] at completed
  · refine ⟨returns, left, (congrArg Prod.snd completed).symm,
      site.reporter.elapsed (clock ⟨0, 0⟩ none), timeAt clock site.reporter.createdAt, ?_⟩
    rw [stream_eq (congrArg Prod.fst completed).symm, List.map_append, List.map_map, List.map_map]
    rfl
  · intro entry member
    obtain ⟨own, due, rfl⟩ := List.mem_map.mp member
    exact unsequenced_of_due due

/-- A marker that succeeds ships its own event. -/
theorem SoleCall.Succeeds.marks {obeys : δ → π × ε → π × ε} {site : Site π ε} {call : SoleCall δ}
    (succeeds : call.Succeeds obeys site) {key value : String}
    (asks : call.request = .marker key value) :
    call.Returns obeys site ∧
    (call.final obeys site).shared.outline 0 = site.outline 0 ∧
    (call.final obeys site).shared.reporter.numbering = site.reporter.numbering.draw.2 ∧
    ∃ entered, (chronicle (call.accesses obeys site)).stream =
      [.marker ⟨entered, site.reporter.upcomingNumber⟩ key value] := by
  obtain ⟨clock, undisturbed⟩ := succeeds.exists_undisturbed
  obtain ⟨entered, leads⟩ := leads_marker (δ := δ) (fun turn => clock turn none) call.thread
    key value (site.outline 0)
  rw [← asks] at leads
  obtain ⟨returns, left, completed⟩ := succeeds.concludes undisturbed leads
  refine ⟨returns, left, (congrArg Prod.snd completed).symm, entered, ?_⟩
  rw [stream_eq (congrArg Prod.fst completed).symm]
  rfl

/-- A call that meets no failure itself, made while no other one is in progress, ships the mappings
that no earlier call has seen to and then its own event with the number that was upcoming. -/
theorem emission_exact (obeys : δ → π × ε → π × ε) (site : Site π ε)
    (new : ∀ register : Register, register.table site.reporter = {})
    (unenrolled : site.reporter.tracker.upcoming = 0)
    (without : ∀ thread, site.tracked.memo? thread = none)
    (work : List (List (Job δ))) (schedule : List Nat)
    (few : ∀ register, drawn register
      ((Interleaving.fresh site work).accesses (procedure obeys) schedule) + 1 < 2 ^ 32)
    (rests : Rests ((Interleaving.fresh site work).run (procedure obeys) schedule :
      Traffic π ε β δ))
    (call : SoleCall δ)
    (reports : call.request.isReport = true)
    (lives : call.thread ∉ departed
      ((Interleaving.fresh site work).accesses (procedure obeys) schedule))
    (succeeds : call.Succeeds obeys
      ((Interleaving.fresh site work).run (procedure obeys) schedule).shared) :
    let past := (Interleaving.fresh site work).accesses (procedure obeys) schedule
    let before := ((Interleaving.fresh site work).run (procedure obeys) schedule).shared
    let stream := (chronicle (call.accesses obeys before)).stream
    let after := (call.final obeys before).shared
    let number := before.reporter.upcomingNumber
    let caller := before.tracked.idOf call.thread
    let name := before.tracked.nameOf call.thread
    let idOf (register : Register) := (register.table before.reporter).idOf
    (∃ strand, (call.final obeys before).strands[0]? = some strand ∧ strand.isDone = true ∧
      strand.results = [(.atSite (.request call.thread call.request), some (.returned ()))]) ∧
    (∀ activity, call.request = .report activity →
      (∃ entered told, stream =
        (if announcedName? call.thread past = some name then []
          else [.threadMapping caller told name]) ++
        (if activity.method ∈ sought .methods past then []
          else [.methodMapping (idOf .methods activity.method) activity.method]) ++
        (activity.raised?.toList.flatMap fun raised =>
          if raised ∈ sought .exceptions past then []
          else [.exceptionMapping (idOf .exceptions raised) raised]) ++
        [.activity ⟨entered, number⟩ caller
          (activity.map (idOf .methods) (idOf .exceptions))]) ∧
      (∀ register key, (register.table after.reporter).find? key =
        if keyOf? activity register = some key then some (idOf register key)
        else (register.table before.reporter).find? key) ∧
      (∀ thread, after.tracked.memo? thread =
        if thread = call.thread then some { id := caller, announced := some name }
        else before.tracked.memo? thread)) ∧
    (∀ key value, call.request = .marker key value →
      (∃ entered, stream = [.marker ⟨entered, number⟩ key value]) ∧
      (∀ register : Register,
        register.table after.reporter = register.table before.reporter) ∧
      ∀ thread, after.tracked.memo? thread = before.tracked.memo? thread) ∧
    after.reporter.upcomingNumber = number + 1 ∧
    (∀ register key, key ∉ sought register past →
      idOf register key = UInt32.ofNat (drawn register past + 1)) ∧
    ∀ access ∈ call.accesses obeys before, Supplied obeys access := by
  intro past before stream after number caller name idOf
  have fewer (register : Register) : drawn register past < 2 ^ 32 :=
    Nat.lt_of_succ_lt (few register)
  have settled (register : Register) (key : String) :=
    settled_of_rests register obeys site (new register) work schedule (fewer register) rests key
  have upcoming (register : Register) : (register.table before.reporter).upcoming =
      UInt32.ofNat (drawn register past + 1) :=
    (consistent_run register site (new register) work schedule (fewer register)).upcoming
  have room (register : Register) :
      (register.table before.reporter).upcoming ≠ IdTable.pending :=
    upcoming_ne_pending (upcoming register) (few register)
  have known (register : Register) (key : String) := (settled register key).1
  have told : before.tracked.announced? call.thread = announcedName? call.thread past :=
    (announced_run obeys unenrolled without work schedule).memos call.thread lives
  have fresh (register : Register) (key : String) (unsought : key ∉ sought register past) :
      idOf register key = UInt32.ofNat (drawn register past + 1) := by
    have absent : (register.table before.reporter).find? key = none :=
      Option.not_isSome_iff_eq_none.mp fun found => unsought ((known register key).mp found)
    exact (IdTable.idOf_of_absent absent).trans (upcoming register)
  have supplied : ∀ access ∈ call.accesses obeys before, Supplied obeys access :=
    supplied_run obeys before _ call.schedule
  obtain ⟨thread, request, others, turns⟩ := call
  cases request with
  | mapMethod | mapException | mapThread => cases reports
  | report activity =>
    obtain ⟨returns, left, numbered, entered, current, streamed⟩ := succeeds.reports rfl
    refine ⟨returns, ?_, (fun key value other => by cases other), ?_, fresh, supplied⟩
    · intro own same
      cases same
      refine ⟨⟨entered, current ⟨⟨0, 0⟩, .thread⟩, ?_⟩, ?_, ?_⟩
      · exact streamed.trans (congrArg (· ++ _)
          (events_mappingsDue_of_known current ⟨0, 0⟩ told known activity))
      · intro register key
        have table := congrArg (fun site => register.table site.reporter) left
        simp only [table_outline, table_afterReport] at table
        rw [table, find?_registeredAny (room register)]
      · intro other
        have memo := congrArg (fun site => site.tracked.memo? other) left
        exact memo.trans ((before.outline 0).tracked.memo?_recognized thread other)
    · exact congrArg Numbering.upcoming numbered
  | marker key value =>
    obtain ⟨returns, left, numbered, entered, streamed⟩ := succeeds.marks rfl
    refine ⟨returns, (fun activity other => by cases other), ?_,
      congrArg Numbering.upcoming numbered, fresh, supplied⟩
    intro ownKey ownValue same
    cases same
    refine ⟨⟨entered, streamed⟩, fun register => ?_, fun other => ?_⟩
    · have table := congrArg (fun site => register.table site.reporter) left
      simpa only [table_outline] using table
    · exact congrArg (fun site => site.tracked.memo? other) left

/-- The mapping of a method is to be spoilt, and then the mapping of the new name of the thread: the
first call fails, and the second one panics. -/
def troubledCalls : List (List (Job Directive)) :=
  [[.order (.spoil (.write .methodMapping)), .atSite (.request ⟨0⟩ (.report (.entry "run"))),
    .atSite (.change (.rename ⟨0⟩ "worker")), .order (.spoil .panic),
    .atSite (.request ⟨0⟩ (.report (.exit "run" 3)))]]

/-- The site after those calls. -/
def troubledTraffic : Traffic Archive Scribe Transcript Directive :=
  (Interleaving.fresh (Site.create {} {} .scripted {}) troubledCalls).run
    (procedure Directive.obeyed) (List.replicate 60 0)

/-- A call that meets no failure. -/
def healthyCall : SoleCall Directive where
  thread := ⟨0⟩
  request := .report (.exception "Boom" "run" 7)
  schedule := List.replicate 40 0

theorem healthyCall_succeeds :
    healthyCall.Succeeds Directive.obeyed troubledTraffic.shared where
  quiet := by decide
  enough := by decide
  smooth := by decide +kernel
  served := by decide +kernel

/-- The announcement of the new name is made again, the mapping of the method is not. -/
theorem emission_exact_retried :
    (∃ entered told,
      (chronicle (healthyCall.accesses Directive.obeyed troubledTraffic.shared)).stream =
        [.threadMapping 0 told "worker", .exceptionMapping 1 "Boom",
          .activity ⟨entered, 0⟩ 0 (.exception 1 1 7)]) ∧
      troubledTraffic.results.map Prod.snd = [none,
        some (.failed (.encode { message := "injected failure" })), none, none,
        some (.panicked "injected panic while writing MapThreadName")] := by
  have idle : troubledTraffic.underway.length = 0 := by decide +kernel
  have rests : Rests troubledTraffic := by
    intro engagement member
    rw [List.length_eq_zero_iff.mp idle] at member
    cases member
  obtain ⟨-, reported, -⟩ := emission_exact Directive.obeyed (Site.create {} {} .scripted {})
    (fun register => by cases register <;> rfl) rfl (fun _ => rfl) troubledCalls
    (List.replicate 60 0) (fun register => by cases register <;> decide +kernel) rests healthyCall
    rfl (by decide +kernel) healthyCall_succeeds
  obtain ⟨⟨entered, told, streamed⟩, -⟩ := reported _ rfl
  refine ⟨⟨entered, told, streamed.trans ?_⟩, by decide +kernel⟩
  rfl

/-- The main thread enters the last of so many methods once more. -/
def repeatedCall (count : Nat) : SoleCall Empty where
  thread := ⟨0⟩
  request := .report (.entry (signature (count - 1)))
  schedule := List.replicate 31 0

theorem repeatedCall_succeeds (count : Nat) (site : Site Ample Ample) :
    (repeatedCall count).Succeeds Empty.elim site where
  quiet := by simp [repeatedCall]
  enough := by simp [repeatedCall]
  smooth access _ := smooth_ample access
  served access _ := obtains_ample

/-- That call maps its method if this has got the mark of pending keys as its id. -/
theorem methodMapping_repeatedCall {count : Nat} (positive : count ≠ 0)
    (wraps : UInt32.ofNat count = IdTable.pending) :
    .methodMapping 1 (signature (count - 1)) ∈ (chronicle ((repeatedCall count).accesses Empty.elim
      (reportsRun (entries count)).shared)).stream := by
  obtain ⟨strand, -, -, -, left, -⟩ := exists_course (entries count)
  obtain ⟨absent, next⟩ := find?_entries_pending positive wraps
  have methods : (reportsRun (entries count)).shared.reporter.methods =
      (afterReports (entries count) (ampleSite.outline 0)).reporter.methods :=
    congrArg (fun site => site.reporter.methods) left
  obtain ⟨-, -, -, entered, current, streamed⟩ := (repeatedCall_succeeds count _).reports rfl
  rw [streamed, events_mappingsDue, methods]
  simp [Activity.method, absent, next]

/-- A call, and a marker that another thread makes just before the call gets the buffer for its own
event. -/
def overlappedCalls : List (List (Job Empty)) :=
  [[.atSite (.request ⟨0⟩ (.report (.entry "run")))],
    [.atSite (.request ⟨1⟩ (.marker "key" "value"))]]

/-- The turns of the two. -/
def overlappedTurns : List Nat := List.replicate 18 0 ++ List.replicate 31 1 ++ List.replicate 31 0

/-- Without the bound a method is announced again, and a call in the middle of which another one is
made does not get the number that was upcoming before it. -/
theorem emission_repeated :
    (Rests (reportsRun (entries (2 ^ 32))) ∧
      (.atSite (.request ⟨0⟩ (.report (.entry (signature (2 ^ 32 - 1))))), some (.returned ())) ∈
        (reportsRun (entries (2 ^ 32))).results ∧
      (repeatedCall (2 ^ 32)).Succeeds Empty.elim (reportsRun (entries (2 ^ 32))).shared ∧
      .methodMapping 1 (signature (2 ^ 32 - 1)) ∈ (chronicle ((repeatedCall (2 ^ 32)).accesses
        Empty.elim (reportsRun (entries (2 ^ 32))).shared)).stream) ∧
    ampleSite.reporter.upcomingNumber = 0 ∧
    (chronicle ((Interleaving.fresh ampleSite overlappedCalls).accesses (procedure Empty.elim)
        overlappedTurns)).stream =
      [.threadMapping 0 0 "main", .methodMapping 1 "run", .marker ⟨0, 0⟩ "key" "value",
        .activity ⟨0, 1⟩ 0 (.entry 1)] ∧
    ((Interleaving.fresh ampleSite overlappedCalls : Traffic Ample Ample Ample Empty).run
      (procedure Empty.elim) overlappedTurns).shared.reporter.upcomingNumber = 2 := by
  obtain ⟨rests, returned⟩ := rests_reports (entries (2 ^ 32))
  have positive : 2 ^ 32 ≠ 0 := by decide
  have last : (⟨0⟩, .entry (signature (2 ^ 32 - 1))) ∈ entries (2 ^ 32) :=
    List.mem_map_of_mem (List.mem_range.mpr (Nat.sub_one_lt positive))
  exact ⟨⟨rests, returned _ last, repeatedCall_succeeds _ _,
    methodMapping_repeatedCall positive ofNat_exhausted⟩, rfl, rfl, rfl⟩

end TraceRelay.OpenSite
