import Mathlib.Algebra.Group.Int.Defs
import TraceRelay.Proofs.Stream.Fulfilment
import TraceRelay.Proofs.Stream.Numbered

/-! The times in a stream: when a call was entered, or when a thread mapping was completed. -/

namespace TraceRelay

/-- The milliseconds are reduced to the numbers from `-2 ^ 31` to `2 ^ 31 - 1`. -/
theorem Timestamp.toInt_ofNanoseconds (nanoseconds : Nat) :
    (Timestamp.ofNanoseconds nanoseconds).toInt =
      Int.bmod (nanoseconds / 1000000 : Nat) (2 ^ 32) :=
  Int32.toInt_ofNat'

/-- As long as the milliseconds fit into 31 bits, times do not decrease. -/
theorem Timestamp.ofNanoseconds_mono {early late : Nat} (ordered : early ≤ late)
    (fits : late / 1000000 < 2 ^ 31) :
    Timestamp.ofNanoseconds early ≤ Timestamp.ofNanoseconds late := by
  have fewer : early / 1000000 ≤ late / 1000000 := Nat.div_le_div_right ordered
  rw [Int32.le_iff_toInt_le, ofNanoseconds, ofNanoseconds, Int32.toInt_ofNat_of_lt fits,
    Int32.toInt_ofNat_of_lt (Nat.lt_of_le_of_lt fewer fits)]
  exact Int.ofNat_le.mpr fewer

/-- The time that a draft has brought along. -/
def Draft.entered? : Draft → Option Timestamp
  | .activity entered _ _ => some entered
  | .marker entered _ _ => some entered
  | _ => none

/-- A completed event bears the time of its draft, whatever the time is by now. -/
theorem Draft.timestamp?_complete (draft : Draft) (current : Timestamp) (numbering : Numbering) :
    (draft.complete current numbering).1.stamp?.map Stamp.timestamp = draft.entered? := by
  cases draft <;> rfl

/-- A completed thread mapping bears the time of its completion. -/
theorem Draft.time_of_complete {draft : Draft} {current time : Timestamp} {numbering : Numbering}
    {id : ThreadId} {name : String}
    (maps : (draft.complete current numbering).1 = .threadMapping id time name) :
    time = current := by
  cases draft <;> cases maps
  rfl

/-- The time that a delivery has brought along. -/
def Delivery.entered? {β : Type} : Delivery β → Option Timestamp
  | .obtaining draft => draft.entered?
  | .stamping draft _ => draft.entered?
  | _ => none

/-- The time that a call keeps while it makes an announcement. -/
def Purpose.entered? : Purpose → Option Timestamp
  | .announceThread _ entered _ => some entered
  | .announceMethod _ entered _ _ => some entered
  | .announceException _ entered _ _ _ _ => some entered
  | .answer => none

/-- The times that a call has brought along. -/
def Call.times {β : Type} : Call β → List Timestamp
  | .entering _ => []
  | .identifying _ entered _ => [entered]
  | .resolvingMethod _ entered _ _ => [entered]
  | .resolvingException _ entered _ _ _ _ => [entered]
  | .delivering purpose delivery => purpose.entered?.toList ++ delivery.entered?.toList

section Calls

variable {π ε β : Type} [Clearable β] [BufferSupply π β] [EventEncoder ε β]

omit [Clearable β] [BufferSupply π β] [EventEncoder ε β] in
/-- A call that has been entered knows no time but that of its entry. -/
theorem Call.times_enter (entered : Timestamp) (request : Request) :
    ∀ time ∈ (Call.enter entered request : Call β).times, time = entered := by
  cases request <;> simp [Call.enter, Call.answering, Call.times, Purpose.entered?,
    Delivery.entered?, Draft.entered?]

omit [Clearable β] [BufferSupply π β] [EventEncoder ε β] in
/-- A call goes on from a delivery with the time that it has kept. -/
theorem Call.times_resume {purpose : Purpose} {next : Call β}
    (resumed : Call.resume purpose = .continues next) :
    next.times = purpose.entered?.toList := by
  cases purpose <;> cases resumed <;> rfl

/-- Once a call has been entered, it learns no other time. -/
theorem Call.times_step {thread : Thread} {call next : Call β} {site : Site π ε}
    (entered : ∀ request, call ≠ .entering request)
    (stepped : (call.step thread site).result = .continues next) : next.times ⊆ call.times := by
  cases call with
  | entering request => exact absurd rfl (entered request)
  | identifying activity entered phase =>
    simp only [step] at stepped
    split at stepped <;> cases stepped <;> exact List.Subset.refl _
  | resolvingMethod activity entered caller phase =>
    simp only [step] at stepped
    split at stepped <;> cases stepped
    · exact List.Subset.refl _
    · exact List.Subset.refl _
    · cases activity <;> exact List.Subset.refl _
  | resolvingException activity entered caller method raised phase =>
    simp only [step] at stepped
    split at stepped <;> cases stepped <;> exact List.Subset.refl _
  | delivering purpose delivery =>
    -- the time of the draft goes into the event, and that of the purpose outlasts the delivery
    have kept : purpose.entered?.toList ⊆ (Call.delivering purpose delivery).times :=
      List.subset_append_left _ _
    cases delivery with
    | obtaining draft =>
      simp only [step, Delivery.step] at stepped
      cases lent : (BufferSupply.lend (β := β) site.reporter.supply).result with
      | error failure => simp [lent] at stepped
      | ok found =>
        cases found with
        | none =>
          simp only [lent] at stepped
          rw [times_resume stepped]
          exact kept
        | some buffer =>
          simp only [lent] at stepped
          cases stepped
          exact List.Subset.refl _
    | stamping | writing =>
      cases stepped
      simp [times, Delivery.entered?]
    | returning written buffer =>
      simp only [step, Delivery.step] at stepped
      generalize (Delivery.conclude written _).1 = outcome at stepped
      cases outcome with
      | failed | panicked => cases stepped
      | returned value =>
        rw [times_resume stepped]
        exact kept

/-- A lookup of the thread takes no time. -/
theorem Identification.clock_step (thread : Thread) (phase : Identification)
    (tracked : TrackedHost) : (phase.step thread tracked).2.host.clock = tracked.host.clock := by
  have same := phase.step_clock thread tracked.tracker tracked.host tracked.host.clock
  exact congrArg (fun moved => moved.2.host.clock) same

/-- A call takes no time of its own. -/
theorem Call.clock_step (thread : Thread) (call : Call β) (site : Site π ε) :
    (call.step thread site).state.host.clock = site.host.clock := by
  cases call with
  | entering request => rfl
  | identifying activity entered phase =>
    have still := phase.clock_step thread { tracker := site.reporter.tracker, host := site.host }
    simp only [step]
    split <;> exact still
  | resolvingMethod | resolvingException =>
    simp only [step]
    split <;> rfl
  | delivering => rfl

end Calls

namespace OpenSite

variable {π ε β δ : Type}

variable [Clearable β] [BufferSupply π β] [EventEncoder ε β]

/-- An access takes no time, unless it sets the clock forward. -/
theorem clock_access {obeys : δ → π × ε → π × ε} {access : SiteAccess π ε β δ}
    (made : (procedure obeys).step access.job access.phase access.before =
      (access.moved, access.after)) :
    access.before.host.clock ≤ access.after.host.clock := by
  obtain ⟨turn, job, phase, before, moved, after⟩ := access
  simp only at made
  have still (thread : Thread) (call : Call β) :
      before.host.clock ≤ (call.step thread before).state.host.clock :=
    Nat.le_of_eq (call.clock_step thread before).symm
  cases happens_of_step made with
  | goesOn siteJob thread call next stepped => exact still thread call
  | ends siteJob thread call outcome stepped => exact still thread call
  | obeys order => exact Nat.le_refl _
  | changes siteJob change =>
    cases change with
    | advance nanoseconds => exact Nat.le_add_right _ _
    | rename | endThread => exact Nat.le_refl _

section Runs

variable (obeys : δ → π × ε → π × ε) (site : Site π ε) (work : List (List (Job δ)))
  (schedule : List Nat)

/-- The clock never goes back, and the reporter stays as old as it is. -/
theorem clock_run :
    (∀ access ∈ (Interleaving.fresh site work).accesses (procedure obeys) schedule,
      access.before.reporter.createdAt = site.reporter.createdAt ∧
        access.before.host.clock ≤
          ((Interleaving.fresh site work).run (procedure obeys) schedule).shared.host.clock) ∧
      ((Interleaving.fresh site work).accesses (procedure obeys) schedule).Pairwise
        fun first second => first.before.host.clock ≤ second.before.host.clock := by
  refine (Interleaving.run_induction (motive := fun traffic past =>
    traffic.shared.reporter.createdAt = site.reporter.createdAt ∧
      (∀ access ∈ past, access.before.reporter.createdAt = site.reporter.createdAt ∧
        access.before.host.clock ≤ traffic.shared.host.clock) ∧
      past.Pairwise fun first second => first.before.host.clock ≤ second.before.host.clock)
    (procedure obeys) _ ?_ ?_ ?_ schedule).2
  · exact ⟨rfl, fun access member => (List.not_mem_nil member).elim, List.Pairwise.nil⟩
  · intro traffic past number strand job jobs kept found idle next
    exact kept
  · rintro traffic past strand access ⟨created, bounds, ordered⟩ makes
    rw [← makes.before] at created bounds
    have later := clock_access makes.made
    refine ⟨(createdAt_access makes.made).trans created, ?_,
      List.pairwise_append.mpr ⟨ordered, by simp, ?_⟩⟩
    · intro other member
      obtain old | new := List.mem_append.mp member
      · exact (bounds other old).imp_right fun bound => Nat.le_trans bound later
      · cases List.mem_singleton.mp new
        exact ⟨created, later⟩
    · intro other old own new
      cases List.mem_singleton.mp new
      exact (bounds other old).2

/-- Whenever a call makes an access after its first one, the only time that it has brought along is
that of its entry. -/
theorem entry_run {earlier later : List (SiteAccess π ε β δ)} {access : SiteAccess π ε β δ}
    (same : (Interleaving.fresh site work).accesses (procedure obeys) schedule =
      earlier ++ access :: later)
    {siteJob : Site.Job} {thread : Thread} {call : Call β}
    (calling : access.phase = .atSite siteJob (.calling thread call))
    (onward : ∀ request, call ≠ .entering request) :
    ∃ entry ∈ earlier, enters? thread entry = some access.turn ∧
      ∀ time ∈ call.times, time = reading entry := by
  refine call_induction (motive := fun entry call => ∀ time ∈ call.times, time = reading entry)
    obeys site work schedule ?_ ?_ same calling onward
  · intro entry request
    exact Call.times_enter _ request
  · intro entry thread call next shared onward stepped holds time member
    exact holds time (Call.times_step onward stepped member)

/-- An event that has been shipped has been completed by its own delivery. -/
theorem exists_completing {shipment : Shipment δ}
    (member : shipment ∈ shipments ((Interleaving.fresh site work).accesses (procedure obeys)
      schedule)) :
    ∃ completing ∈ (Interleaving.fresh site work).accesses (procedure obeys) schedule,
      ∃ purpose draft buffer,
        completing.phase.delivery? = some (purpose, .stamping draft buffer) ∧
          shipment.id = ⟨completing.turn, purpose.stage⟩ ∧
          shipment.event =
            (draft.complete (reading completing) completing.before.reporter.numbering).1 := by
  obtain ⟨-, -, -, -, written⟩ := mem_shipments.mp member
  obtain ⟨write, made, buffer, writes⟩ := exists_write_of_written written
  obtain ⟨purpose, writing, named⟩ := writes?_eq_some.mp writes
  obtain ⟨earlier, later, same⟩ := List.append_of_mem made
  have has := hasCompleted_run site work schedule same
  rw [writing] at has
  obtain ⟨completing, before, draft, held, turn, stamping, completed⟩ := has
  exact ⟨completing, same ▸ List.mem_append_left _ before, purpose, draft, held, stamping,
    turn ▸ named, completed⟩

/-- A call is entered before its deliveries complete their events, and these have brought along no
time but that of the entry. -/
theorem exists_entry {completing : SiteAccess π ε β δ} {purpose : Purpose} {draft : Draft}
    {buffer : β}
    (made : completing ∈ (Interleaving.fresh site work).accesses (procedure obeys) schedule)
    (stamping : completing.phase.delivery? = some (purpose, .stamping draft buffer)) :
    ∃ entry thread,
      Precedes ((Interleaving.fresh site work).accesses (procedure obeys) schedule) entry
          completing ∧
        enters? thread entry = some completing.turn ∧
        ∀ time, draft.entered? = some time → time = reading entry := by
  obtain ⟨earlier, later, same⟩ := List.append_of_mem made
  obtain ⟨siteJob, thread, calling⟩ := calling_of_delivery stamping
  obtain ⟨entry, before, enters, times⟩ :=
    entry_run obeys site work schedule same calling (by simp)
  refine ⟨entry, thread, ⟨earlier, later, same, before⟩, enters, ?_⟩
  intro time brought
  apply times
  simp [Call.times, Delivery.entered?, brought]

/-- A call is entered once. -/
theorem entry_unique {first second : SiteAccess π ε β δ} {caller thread : Thread} {turn : Turn}
    (made : first ∈ (Interleaving.fresh site work).accesses (procedure obeys) schedule)
    (madeToo : second ∈ (Interleaving.fresh site work).accesses (procedure obeys) schedule)
    (enters : enters? caller first = some turn) (entersToo : enters? thread second = some turn) :
    first = second := by
  obtain ⟨own, rank⟩ := rank_of_enters enters
  obtain ⟨ownToo, rankToo⟩ := rank_of_enters entersToo
  have falls := ranks_fall_run obeys site work schedule
  rcases precedes_total made madeToo with same | before | behind
  · exact same
  · have lower := before.of_pairwise falls (own.trans ownToo.symm)
    omega
  · have lower := behind.of_pairwise falls (ownToo.trans own.symm)
    omega

/-- A sequenced event that has been shipped bears the time at which its call has been entered. -/
theorem timed_at_entry {shipment : Shipment δ} {stamp : Stamp}
    (member : shipment ∈ shipments ((Interleaving.fresh site work).accesses (procedure obeys)
      schedule))
    (stamped : shipment.event.stamp? = some stamp) :
    ∃ entry ∈ (Interleaving.fresh site work).accesses (procedure obeys) schedule, ∃ thread,
      enters? thread entry = some shipment.id.turn ∧ stamp.timestamp = reading entry := by
  obtain ⟨completing, made, purpose, draft, buffer, stamping, named, completed⟩ :=
    exists_completing obeys site work schedule member
  obtain ⟨entry, thread, before, enters, times⟩ :=
    exists_entry obeys site work schedule made stamping
  refine ⟨entry, before.mem_left, thread, named ▸ enters, times _ ?_⟩
  rw [← draft.timestamp?_complete (reading completing) completing.before.reporter.numbering,
    ← completed, stamped, Option.map_some]

/-- A thread mapping that has been shipped bears the time at which it has been completed, after its
delivery has got a buffer. -/
theorem timed_at_completion {shipment : Shipment δ} {id : ThreadId} {time : Timestamp}
    {name : String}
    (member : shipment ∈ shipments ((Interleaving.fresh site work).accesses (procedure obeys)
      schedule))
    (maps : shipment.event = .threadMapping id time name) :
    ∃ grant completing,
      Precedes ((Interleaving.fresh site work).accesses (procedure obeys) schedule) grant
          completing ∧
        (∃ buffer, obtains? grant = some (shipment.id, buffer)) ∧
        stamps? completing = some shipment.id ∧ time = reading completing := by
  obtain ⟨completing, made, purpose, draft, buffer, stamping, named, completed⟩ :=
    exists_completing obeys site work schedule member
  obtain ⟨earlier, later, same⟩ := List.append_of_mem made
  have has := hasObtained_run site work schedule same
  rw [stamping] at has
  obtain ⟨grant, before, obtains⟩ := has
  exact ⟨grant, completing, ⟨earlier, later, same, before⟩, ⟨buffer, named ▸ obtains⟩,
    stamps?_eq_some.mpr ⟨purpose, draft, buffer, stamping, named⟩,
    Draft.time_of_complete (completed ▸ maps)⟩

section Fitting

variable (fits : (((Interleaving.fresh site work).run (procedure obeys)
  schedule).shared.host.clock - site.reporter.createdAt) / 1000000 < 2 ^ 31)

include fits

/-- As long as the milliseconds fit, the time that is read does not decrease. -/
theorem reading_le {first second : SiteAccess π ε β δ}
    (before : Precedes ((Interleaving.fresh site work).accesses (procedure obeys) schedule) first
      second) : reading first ≤ reading second := by
  obtain ⟨bounds, ordered⟩ := clock_run obeys site work schedule
  obtain ⟨created, -⟩ := bounds first before.mem_left
  obtain ⟨createdToo, bound⟩ := bounds second before.mem_right
  have short : (second.before.host.clock - site.reporter.createdAt) / 1000000 < 2 ^ 31 :=
    Nat.lt_of_le_of_lt (Nat.div_le_div_right (Nat.sub_le_sub_right bound _)) fits
  rw [reading, reading, Reporter.elapsed, Reporter.elapsed, created, createdToo]
  exact Timestamp.ofNanoseconds_mono (Nat.sub_le_sub_right (before.of_pairwise ordered) _) short

/-- The event of a call is no later than the thread mappings of the call. -/
theorem event_le_mapping {event mapping : Shipment δ} {stamp : Stamp} {id : ThreadId}
    {time : Timestamp} {name : String}
    (member : event ∈ shipments ((Interleaving.fresh site work).accesses (procedure obeys)
      schedule))
    (memberToo : mapping ∈ shipments ((Interleaving.fresh site work).accesses (procedure obeys)
      schedule))
    (turn : event.id.turn = mapping.id.turn) (stamped : event.event.stamp? = some stamp)
    (maps : mapping.event = .threadMapping id time name) : stamp.timestamp ≤ time := by
  obtain ⟨entry, made, thread, enters, timed⟩ :=
    timed_at_entry obeys site work schedule member stamped
  obtain ⟨completing, madeToo, purpose, draft, buffer, stamping, named, completed⟩ :=
    exists_completing obeys site work schedule memberToo
  obtain ⟨own, caller, before, entersToo, -⟩ :=
    exists_entry obeys site work schedule madeToo stamping
  rw [turn, named] at enters
  have same := entry_unique obeys site work schedule made before.mem_left enters entersToo
  have emitted : time = reading completing := Draft.time_of_complete (completed ▸ maps)
  rw [timed, same, emitted]
  exact reading_le obeys site work schedule fits before

/-- The events of a thread are timed in the order in which it has entered their calls. -/
theorem events_ordered (thread : Thread) :
    (calls thread ((Interleaving.fresh site work).accesses (procedure obeys) schedule)).Pairwise
      fun first second =>
        ∀ own ∈ shipments ((Interleaving.fresh site work).accesses (procedure obeys) schedule),
        ∀ next ∈ shipments ((Interleaving.fresh site work).accesses (procedure obeys) schedule),
          own.id.turn = first → next.id.turn = second →
          ∀ early ∈ own.event.stamp?, ∀ late ∈ next.event.stamp?,
            early.timestamp ≤ late.timestamp := by
  refine List.pairwise_filterMap.mpr (pairwise_of_precedes fun first second before => ?_)
  rintro turn enters later entersLater own member next memberNext rfl rfl early stamped late
    stampedLate
  obtain ⟨entry, made, caller, entered, timed⟩ :=
    timed_at_entry obeys site work schedule member stamped
  obtain ⟨entryLate, madeLate, callerLate, enteredLate, timedLate⟩ :=
    timed_at_entry obeys site work schedule memberNext stampedLate
  have same := entry_unique obeys site work schedule made before.mem_left entered enters
  have sameLate := entry_unique obeys site work schedule madeLate before.mem_right enteredLate
    entersLater
  rw [timed, timedLate, same, sameLate]
  exact reading_le obeys site work schedule fits before

end Fitting

end Runs

/-- Every sequenced event of the stream bears the time at which its call was entered, and every
thread mapping the time that was read after its own buffer was got. -/
theorem events_timed (obeys : δ → π × ε → π × ε) (site : Site π ε) (work : List (List (Job δ)))
    (schedule : List Nat) :
    let past := (Interleaving.fresh site work).accesses (procedure obeys) schedule
    let final := ((Interleaving.fresh site work).run (procedure obeys) schedule).shared
    let age (now : Nat) := (now - site.reporter.createdAt) / 1000000
    (∀ access ∈ past,
      (reading access).toInt = Int.bmod (age access.before.host.clock) (2 ^ 32) ∧
        -2 ^ 31 ≤ (reading access).toInt ∧ (reading access).toInt < 2 ^ 31) ∧
    (∀ shipment ∈ shipments past, ∀ stamp, shipment.event.stamp? = some stamp →
      ∃ entry ∈ past, ∃ thread, enters? thread entry = some shipment.id.turn ∧
        stamp.timestamp = reading entry) ∧
    (∀ (others : List (List (Job δ))) (turns : List Nat),
      let twin := (Interleaving.fresh site others).accesses (procedure obeys) turns
      ∀ entry ∈ past, ∀ entryToo ∈ twin, ∀ thread turn, enters? thread entry = some turn →
        enters? thread entryToo = some turn → reading entry = reading entryToo →
        ∀ shipment ∈ shipments past, ∀ shipmentToo ∈ shipments twin,
          shipment.id.turn = turn → shipmentToo.id.turn = turn →
          ∀ stamp ∈ shipment.event.stamp?, ∀ stampToo ∈ shipmentToo.event.stamp?,
            stamp.timestamp = stampToo.timestamp) ∧
    (∀ shipment ∈ shipments past, ∀ id time name,
      shipment.event = .threadMapping id time name →
      ∃ grant completing, Precedes past grant completing ∧
        (∃ buffer, obtains? grant = some (shipment.id, buffer)) ∧
        stamps? completing = some shipment.id ∧ time = reading completing) ∧
    (age final.host.clock < 2 ^ 31 →
      (∀ event ∈ shipments past, ∀ mapping ∈ shipments past, event.id.turn = mapping.id.turn →
        ∀ stamp, event.event.stamp? = some stamp →
        ∀ id time name, mapping.event = .threadMapping id time name → stamp.timestamp ≤ time) ∧
      ∀ thread, (calls thread past).Pairwise fun first second =>
        ∀ own ∈ shipments past, ∀ next ∈ shipments past,
          own.id.turn = first → next.id.turn = second →
          ∀ early ∈ own.event.stamp?, ∀ late ∈ next.event.stamp?,
            early.timestamp ≤ late.timestamp) := by
  intro past final age
  refine ⟨?_, ?_, ?_, ?_, fun fits => ⟨?_, events_ordered obeys site work schedule fits⟩⟩
  · intro access made
    obtain ⟨created, -⟩ := (clock_run obeys site work schedule).1 access made
    refine ⟨?_, Int32.le_toInt _, Int32.toInt_lt _⟩
    rw [reading, Reporter.elapsed, Timestamp.toInt_ofNanoseconds, created]
  · intro shipment member stamp stamped
    exact timed_at_entry obeys site work schedule member stamped
  · intro others turns twin entry made entryToo madeToo thread turn enters entersToo alike shipment
      member shipmentToo memberToo own ownToo stamp stamped stampToo stampedToo
    obtain ⟨first, inside, caller, entered, timed⟩ :=
      timed_at_entry obeys site work schedule member stamped
    obtain ⟨second, insideToo, callerToo, enteredToo, timedToo⟩ :=
      timed_at_entry obeys site others turns memberToo stampedToo
    rw [own] at entered
    rw [ownToo] at enteredToo
    rw [timed, timedToo, entry_unique obeys site work schedule inside made entered enters,
      entry_unique obeys site others turns insideToo madeToo enteredToo entersToo, alike]
  · intro shipment member id time name maps
    exact timed_at_completion obeys site work schedule member maps
  · intro event member mapping memberToo turn stamp stamped id time name maps
    exact event_le_mapping obeys site work schedule fits member memberToo turn stamped maps

/-- A thread reports that it has entered a method, and a marker after that, while the clock goes on
by what the other strand is told. -/
def timedCalls (advances : List Nat) : List (List (Job Directive)) :=
  [[.atSite (.request ⟨0⟩ (.report (.entry "run"))),
      .atSite (.request ⟨0⟩ (.marker "phase" "end"))],
    advances.map fun nanoseconds => .atSite (.change (.advance nanoseconds))]

/-- The clock goes on before the first call, during the lookup of its thread, and after the call. -/
def timedTurns : List Nat :=
  [1, 1, 0, 0, 1, 1] ++ List.replicate 20 0 ++ [1, 1] ++ List.replicate 6 0

/-- The lookup takes thirty milliseconds in one run and no time in the other. In both of them the
event bears the time at which its call has been entered, which the thread mapping comes after. -/
theorem events_timed_slow :
    let slow := (Interleaving.fresh recordingSite
      (timedCalls [4000000, 30000000, 2000000])).accesses (procedure Directive.obeyed) timedTurns
    let quick := (Interleaving.fresh recordingSite (timedCalls [4000000])).accesses
      (procedure Directive.obeyed) timedTurns
    (∃ mapping ∈ shipments slow, ∃ event ∈ shipments slow, event.id.turn = mapping.id.turn ∧
      mapping.event = .threadMapping 0 34 "main" ∧
      event.event = .activity ⟨4, 0⟩ 0 (.entry 1) ∧ (4 : Timestamp) ≤ 34) ∧
    ∃ event ∈ shipments quick, ∃ stamp ∈ event.event.stamp?, event.id.turn = ⟨0, 0⟩ ∧
      stamp.timestamp = 4 := by
  intro slow quick
  have mapped : ∃ mapping ∈ shipments slow, mapping.id.turn = ⟨0, 0⟩ ∧
      mapping.event = .threadMapping 0 34 "main" := by
    decide +kernel
  have told : ∃ event ∈ shipments slow, event.id.turn = ⟨0, 0⟩ ∧
      event.event = .activity ⟨4, 0⟩ 0 (.entry 1) := by
    decide +kernel
  have toldQuickly : ∃ event ∈ shipments quick, event.id.turn = ⟨0, 0⟩ ∧
      event.event.stamp?.isSome := by
    decide +kernel
  have entered : ∃ entry ∈ slow, ∃ entryToo ∈ quick, enters? ⟨0⟩ entry = some ⟨0, 0⟩ ∧
      enters? ⟨0⟩ entryToo = some ⟨0, 0⟩ ∧ reading entry = reading entryToo := by
    decide +kernel
  obtain ⟨mapping, shipsMapping, turnMapping, maps⟩ := mapped
  obtain ⟨event, ships, turn, bears⟩ := told
  obtain ⟨twin, shipsTwin, turnTwin, stamped⟩ := toldQuickly
  obtain ⟨entry, made, entryToo, madeToo, enters, entersToo, alike⟩ := entered
  obtain ⟨stamp, bearsTwin⟩ := Option.isSome_iff_exists.mp stamped
  obtain ⟨-, -, independent, -, fitting⟩ := events_timed Directive.obeyed recordingSite
    (timedCalls [4000000, 30000000, 2000000]) timedTurns
  obtain ⟨ahead, -⟩ := fitting (by decide +kernel)
  have stampEvent : event.event.stamp? = some ⟨4, 0⟩ := by
    rw [bears]
    rfl
  have same := turn.trans turnMapping.symm
  refine ⟨⟨mapping, shipsMapping, event, ships, same, maps, bears,
    ahead event ships mapping shipsMapping same _ stampEvent _ _ _ maps⟩,
    twin, shipsTwin, stamp, bearsTwin, turnTwin, ?_⟩
  exact (independent _ _ entry made entryToo madeToo _ _ enters entersToo alike event ships twin
    shipsTwin turn turnTwin _ stampEvent stamp bearsTwin).symm

end OpenSite

end TraceRelay
