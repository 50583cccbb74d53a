import Mathlib.Logic.Function.Iterate
import TraceRelay.Proofs.Stream.Sequential
import TraceRelay.Proofs.Stream.Shipments

/-! What calls look up and ask for that come one after the other at a site without buffers. -/

namespace TraceRelay

/-- A supply that never has a buffer to spare. As an encoder it has nothing to write into. -/
structure Dry
deriving DecidableEq, Repr

instance : Clearable Empty where
  clear := id

instance : BufferSupply Dry Empty where
  lend supply := { result := .ok none, state := supply }
  ship buffer _ := buffer.elim

instance : EventEncoder Dry Empty where
  encode _ _ buffer := buffer.elim

/-- What `next` makes of the phase that has been reached, unless the job has ended. -/
def Progress.andThen {φ ψ ρ : Type} (next : φ → Progress ψ ρ) : Progress φ ρ → Progress ψ ρ
  | .continues phase => next phase
  | .finished result => .finished result

/-- The site without its supply, its encoder and its counter, when the clock shows `now`. -/
def Site.outline {π ε : Type} (now : Nat) (site : Site π ε) : Site Dry Dry where
  reporter :=
    { supply := {}, encoder := {}, createdAt := site.reporter.createdAt
      methods := site.reporter.methods, exceptions := site.reporter.exceptions
      tracker := site.reporter.tracker }
  host := { site.host with clock := now }

/-- The lookup of a thread does not depend on the clock. -/
theorem Identification.step_clock (thread : Thread) (phase : Identification) (tracker : Tracker)
    (host : Host) (now : Nat) :
    phase.step thread { tracker, host := { host with clock := now } } =
      ((phase.step thread { tracker, host }).1,
        { tracker := (phase.step thread { tracker, host }).2.tracker
          host := { (phase.step thread { tracker, host }).2.host with clock := now } }) := by
  cases phase with
  | readName => cases tracker with | mk key names upcoming => cases names <;> rfl
  | consult name =>
    simp only [step, TrackedHost.memo?]
    split
    · split <;> rfl
    · rfl
  | settle announcement =>
    simp only [step, TrackedHost.memo?]
    split <;> rfl

/-- The delivery meets no error and no panic with its next access. -/
def Delivery.Smooth {π ε β : Type} [BufferSupply π β] [EventEncoder ε β] (reporter : Reporter π ε) :
    Delivery β → Prop
  | .obtaining _ => (BufferSupply.lend reporter.supply).result.isOk = true
  | .stamping _ _ => True
  | .writing event buffer =>
    (EventEncoder.encode event reporter.encoder buffer).outcome = .returned ()
  | .returning _ buffer => (BufferSupply.ship buffer reporter.supply).result.isOk = true

instance {π ε β : Type} [BufferSupply π β] [EventEncoder ε β] (reporter : Reporter π ε) :
    DecidablePred (Delivery.Smooth reporter (β := β))
  | .obtaining _ => inferInstanceAs (Decidable (_ = true))
  | .stamping _ _ => .isTrue trivial
  | .writing _ _ => inferInstanceAs (Decidable (_ = Outcome.returned ()))
  | .returning _ _ => inferInstanceAs (Decidable (_ = true))

theorem ok_of_isOk {ε : Type} {result : Except ε Unit} (succeeded : result.isOk = true) :
    result = .ok () := by
  cases result with
  | error failure => cases succeeded
  | ok value => rfl

namespace Call

variable {π ε β : Type}

/-- The course of a call from its phase on. A delivery that has got a buffer counts as over. -/
def outline : Call β → Progress (Call Empty) (Outcome DeliveryFailure Unit)
  | .entering request => .continues (.entering request)
  | .identifying activity entered phase => .continues (.identifying activity entered phase)
  | .resolvingMethod activity entered thread phase =>
    .continues (.resolvingMethod activity entered thread phase)
  | .resolvingException activity entered thread method raised phase =>
    .continues (.resolvingException activity entered thread method raised phase)
  | .delivering purpose (.obtaining draft) => .continues (.delivering purpose (.obtaining draft))
  | .delivering purpose _ => resume purpose

theorem outline_resume (purpose : Purpose) :
    (resume purpose : Progress (Call β) (Outcome DeliveryFailure Unit)).andThen outline =
      resume purpose := by
  cases purpose <;> rfl

theorem outline_enter (entered : Timestamp) (request : Request) :
    (enter entered request : Call β).outline = .continues (enter entered request) := by
  cases request <;> rfl

theorem outline_withMethod (activity : Activity String String) (entered : Timestamp)
    (thread : ThreadId) (method : MethodId) :
    (withMethod activity entered thread method : Call β).outline =
      .continues (withMethod activity entered thread method) := by
  cases activity <;> rfl

variable [Clearable β] [BufferSupply π β] [EventEncoder ε β]

/-- While a delivery has a buffer in hand, its call stays where it is in the outline. -/
theorem outline_held (thread : Thread) (purpose : Purpose) {delivery : Delivery β}
    {site : Site π ε} {buffer : β} (held : delivery.buffer? = some buffer)
    (smooth : delivery.Smooth site.reporter)
    (written : ∀ ended own, delivery = .returning ended own → ended = .returned ()) :
    ((Call.delivering purpose delivery).step thread site).result.andThen outline =
        (Call.delivering purpose delivery).outline ∧
      ((Call.delivering purpose delivery).step thread site).state.outline 0 = site.outline 0 := by
  cases delivery with
  | obtaining draft => cases held
  | stamping draft own => exact ⟨rfl, rfl⟩
  | writing event own => exact ⟨rfl, rfl⟩
  | returning ended own =>
    cases written _ _ rfl
    have shipped : (BufferSupply.ship own site.reporter.supply).result = .ok () :=
      ok_of_isOk smooth
    simp only [step, Delivery.step, shipped, Delivery.conclude]
    exact ⟨outline_resume purpose, rfl⟩

/-- Apart from that, every access of a call is a step of its outline. -/
theorem outline_step (thread : Thread) {call : Call β} {site : Site π ε} (now : Nat)
    (free : ∀ purpose delivery, call.delivery? = some (purpose, delivery) →
      delivery.buffer? = none ∧ delivery.Smooth site.reporter)
    (timed : ∀ request, call = .entering request → request.isReport = true →
      site.host.clock = now) :
    ∃ next, call.outline = .continues next ∧
      (next.step thread (site.outline now)).result =
        (call.step thread site).result.andThen outline ∧
      (next.step thread (site.outline now)).state.outline 0 =
        (call.step thread site).state.outline 0 := by
  cases call with
  | entering request =>
    refine ⟨.entering request, rfl, ?_, rfl⟩
    simp only [step, Progress.andThen, outline_enter]
    cases request with
    | mapMethod | mapException | mapThread => rfl
    | report | marker => rw [timed _ rfl rfl]; rfl
  | identifying activity entered phase =>
    refine ⟨.identifying activity entered phase, rfl, ?_, ?_⟩
    · simp only [step, Site.outline, Identification.step_clock]
      split <;> rfl
    · simp only [step, Site.outline, Identification.step_clock]
      split <;> rfl
  | resolvingMethod activity entered caller phase =>
    refine ⟨.resolvingMethod activity entered caller phase, rfl, ?_, ?_⟩
    · simp only [step, Site.outline]
      split
      · rfl
      · rfl
      · exact (outline_withMethod ..).symm
    · simp only [step, Site.outline]
      split <;> rfl
  | resolvingException activity entered caller method raised phase =>
    refine ⟨.resolvingException activity entered caller method raised phase, rfl, ?_, ?_⟩
    · simp only [step, Site.outline]
      split <;> rfl
    · simp only [step, Site.outline]
      split <;> rfl
  | delivering purpose delivery =>
    obtain ⟨waiting, smooth⟩ := free purpose delivery rfl
    cases delivery with
    | stamping | writing | returning => cases waiting
    | obtaining draft =>
      refine ⟨.delivering purpose (.obtaining draft), rfl, ?_, ?_⟩
      · simp only [step, Delivery.step]
        cases lent : (BufferSupply.lend site.reporter.supply).result with
        | error failure =>
          rw [Delivery.Smooth, lent] at smooth
          cases smooth
        | ok found =>
          cases found with
          | none => exact (outline_resume purpose).symm
          | some buffer => rfl
      · simp only [step, Delivery.step]
        cases lent : (BufferSupply.lend site.reporter.supply).result with
        | error failure =>
          rw [Delivery.Smooth, lent] at smooth
          cases smooth
        | ok found => cases found <;> rfl

/-- A call that ends without a failure on its way returns. -/
theorem returned_of_finished {thread : Thread} {call : Call β} {site : Site π ε}
    {outcome : Outcome DeliveryFailure Unit}
    (finished : (call.step thread site).result = .finished outcome)
    (smooth : ∀ purpose delivery, call.delivery? = some (purpose, delivery) →
      delivery.Smooth site.reporter)
    (written : ∀ purpose ended own, call.delivery? = some (purpose, .returning ended own) →
      ended = .returned ()) : outcome = .returned () := by
  have resumed (purpose : Purpose)
      (ends : (resume purpose : Progress (Call β) _) = .finished outcome) :
      outcome = .returned () := by
    cases purpose <;> cases ends
    rfl
  cases call with
  | entering => cases finished
  | identifying | resolvingMethod | resolvingException =>
    simp only [step] at finished
    split at finished <;> cases finished
  | delivering purpose delivery =>
    have unfailing := smooth purpose delivery rfl
    cases delivery with
    | stamping | writing => cases finished
    | obtaining draft =>
      simp only [step, Delivery.step] at finished
      cases lent : (BufferSupply.lend site.reporter.supply).result with
      | error failure =>
        rw [Delivery.Smooth, lent] at unfailing
        cases unfailing
      | ok found =>
        rw [lent] at finished
        cases found with
        | none => exact resumed purpose finished
        | some buffer => cases finished
    | returning ended own =>
      cases written _ _ _ rfl
      have shipped : (BufferSupply.ship own site.reporter.supply).result = .ok () :=
        ok_of_isOk unfailing
      simp only [step, Delivery.step, shipped, Delivery.conclude] at finished
      exact resumed purpose finished

end Call

namespace OpenSite

variable {π ε β δ : Type}

/-- The course of a job from its phase on. -/
def Phase.outline : Phase β δ → Progress (Phase Empty δ) (Option (Outcome DeliveryFailure Unit))
  | .atSite job (.calling thread call) => Phase.ofCall job thread call.outline
  | .atSite job (.changing change) => .continues (.atSite job (.changing change))
  | .ordering order => .continues (.ordering order)

/-- The event for which a phase of a turn asks for a buffer, with its delivery. -/
def Phase.draft? (turn : Turn) (phase : Phase β δ) : Option (DeliveryId × Draft) :=
  match phase.delivery? with
  | some (purpose, .obtaining draft) => some (⟨turn, purpose.stage⟩, draft)
  | _ => none

/-- The deliveries that have asked for a buffer, in order, each with the event to be written. -/
def drafts (past : List (SiteAccess π ε β δ)) : List (DeliveryId × Draft) :=
  past.filterMap fun access => access.phase.draft? access.turn

theorem drafts_concat (past : List (SiteAccess π ε β δ)) (access : SiteAccess π ε β δ) :
    drafts (past ++ [access]) = drafts past ++ (access.phase.draft? access.turn).toList := by
  rw [drafts, List.filterMap_append, filterMap_singleton]
  rfl

theorem asks?_eq_draft (access : SiteAccess π ε β δ) :
    asks? access = (access.phase.draft? access.turn).map Prod.fst := by
  unfold asks? Phase.draft?
  cases access.phase.delivery? with
  | none => rfl
  | some making =>
    obtain ⟨purpose, delivery⟩ := making
    cases delivery <;> rfl

/-- The place at which an access reads the clock: the turn of its call, and the stage if it is for a
mapping that is about to be written. -/
def readsClock? (access : SiteAccess π ε β δ) : Option (Turn × Option Stage) :=
  match access.phase with
  | .atSite _ (.calling _ (.entering request)) =>
    if request.isReport then some (access.turn, none) else none
  | .atSite _ (.calling _ (.delivering purpose (.stamping (.threadMapping _ _) _))) =>
    some (access.turn, some purpose.stage)
  | _ => none

theorem andThen_ofCall (job : Site.Job) (thread : Thread)
    (moved : Progress (Call β) (Outcome DeliveryFailure Unit)) :
    (Phase.ofCall job thread moved : Progress (Phase β δ) _).andThen Phase.outline =
      Phase.ofCall job thread (moved.andThen Call.outline) := by
  cases moved <;> rfl

theorem draft?_outline {phase : Phase β δ} {next : Phase Empty δ} (turn : Turn)
    (continues : phase.outline = .continues next)
    (free : ∀ purpose delivery, phase.delivery? = some (purpose, delivery) →
      delivery.buffer? = none) : next.draft? turn = phase.draft? turn := by
  cases phase with
  | ordering order =>
    cases continues
    rfl
  | atSite job sitePhase =>
    cases sitePhase with
    | changing change =>
      cases continues
      rfl
    | calling thread call =>
      cases call with
      | entering | identifying | resolvingMethod | resolvingException =>
        cases continues
        rfl
      | delivering purpose delivery =>
        cases delivery with
        | stamping | writing | returning => cases free _ _ rfl
        | obtaining draft =>
          cases continues
          rfl

section Steps

variable [Clearable β] [BufferSupply π β] [EventEncoder ε β] {obeys : δ → π × ε → π × ε}
  {access : SiteAccess π ε β δ}

/-- The delivery meets no error and no panic with the access. -/
def Smooth (access : SiteAccess π ε β δ) : Prop :=
  ∀ making ∈ access.phase.delivery?, making.2.Smooth access.before.reporter

instance : DecidablePred (Smooth (π := π) (ε := ε) (β := β) (δ := δ)) :=
  fun access => inferInstanceAs (Decidable (∀ making ∈ access.phase.delivery?, _))

/-- If no delivery meets a failure, what is given back has been written without one. -/
theorem WritesFirst.returned {past : List (SiteAccess π ε β δ)} (first : WritesFirst past)
    (smooth : ∀ access ∈ past, Smooth access) {earlier later : List (SiteAccess π ε β δ)}
    (same : past = earlier ++ access :: later) {purpose : Purpose}
    {ended : Outcome IoFailure Unit} {buffer : β}
    (returning : access.phase.delivery? = some (purpose, .returning ended buffer)) :
    ended = .returned () := by
  have has := first earlier access later same
  rw [returning] at has
  obtain ⟨write, member, event, own, writes, rfl, -⟩ := has
  obtain ⟨stage, writing, -⟩ := writes?_eq_some.mp writes
  have made : write ∈ past := same ▸ List.mem_append_left _ member
  exact smooth write made _ writing

/-- If no delivery meets a failure, every request that has ended has returned. -/
theorem returned_run (obeys : δ → π × ε → π × ε) (site : Site π ε) (work : List (List (Job δ)))
    (schedule : List Nat)
    (smooth : ∀ access ∈ (Interleaving.fresh site work).accesses (procedure obeys) schedule,
      Smooth access)
    {thread : Thread} {request : Request} {result : Option (Outcome DeliveryFailure Unit)}
    (member : (.atSite (.request thread request), result) ∈
      ((Interleaving.fresh site work).run (procedure obeys) schedule).results) :
    result = some (.returned ()) := by
  obtain ⟨access, made, job, finished⟩ :=
    Interleaving.exists_access_of_mem_results (procedure obeys) site work schedule member
  obtain ⟨earlier, later, same⟩ := List.append_of_mem made
  have stepped := Interleaving.made_of_accesses (procedure obeys) _ schedule same
  obtain ⟨call?, engages⟩ := engages_run obeys site work schedule same
  rw [job] at engages
  obtain ⟨call, rfl⟩ := engages.of_request
  obtain ⟨-, calling⟩ := engages.calling
  have delivering : access.phase.delivery? = call.delivery? := by
    rw [calling]
    rfl
  have ended := stepped
  rw [calling, step_calling, finished, Prod.mk.injEq] at ended
  cases outcome : (call.step thread access.before).result with
  | continues next =>
    rw [outcome] at ended
    cases ended.1
  | finished own =>
    rw [outcome] at ended
    cases ended.1
    rw [Call.returned_of_finished outcome]
    · intro purpose delivery own
      exact smooth access made (purpose, delivery) (delivering.trans own)
    · intro purpose ended own returning
      exact (writesFirst_run obeys site work schedule).returned smooth same
        (delivering.trans returning)

/-- An access of a delivery that has a buffer in hand leaves the outline as it is. -/
theorem outline_of_held {purpose : Purpose} {delivery : Delivery β} {buffer : β}
    (made : (procedure obeys).step access.job access.phase access.before =
      (access.moved, access.after))
    (delivering : access.phase.delivery? = some (purpose, delivery))
    (held : delivery.buffer? = some buffer) (smooth : Smooth access)
    (written : ∀ ended own, delivery = .returning ended own → ended = .returned ()) :
    access.moved.andThen Phase.outline = access.phase.outline ∧
      access.after.outline 0 = access.before.outline 0 := by
  obtain ⟨siteJob, thread, calling⟩ := calling_of_delivery delivering
  have own :=
    Call.outline_held thread purpose held (smooth (purpose, delivery) delivering) written
  rw [calling, step_calling, Prod.mk.injEq] at made
  obtain ⟨moved, after⟩ := made
  rw [calling, ← moved, ← after, andThen_ofCall, own.1]
  exact ⟨rfl, own.2⟩

/-- Every other access is a step of the outline. -/
theorem outline_of_step (now : Nat)
    (made : (procedure obeys).step access.job access.phase access.before =
      (access.moved, access.after))
    (free : ∀ purpose delivery, access.phase.delivery? = some (purpose, delivery) →
      delivery.buffer? = none) (smooth : Smooth access)
    (timed : readsClock? access = some (access.turn, none) → access.before.host.clock = now) :
    ∃ next after, access.phase.outline = .continues next ∧
      (procedure fun _ collaborators => collaborators).step access.job next
        (access.before.outline now) = (access.moved.andThen Phase.outline, after) ∧
      after.outline 0 = access.after.outline 0 := by
  obtain ⟨turn, job, phase, before, moved, after⟩ := access
  simp only at made free
  cases phase with
  | ordering order =>
    cases made
    exact ⟨_, _, rfl, rfl, rfl⟩
  | atSite siteJob sitePhase =>
    cases sitePhase with
    | changing change =>
      cases made
      refine ⟨_, _, rfl, rfl, ?_⟩
      cases change <;> rfl
    | calling thread call =>
      rw [step_calling, Prod.mk.injEq] at made
      obtain ⟨rfl, rfl⟩ := made
      obtain ⟨next, continues, result, state⟩ := Call.outline_step thread now
        (fun purpose delivery delivering =>
          ⟨free purpose delivery delivering, smooth (purpose, delivery) delivering⟩)
        (fun request entering reports => timed (by simp [readsClock?, entering, reports]))
      refine ⟨.atSite siteJob (.calling thread next), _, ?_, ?_, state⟩
      · simp only [Phase.outline, continues]
        rfl
      · rw [step_calling, result, andThen_ofCall]

end Steps

end OpenSite

end TraceRelay
