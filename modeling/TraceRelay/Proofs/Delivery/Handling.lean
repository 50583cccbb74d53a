import TraceRelay.Proofs.Interleaving.Completion
import TraceRelay.Reporting.OpenSite
import TraceRelay.Proofs.Reporting.Rank

/-! What one access at an open site does for a delivery. -/

namespace TraceRelay

/-- The stages at which a call makes deliveries, in their order. -/
inductive Stage where
  | thread
  | method
  | exception
  | answer
deriving DecidableEq, Repr

/-- The rank of a call that asks for a buffer at a stage. -/
def Stage.rank : Stage → Nat
  | .thread => 26
  | .method => 17
  | .exception => 8
  | .answer => 3

/-- The stage of a delivery with the given purpose. -/
def Purpose.stage : Purpose → Stage
  | .announceThread _ _ _ => .thread
  | .announceMethod _ _ _ _ => .method
  | .announceException _ _ _ _ _ _ => .exception
  | .answer => .answer

/-- A delivery is known by the turn of its call and the stage at which the call makes it. -/
structure DeliveryId where
  turn : Turn
  stage : Stage
deriving DecidableEq, Repr

/-- The buffer that a delivery has in hand. -/
def Delivery.buffer? {β : Type} : Delivery β → Option β
  | .obtaining _ => none
  | .stamping _ buffer => some buffer
  | .writing _ buffer => some buffer
  | .returning _ buffer => some buffer

/-- The delivery that a call is making, and what it is for. -/
def Call.delivery? {β : Type} : Call β → Option (Purpose × Delivery β)
  | .delivering purpose delivery => some (purpose, delivery)
  | _ => none

namespace OpenSite

/-- The calls and changes in progress at an open site. -/
abbrev Traffic (π ε β δ : Type) :=
  Interleaving (Site π ε) (Job δ) (Phase β δ) (Option (Outcome DeliveryFailure Unit))

/-- A strand of work at an open site. -/
abbrev SiteStrand (β δ : Type) :=
  Strand (Job δ) (Phase β δ) (Option (Outcome DeliveryFailure Unit))

/-- An access at an open site. -/
abbrev SiteAccess (π ε β δ : Type) :=
  Access (Site π ε) (Job δ) (Phase β δ) (Option (Outcome DeliveryFailure Unit))

variable {π ε β δ : Type}

/-- The call that is in a phase. -/
def Phase.call? : Phase β δ → Option (Call β)
  | .atSite _ (.calling _ call) => some call
  | _ => none

/-- The delivery that is being made in a phase, and what it is for. -/
def Phase.delivery? (phase : Phase β δ) : Option (Purpose × Delivery β) :=
  phase.call?.bind Call.delivery?

/-- The progress of a job whose call makes progress. -/
def Phase.ofCall (job : Site.Job) (thread : Thread) :
    Progress (Call β) (Outcome DeliveryFailure Unit) →
      Progress (Phase β δ) (Option (Outcome DeliveryFailure Unit))
  | .continues call => .continues (.atSite job (.calling thread call))
  | .finished outcome => .finished (some outcome)

theorem calling_of_delivery {phase : Phase β δ} {purpose : Purpose} {delivery : Delivery β}
    (delivering : phase.delivery? = some (purpose, delivery)) : ∃ siteJob thread,
      phase = .atSite siteJob (.calling thread (.delivering purpose delivery)) := by
  obtain ⟨call, calling, own⟩ := Option.bind_eq_some_iff.mp delivering
  cases call with
  | entering | identifying | resolvingMethod | resolvingException => cases own
  | delivering purpose delivery =>
    cases own
    cases phase with
    | ordering => cases calling
    | atSite siteJob sitePhase =>
      cases sitePhase with
      | changing => cases calling
      | calling thread call =>
        cases calling
        exact ⟨siteJob, thread, rfl⟩

/-- The buffer that a delivery gives back after its write: as the write has left it, and empty if
the write has not succeeded. -/
def leftIn [Clearable β] [EventEncoder ε β] (encoder : ε) (event : Event) (buffer : β) : β :=
  let attempt := EventEncoder.encode event encoder buffer
  if attempt.outcome = .returned () then attempt.buffer else Clearable.clear attempt.buffer

/-- How an access handles a delivery: it leads from what was being delivered before the access, if
anything was, to what is being delivered after it. -/
inductive Handles [Clearable β] [BufferSupply π β] [EventEncoder ε β] (reporter : Reporter π ε) :
    Option (Purpose × Delivery β) → Option (Purpose × Delivery β) → Prop where
  | nothing : Handles reporter none none
  | opens (purpose : Purpose) (draft : Draft) :
    Handles reporter none (some (purpose, .obtaining draft))
  | obtains (purpose : Purpose) (draft : Draft) (buffer : β)
    (lent : (BufferSupply.lend reporter.supply).result = .ok (some buffer)) :
    Handles reporter (some (purpose, .obtaining draft)) (some (purpose, .stamping draft buffer))
  | goesWithout (purpose : Purpose) (draft : Draft)
    (kept : ∀ buffer, (BufferSupply.lend reporter.supply).result ≠ .ok (some buffer)) :
    Handles reporter (some (purpose, .obtaining draft)) none
  | completes (purpose : Purpose) (draft : Draft) (buffer : β) (current : Timestamp) :
    Handles reporter (some (purpose, .stamping draft buffer))
      (some (purpose, .writing (draft.complete current reporter.numbering).1 buffer))
  | writes (purpose : Purpose) (event : Event) (buffer : β) :
    Handles reporter (some (purpose, .writing event buffer))
      (some (purpose, .returning (EventEncoder.encode event reporter.encoder buffer).outcome
        (leftIn reporter.encoder event buffer)))
  | returns (purpose : Purpose) (written : Outcome IoFailure Unit) (buffer : β) :
    Handles reporter (some (purpose, .returning written buffer)) none

variable [Clearable β] [BufferSupply π β] [EventEncoder ε β]

/-- The delivery in progress after an access of a call. -/
def delivered? (result : Progress (Call β) (Outcome DeliveryFailure Unit)) :
    Option (Purpose × Delivery β) :=
  match result with
  | .continues next => next.delivery?
  | .finished _ => none

omit [Clearable β] [BufferSupply π β] [EventEncoder ε β] in
theorem delivered?_resume (purpose : Purpose) :
    delivered? (Call.resume purpose : Progress (Call β) (Outcome DeliveryFailure Unit)) = none := by
  cases purpose <;> rfl

/-- An access that makes progress with a delivery. -/
theorem handles_delivering (thread : Thread) (purpose : Purpose) (delivery : Delivery β)
    (site : Site π ε) :
    Handles site.reporter (some (purpose, delivery))
      (delivered? ((Call.delivering purpose delivery).step thread site).result) := by
  cases delivery with
  | obtaining draft =>
    simp only [Call.step, Delivery.step]
    cases lent : (BufferSupply.lend site.reporter.supply).result with
    | error failure => exact .goesWithout purpose draft (by simp [lent])
    | ok found =>
      cases found with
      | some buffer => exact .obtains purpose draft buffer lent
      | none =>
        simp only [delivered?_resume]
        exact .goesWithout purpose draft (by simp [lent])
  | stamping draft buffer => exact .completes purpose draft buffer _
  | writing event buffer => exact .writes purpose event buffer
  | returning written buffer =>
    simp only [Call.step, Delivery.step]
    cases (Delivery.conclude written (BufferSupply.ship buffer site.reporter.supply).result).1 with
    | returned value =>
      simp only [delivered?_resume]
      exact .returns purpose written buffer
    | failed error => exact .returns purpose written buffer
    | panicked message => exact .returns purpose written buffer

/-- An access of a call that is between two deliveries. -/
theorem handles_between {thread : Thread} {call : Call β} {site : Site π ε}
    (between : call.delivery? = none) :
    Handles site.reporter (none : Option (Purpose × Delivery β))
      (delivered? (call.step thread site).result) := by
  cases call with
  | delivering purpose delivery => cases between
  | entering request => cases request <;> first | exact .opens _ _ | exact .nothing
  | identifying activity entered phase =>
    simp only [Call.step]
    split <;> first | exact .opens _ _ | exact .nothing
  | resolvingMethod activity entered caller phase =>
    simp only [Call.step]
    split
    · exact .nothing
    · exact .opens _ _
    · cases activity <;> first | exact .opens _ _ | exact .nothing
  | resolvingException activity entered caller method raised phase =>
    simp only [Call.step]
    split <;> first | exact .opens _ _ | exact .nothing

/-- A call changes its supply only by what it asks of it. -/
theorem supply_step (thread : Thread) (call : Call β) (site : Site π ε) :
    (call.step thread site).state.reporter.supply =
      match call.delivery? with
      | some (_, .obtaining _) => (BufferSupply.lend site.reporter.supply).state
      | some (_, .returning _ buffer) => (BufferSupply.ship buffer site.reporter.supply).state
      | _ => site.reporter.supply := by
  cases call with
  | entering request => rfl
  | identifying | resolvingMethod | resolvingException =>
    simp only [Call.step, Call.delivery?]
    split <;> rfl
  | delivering purpose delivery =>
    cases delivery with
    | obtaining draft =>
      simp only [Call.step, Call.delivery?, Delivery.step]
      split <;> rfl
    | stamping | writing | returning => rfl

/-- What an access at an open site can be. -/
inductive Happens (obeys : δ → π × ε → π × ε) (before : Site π ε) :
    Phase β δ → Progress (Phase β δ) (Option (Outcome DeliveryFailure Unit)) → Site π ε → Prop where
  | goesOn (job : Site.Job) (thread : Thread) (call next : Call β)
    (stepped : (call.step thread before).result = .continues next) :
    Happens obeys before (.atSite job (.calling thread call))
      (.continues (.atSite job (.calling thread next))) (call.step thread before).state
  | ends (job : Site.Job) (thread : Thread) (call : Call β)
    (outcome : Outcome DeliveryFailure Unit)
    (stepped : (call.step thread before).result = .finished outcome) :
    Happens obeys before (.atSite job (.calling thread call)) (.finished (some outcome))
      (call.step thread before).state
  | changes (job : Site.Job) (change : Host.Change) :
    Happens obeys before (.atSite job (.changing change)) (.finished none)
      { before with host := before.host.apply change }
  | obeys (order : δ) :
    Happens obeys before (.ordering order) (.finished none) (obey obeys order before)

theorem happens_of_step {obeys : δ → π × ε → π × ε} {job : Job δ} {phase : Phase β δ}
    {before after : Site π ε} {moved : Progress (Phase β δ) (Option (Outcome DeliveryFailure Unit))}
    (made : (procedure obeys).step job phase before = (moved, after)) :
    Happens obeys before phase moved after := by
  cases phase with
  | ordering order =>
    cases made
    exact .obeys order
  | atSite siteJob sitePhase =>
    cases sitePhase with
    | changing change =>
      cases made
      exact .changes siteJob change
    | calling thread call =>
      simp only [procedure, Site.procedure] at made
      cases stepped : (call.step thread before).result with
      | continues next =>
        rw [stepped] at made
        cases made
        exact .goesOn siteJob thread call next stepped
      | finished outcome =>
        rw [stepped] at made
        cases made
        exact .ends siteJob thread call outcome stepped

theorem step_calling (obeys : δ → π × ε → π × ε) (job : Job δ) (siteJob : Site.Job)
    (thread : Thread) (call : Call β) (site : Site π ε) :
    (procedure obeys).step job (.atSite siteJob (.calling thread call)) site =
      (Phase.ofCall siteJob thread (call.step thread site).result,
        (call.step thread site).state) := by
  simp only [procedure, Site.procedure]
  cases (call.step thread site).result <;> rfl

theorem moved_of_calling {obeys : δ → π × ε → π × ε} {access : SiteAccess π ε β δ}
    {siteJob : Site.Job} {thread : Thread} {call : Call β}
    (made : (procedure obeys).step access.job access.phase access.before =
      (access.moved, access.after))
    (calling : access.phase = .atSite siteJob (.calling thread call)) :
    access.moved = Phase.ofCall siteJob thread (call.step thread access.before).result := by
  rw [calling, step_calling] at made
  exact (Prod.mk.inj made).1.symm

/-- An access changes the supply by an order, or by what a delivery asks of the supply. -/
theorem supply_of_step {obeys : δ → π × ε → π × ε} {access : SiteAccess π ε β δ}
    (made : (procedure obeys).step access.job access.phase access.before =
      (access.moved, access.after)) :
    (∃ order, access.phase.delivery? = none ∧ access.after.reporter.supply =
      (obeys order (access.before.reporter.supply, access.before.reporter.encoder)).1) ∨
    access.after.reporter.supply =
      match access.phase.delivery? with
      | some (_, .obtaining _) => (BufferSupply.lend access.before.reporter.supply).state
      | some (_, .returning _ buffer) =>
        (BufferSupply.ship buffer access.before.reporter.supply).state
      | _ => access.before.reporter.supply := by
  obtain ⟨turn, job, phase, before, moved, after⟩ := access
  simp only at made
  cases happens_of_step made with
  | goesOn job thread call next stepped => exact .inr (supply_step thread call before)
  | ends job thread call outcome stepped => exact .inr (supply_step thread call before)
  | changes job change => exact .inr rfl
  | obeys order => exact .inl ⟨order, rfl, rfl⟩

omit [Clearable β] [EventEncoder ε β] in
/-- The access leaves the supply as what its delivery asks of the supply does, or as an order does. -/
def Supplied (obeys : δ → π × ε → π × ε) (access : SiteAccess π ε β δ) : Prop :=
  match access.phase, access.phase.delivery? with
  | .ordering order, _ => access.after.reporter.supply =
    (obeys order (access.before.reporter.supply, access.before.reporter.encoder)).1
  | _, some (_, .obtaining _) =>
    access.after.reporter.supply = (BufferSupply.lend access.before.reporter.supply).state
  | _, some (_, .returning _ buffer) =>
    access.after.reporter.supply = (BufferSupply.ship buffer access.before.reporter.supply).state
  | _, _ => access.after.reporter.supply = access.before.reporter.supply

/-- Nothing else happens to the supply in any run. -/
theorem supplied_run (obeys : δ → π × ε → π × ε) (site : Site π ε) (work : List (List (Job δ)))
    (schedule : List Nat) :
    ∀ access ∈ (Interleaving.fresh site work).accesses (procedure obeys) schedule,
      Supplied obeys access := by
  intro access member
  obtain ⟨earlier, later, same⟩ := List.append_of_mem member
  have made := Interleaving.made_of_accesses (procedure obeys) _ schedule same
  have supplied (thread : Thread) (call : Call β) := supply_step thread call access.before
  obtain ⟨turn, job, phase, before, moved, after⟩ := access
  simp only at made supplied
  cases happens_of_step made with
  | obeys order => rfl
  | changes job change => rfl
  | goesOn job thread call next stepped | ends job thread call outcome stepped =>
    have own := supplied thread call
    cases call with
    | delivering purpose delivery => cases delivery <;> exact own
    | entering | identifying | resolvingMethod | resolvingException => exact own

/-- Every access at an open site handles at most one delivery, in one of the ways of `Handles`. -/
theorem handles_of_step {obeys : δ → π × ε → π × ε} {access : SiteAccess π ε β δ}
    (made : (procedure obeys).step access.job access.phase access.before =
      (access.moved, access.after)) :
    Handles access.before.reporter access.phase.delivery?
      (access.next?.bind fun next => next.phase.delivery?) := by
  obtain ⟨turn, job, phase, before, moved, after⟩ := access
  simp only at made
  have handled (thread : Thread) (call : Call β) :
      Handles before.reporter call.delivery? (delivered? (call.step thread before).result) := by
    cases call with
    | delivering purpose delivery => exact handles_delivering thread purpose delivery before
    | entering | identifying | resolvingMethod | resolvingException => exact handles_between rfl
  cases happens_of_step made with
  | goesOn job thread call next stepped =>
    have own := handled thread call
    rw [stepped] at own
    exact own
  | ends job thread call outcome stepped =>
    have own := handled thread call
    rw [stepped] at own
    exact own
  | changes | obeys => exact .nothing

omit [Clearable β] [BufferSupply π β] [EventEncoder ε β] in
/-- No job starts with a delivery. -/
@[simp] theorem delivery?_start (job : Job δ) : (job.start : Phase β δ).delivery? = none := by
  cases job with
  | order wanted => rfl
  | atSite siteJob => cases siteJob <;> rfl

/-- What holds between deliveries, is not lost by further accesses and is kept by what an access
does to its own delivery, holds of every delivery whenever it makes an access. -/
theorem delivery_induction
    {motive : List (SiteAccess π ε β δ) → Turn → Option (Purpose × Delivery β) → Prop}
    (obeys : δ → π × ε → π × ε) (site : Site π ε) (work : List (List (Job δ)))
    (schedule : List Nat) (between : ∀ past turn, motive past turn none)
    (mono : ∀ past access turn delivery?, motive past turn delivery? →
      motive (past ++ [access]) turn delivery?)
    (handled : ∀ past (access : SiteAccess π ε β δ) next?,
      Handles access.before.reporter access.phase.delivery? next? →
      motive past access.turn access.phase.delivery? →
      motive (past ++ [access]) access.turn next?)
    {earlier later : List (SiteAccess π ε β δ)} {access : SiteAccess π ε β δ}
    (same : (Interleaving.fresh site work).accesses (procedure obeys) schedule =
      earlier ++ access :: later) :
    motive earlier access.turn access.phase.delivery? := by
  refine (Interleaving.underway_induction (motive := fun past engagement =>
    motive past engagement.turn engagement.phase.delivery?)
    (procedure obeys) site work ?_ ?_ ?_ schedule).2 earlier access later same
  · intro past turn job silent
    change motive past turn (job.start : Phase β δ).delivery?
    rw [delivery?_start]
    exact between past turn
  · intro past other engagement different holds
    exact mono past other _ _ holds
  · intro past own next made goesOn holds
    have handles := handles_of_step made
    rw [goesOn, Option.bind_some] at handles
    rw [Access.turn_next goesOn]
    exact handled past own _ handles holds

/-- The rank of a phase at an open site. -/
def Phase.rank (phase : Phase β δ) : Nat := (phase.call?.map Call.rank).getD 0

/-- The rank of a job at an open site falls with every access. -/
theorem rank_lt_of_step {obeys : δ → π × ε → π × ε} {access : SiteAccess π ε β δ}
    {next : Engagement (Job δ) (Phase β δ)}
    (made : (procedure obeys).step access.job access.phase access.before =
      (access.moved, access.after)) (goesOn : access.next? = some next) :
    next.phase.rank < access.phase.rank := by
  obtain ⟨turn, job, phase, before, moved, after⟩ := access
  simp only at made
  cases happens_of_step made with
  | goesOn job thread call next stepped =>
    cases goesOn
    exact Call.rank_step_lt stepped
  | ends | changes | obeys => cases goesOn

/-- A strand of an open site that has turns enough ends each of its jobs, in their order. -/
theorem exists_done (obeys : δ → π × ε → π × ε) (site : Site π ε) (work : List (List (Job δ)))
    {number : Nat} {jobs : List (Job δ)} (listed : work[number]? = some jobs) (schedule : List Nat)
    (enough : 31 * jobs.length ≤ schedule.count number) :
    ∃ done, ((Interleaving.fresh site work).run (procedure obeys) schedule).strands[number]? =
      some done ∧ done.jobs = [] ∧ done.going = none ∧ done.results.map Prod.fst = jobs := by
  refine Interleaving.exists_done (procedure obeys) Phase.rank ?_ ?_ site work listed schedule
    enough
  · intro job
    cases job with
    | order wanted => exact Nat.succ_pos 29
    | atSite siteJob => cases siteJob <;> simp [procedure, Job.start, Site.Job.start, Phase.rank,
        Phase.call?, Call.rank]
  · intro access next made goesOn
    exact rank_lt_of_step made goesOn

end OpenSite

end TraceRelay
