import TraceRelay.Proofs.Delivery.Handling
import TraceRelay.Proofs.IdTable.Consistency

/-! The two tables of ids at an open site stay consistent with the calls in progress. -/

namespace TraceRelay

/-- The tables of ids of a reporter. -/
inductive Register where
  | methods
  | exceptions
deriving DecidableEq, Repr

namespace Register

variable {π ε β : Type}

/-- The table of a reporter. -/
def table (register : Register) (reporter : Reporter π ε) : IdTable String :=
  match register with
  | .methods => reporter.methods
  | .exceptions => reporter.exceptions

/-- What a call looks up in the table, and how far it has come. -/
def inquiry? : Register → Call β → Option (Inquiry String)
  | .methods, .resolvingMethod activity _ _ phase => some (activity.method, .resolving phase)
  | .methods, .delivering (.announceMethod activity _ _ id) _ =>
    some (activity.method, .announcing id)
  | .exceptions, .resolvingException _ _ _ _ raised phase => some (raised, .resolving phase)
  | .exceptions, .delivering (.announceException _ _ _ _ raised id) _ =>
    some (raised, .announcing id)
  | _, _ => none

/-- What a call looks up in the table after an access. -/
def upcoming? (register : Register)
    (result : Progress (Call β) (Outcome DeliveryFailure Unit)) : Option (Inquiry String) :=
  match result with
  | .continues next => register.inquiry? next
  | .finished _ => none

variable [Clearable β] [BufferSupply π β] [EventEncoder ε β]

/-- Each access of a call uses each table for the lookup of the call. -/
theorem uses_step (register : Register) (thread : Thread) (call : Call β) (site : Site π ε) :
    Inquiry.Uses (register.table site.reporter) (register.inquiry? call)
      (register.upcoming? (call.step thread site).result)
      (register.table (call.step thread site).state.reporter) := by
  cases call with
  | entering request =>
    cases register <;> cases request <;> exact .nothing
  | identifying activity entered phase =>
    simp only [Call.step]
    split
    · cases register <;> exact .nothing
    · cases register <;> exact .nothing
    · cases register with
      | methods => exact .begins activity.method
      | exceptions => exact .nothing
  | resolvingMethod activity entered caller phase =>
    cases resolved : phase.step activity.method site.reporter.methods with
    | mk found methods =>
      simp only [Call.step, resolved]
      cases register with
      | methods =>
        cases found with
        | continues next => exact .continues resolved
        | announces id => exact .announces resolved
        | returns id => cases activity <;> exact .returns resolved
      | exceptions =>
        cases found with
        | continues next => exact .nothing
        | announces id => exact .nothing
        | returns id =>
          cases activity with
          | entry | exit => exact .nothing
          | exception raised | bubble raised => exact .begins raised
  | resolvingException activity entered caller method raised phase =>
    cases resolved : phase.step raised site.reporter.exceptions with
    | mk found exceptions =>
      simp only [Call.step, resolved]
      cases register with
      | methods => cases found <;> exact .nothing
      | exceptions =>
        cases found with
        | continues next => exact .continues resolved
        | announces id => exact .announces resolved
        | returns id => exact .returns resolved
  | delivering purpose delivery =>
    have same : register.table (delivery.step site.host.clock site.reporter).state =
        register.table site.reporter := by
      cases register <;> cases delivery <;> simp only [Delivery.step] <;>
        first | rfl | (split <;> rfl)
    simp only [Call.step, same]
    cases (delivery.step site.host.clock site.reporter).result with
    | continues next =>
      cases register <;> cases purpose <;> first | exact .nothing | exact .delivers _ _
    | finished outcome =>
      cases outcome with
      | returned value =>
        cases register <;> cases purpose <;> first | exact .nothing | exact .announced _ _
      | failed | panicked =>
        cases register <;> cases purpose <;> first | exact .nothing | exact .fails _ _

end Register

namespace OpenSite

variable {π ε β δ : Type}

/-- What is looked up in a table in a phase. -/
def Phase.inquiry? (register : Register) (phase : Phase β δ) : Option (Inquiry String) :=
  phase.call?.bind register.inquiry?

/-- What is looked up in a table after an access. -/
def nextInquiry? (register : Register) (access : SiteAccess π ε β δ) : Option (Inquiry String) :=
  access.next?.bind fun next => next.phase.inquiry? register

/-- The number of ids that accesses have drawn from a table. -/
def drawn (register : Register) (past : List (SiteAccess π ε β δ)) : Nat :=
  (past.map fun access => Inquiry.draws (access.phase.inquiry? register)).sum

/-- The announcements of ids of a table that accesses have started, in order. -/
def announced (register : Register) (past : List (SiteAccess π ε β δ)) : List (String × UInt32) :=
  past.filterMap fun access =>
    Inquiry.opens? (access.phase.inquiry? register) (nextInquiry? register access)

theorem drawn_concat (register : Register) (past : List (SiteAccess π ε β δ))
    (access : SiteAccess π ε β δ) : drawn register (past ++ [access]) =
      drawn register past + Inquiry.draws (access.phase.inquiry? register) := by
  simp [drawn]

theorem announced_concat (register : Register) (past : List (SiteAccess π ε β δ))
    (access : SiteAccess π ε β δ) : announced register (past ++ [access]) =
      announced register past ++ (Inquiry.opens? (access.phase.inquiry? register)
        (nextInquiry? register access)).toList := by
  rw [announced, List.filterMap_append, filterMap_singleton]
  rfl

/-- No job starts with a lookup. -/
@[simp] theorem inquiry?_start (register : Register) (job : Job δ) :
    (job.start : Phase β δ).inquiry? register = none := by
  cases job with
  | order wanted => rfl
  | atSite siteJob => cases register <;> cases siteJob <;> rfl

variable [Clearable β] [BufferSupply π β] [EventEncoder ε β] {obeys : δ → π × ε → π × ε}

/-- Each access at an open site uses each table for at most one lookup. -/
theorem uses_of_step (register : Register) {access : SiteAccess π ε β δ}
    (made : (procedure obeys).step access.job access.phase access.before =
      (access.moved, access.after)) :
    Inquiry.Uses (register.table access.before.reporter) (access.phase.inquiry? register)
      (nextInquiry? register access) (register.table access.after.reporter) := by
  obtain ⟨turn, job, phase, before, moved, after⟩ := access
  simp only at made
  cases happens_of_step made with
  | goesOn job thread call next stepped =>
    have uses := register.uses_step thread call before
    rw [stepped] at uses
    exact uses
  | ends job thread call outcome stepped =>
    have uses := register.uses_step thread call before
    rw [stepped] at uses
    exact uses
  | changes job change => exact .nothing
  | obeys order => cases register <;> exact .nothing

/-- The tables of an open site fit the calls in progress in every run that draws each id at most
once. -/
theorem consistent_run (register : Register) (site : Site π ε)
    (new : register.table site.reporter = {}) (work : List (List (Job δ))) (schedule : List Nat)
    (few : drawn register ((Interleaving.fresh site work).accesses (procedure obeys) schedule)
      < 2 ^ 32) :
    (register.table ((Interleaving.fresh site work).run (procedure obeys)
      schedule).shared.reporter).Consistent
      (((Interleaving.fresh site work).run (procedure obeys) schedule).underway.filterMap
        fun engagement => engagement.phase.inquiry? register)
      (announced register ((Interleaving.fresh site work).accesses (procedure obeys) schedule))
      (drawn register ((Interleaving.fresh site work).accesses (procedure obeys) schedule)) := by
  revert few
  refine Interleaving.run_induction (motive := fun traffic past => drawn register past < 2 ^ 32 →
    (register.table traffic.shared.reporter).Consistent (traffic.underway.filterMap
      fun engagement => engagement.phase.inquiry? register) (announced register past)
      (drawn register past)) (procedure obeys) _ ?_ ?_ ?_ schedule
  · intro _
    rw [Interleaving.underway_fresh]
    change (register.table site.reporter).Consistent [] [] 0
    rw [new]
    exact IdTable.Consistent.empty
  · intro traffic past number strand job jobs kept found idle next few
    obtain ⟨earlier, later, before, after⟩ :=
      Interleaving.underway_afterStart (procedure obeys) job jobs found idle
    have start : ((procedure obeys : Procedure (Site π ε) _ (Phase β δ) _).start job).inquiry?
        register = none := inquiry?_start register job
    have consistent := kept few
    rw [before] at consistent
    rw [after]
    simp only [List.append_nil, List.filterMap_append, List.filterMap_cons, List.filterMap_nil,
      start] at consistent ⊢
    exact consistent
  · intro traffic past strand access kept makes few
    obtain ⟨earlier, later, before, after⟩ := makes.underway
    rw [drawn_concat] at few ⊢
    have consistent := kept (by omega)
    have uses := uses_of_step register makes.made
    rw [before, ← makes.before] at consistent
    rw [after, announced_concat]
    simp only [List.filterMap_append, filterMap_singleton, filterMap_toList] at consistent ⊢
    exact uses.consistent few consistent

end OpenSite

end TraceRelay
