import Mathlib.Logic.Function.Iterate
import TraceRelay.Proofs.Stream.Outline

/-! As long as nothing fails, the course of calls is given by their outline. -/

namespace TraceRelay.OpenSite

variable {π ε β δ : Type}

/-- The access changes nothing but the supply and the encoder, or the clock. -/
def Phase.isQuiet : Phase β δ → Bool
  | .ordering _ => true
  | .atSite _ (.changing (.advance _)) => true
  | _ => false

/-- The job makes no call: it is an order to the supply and the encoder, or the clock goes on. -/
def Job.isQuiet : Job δ → Bool
  | .order _ => true
  | .atSite (.change (.advance _)) => true
  | _ => false

theorem isQuiet_of_engages {job : Job δ} {phase : Phase β δ}
    {call? : Option (Thread × Request × Call β)} (engages : Engages (some (job, phase)) call?)
    (quiet : job.isQuiet = true) : phase.isQuiet = true := by
  cases engages with
  | calls => cases quiet
  | obeys => rfl
  | changes change =>
    cases change with
    | advance => rfl
    | rename | endThread => cases quiet

theorem delivery?_of_quiet {phase : Phase β δ} (quiet : phase.isQuiet = true) :
    phase.delivery? = none := by
  cases phase with
  | ordering order => rfl
  | atSite job sitePhase =>
    cases sitePhase with
    | changing change => rfl
    | calling => cases quiet

/-- The strand with its job in progress replaced by the outline of the job. -/
def outlined (strand : SiteStrand β δ) : SiteStrand Empty δ :=
  match strand.going with
  | none => { jobs := strand.jobs, ended := strand.ended }
  | some (job, phase) =>
    Strand.after { jobs := strand.jobs, ended := strand.ended } job phase.outline

/-- The outline of a strand of calls: the strand and the site without what the supply and the
encoder do, and the events for which buffers have been asked for. -/
structure Outline (δ : Type) where
  strand : SiteStrand Empty δ
  site : Site Dry Dry
  asks : List (DeliveryId × Draft) := []

/-- The next step of the calls, if the clock shows what it has to in their turns. -/
def Outline.advance (clock : Turn → Nat) (outline : Outline δ) : Outline δ :=
  let turn : Turn := ⟨0, outline.strand.ended.length⟩
  let moved := outline.strand.advance (procedure fun _ collaborators => collaborators)
    (outline.site.outline (clock turn))
  { strand := moved.1
    site := moved.2.outline 0
    asks := outline.asks ++ (outline.strand.going.bind fun entry => entry.2.draft? turn).toList }

theorem Outline.advance_of_going {outline : Outline δ} (clock : Turn → Nat) {job : Job δ}
    {phase : Phase Empty δ} {after : Site Dry Dry}
    {moved : Progress (Phase Empty δ) (Option (Outcome DeliveryFailure Unit))}
    (going : outline.strand.going = some (job, phase))
    (stepped : (procedure fun _ collaborators => collaborators).step job phase
      (outline.site.outline (clock ⟨0, outline.strand.ended.length⟩)) = (moved, after)) :
    outline.advance clock =
      { strand := outline.strand.after job moved
        site := after.outline 0
        asks := outline.asks ++ (phase.draft? ⟨0, outline.strand.ended.length⟩).toList } := by
  simp only [advance, Strand.advance_of_going _ _ _ going, stepped, going, Option.bind_some]

/-- The outline of what a run has come to. -/
def outline (strand : SiteStrand β δ) (site : Site π ε) (past : List (SiteAccess π ε β δ)) :
    Outline δ :=
  { strand := outlined strand, site := site.outline 0, asks := drafts past }

theorem outlined_after (strand : SiteStrand β δ) (job : Job δ)
    (moved : Progress (Phase β δ) (Option (Outcome DeliveryFailure Unit))) :
    outlined (strand.after job moved) =
      Strand.after { jobs := strand.jobs, ended := strand.ended } job
        (moved.andThen Phase.outline) := by
  cases moved <;> rfl

/-- An outline without calls is complete. -/
theorem Outline.advance_of_done (clock : Turn → Nat) {outline : Outline δ}
    (finished : outline.strand.jobs = []) (idle : outline.strand.going = none)
    (plain : outline.site.outline 0 = outline.site) : outline.advance clock = outline := by
  obtain ⟨⟨jobs, going, ended⟩, site, asks⟩ := outline
  cases finished
  cases idle
  simp only [advance, Strand.advance, Option.bind_none, Option.toList_none, List.append_nil]
  exact congrArg (Outline.mk _ · asks) plain

/-- The outline of calls that have ended is complete. -/
theorem advance_outline_of_done (clock : Turn → Nat) {strand : SiteStrand β δ}
    (finished : strand.jobs = []) (idle : strand.going = none) (site : Site π ε)
    (past : List (SiteAccess π ε β δ)) :
    (outline strand site past).advance clock = outline strand site past := by
  have bare : outlined strand = { jobs := [], ended := strand.ended } := by
    rw [outlined, idle, finished]
  exact Outline.advance_of_done clock (congrArg Strand.jobs bare) (congrArg Strand.going bare) rfl

/-- A step that is made often enough leads to one fixed point only. -/
theorem iterate_eq_of_fixed {α : Type} {step : α → α} {start : α} {first second : Nat}
    (fixed : step (step^[first] start) = step^[first] start)
    (fixedToo : step (step^[second] start) = step^[second] start) :
    step^[first] start = step^[second] start :=
  calc step^[first] start = step^[second] (step^[first] start) :=
        (Function.iterate_fixed fixed second).symm
    _ = step^[first] (step^[second] start) := by
        rw [← Function.iterate_add_apply, Nat.add_comm, Function.iterate_add_apply]
    _ = step^[second] start := Function.iterate_fixed fixedToo first

section Runs

variable [Clearable β] [BufferSupply π β] [EventEncoder ε β] {obeys : δ → π × ε → π × ε}
  {access : SiteAccess π ε β δ} {past : List (SiteAccess π ε β δ)} {strand : SiteStrand β δ}

/-- The start of a job is a step of the outline. -/
theorem outline_of_start (obeys : δ → π × ε → π × ε) (clock : Turn → Nat) {job : Job δ}
    {jobs : List (Job δ)} (idle : strand.going = none) (next : strand.jobs = job :: jobs)
    (site : Site π ε) :
    outline { strand with going := some (job, (procedure obeys).start job), jobs } site past =
      (outline strand site past).advance clock := by
  obtain ⟨own, going, ended⟩ := strand
  cases idle
  cases next
  simp only [Outline.advance, outline, outlined, Strand.advance, Option.bind_none,
    Option.toList_none, List.append_nil]
  cases job with
  | order wanted => rfl
  | atSite siteJob => cases siteJob <;> rfl

omit [Clearable β] [BufferSupply π β] [EventEncoder ε β] in
theorem draft?_of_held {purpose : Purpose} {delivery : Delivery β} {buffer : β}
    (delivering : access.phase.delivery? = some (purpose, delivery))
    (held : delivery.buffer? = some buffer) : access.phase.draft? access.turn = none := by
  cases delivery with
  | obtaining draft => cases held
  | stamping | writing | returning => simp [Phase.draft?, delivering]

/-- An access leaves the outline of its strand as it is, if it is one of a delivery that has a
buffer in hand. Otherwise it is the next step. -/
theorem outline_of_access (clock : Turn → Nat)
    (going : strand.going = some (access.job, access.phase))
    (turn : access.turn = ⟨0, strand.ended.length⟩)
    (made : (procedure obeys).step access.job access.phase access.before =
      (access.moved, access.after)) (smooth : Smooth access)
    (timed : readsClock? access = some (access.turn, none) →
      access.before.host.clock = clock access.turn)
    (written : ∀ purpose ended buffer,
      access.phase.delivery? = some (purpose, .returning ended buffer) → ended = .returned ()) :
    outline (strand.after access.job access.moved) access.after (past ++ [access]) =
        outline strand access.before past ∨
      outline (strand.after access.job access.moved) access.after (past ++ [access]) =
        (outline strand access.before past).advance clock := by
  have here : outlined strand =
      Strand.after { jobs := strand.jobs, ended := strand.ended } access.job
        access.phase.outline := by
    simp only [outlined, going]
  -- The outline went past the delivery with the access that asked for its buffer: until the buffer
  -- is shipped the outline stands still.
  by_cases holding : ∃ purpose delivery buffer,
      access.phase.delivery? = some (purpose, delivery) ∧ delivery.buffer? = some buffer
  · obtain ⟨purpose, delivery, buffer, delivering, held⟩ := holding
    left
    obtain ⟨moved, after⟩ := outline_of_held made delivering held smooth
      (fun ended own returning => written purpose ended own (returning ▸ delivering))
    simp only [outline, outlined_after, moved, after, here, drafts_concat,
      draft?_of_held delivering held, Option.toList_none, List.append_nil]
  · right
    have free (purpose : Purpose) (delivery : Delivery β)
        (delivering : access.phase.delivery? = some (purpose, delivery)) :
        delivery.buffer? = none := by
      cases held : delivery.buffer? with
      | none => rfl
      | some buffer => exact absurd ⟨purpose, delivery, buffer, delivering, held⟩ holding
    obtain ⟨next, after, continues, stepped, same⟩ :=
      outline_of_step (clock access.turn) made free smooth timed
    rw [continues] at here
    have inProgress : (outline strand access.before past).strand.going =
        some (access.job, next) := by
      rw [outline, here]
      rfl
    have own : access.turn = ⟨0, (outline strand access.before past).strand.ended.length⟩ := by
      rw [turn, outline, here]
      rfl
    have advanced := Outline.advance_of_going clock inProgress (own ▸ stepped)
    rw [advanced, same, ← own, draft?_outline access.turn continues free]
    simp only [outline, outlined_after, here, drafts_concat]
    cases access.moved.andThen Phase.outline <;> rfl

/-- A quiet access leaves every outline as it is. -/
theorem outline_of_quiet (quiet : access.phase.isQuiet = true)
    (made : (procedure obeys).step access.job access.phase access.before =
      (access.moved, access.after)) :
    outline strand access.after (past ++ [access]) = outline strand access.before past := by
  obtain ⟨turn, job, phase, before, moved, after⟩ := access
  simp only at quiet made
  cases phase with
  | ordering order =>
    cases made
    simp [outline, drafts_concat, Phase.draft?, Phase.delivery?, Phase.call?]
    rfl
  | atSite siteJob sitePhase =>
    cases sitePhase with
    | calling => cases quiet
    | changing change =>
      cases change with
      | rename | endThread => cases quiet
      | advance nanoseconds =>
        cases made
        simp [outline, drafts_concat, Phase.draft?, Phase.delivery?, Phase.call?]
        rfl

/-- No delivery meets a failure, the clock shows at each place what it has to, and only the first
strand makes calls. What is given back has been written before, and nothing is written twice. -/
structure Undisturbed (clock : Turn → Option Stage → Nat) (past : List (SiteAccess π ε β δ)) :
    Prop where
  smooth : ∀ access ∈ past, Smooth access
  steady : ∀ access ∈ past, ∀ place ∈ readsClock? access,
    access.before.host.clock = clock place.1 place.2
  alone : ∀ access ∈ past, access.turn.strand ≠ 0 → access.phase.isQuiet = true
  first : WritesFirst past
  once : (wrote past).Nodup

theorem Undisturbed.before {clock : Turn → Option Stage → Nat}
    (undisturbed : Undisturbed clock (past ++ [access])) : Undisturbed clock past where
  smooth own member := undisturbed.smooth own (List.mem_append_left _ member)
  steady own member := undisturbed.steady own (List.mem_append_left _ member)
  alone own member := undisturbed.alone own (List.mem_append_left _ member)
  first := undisturbed.first.before
  once := by
    have once := undisturbed.once
    rw [wrote_concat] at once
    exact (List.nodup_append.mp once).1

/-- Another strand than the first one makes no call. -/
theorem Undisturbed.last_alone {clock : Turn → Option Stage → Nat}
    (undisturbed : Undisturbed clock (past ++ [access])) (apart : access.turn.strand ≠ 0) :
    access.phase.isQuiet = true :=
  undisturbed.alone access (by simp) apart

/-- What is given back has been written without a failure. -/
theorem Undisturbed.returned {clock : Turn → Option Stage → Nat}
    (undisturbed : Undisturbed clock past) {earlier later : List (SiteAccess π ε β δ)}
    (same : past = earlier ++ access :: later) {purpose : Purpose}
    {ended : Outcome IoFailure Unit} {buffer : β}
    (returning : access.phase.delivery? = some (purpose, .returning ended buffer)) :
    ended = .returned () :=
  undisturbed.first.returned undisturbed.smooth same returning

/-- If all jobs of the other strands are quiet, only the first strand makes calls. -/
theorem quiet_run (obeys : δ → π × ε → π × ε) (site : Site π ε) (jobs : List (Job δ))
    {others : List (List (Job δ))} (quiet : ∀ list ∈ others, ∀ job ∈ list, job.isQuiet = true)
    (schedule : List Nat) :
    ∀ access ∈ (Interleaving.fresh site (jobs :: others)).accesses (procedure obeys) schedule,
      access.turn.strand ≠ 0 → access.phase.isQuiet = true := by
  intro access member apart
  obtain ⟨listed, inWork, inside⟩ :=
    Interleaving.mem_work_of_accesses (procedure obeys) _ _ schedule member
  obtain ⟨earlier, later, same⟩ := List.append_of_mem member
  obtain ⟨call?, engages⟩ := engages_run obeys _ _ schedule same
  obtain ⟨number, later⟩ := Nat.exists_eq_succ_of_ne_zero apart
  rw [later, List.getElem?_cons_succ] at inWork
  exact isQuiet_of_engages engages
    (quiet listed (List.mem_of_getElem? inWork) access.job inside)

/-- A run is undisturbed if all jobs of the other strands are quiet, no delivery meets a failure and
the clock shows at each place what it has to. -/
theorem undisturbed_run {clock : Turn → Option Stage → Nat} (obeys : δ → π × ε → π × ε)
    (site : Site π ε) (jobs : List (Job δ)) {others : List (List (Job δ))}
    (quiet : ∀ list ∈ others, ∀ job ∈ list, job.isQuiet = true) (schedule : List Nat)
    (smooth : ∀ access ∈ (Interleaving.fresh site (jobs :: others)).accesses (procedure obeys)
      schedule, Smooth access)
    (steady : ∀ access ∈ (Interleaving.fresh site (jobs :: others)).accesses (procedure obeys)
      schedule, ∀ place ∈ readsClock? access,
        access.before.host.clock = clock place.1 place.2) :
    Undisturbed clock
      ((Interleaving.fresh site (jobs :: others)).accesses (procedure obeys) schedule) where
  smooth := smooth
  steady := steady
  first := writesFirst_run obeys site _ schedule
  once := wrote_nodup obeys site _ schedule
  alone := quiet_run obeys site jobs quiet schedule

/-- What holds of the first strand at first, and is kept by the start of each of its jobs, by its
accesses and by quiet accesses, holds of it after every run that stays within something in which
only the first strand makes calls. -/
theorem strand_induction
    {motive : SiteStrand β δ → Site π ε → List (SiteAccess π ε β δ) → Prop}
    {within : List (SiteAccess π ε β δ) → Prop} (obeys : δ → π × ε → π × ε) (site : Site π ε)
    (jobs : List (Job δ)) (others : List (List (Job δ)))
    (before : ∀ past access, within (past ++ [access]) → within past)
    (alone : ∀ past access, within (past ++ [access]) → access.turn.strand ≠ 0 →
      access.phase.isQuiet = true)
    (atFirst : motive { jobs } site [])
    (starts : ∀ strand shared past job rest, strand.going = none → strand.jobs = job :: rest →
      motive strand shared past →
      motive { strand with going := some (job, (procedure obeys).start job), jobs := rest }
        shared past)
    (accessed : ∀ strand past access, within (past ++ [access]) →
      strand.going = some (access.job, access.phase) →
      access.turn = ⟨0, strand.ended.length⟩ →
      (procedure obeys).step access.job access.phase access.before =
        (access.moved, access.after) →
      motive strand access.before past →
      motive (strand.after access.job access.moved) access.after (past ++ [access]))
    (passed : ∀ strand past access, within (past ++ [access]) → access.phase.isQuiet = true →
      (procedure obeys).step access.job access.phase access.before =
        (access.moved, access.after) →
      motive strand access.before past → motive strand access.after (past ++ [access]))
    (schedule : List Nat)
    (always : within
      ((Interleaving.fresh site (jobs :: others)).accesses (procedure obeys) schedule)) :
    ∃ strand,
      ((Interleaving.fresh site (jobs :: others)).run (procedure obeys) schedule).strands[0]? =
          some strand ∧
        motive strand
          ((Interleaving.fresh site (jobs :: others)).run (procedure obeys) schedule).shared
          ((Interleaving.fresh site (jobs :: others)).accesses (procedure obeys) schedule) := by
  revert always
  refine Interleaving.run_induction (motive := fun traffic past => within past →
    ∃ strand, traffic.strands[0]? = some strand ∧ motive strand traffic.shared past)
    (procedure obeys) _ ?_ ?_ ?_ schedule
  · intro inside
    exact ⟨{ jobs }, rfl, atFirst⟩
  · intro traffic past number own job rest kept found idle next inside
    obtain ⟨strand, first, holds⟩ := kept inside
    by_cases here : number = 0
    · subst here
      cases found.symm.trans first
      refine ⟨_, ?_, starts own traffic.shared past job rest idle next holds⟩
      rw [Interleaving.afterStart, List.getElem?_set_self', found]
      rfl
    · refine ⟨strand, ?_, holds⟩
      rw [Interleaving.afterStart, List.getElem?_set_ne here]
      exact first
  · intro traffic past own access kept makes inside
    obtain ⟨strand, first, holds⟩ := kept (before past access inside)
    rw [← makes.before] at holds
    by_cases here : access.turn.strand = 0
    · have turn : access.turn = ⟨0, own.ended.length⟩ := by
        rw [← here, ← makes.number]
      have found := makes.found
      rw [here] at found
      cases found.symm.trans first
      refine ⟨_, ?_, accessed own past access inside makes.going turn makes.made holds⟩
      rw [Interleaving.afterAccess, here, List.getElem?_set_self', first]
      rfl
    · refine ⟨strand, ?_,
        passed strand past access inside (alone past access inside here) makes.made holds⟩
      rw [Interleaving.afterAccess, List.getElem?_set_ne here]
      exact first

/-- The outline of an undisturbed run is what the calls make of it on their own. -/
theorem outline_run (obeys : δ → π × ε → π × ε) (site : Site π ε) (jobs : List (Job δ))
    (others : List (List (Job δ))) (schedule : List Nat) (clock : Turn → Option Stage → Nat)
    (undisturbed : Undisturbed clock
      ((Interleaving.fresh site (jobs :: others)).accesses (procedure obeys) schedule)) :
    ∃ strand,
      ((Interleaving.fresh site (jobs :: others)).run (procedure obeys) schedule).strands[0]? =
          some strand ∧
        ∃ steps, outline strand
            ((Interleaving.fresh site (jobs :: others)).run (procedure obeys) schedule).shared
            ((Interleaving.fresh site (jobs :: others)).accesses (procedure obeys) schedule) =
          (Outline.advance fun turn => clock turn none)^[steps]
            { strand := { jobs }, site := site.outline 0 } := by
  refine strand_induction (motive := fun strand shared past => ∃ steps,
    outline strand shared past = (Outline.advance fun turn => clock turn none)^[steps]
      { strand := { jobs }, site := site.outline 0 })
    obeys site jobs others (fun _ _ => Undisturbed.before) (fun _ _ => Undisturbed.last_alone)
    ?_ ?_ ?_ ?_ schedule undisturbed
  · exact ⟨0, rfl⟩
  · rintro strand shared past job rest idle next ⟨steps, same⟩
    refine ⟨steps + 1, ?_⟩
    rw [Function.iterate_succ_apply', ← same]
    exact outline_of_start obeys _ idle next shared
  · rintro strand past access undisturbed going turn made ⟨steps, same⟩
    have new : access ∈ past ++ [access] := by simp
    rcases outline_of_access (fun turn => clock turn none) going turn made
        (undisturbed.smooth access new) (undisturbed.steady access new (access.turn, none))
        (fun _ _ _ returning => undisturbed.returned rfl returning) with still | moved
    · exact ⟨steps, still.trans same⟩
    · refine ⟨steps + 1, ?_⟩
      rw [Function.iterate_succ_apply', ← same]
      exact moved
  · rintro strand past access undisturbed quiet made ⟨steps, same⟩
    exact ⟨steps, (outline_of_quiet quiet made).trans same⟩

end Runs

end TraceRelay.OpenSite
