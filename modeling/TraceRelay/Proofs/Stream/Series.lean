import TraceRelay.Proofs.Stream.Alone
import TraceRelay.Proofs.Stream.Fulfilment

/-! Reports that one strand makes one after the other while nothing fails. -/

namespace TraceRelay.OpenSite

section Clocks

variable {π ε β δ : Type}

/-- The rank of a call at a place where it reads the clock. -/
def placeRank (place : Turn × Option Stage) : Nat :=
  match place.2 with
  | none => 29
  | some stage => stage.rank - 1

theorem rank_of_readsClock {access : SiteAccess π ε β δ} {place : Turn × Option Stage}
    (reads : readsClock? access = some place) :
    access.turn = place.1 ∧ access.phase.rank = placeRank place := by
  unfold readsClock? at reads
  split at reads
  · rename_i entering
    split at reads <;> cases reads
    exact ⟨rfl, by rw [entering]; rfl⟩
  · rename_i purpose id name buffer stamping
    cases reads
    refine ⟨rfl, ?_⟩
    have delivering : access.phase.delivery? =
        some (purpose, .stamping (.threadMapping id name) buffer) := by
      rw [stamping]
      rfl
    have rank : access.phase.rank + 3 = purpose.stage.rank + 2 := rank_of_delivery delivering
    simp only [placeRank]
    omega
  · cases reads

variable [Clearable β] [BufferSupply π β] [EventEncoder ε β]

/-- The clock is read once at each place, so there is one time for each place. -/
theorem exists_clock (obeys : δ → π × ε → π × ε) (site : Site π ε) (work : List (List (Job δ)))
    (schedule : List Nat) : ∃ clock : Turn → Option Stage → Nat,
      ∀ access ∈ (Interleaving.fresh site work).accesses (procedure obeys) schedule,
        ∀ place ∈ readsClock? access, access.before.host.clock = clock place.1 place.2 := by
  let past := (Interleaving.fresh site work).accesses (procedure obeys) schedule
  have once : (past.filterMap readsClock?).Nodup :=
    nodup_of_fixed (ranks_fall_run obeys site work schedule) Prod.fst placeRank
      fun _ _ => rank_of_readsClock
  refine ⟨fun turn stage => ((past.find? fun access =>
    readsClock? access = some (turn, stage)).map (·.before.host.clock)).getD 0, ?_⟩
  intro access member place reads
  cases found : past.find? fun other => readsClock? other = some (place.1, place.2) with
  | none =>
    have apart := List.find?_eq_none.mp found access member
    exact absurd reads (by simpa using apart)
  | some other =>
    have own : readsClock? other = some place := by simpa using List.find?_some found
    have same := filterMap_unique once member (List.mem_of_find?_eq_some found) reads own
    simp only [found, same, Option.map_some, Option.getD_some]

end Clocks

section Courses

variable {π ε β δ : Type} [Clearable β] [BufferSupply π β] [EventEncoder ε β]
  {obeys : δ → π × ε → π × ε} {site : Site π ε}

/-- If every delivery that asks for a buffer gets one, all drafts are written. -/
theorem granted_of_served {work : List (List (Job δ))} {schedule : List Nat}
    (served : ∀ access ∈ (Interleaving.fresh site work).accesses (procedure obeys) schedule,
      (asks? access).isSome = true → (obtains? access).isSome = true) :
    granted ((Interleaving.fresh site work).accesses (procedure obeys) schedule) =
      drafts ((Interleaving.fresh site work).accesses (procedure obeys) schedule) := by
  have once : (asked ((Interleaving.fresh site work).accesses (procedure obeys) schedule)).Nodup :=
    asked_nodup _ _ _
  rw [granted_eq_filter once, List.filter_eq_self]
  intro entry member
  obtain ⟨access, made, drafted⟩ := List.mem_filterMap.mp member
  have asks : asks? access = some entry.1 := by rw [asks?_eq_draft, drafted]; rfl
  obtain ⟨grant, obtains⟩ :=
    Option.isSome_iff_exists.mp (served access made (by rw [asks]; rfl))
  have same : some entry.1 = some grant.1 := asks.symm.trans (asks_of_obtains obtains)
  apply decide_eq_true
  exact List.mem_filterMap.mpr ⟨access, made, by rw [obtains]; exact same.symm⟩

/-- Jobs end where their course leads if nothing fails on it, and ship the events of all the drafts
on it. -/
theorem concludes {jobs : List (Job δ)} {others : List (List (Job δ))} {schedule : List Nat}
    {clock : Turn → Option Stage → Nat}
    (undisturbed : Undisturbed clock
      ((Interleaving.fresh site (jobs :: others)).accesses (procedure obeys) schedule))
    (served : ∀ access ∈ (Interleaving.fresh site (jobs :: others)).accesses (procedure obeys)
      schedule, (asks? access).isSome = true → (obtains? access).isSome = true)
    (enough : 31 * jobs.length ≤ schedule.count 0) {last : Outline δ}
    (leads : Leads (fun turn => clock turn none) { strand := { jobs }, site := site.outline 0 } last)
    (finished : last.strand.jobs = []) (idle : last.strand.going = none)
    (plain : last.site.outline 0 = last.site) :
    let past := (Interleaving.fresh site (jobs :: others)).accesses (procedure obeys) schedule
    let final := (Interleaving.fresh site (jobs :: others)).run (procedure obeys) schedule
    ∃ strand, final.strands[0]? = some strand ∧ strand.isDone = true ∧
      strand.ended = last.strand.ended ∧ final.shared.outline 0 = last.site ∧
      completeAll (timeAt clock site.reporter.createdAt) site.reporter.numbering last.asks =
        (delivered past, final.shared.reporter.numbering) := by
  intro past final
  have listed : (jobs :: others)[0]? = some jobs := rfl
  obtain ⟨strand, found, ownFinished, ownIdle, -⟩ :=
    exists_done obeys site (jobs :: others) listed schedule enough
  obtain ⟨own, foundOwn, steps, course⟩ :=
    outline_run obeys site jobs others schedule clock undisturbed
  cases found.symm.trans foundOwn
  obtain ⟨own, foundOwn, -, fulfilled⟩ :=
    fulfilled_run obeys site jobs others schedule undisturbed
  cases found.symm.trans foundOwn
  obtain ⟨stepsToo, led⟩ := leads
  -- both the run and the course have come to an end that further steps leave as it is
  have agree : outline strand final.shared past = last := by
    have fixed := advance_outline_of_done (fun turn => clock turn none) ownFinished ownIdle
      final.shared past
    have fixedToo := last.advance_of_done (fun turn => clock turn none) finished idle plain
    change outline strand final.shared past = _ at course
    rw [course] at fixed ⊢
    rw [← led] at fixedToo ⊢
    exact iterate_eq_of_fixed fixed fixedToo
  have strands : outlined strand = last.strand := congrArg Outline.strand agree
  have asked : drafts past = last.asks := congrArg Outline.asks agree
  refine ⟨strand, found, by simp [Strand.isDone, ownFinished, ownIdle], ?_,
    congrArg Outline.site agree, ?_⟩
  · rw [← strands, outlined, ownIdle]
  · rw [ownIdle] at fulfilled
    change completeAll _ _ (granted past) = _ at fulfilled
    rw [granted_of_served served, asked] at fulfilled
    exact fulfilled.trans (congrArg (·, _) (List.append_nil _))

end Courses

section Within

variable {δ : Type}

/-- The same delivery, some turns later. -/
def deferred (turns : Nat) (id : DeliveryId) : DeliveryId :=
  ⟨⟨id.turn.strand, id.turn.number + turns⟩, id.stage⟩

theorem draft?_deferred {β : Type} (phase : Phase β δ) (number turns : Nat) :
    phase.draft? ⟨0, number + turns⟩ =
      (phase.draft? ⟨0, number⟩).map fun entry => (deferred turns entry.1, entry.2) := by
  unfold Phase.draft?
  cases phase.delivery? with
  | none => rfl
  | some making =>
    obtain ⟨purpose, delivery⟩ := making
    cases delivery <;> rfl

/-- The outline of calls that come between others. Some have ended and have asked for buffers, and
the given jobs are still to come. -/
def Outline.within (ended : List (Job δ × Option (Outcome DeliveryFailure Unit)))
    (asks : List (DeliveryId × Draft)) (jobs : List (Job δ)) (outline : Outline δ) : Outline δ where
  strand :=
    { jobs := outline.strand.jobs ++ jobs
      going := outline.strand.going
      ended := outline.strand.ended ++ ended }
  site := outline.site
  asks := asks ++ outline.asks.map fun entry => (deferred ended.length entry.1, entry.2)

variable {clock : Turn → Nat} {ended : List (Job δ × Option (Outcome DeliveryFailure Unit))}
  {asks : List (DeliveryId × Draft)} {jobs : List (Job δ)}

/-- Calls take the same steps whether they come between others or not, up to the time that they
find. -/
theorem Outline.advance_within {outline : Outline δ}
    (busy : outline.strand.jobs ≠ [] ∨ outline.strand.going ≠ none) :
    (outline.within ended asks jobs).advance clock =
      (outline.advance fun turn => clock ⟨turn.strand, turn.number + ended.length⟩).within ended
        asks jobs := by
  obtain ⟨⟨own, going, earlier⟩, site, asked⟩ := outline
  cases going with
  | none =>
    cases own with
    | nil => simp at busy
    | cons job rest => simp [advance, within, Strand.advance]
  | some entry =>
    obtain ⟨job, phase⟩ := entry
    simp only [advance, within, Strand.advance, List.length_append, Option.bind_some]
    rw [draft?_deferred, List.map_append, List.append_assoc]
    cases (procedure fun _ collaborators => collaborators).step job phase
        (site.outline (clock ⟨0, earlier.length + ended.length⟩)) with
    | mk moved after =>
      cases moved <;> cases phase.draft? ⟨0, earlier.length⟩ <;> rfl

/-- Calls are led to the same end whether they come between others or not. -/
theorem Leads.within {first last : Outline δ} (plain : first.site.outline 0 = first.site)
    (leads : Leads (fun turn => clock ⟨turn.strand, turn.number + ended.length⟩) first last) :
    Leads clock (first.within ended asks jobs) (last.within ended asks jobs) := by
  obtain ⟨steps, rfl⟩ := leads
  induction steps generalizing first with
  | zero => exact Leads.refl _ _
  | succ steps ih =>
    rw [Function.iterate_succ_apply]
    by_cases busy : first.strand.jobs ≠ [] ∨ first.strand.going ≠ none
    · exact Leads.head (Outline.advance_within busy) (ih rfl)
    · obtain ⟨finished, idle⟩ := not_or.mp busy
      rw [Outline.advance_of_done _ (not_not.mp finished) (not_not.mp idle) plain]
      exact ih plain

end Within

section Reports

/-- What a thread reports. -/
abbrev Observation := Thread × Activity String String

variable {π ε δ : Type}

/-- The jobs in which reports are made. -/
def reporting (observations : List Observation) : List (Job δ) :=
  observations.map fun observation =>
    .atSite (.request observation.1 (.report observation.2))

/-- The site after the reports, if nothing fails. -/
def afterReports (observations : List Observation) (site : Site π ε) : Site π ε :=
  observations.foldl (fun site observation => afterReport observation.1 observation.2 site) site

/-- The events for which a report asks for buffers in its turn. -/
def asksOf (clock : Turn → Nat) (number : Nat) (site : Site π ε) (observation : Observation) :
    List (DeliveryId × Draft) :=
  let (thread, activity) := observation
  let asks : List (Stage × Draft) := mappingsDue site thread activity ++
    [(.answer, .activity (site.reporter.elapsed (clock ⟨0, number⟩)) (site.tracked.idOf thread)
      (activity.map site.reporter.methods.idOf site.reporter.exceptions.idOf))]
  asks.map fun entry => (⟨⟨0, number⟩, entry.1⟩, entry.2)

/-- The events for which the reports ask for buffers, the first one in the turn with the given
number. -/
def asksOfAll (clock : Turn → Nat) : Nat → Site π ε → List Observation → List (DeliveryId × Draft)
  | _, _, [] => []
  | number, site, observation :: rest =>
    asksOf clock number site observation ++
      asksOfAll clock (number + 1) (afterReport observation.1 observation.2 site) rest

theorem afterReports_concat (observations : List Observation) (observation : Observation)
    (site : Site π ε) : afterReports (observations ++ [observation]) site =
      afterReport observation.1 observation.2 (afterReports observations site) := by
  simp [afterReports]

theorem asksOfAll_concat (clock : Turn → Nat) (number : Nat) (site : Site π ε)
    (observations : List Observation) (observation : Observation) :
    asksOfAll clock number site (observations ++ [observation]) =
      asksOfAll clock number site observations ++
        asksOf clock (number + observations.length) (afterReports observations site)
          observation := by
  induction observations generalizing number site with
  | nil => simp [asksOfAll, afterReports]
  | cons first rest ih =>
    rw [List.cons_append, asksOfAll, ih, asksOfAll, List.append_assoc, List.length_cons,
      Nat.add_right_comm, Nat.add_assoc]
    rfl

/-- The results of reports that have all returned, the latest first. -/
def allReturned (observations : List Observation) :
    List (Job δ × Option (Outcome DeliveryFailure Unit)) :=
  ((reporting observations).map fun job => (job, some (.returned ()))).reverse

/-- The course of a list of reports. -/
theorem leads_reports (clock : Turn → Nat) (observations : List Observation) (site : Site Dry Dry)
    (ended : List (Job δ × Option (Outcome DeliveryFailure Unit)))
    (asks : List (DeliveryId × Draft)) :
    Leads clock
      { strand := { jobs := reporting observations, ended }, site := site.outline 0, asks }
      { strand := { jobs := [], ended := allReturned observations ++ ended }
        site := (afterReports observations site).outline 0
        asks := asks ++ asksOfAll clock ended.length site observations } := by
  induction observations generalizing site ended asks with
  | nil => simpa [reporting, allReturned, asksOfAll, afterReports] using Leads.refl _ _
  | cons observation rest ih =>
    obtain ⟨thread, activity⟩ := observation
    let job : Job δ := .atSite (.request thread (.report activity))
    have first : Leads clock
        { strand := { jobs := job :: reporting rest, ended }, site := site.outline 0, asks }
        { strand := { jobs := reporting rest, ended := (job, some (.returned ())) :: ended }
          site := (afterReport thread activity site).outline 0
          asks := asks ++ asksOf clock ended.length site (thread, activity) } := by
      have alone : Leads clock (Outline.within ended asks (reporting rest) _)
          (Outline.within ended asks (reporting rest) _) :=
        (leads_report (fun turn => clock ⟨turn.strand, turn.number + ended.length⟩) thread activity
          site).within rfl
      simpa [Outline.within, Outline.returned, asksOf, deferred, Function.comp_def] using alone
    have later := ih (afterReport thread activity site) ((job, some (.returned ())) :: ended)
      (asks ++ asksOf clock ended.length site (thread, activity))
    have whole := first.trans later
    simpa [reporting, allReturned, afterReports, asksOfAll] using whole

end Reports

end TraceRelay.OpenSite
