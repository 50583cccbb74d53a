import TraceRelay.Proofs.IdTable.Sequence
import TraceRelay.Proofs.Stream.Shipping

/-! What jobs keep that come one after the other. -/

namespace TraceRelay.OpenSite

variable {π ε β δ : Type}

/-- The job makes no mapping on its own account: it is a report, a change of the host, or an
order. -/
def Job.isReport : Job δ → Bool
  | .atSite (.request _ request) => request.isReport
  | _ => true

/-- The call that a strand has in progress, if it has one, with the thread that makes it and what it
was asked to do. -/
inductive Engages : Option (Job δ × Phase β δ) → Option (Thread × Request × Call β) → Prop where
  | rests : Engages none none
  | calls (thread : Thread) (request : Request) (call : Call β) :
    Engages (some (.atSite (.request thread request),
      .atSite (.request thread request) (.calling thread call))) (some (thread, request, call))
  | changes (change : Host.Change) :
    Engages (some (.atSite (.change change), .atSite (.change change) (.changing change))) none
  | obeys (order : δ) : Engages (some (.order order, .ordering order)) none

variable {going : Option (Job δ × Phase β δ)} {call? : Option (Thread × Request × Call β)}

theorem Engages.of_start [Clearable β] [BufferSupply π β] [EventEncoder ε β]
    (obeys : δ → π × ε → π × ε) (job : Job δ) :
    ∃ call? : Option (Thread × Request × Call β),
      Engages (some (job, (procedure obeys).start job)) call? ∧
        ∀ thread request call, call? = some (thread, request, call) →
          call = .entering request ∧ job = .atSite (.request thread request) := by
  cases job with
  | order wanted =>
    refine ⟨none, .obeys wanted, ?_⟩
    intro thread request call calling
    cases calling
  | atSite siteJob =>
    cases siteJob with
    | request caller wanted =>
      refine ⟨some (caller, wanted, .entering wanted), .calls caller wanted _, ?_⟩
      intro thread request call calling
      cases calling
      exact ⟨rfl, rfl⟩
    | change wanted =>
      refine ⟨none, .changes wanted, ?_⟩
      intro thread request call calling
      cases calling

theorem Engages.call_eq {job : Job δ} {phase : Phase β δ}
    (engages : Engages (some (job, phase)) call?) :
    phase.call? = call?.map fun making => making.2.2 := by
  cases engages <;> rfl

theorem Engages.calling {job : Job δ} {phase : Phase β δ} {thread : Thread} {request : Request}
    {call : Call β} (engages : Engages (some (job, phase)) (some (thread, request, call))) :
    job = .atSite (.request thread request) ∧
      phase = .atSite (.request thread request) (.calling thread call) := by
  cases engages
  exact ⟨rfl, rfl⟩

theorem Engages.of_request {phase : Phase β δ} {thread : Thread} {request : Request}
    (engages : Engages (some (.atSite (.request thread request), phase)) call?) :
    ∃ call, call? = some (thread, request, call) := by
  cases engages
  exact ⟨_, rfl⟩

/-- What a strand looks up in a table is what its call looks up there. -/
theorem Engages.inquiry? (engages : Engages going call?) (register : Register) :
    (going.bind fun entry => entry.2.inquiry? register) =
      call?.bind fun call => register.inquiry? call.2.2 := by
  cases engages <;> rfl

variable [Clearable β] [BufferSupply π β] [EventEncoder ε β] {obeys : δ → π × ε → π × ε}
  {past : List (SiteAccess π ε β δ)} {access : SiteAccess π ε β δ} {thread : Thread}
  {request : Request} {call : Call β}

/-- An access leads a call to the next one. -/
theorem Engages.next
    (engages : Engages (some (access.job, access.phase)) (some (thread, request, call)))
    (made : (procedure obeys).step access.job access.phase access.before =
      (access.moved, access.after)) :
    Engages (access.next?.map fun next => (next.job, next.phase))
      ((following (call.step thread access.before).result).map fun next =>
        (thread, request, next)) := by
  obtain ⟨turn, job, phase, before, moved, after⟩ := access
  simp only at engages made
  cases engages with
  | calls =>
    cases happens_of_step made with
    | goesOn _ _ _ next stepped =>
      rw [stepped]
      exact .calls thread request next
    | ends _ _ _ outcome stepped =>
      rw [stepped]
      exact .rests

/-- The call of a job is in progress in the phase of the job, if the job is a call: in every run,
and at every access of it. -/
theorem engages_always (obeys : δ → π × ε → π × ε) (site : Site π ε) (work : List (List (Job δ)))
    (schedule : List Nat) :
    (∀ engagement ∈ ((Interleaving.fresh site work).run (procedure obeys) schedule).underway,
      ∃ call?, Engages (some (engagement.job, engagement.phase)) call?) ∧
    ∀ earlier access later,
      (Interleaving.fresh site work).accesses (procedure obeys) schedule =
        earlier ++ access :: later → ∃ call?, Engages (some (access.job, access.phase)) call? := by
  refine Interleaving.underway_induction (motive := fun _ engagement =>
    ∃ call?, Engages (some (engagement.job, engagement.phase)) call?)
    (procedure obeys) site work ?_ ?_ ?_ schedule
  · intro past turn job silent
    obtain ⟨call?, engages, -⟩ := Engages.of_start (β := β) (ε := ε) obeys job
    exact ⟨call?, engages⟩
  · intro past other engagement different engages
    exact engages
  · rintro past own next made goesOn ⟨call?, engages⟩
    obtain ⟨turn, job, phase, before, moved, after⟩ := own
    simp only [Access.engagement] at made engages
    cases engages with
    | changes | obeys =>
      cases made
      cases goesOn
    | calls thread request call =>
      cases happens_of_step made with
      | ends => cases goesOn
      | goesOn _ _ _ next stepped =>
        cases goesOn
        exact ⟨_, .calls thread request next⟩

/-- At every access of a run, the call of its job is in progress, if the job is a call. -/
theorem engages_run (obeys : δ → π × ε → π × ε) (site : Site π ε) (work : List (List (Job δ)))
    (schedule : List Nat) {earlier later : List (SiteAccess π ε β δ)}
    (same : (Interleaving.fresh site work).accesses (procedure obeys) schedule =
      earlier ++ access :: later) :
    ∃ call?, Engages (some (access.job, access.phase)) call? :=
  (engages_always obeys site work schedule).2 earlier access later same

/-- The thread that makes a call is the one that its job names. -/
theorem job_of_calling (obeys : δ → π × ε → π × ε) (site : Site π ε) (work : List (List (Job δ)))
    (schedule : List Nat) {earlier later : List (SiteAccess π ε β δ)} {siteJob : Site.Job}
    (same : (Interleaving.fresh site work).accesses (procedure obeys) schedule =
      earlier ++ access :: later)
    (calling : access.phase = .atSite siteJob (.calling thread call)) :
    ∃ request, access.job = .atSite (.request thread request) := by
  obtain ⟨call?, engages⟩ := engages_run obeys site work schedule same
  rw [calling] at engages
  generalize access.job = job at engages ⊢
  cases engages
  exact ⟨_, rfl⟩

omit [Clearable β] [EventEncoder ε β] in
/-- While no call is in progress it does not matter whose turn it is. -/
theorem Faithful.between_turns {site : Site π ε} {turn : Turn}
    (faithful : Faithful site past turn none) (other : Turn) : Faithful site past other none where
  read := faithful.read
  consistent := faithful.consistent
  mapped := faithful.mapped
  roster := faithful.roster
  reports := by simp
  keeps := by simp
  owns := by simp

omit [Clearable β] [EventEncoder ε β] in
/-- A call may begin when no other one is in progress. -/
theorem Faithful.begin {site : Site π ε} {turn : Turn} (faithful : Faithful site past turn none)
    (thread : Thread) (reports : request.isReport = true) :
    Faithful site past turn (some (thread, request, .entering request)) := by
  have silent (register : Register) : register.inquiry? (.entering request : Call β) = none := by
    cases register <;> rfl
  constructor
  · exact faithful.read
  · intro register
    simpa [silent] using faithful.consistent register
  · intro register
    simpa [silent] using faithful.mapped register
  · exact faithful.roster
  · intro other otherRequest otherCall same
    cases same
    exact reports
  · intro other otherRequest otherCall same
    cases same
    rfl
  · intro other otherRequest otherCall same
    cases same
    trivial

omit [Clearable β] [EventEncoder ε β] in
/-- Between two calls memos may get lost. -/
theorem Faithful.forgets (faithful : Faithful access.before past access.turn none)
    (quiet : access.phase.call? = none)
    (tables : ∀ register : Register,
      register.table access.after.reporter = register.table access.before.reporter)
    (tracker : access.after.tracked.tracker.upcoming = access.before.tracked.tracker.upcoming)
    (memos : ∀ thread memo, access.after.tracked.memo? thread = some memo →
      access.before.tracked.memo? thread = some memo) :
    Faithful access.after (past ++ [access]) access.turn none := by
  have unnamed : readsName? access = none := by
    unfold readsName?
    split
    · rename_i calling
      rw [calling] at quiet
      cases quiet
    · rfl
  have unenrolled : enrols access = 0 := by
    unfold enrols
    split
    · rename_i calling
      rw [calling] at quiet
      cases quiet
    · rfl
  have same : chronicle (past ++ [access]) = chronicle past :=
    chronicle_between (by simp [Phase.delivery?, quiet]) unnamed
  have undrawn (register : Register) : drawn register (past ++ [access]) = drawn register past := by
    rw [drawn_concat, Phase.inquiry?, quiet]
    rfl
  have unannounced (register : Register) :
      announced register (past ++ [access]) = announced register past := by
    rw [announced_concat, Phase.inquiry?, quiet]
    exact List.append_nil _
  constructor
  · rw [same]
    exact faithful.read
  · intro register
    rw [tables, undrawn, unannounced]
    exact faithful.consistent register
  · intro register
    rw [unannounced, same]
    exact faithful.mapped register
  · rw [same, enrolled_concat, unenrolled]
    exact faithful.roster.forget tracker memos
  · simp
  · simp
  · simp

omit [Clearable β] [BufferSupply π β] [EventEncoder ε β] in
/-- A change of the host gives no thread a memo. -/
theorem memo?_change (site : Site π ε) (change : Host.Change) {thread : Thread} {memo : ThreadMemo}
    (found : ({ site with host := site.host.apply change } : Site π ε).tracked.memo? thread =
      some memo) : site.tracked.memo? thread = some memo := by
  cases change with
  | advance | rename => exact found
  | endThread ended =>
    simp only [TrackedHost.memo?, Site.tracked, Host.apply, ThreadMemos.find?_endThread] at found
    split at found
    · cases found
    · exact found

/-- Every access of a strand of reports keeps all faithful, unless it loses a mapping. -/
theorem Faithful.advance (faithful : Faithful access.before past access.turn call?)
    (engages : Engages (some (access.job, access.phase)) call?)
    (made : (procedure obeys).step access.job access.phase access.before =
      (access.moved, access.after))
    (few : ∀ register, drawn register (past ++ [access]) < 2 ^ 32)
    (room : enrolled (past ++ [access]) ≤ 2 ^ 32)
    (kept : ∀ lost, ends? access = some (lost, false) → lost = .answer) :
    ∃ next?, Engages (access.next?.map fun next => (next.job, next.phase)) next? ∧
      Faithful access.after (past ++ [access]) access.turn next? := by
  cases call? with
  | some making =>
    obtain ⟨thread, request, call⟩ := making
    refine ⟨_, engages.next made, ?_⟩
    obtain ⟨job, calling⟩ := engages.calling
    cases call with
    | entering => exact faithful.entering made few calling
    | identifying => exact faithful.identifying made few calling room
    | resolvingMethod => exact faithful.resolvingMethod made few calling
    | resolvingException => exact faithful.resolvingException made few calling
    | delivering => exact faithful.delivering made few job calling kept
  | none =>
    obtain ⟨turn, job, phase, before, moved, after⟩ := access
    simp only at engages made
    cases engages with
    | changes change =>
      cases happens_of_step made
      refine ⟨none, .rests, faithful.forgets rfl (fun _ => rfl) rfl ?_⟩
      intro thread memo found
      exact memo?_change before change found
    | obeys order =>
      cases happens_of_step made
      refine ⟨none, .rests, faithful.forgets rfl ?_ rfl fun _ _ found => found⟩
      intro register
      cases register <;> rfl

end TraceRelay.OpenSite
