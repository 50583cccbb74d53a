import TraceRelay.Proofs.Stream.Dispatches
import TraceRelay.Proofs.Stream.Emission

/-! A call ends with its first delivery that fails. -/

namespace TraceRelay.OpenSite

variable {π ε β δ : Type}

/-- The deliveries for which a buffer has been asked, in order: their stages and their events. -/
def attempts (past : List (SiteAccess π ε β δ)) : List (Stage × Draft) :=
  (drafts past).map fun entry => (entry.1.stage, entry.2)

theorem attempts_concat (past : List (SiteAccess π ε β δ)) (access : SiteAccess π ε β δ) :
    attempts (past ++ [access]) = attempts past ++
      ((access.phase.draft? access.turn).map fun entry => (entry.1.stage, entry.2)).toList := by
  rw [attempts, drafts_concat, List.map_append, attempts]
  cases access.phase.draft? access.turn <;> rfl

/-- What is told of a run: the outline of its site, its counter, and the deliveries that have been
attempted and those that have ended. -/
structure Account where
  site : Site Dry Dry
  numbering : Numbering
  attempted : List (Stage × Draft)
  finished : List (Stage × Outcome DeliveryFailure Unit)

/-- All these deliveries have ended without a failure. -/
def succeeded (made : List (Stage × Draft)) : List (Stage × Outcome DeliveryFailure Unit) :=
  made.map fun entry => (entry.1, .returned ())

theorem succeeded_concat (made : List (Stage × Draft)) (own : Stage × Draft) :
    succeeded (made ++ [own]) = succeeded made ++ [(own.1, .returned ())] :=
  List.map_append

/-- How a delivery gets on that is made after those in `made`, when the counter stood at `numbering`
before it. -/
def GetsOn (numbering : Numbering) (made : List (Stage × Draft)) (own : Stage × Draft)
    (account : Account) : Delivery β → Prop
  | .obtaining draft =>
    draft = own.2 ∧ account.attempted = made ∧ account.numbering = numbering
  | .stamping draft _ =>
    draft = own.2 ∧ account.attempted = made ++ [own] ∧ account.numbering = numbering
  | .writing _ _ =>
    account.attempted = made ++ [own] ∧
      (own.2.isSequenced = false → account.numbering = numbering)
  | .returning _ _ =>
    account.attempted = made ++ [own] ∧
      (own.2.isSequenced = false → account.numbering = numbering)

/-- What a call in progress has come to that was entered when the account was `first`. -/
inductive Stands (first : Account) (thread : Thread) (request : Request) :
    Call β → Account → Prop where
  | between {call : Call β} {account : Account}
    (looks : Between first.site thread request call account.site account.attempted)
    (uncounted : account.numbering = first.numbering)
    (ended : account.finished = succeeded account.attempted) :
    Stands first thread request call account
  | delivers {purpose : Purpose} {delivery : Delivery β} {draft : Draft} {account : Account}
    {made : List (Stage × Draft)}
    (awaits : Awaits β first.site thread request purpose draft account.site made)
    (gets : GetsOn first.numbering made (purpose.stage, draft) account delivery)
    (ended : account.finished = succeeded made) :
    Stands first thread request (.delivering purpose delivery) account

/-- What a call has come to that was entered when the account was `first` and has ended. -/
structure Stops (first : Account) (thread : Thread) (request : Request)
    (outcome : Outcome DeliveryFailure Unit) (account : Account) (made : List (Stage × Draft))
    (last : Stage × Draft) : Prop where
  due : ∃ entered later, duties thread request entered first.site = made ++ last :: later ∧
    (outcome = .returned () → later = [])
  attempted : account.attempted = made ++ [last]
  ended : account.finished = succeeded made ++ [(last.1, outcome)]
  left : account.site = leftAt thread request last.1 first.site
  uncounted : last.2.isSequenced = false ∨ (∃ error, outcome = .failed (.obtain error)) →
    account.numbering = first.numbering

/-- A delivery is one of a mapping unless it is that of the own event of a report or a marker. -/
theorem unsequenced_of_duty {site : Site π ε} {thread : Thread} {request : Request}
    {entered : Timestamp} {own : Stage × Draft} (due : own ∈ duties thread request entered site)
    (maps : own.1 ≠ .answer ∨ request.isReport = false) : own.2.isSequenced = false := by
  cases request with
  | mapMethod | mapException | mapThread =>
    cases List.mem_singleton.mp due
    rfl
  | report activity =>
    rcases List.mem_append.mp due with announced | answers
    · exact unsequenced_of_due announced
    · cases List.mem_singleton.mp answers
      exact maps.elim (absurd rfl) nofun
  | marker =>
    cases List.mem_singleton.mp due
    exact maps.elim (absurd rfl) nofun

theorem Awaits.unsequenced {origin site : Site Dry Dry} {thread : Thread} {request : Request}
    {purpose : Purpose} {draft : Draft} {made : List (Stage × Draft)}
    (awaits : Awaits β origin thread request purpose draft site made) {next : Call β}
    (resumes : Call.resume purpose = .continues next) : draft.isSequenced = false := by
  obtain ⟨entered, later, due, -⟩ := awaits.due
  have own : (purpose.stage, draft) ∈ duties thread request entered origin := by
    rw [due]
    simp
  refine unsequenced_of_duty own (.inl ?_)
  cases purpose with
  | answer => cases resumes
  | announceThread | announceMethod | announceException => exact Stage.noConfusion

theorem Between.delivery?_eq {origin site : Site Dry Dry} {thread : Thread} {request : Request}
    {call : Call β} {made : List (Stage × Draft)}
    (between : Between origin thread request call site made) : call.delivery? = none := by
  cases call with
  | delivering => exact between.elim
  | entering | identifying | resolvingMethod | resolvingException => rfl

section Steps

variable [Clearable β] [BufferSupply π β] [EventEncoder ε β]

/-- The stage of the delivery that has come to its end with an access, and how it has ended. -/
def finishes? (access : SiteAccess π ε β δ) : Option (Stage × Outcome DeliveryFailure Unit) :=
  access.phase.delivery?.bind fun making =>
    match (making.2.step access.before.host.clock access.before.reporter).result with
    | .continues _ => none
    | .finished outcome => some (making.1.stage, outcome)

/-- The deliveries that have come to their end, in order: their stages, and how they have ended. -/
def finishes (past : List (SiteAccess π ε β δ)) : List (Stage × Outcome DeliveryFailure Unit) :=
  past.filterMap finishes?

theorem finishes_concat (past : List (SiteAccess π ε β δ)) (access : SiteAccess π ε β δ) :
    finishes (past ++ [access]) = finishes past ++ (finishes? access).toList := by
  rw [finishes, List.filterMap_append, filterMap_singleton]
  rfl

/-- The account of what a run has come to. -/
def account (site : Site π ε) (past : List (SiteAccess π ε β δ)) : Account where
  site := site.outline 0
  numbering := site.reporter.numbering
  attempted := attempts past
  finished := finishes past

variable {obeys : δ → π × ε → π × ε} {past : List (SiteAccess π ε β δ)}
  {access : SiteAccess π ε β δ} {first : Account} {thread : Thread} {request : Request}
  {siteJob : Site.Job} {purpose : Purpose} {delivery : Delivery β}

/-- A delivery leaves the tables and the memos as they are. -/
theorem outline_delivering (thread : Thread) (purpose : Purpose) (delivery : Delivery β)
    (site : Site π ε) :
    ((Call.delivering purpose delivery).step thread site).state.outline 0 = site.outline 0 := by
  cases delivery with
  | obtaining draft =>
    simp only [Call.step, Delivery.step]
    split <;> rfl
  | stamping | writing | returning => rfl

/-- What the end of a delivery leads its call to. -/
def afterDelivery (purpose : Purpose) :
    Outcome DeliveryFailure Unit → Progress (Call β) (Outcome DeliveryFailure Unit)
  | .returned () => Call.resume purpose
  | .failed error => .finished (.failed error)
  | .panicked message => .finished (.panicked message)

theorem result_of_finished {site : Site π ε} {outcome : Outcome DeliveryFailure Unit}
    (finished : (delivery.step site.host.clock site.reporter).result = .finished outcome) :
    ((Call.delivering purpose delivery).step thread site).result =
      afterDelivery purpose outcome := by
  simp only [Call.step, finished]
  cases outcome <;> rfl

omit [Clearable β] [BufferSupply π β] [EventEncoder ε β] in
/-- A delivery that has got a buffer does not fail for want of one. -/
theorem conclude_ne_obtain (written : Outcome IoFailure Unit)
    (shipped : Except TransportFailure Unit) (error : TransportFailure) :
    (Delivery.conclude written shipped).1 ≠ .failed (.obtain error) := by
  cases written <;> cases shipped <;> simp [Delivery.conclude]

/-- What an access has led a call to. -/
def Yields (first : Account) (thread : Thread) (request : Request) (account : Account) :
    Progress (Call β) (Outcome DeliveryFailure Unit) → Prop
  | .continues next => Stands first thread request next account
  | .finished outcome => ∃ made last, Stops first thread request outcome account made last

omit [Clearable β] [BufferSupply π β] [EventEncoder ε β] in
/-- A delivery that succeeds leads its call on, and any other one is the last of its call. -/
theorem Awaits.yields {account : Account} {draft : Draft} {made : List (Stage × Draft)}
    {outcome : Outcome DeliveryFailure Unit}
    (awaits : Awaits β first.site thread request purpose draft account.site made)
    (attempted : account.attempted = made ++ [(purpose.stage, draft)])
    (ended : account.finished = succeeded made ++ [(purpose.stage, outcome)])
    (uncounted : draft.isSequenced = false ∨ (∃ error, outcome = .failed (.obtain error)) →
      account.numbering = first.numbering) :
    Yields first thread request account (afterDelivery purpose outcome : Progress (Call β) _) := by
  obtain ⟨entered, later, due, complete⟩ := awaits.due
  have stops (last : outcome = .returned () → later = []) :
      Stops first thread request outcome account made (purpose.stage, draft) :=
    ⟨⟨entered, later, due, last⟩, attempted, ended, awaits.left, uncounted⟩
  cases outcome with
  | failed error => exact ⟨made, _, stops nofun⟩
  | panicked message => exact ⟨made, _, stops nofun⟩
  | returned value =>
    cases resumes : (Call.resume purpose : Progress (Call β) (Outcome DeliveryFailure Unit)) with
    | continues next =>
      rw [afterDelivery, resumes]
      refine .between ?_ (uncounted (.inl (awaits.unsequenced resumes))) ?_
      · rw [attempted]
        exact awaits.resumes next resumes
      · rw [attempted, succeeded_concat]
        exact ended
    | finished outcome =>
      cases purpose with
      | answer => exact ⟨made, _, stops fun _ => complete rfl⟩
      | announceThread | announceMethod | announceException => cases resumes

/-- An access between two deliveries. -/
theorem yields_between {call : Call β}
    (looks : Between first.site thread request call (access.before.outline 0) (attempts past))
    (uncounted : access.before.reporter.numbering = first.numbering)
    (ended : finishes past = succeeded (attempts past))
    (calling : access.phase = .atSite siteJob (.calling thread call))
    (made : (procedure obeys).step access.job access.phase access.before =
      (access.moved, access.after)) :
    Yields first thread request (account access.after (past ++ [access]))
      (call.step thread access.before).result := by
  have between : access.phase.delivery? = none := by
    rw [calling]
    exact looks.delivery?_eq
  have attempted : attempts (past ++ [access]) = attempts past := by
    rw [attempts_concat, Phase.draft?, between]
    exact List.append_nil _
  have finished : finishes (past ++ [access]) = finishes past := by
    rw [finishes_concat, finishes?, between]
    exact List.append_nil _
  have counter := numbering_access made
  rw [between] at counter
  obtain ⟨next, goesOn, reaches⟩ := looks.step
  rw [goesOn, account, attempted, finished, counter, (call_of_step made calling).1]
  rcases reaches with looksOn | ⟨purpose, draft, rfl, awaits⟩
  · exact .between looksOn uncounted ended
  · exact .delivers awaits ⟨rfl, rfl, uncounted⟩ ended

section Deliveries

variable {draft : Draft} {earlier : List (Stage × Draft)}
  (awaits : Awaits β first.site thread request purpose draft (access.before.outline 0) earlier)
  (ended : finishes past = succeeded earlier)
  (calling : access.phase = .atSite siteJob (.calling thread (.delivering purpose delivery)))
  (made : (procedure obeys).step access.job access.phase access.before =
    (access.moved, access.after))

include awaits calling made in
theorem awaits_after : Awaits β first.site thread request purpose draft
    (account access.after (past ++ [access])).site earlier := by
  change Awaits β first.site thread request purpose draft (access.after.outline 0) earlier
  rw [(call_of_step made calling).1, outline_delivering]
  exact awaits

include calling in
omit [Clearable β] [BufferSupply π β] [EventEncoder ε β] in
theorem delivery?_of_calling : access.phase.delivery? = some (purpose, delivery) := by
  rw [calling]
  rfl

include awaits ended calling made in
/-- An access after which the delivery goes on. -/
theorem yields_of_continues {next : Delivery β}
    (stepped : (delivery.step access.before.host.clock access.before.reporter).result =
      .continues next)
    (gets : GetsOn first.numbering earlier (purpose.stage, draft)
      (account access.after (past ++ [access])) next) :
    Yields first thread request (account access.after (past ++ [access]))
      ((Call.delivering purpose delivery).step thread access.before).result := by
  have unfinished : finishes (past ++ [access]) = finishes past := by
    rw [finishes_concat, finishes?, delivery?_of_calling calling, Option.bind_some, stepped]
    exact List.append_nil _
  simp only [Call.step, stepped]
  exact .delivers (awaits_after awaits calling made) gets (unfinished.trans ended)

include awaits ended calling made in
/-- An access with which the delivery comes to its end. -/
theorem yields_of_finished {outcome : Outcome DeliveryFailure Unit}
    (stepped : (delivery.step access.before.host.clock access.before.reporter).result =
      .finished outcome)
    (attempted : attempts (past ++ [access]) = earlier ++ [(purpose.stage, draft)])
    (uncounted : draft.isSequenced = false ∨ (∃ error, outcome = .failed (.obtain error)) →
      access.after.reporter.numbering = first.numbering) :
    Yields first thread request (account access.after (past ++ [access]))
      ((Call.delivering purpose delivery).step thread access.before).result := by
  have finished : finishes (past ++ [access]) =
      succeeded earlier ++ [(purpose.stage, outcome)] := by
    rw [finishes_concat, finishes?, delivery?_of_calling calling, Option.bind_some, stepped, ended]
    rfl
  rw [result_of_finished stepped]
  exact (awaits_after awaits calling made).yields attempted finished uncounted

include awaits ended calling made in
/-- An access of a delivery. -/
theorem yields_delivering
    (gets : GetsOn first.numbering earlier (purpose.stage, draft) (account access.before past)
      delivery) :
    Yields first thread request (account access.after (past ++ [access]))
      ((Call.delivering purpose delivery).step thread access.before).result := by
  have counter := numbering_access made
  have attempted := attempts_concat past access
  rw [Phase.draft?, delivery?_of_calling calling] at attempted
  rw [delivery?_of_calling calling] at counter
  cases delivery with
  | obtaining own =>
    obtain ⟨rfl, before, same⟩ := gets
    have tried : attempts (past ++ [access]) = earlier ++ [(purpose.stage, own)] :=
      attempted.trans (congrArg (· ++ _) before)
    have uncounted := counter.trans same
    cases lent : (BufferSupply.lend access.before.reporter.supply).result with
    | error failure =>
      have fails : (Delivery.step access.before.host.clock (.obtaining own : Delivery β)
          access.before.reporter).result = .finished (.failed (.obtain failure)) := by
        simp only [Delivery.step, lent]
      exact yields_of_finished awaits ended calling made fails tried fun _ => uncounted
    | ok found =>
      cases found with
      | none =>
        have drops : (Delivery.step access.before.host.clock (.obtaining own : Delivery β)
            access.before.reporter).result = .finished (.returned ()) := by
          simp only [Delivery.step, lent]
        exact yields_of_finished awaits ended calling made drops tried fun _ => uncounted
      | some buffer =>
        have obtains : (Delivery.step access.before.host.clock (.obtaining own : Delivery β)
            access.before.reporter).result = .continues (.stamping own buffer) := by
          simp only [Delivery.step, lent]
        exact yields_of_continues awaits ended calling made obtains ⟨rfl, tried, uncounted⟩
  | stamping own buffer =>
    obtain ⟨rfl, before, same⟩ := gets
    have tried := (attempted.trans (List.append_nil _)).trans before
    refine yields_of_continues awaits ended calling made rfl ⟨tried, fun mapping => ?_⟩
    exact (counter.trans (if_neg (by simp [mapping]))).trans same
  | writing event buffer =>
    obtain ⟨before, same⟩ := gets
    have tried := (attempted.trans (List.append_nil _)).trans before
    exact yields_of_continues awaits ended calling made rfl
      ⟨tried, fun mapping => counter.trans (same mapping)⟩
  | returning written buffer =>
    obtain ⟨before, same⟩ := gets
    have tried := (attempted.trans (List.append_nil _)).trans before
    refine yields_of_finished awaits ended calling made rfl tried ?_
    rintro (mapping | ⟨error, refused⟩)
    · exact counter.trans (same mapping)
    · exact absurd refused (conclude_ne_obtain _ _ _)

end Deliveries

/-- Every access of a call leads it on in the order of its deliveries, or is its last one. -/
theorem Stands.step {call : Call β}
    (stands : Stands first thread request call (account access.before past))
    (calling : access.phase = .atSite siteJob (.calling thread call))
    (made : (procedure obeys).step access.job access.phase access.before =
      (access.moved, access.after)) :
    Yields first thread request (account access.after (past ++ [access]))
      (call.step thread access.before).result := by
  cases stands with
  | between looks uncounted ended => exact yields_between looks uncounted ended calling made
  | delivers awaits gets ended => exact yields_delivering awaits ended calling made gets

/-- What the strand of a call has come to, if the account was `first` before the call. -/
inductive Proceeds (first : Account) (thread : Thread) (request : Request) :
    SiteStrand β δ → Account → Prop where
  | waits : Proceeds first thread request { jobs := [.atSite (.request thread request)] } first
  | goes {call : Call β} {account : Account}
    (stands : Stands first thread request call account) :
    Proceeds first thread request
      { jobs := []
        going := some (.atSite (.request thread request),
          .atSite (.request thread request) (.calling thread call)) } account
  | rests {outcome : Outcome DeliveryFailure Unit} {account : Account}
    {made : List (Stage × Draft)} {last : Stage × Draft}
    (stops : Stops first thread request outcome account made last) :
    Proceeds first thread request
      { jobs := [], ended := [(.atSite (.request thread request), some outcome)] } account

variable {strand : SiteStrand β δ}

omit [Clearable β] [BufferSupply π β] [EventEncoder ε β] in
/-- The call is entered. -/
theorem Proceeds.start {account : Account} {job : Job δ} {rest : List (Job δ)}
    (proceeds : Proceeds first thread request strand account)
    (idle : strand.going = none) (next : strand.jobs = job :: rest)
    (untried : first.attempted = []) (unfinished : first.finished = []) :
    Proceeds first thread request
      ({ strand with going := some (job, job.start), jobs := rest } : SiteStrand β δ) account := by
  cases proceeds with
  | goes => cases idle
  | rests => cases next
  | waits =>
    cases next
    have looks : Between first.site thread request (.entering request : Call β) first.site
        first.attempted := ⟨rfl, rfl, untried⟩
    refine .goes (.between looks rfl ?_)
    rw [unfinished, untried]
    rfl

/-- The call makes an access. -/
theorem Proceeds.step
    (proceeds : Proceeds first thread request strand (account access.before past))
    (going : strand.going = some (access.job, access.phase))
    (made : (procedure obeys).step access.job access.phase access.before =
      (access.moved, access.after)) :
    Proceeds first thread request (strand.after access.job access.moved)
      (account access.after (past ++ [access])) := by
  cases proceeds with
  | waits | rests => cases going
  | @goes call _ stands =>
    obtain ⟨job, calling⟩ := Prod.mk.inj (Option.some.inj going)
    have yields := stands.step calling.symm made
    have moved : access.moved =
        Phase.ofCall (.request thread request) thread (call.step thread access.before).result := by
      rw [← calling, step_calling] at made
      exact (Prod.mk.inj made).1.symm
    rw [moved, ← job]
    cases result : (call.step thread access.before).result with
    | continues next =>
      rw [result] at yields
      exact .goes yields
    | finished outcome =>
      rw [result] at yields
      obtain ⟨done, last, stops⟩ := yields
      exact .rests stops

omit [Clearable β] [BufferSupply π β] [EventEncoder ε β] in
/-- The strand has nothing left to do. -/
theorem Proceeds.stopped {account : Account}
    (proceeds : Proceeds first thread request strand account)
    (finished : strand.jobs = []) (idle : strand.going = none) :
    ∃ outcome done last, strand.isDone = true ∧
      strand.results = [(.atSite (.request thread request), some outcome)] ∧
      Stops first thread request outcome account done last := by
  cases proceeds with
  | waits => cases finished
  | goes => cases idle
  | rests stops => exact ⟨_, _, _, rfl, rfl, stops⟩

/-- An order, or the clock going on, is not told of. -/
theorem account_of_quiet (quiet : access.phase.isQuiet = true)
    (made : (procedure obeys).step access.job access.phase access.before =
      (access.moved, access.after)) :
    account access.after (past ++ [access]) = account access.before past := by
  have between := delivery?_of_quiet quiet
  have counter := numbering_access made
  rw [between] at counter
  have still : outline ({ jobs := [] } : SiteStrand β δ) access.after (past ++ [access]) =
      outline { jobs := [] } access.before past := outline_of_quiet quiet made
  have site : access.after.outline 0 = access.before.outline 0 := congrArg Outline.site still
  rw [account, site, counter, attempts_concat, finishes_concat, Phase.draft?, finishes?, between]
  simp only [Option.map_none, Option.bind_none, Option.toList_none, List.append_nil, account]

/-- A call that is made while no other one is in progress ends, and stops at its first failure. -/
theorem SoleCall.exists_stops (obeys : δ → π × ε → π × ε) (site : Site π ε) (call : SoleCall δ)
    (quiet : ∀ jobs ∈ call.others, ∀ job ∈ jobs, job.isQuiet = true)
    (enough : 31 ≤ call.schedule.count 0) :
    ∃ outcome made last,
      (∃ strand, (call.final obeys site).strands[0]? = some strand ∧ strand.isDone = true ∧
        strand.results = [(.atSite (.request call.thread call.request), some outcome)]) ∧
      Stops (account site ([] : List (SiteAccess π ε β δ))) call.thread call.request outcome
        (account (call.final obeys site).shared (call.accesses obeys site)) made last := by
  let jobs : List (Job δ) := [.atSite (.request call.thread call.request)]
  let alone (past : List (SiteAccess π ε β δ)) : Prop :=
    ∀ access ∈ past, access.turn.strand ≠ 0 → access.phase.isQuiet = true
  have listed : (jobs :: call.others)[0]? = some jobs := rfl
  obtain ⟨strand, found, finished, idle, -⟩ :=
    exists_done obeys site (jobs :: call.others) listed call.schedule enough
  obtain ⟨own, foundOwn, proceeds⟩ := strand_induction
    (motive := fun strand shared past => Proceeds (account site ([] : List (SiteAccess π ε β δ)))
      call.thread call.request strand (account shared past))
    obeys site jobs call.others
    (fun past access (quiet : alone (past ++ [access])) own member =>
      quiet own (List.mem_append_left _ member))
    (fun _ access quiet => quiet access (by simp))
    .waits
    (fun strand shared past job rest idle next proceeds => proceeds.start idle next rfl rfl)
    (fun strand past access _ going _ made proceeds => proceeds.step going made)
    (fun strand past access _ quiet made proceeds => account_of_quiet quiet made ▸ proceeds)
    call.schedule (quiet_run obeys site jobs quiet call.schedule)
  cases found.symm.trans foundOwn
  obtain ⟨outcome, done, last, ended, results, stops⟩ := proceeds.stopped finished idle
  exact ⟨outcome, done, last, ⟨strand, found, ended, results⟩, stops⟩

end Steps

theorem duties_outline (thread : Thread) (request : Request) (entered : Timestamp)
    (site : Site π ε) :
    duties thread request entered (site.outline 0) = duties thread request entered site := by
  cases request <;> rfl

/-- What a report leaves behind whose last delivery is not that of the mapping of its thread. -/
theorem leftAt_of_announced {thread : Thread} {activity : Activity String String} {stage : Stage}
    {site : Site Dry Dry} {after : Site π ε} (announced : stage ≠ .thread)
    (left : after.outline 0 = leftAt thread (.report activity) stage site) :
    after.reporter.methods = site.reporter.methods.registered activity.method ∧
      after.reporter.exceptions =
        (if stage = .method then site.reporter.exceptions
          else registeredAny site.reporter.exceptions activity.raised?) ∧
      ∀ other, after.tracked.memo? other = (site.tracked.recognized thread).memo? other := by
  have methods := congrArg (fun site => site.reporter.methods) left
  have exceptions := congrArg (fun site => site.reporter.exceptions) left
  have memo (other : Thread) := congrArg (fun site => site.tracked.memo? other) left
  cases stage with
  | thread => exact absurd rfl announced
  | method | exception | answer => exact ⟨methods, exceptions, memo⟩

variable [Clearable β] [BufferSupply π β] [EventEncoder ε β]

/-- A call attempts the deliveries that are due in their order, ends just as the last one attempted,
which is the first to fail, and leaves behind what the stage of that delivery says. -/
theorem aborts_at_first_failure (obeys : δ → π × ε → π × ε) (site : Site π ε) (call : SoleCall δ)
    (quiet : ∀ jobs ∈ call.others, ∀ job ∈ jobs, job.isQuiet = true)
    (enough : 31 ≤ call.schedule.count 0) :
    let past := call.accesses obeys site
    let after := (call.final obeys site).shared
    let caller := site.tracked.idOf call.thread
    let name := site.tracked.nameOf call.thread
    ∃ result entered done last later,
      (∃ strand, (call.final obeys site).strands[0]? = some strand ∧ strand.isDone = true ∧
        strand.results = [(.atSite (.request call.thread call.request), some result)]) ∧
      duties call.thread call.request entered site = done ++ last :: later ∧
      attempts past = done ++ [last] ∧
      finishes past = done.map (fun entry => (entry.1, .returned ())) ++ [(last.1, result)] ∧
      (result = .returned () → later = []) ∧
      after.outline 0 = leftAt call.thread call.request last.1 (site.outline 0) ∧
      (∀ activity, call.request = .report activity →
        (last.1 = .thread →
          (∀ register : Register,
            register.table after.reporter = register.table site.reporter) ∧
          ∀ thread, after.tracked.memo? thread =
            if thread = call.thread then
              some { id := caller, announced := site.tracked.announced? call.thread }
            else site.tracked.memo? thread) ∧
        (last.1 ≠ .thread →
          after.reporter.methods = site.reporter.methods.registered activity.method ∧
          after.reporter.exceptions =
            (if last.1 = .method then site.reporter.exceptions
              else registeredAny site.reporter.exceptions activity.raised?) ∧
          ∀ thread, after.tracked.memo? thread =
            if thread = call.thread then some { id := caller, announced := some name }
            else site.tracked.memo? thread)) ∧
      ((∀ activity, call.request ≠ .report activity) →
        (∀ register : Register,
          register.table after.reporter = register.table site.reporter) ∧
        ∀ thread, after.tracked.memo? thread = site.tracked.memo? thread) ∧
      (last.1 ≠ .answer ∨ call.request.isReport = false ∨
          (∃ error, result = .failed (.obtain error)) →
        after.reporter.numbering = site.reporter.numbering) := by
  intro past after caller name
  obtain ⟨result, done, last, ends, stops⟩ := call.exists_stops obeys site quiet enough
  obtain ⟨entered, later, due, complete⟩ := stops.due
  replace due : duties call.thread call.request entered site = done ++ last :: later := by
    rw [← duties_outline]
    exact due
  have left : after.outline 0 = leftAt call.thread call.request last.1 (site.outline 0) :=
    stops.left
  refine ⟨result, entered, done, last, later, ends, due, stops.attempted, stops.ended, complete,
    left, ?_, ?_, ?_⟩
  · intro activity reports
    rw [reports] at left
    constructor
    · intro stage
      rw [stage] at left
      refine ⟨fun register => ?_, fun thread => ?_⟩
      · have table := congrArg (fun site => register.table site.reporter) left
        rw [table_outline] at table
        cases register <;> exact table
      · have memo := congrArg (fun site => site.tracked.memo? thread) left
        exact memo.trans ((site.outline 0).tracked.memo?_enrol call.thread thread)
    · intro announced
      obtain ⟨methods, exceptions, memos⟩ := leftAt_of_announced announced left
      exact ⟨methods, exceptions, fun thread => (memos thread).trans
        ((site.outline 0).tracked.memo?_recognized call.thread thread)⟩
  · intro mapping
    have left : after.outline 0 = site.outline 0 := by
      rw [left]
      cases asks : call.request with
      | report activity => exact absurd asks (mapping activity)
      | mapMethod | mapException | mapThread | marker => rfl
    refine ⟨fun register => ?_, fun thread => ?_⟩
    · have table := congrArg (fun site => register.table site.reporter) left
      simpa only [table_outline] using table
    · exact congrArg (fun site => site.tracked.memo? thread) left
  · rintro (announces | maps | refused)
    · exact stops.uncounted (.inl (unsequenced_of_duty (by rw [due]; simp) (.inl announces)))
    · exact stops.uncounted (.inl (unsequenced_of_duty (by rw [due]; simp) (.inr maps)))
    · exact stops.uncounted (.inr refused)

/-- A new site with an archive and its scribe. -/
def freshSite : Site Archive Scribe := Site.create {} {} .scripted {}

/-- A call during which the scribe is told to spoil the mapping of a method. -/
def spoiltCall : SoleCall Directive where
  thread := ⟨0⟩
  request := .report (.exception "Boom" "run" 7)
  others := [[.order (.spoil (.write .methodMapping))]]
  schedule := [1, 1] ++ List.replicate 40 0

/-- The site after that call. -/
def spoiltSite : Site Archive Scribe :=
  (spoiltCall.final Directive.obeyed freshSite : Traffic _ _ Transcript _).shared

/-- The mapping of the thread is delivered, that of the method fails, and the exception gets no
id. -/
theorem aborts_at_first_failure_spoilt :
    (attempts (spoiltCall.accesses Directive.obeyed freshSite :
        List (SiteAccess _ _ Transcript _)) =
      [(.thread, .threadMapping 0 ""), (.method, .methodMapping 1 "run")]) ∧
      spoiltSite.reporter.methods.find? "run" = some 1 ∧
      spoiltSite.reporter.exceptions = {} ∧ spoiltSite.reporter.numbering = {} ∧
      spoiltSite.tracked.announced? ⟨0⟩ = some "" := by
  have tried : attempts (spoiltCall.accesses Directive.obeyed freshSite :
      List (SiteAccess _ _ Transcript _)) =
        [(.thread, .threadMapping 0 ""), (.method, .methodMapping 1 "run")] := by decide +kernel
  obtain ⟨result, entered, done, last, later, -, -, attempted, -, -, -, reported, -, counter⟩ :=
    aborts_at_first_failure (β := Transcript) Directive.obeyed freshSite spoiltCall (by decide)
      (by decide)
  have own : last = (.method, .methodMapping 1 "run") := by
    simpa using congrArg List.getLast? (attempted.symm.trans tried)
  rw [own] at reported counter
  obtain ⟨methods, exceptions, memos⟩ := (reported _ rfl).2 nofun
  have registered : spoiltSite.reporter.methods = _ := methods
  have unregistered : spoiltSite.reporter.exceptions = freshSite.reporter.exceptions :=
    exceptions.trans (if_pos rfl)
  have uncounted : spoiltSite.reporter.numbering = freshSite.reporter.numbering :=
    counter (.inl nofun)
  have memo : spoiltSite.tracked.memo? ⟨0⟩ = _ := memos ⟨0⟩
  refine ⟨tried, ?_, unregistered, uncounted, ?_⟩
  · rw [registered]
    rfl
  · rw [TrackedHost.announced?, memo]
    rfl

end TraceRelay.OpenSite
