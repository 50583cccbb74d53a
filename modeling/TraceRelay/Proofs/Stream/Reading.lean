import TraceRelay.Proofs.Stream.Archived
import TraceRelay.Proofs.Stream.Exhaustion
import TraceRelay.Proofs.Stream.Sequential

/-! A reader who knows nothing but the stream gets the calls back as they were made. -/

namespace TraceRelay

namespace OpenSite

variable {π ε β δ : Type}

/-- The purpose of the delivery that ends with an access, if its event is not shipped. -/
def loses? [BufferSupply π β] (access : SiteAccess π ε β δ) : Option Purpose :=
  match ends? access with
  | some (purpose, false) => some purpose
  | _ => none

/-- The accesses draw each id of 32 bits at most once, and lose no mapping: only a call's own event
may be refused a buffer, or fail or panic on its way. -/
structure Unspoilt [BufferSupply π β] (past : List (SiteAccess π ε β δ)) : Prop where
  few : ∀ register, drawn register past < 2 ^ 32
  room : enrolled past ≤ 2 ^ 32
  kept : ∀ purpose ∈ past.filterMap loses?, purpose = .answer

/-- What the stream tells of the jobs that have ended with the given results. -/
structure Recounts [BufferSupply π β] (past : List (SiteAccess π ε β δ))
    (results : List (Job δ × Option (Outcome DeliveryFailure Unit))) : Prop where
  turns : (chronicle past).answered.map Prod.fst = past.filterMap answers?
  ordered : (chronicle past).answered.Pairwise fun first second => first.1.number < second.1.number
  reported : ∀ entry ∈ (chronicle past).answered, ∃ job outcome,
    results[entry.1.number]? = some (job, outcome) ∧
      (chronicle past).report? entry.1 job = some entry.2
  told : ∀ thread activity outcome, (.atSite (.request thread (.report activity)), outcome) ∈
    results → ∀ (register : Register) text, register.names? activity = some text →
      text ∈ (register.mappings (chronicle past).stream).map Prod.fst

theorem Unspoilt.before [BufferSupply π β] {past : List (SiteAccess π ε β δ)}
    {access : SiteAccess π ε β δ} (unspoilt : Unspoilt (past ++ [access])) : Unspoilt past where
  few register := by
    have few := unspoilt.few register
    rw [drawn_concat] at few
    omega
  room := by
    have room := unspoilt.room
    rw [enrolled_concat] at room
    omega
  kept purpose member := unspoilt.kept purpose (by
    rw [List.filterMap_append]
    exact List.mem_append_left _ member)

variable [Clearable β] [BufferSupply π β] [EventEncoder ε β] {obeys : δ → π × ε → π × ε}
  {work : List (Job δ)} {past : List (SiteAccess π ε β δ)} {access : SiteAccess π ε β δ}
  {thread : Thread} {request : Request} {call : Call β}
  {call? : Option (Thread × Request × Call β)}

omit [Clearable β] [EventEncoder ε β] in
theorem ships?_of_answers {turn : Turn} (answers : answers? access = some turn) :
    turn = access.turn ∧ ∃ delivery, access.phase.call? = some (.delivering .answer delivery) ∧
      delivery.ships? access.before.reporter.supply = some true := by
  unfold answers? at answers
  split at answers
  · rename_i ends
    cases answers
    obtain ⟨⟨purpose, delivery⟩, delivering, ships⟩ := Option.bind_eq_some_iff.mp ends
    obtain ⟨shipped, ships, same⟩ := Option.map_eq_some_iff.mp ships
    cases same
    obtain ⟨call, calling, own⟩ := Option.bind_eq_some_iff.mp delivering
    cases call with
    | delivering purpose delivery =>
      cases own
      exact ⟨rfl, delivery, calling, ships⟩
    | entering | identifying | resolvingMethod | resolvingException => cases own
  · cases answers

omit [Clearable β] [BufferSupply π β] [EventEncoder ε β] in
/-- Who reads an activity knows the ids of all texts that it names. -/
theorem known_of_read {legend : Legend} {act : Activity MethodId ExceptionId}
    {activity : Activity String String} (read : legend.readActivity? act = some activity)
    {register : Register} {text : String} (names : register.names? activity = some text) :
    ∃ id, (legend.known register).find? id = some text := by
  cases act with
  | entry method | exit method line =>
    obtain ⟨signature, known, same⟩ := Option.bind_eq_some_iff.mp read
    cases same
    cases register with
    | methods => exact ⟨method, known.trans names⟩
    | exceptions => cases names
  | exception raised method line | bubble raised method =>
    obtain ⟨exception, knownRaised, read⟩ := Option.bind_eq_some_iff.mp read
    obtain ⟨signature, known, same⟩ := Option.bind_eq_some_iff.mp read
    cases same
    cases register with
    | methods => exact ⟨method, known.trans names⟩
    | exceptions => exact ⟨raised, knownRaised.trans names⟩

omit [Clearable β] [BufferSupply π β] [EventEncoder ε β] in
/-- The stream maps all texts that the draft of a call's own event names. -/
theorem mapped_of_answers {chronicle : Chronicle} {turn : Turn} {draft : Draft}
    {activity : Activity String String} (answers : Answers chronicle turn (.report activity) draft)
    {register : Register} {text : String} (names : register.names? activity = some text) :
    text ∈ (register.mappings chronicle.stream).map Prod.fst := by
  cases draft with
  | methodMapping | exceptionMapping | threadMapping => exact answers.elim
  | marker => cases answers
  | activity entered caller act =>
    obtain ⟨other, ⟨asked, -⟩, read⟩ := answers
    cases asked
    obtain ⟨id, known⟩ := known_of_read read names
    exact List.mem_map.mpr ⟨(text, id), Legend.mem_mappings_of_known known, rfl⟩

/-- A call that loses no mapping ends with the delivery of its own event. -/
theorem answering_of_finished {siteJob : Site.Job} {outcome : Outcome DeliveryFailure Unit}
    (calling : access.phase = .atSite siteJob (.calling thread call))
    (ended : (call.step thread access.before).result = .finished outcome)
    (kept : ∀ lost, ends? access = some (lost, false) → lost = .answer) :
    ∃ delivery, call = .delivering .answer delivery := by
  cases call with
  | entering => cases ended
  | identifying =>
    rw [(step_identifying ..).2] at ended
    cases ended
  | resolvingMethod =>
    rw [(step_resolvingMethod ..).2] at ended
    cases ended
  | resolvingException =>
    rw [(step_resolvingException ..).2] at ended
    cases ended
  | delivering purpose delivery =>
    have ending := ends?_of_delivering calling
    have answering : purpose = .answer := by
      cases ships : delivery.ships? access.before.reporter.supply with
      | none =>
        obtain ⟨next, goesOn⟩ :=
          (step_delivering thread purpose delivery access.before).1 ships
        rw [goesOn] at ended
        cases ended
      | some shipped =>
        cases shipped with
        | false => exact kept purpose (by simp [ending, ships])
        | true =>
          rw [(step_delivering ..).2.1 ships] at ended
          cases purpose with
          | answer => rfl
          | announceThread | announceMethod | announceException => cases ended
    subst answering
    exact ⟨delivery, rfl⟩

/-- What is known of an access that ships the own event of its call. -/
theorem Faithful.answering {turn : Turn} (faithful : Faithful access.before past access.turn call?)
    (engages : Engages (some (access.job, access.phase)) call?)
    (made : (procedure obeys).step access.job access.phase access.before =
      (access.moved, access.after)) (answers : answers? access = some turn) :
    turn = access.turn ∧ readsName? access = none ∧
      (∃ outcome, access.result? = some (access.job, outcome)) ∧
      ∃ report, (chronicle past).report? access.turn access.job = some report := by
  obtain ⟨rfl, delivery, delivering, ships⟩ := ships?_of_answers answers
  rw [engages.call_eq] at delivering
  obtain ⟨⟨thread, request, call⟩, rfl, same⟩ := Option.map_eq_some_iff.mp delivering
  simp only at same
  subst same
  obtain ⟨job, calling⟩ := engages.calling
  have stops := (call_of_step made calling).2
  rw [(step_delivering ..).2.1 ships] at stops
  have ended : ∃ outcome, access.result? = some (access.job, outcome) := by
    cases moved : access.moved with
    | continues phase => simp [Access.next?, moved, following, Call.resume] at stops
    | finished outcome => exact ⟨outcome, by simp [Access.result?, moved]⟩
  obtain ⟨draft, means, carries⟩ := faithful.keeps _ _ _ rfl
  obtain ⟨event, -, becomes⟩ := exists_of_ships carries ships
  obtain ⟨-, report, reported, -⟩ := read?_of_answers means becomes job
  exact ⟨rfl, by simp [readsName?, calling], ended, report, reported⟩

/-- A call that has ended has all its texts mapped in the stream. -/
theorem Faithful.told {activity : Activity String String}
    {outcome : Option (Outcome DeliveryFailure Unit)}
    (faithful : Faithful access.before past access.turn call?)
    (engages : Engages (some (access.job, access.phase)) call?)
    (made : (procedure obeys).step access.job access.phase access.before =
      (access.moved, access.after))
    (kept : ∀ lost, ends? access = some (lost, false) → lost = .answer)
    (ended : access.result? = some (.atSite (.request thread (.report activity)), outcome))
    {register : Register} {text : String} (names : register.names? activity = some text) :
    text ∈ (register.mappings (chronicle past).stream).map Prod.fst := by
  have stops : access.next? = none ∧
      access.job = .atSite (.request thread (.report activity)) := by
    cases moved : access.moved with
    | continues phase => simp [Access.result?, moved] at ended
    | finished result =>
      simp only [Access.result?, moved, Option.some.injEq, Prod.mk.injEq] at ended
      exact ⟨by simp [Access.next?, moved], ended.1⟩
  obtain ⟨stops, job⟩ := stops
  rw [job] at engages
  obtain ⟨call, rfl⟩ := engages.of_request
  obtain ⟨-, calling⟩ := engages.calling
  have ending := (call_of_step made calling).2
  rw [stops] at ending
  cases result : (call.step thread access.before).result with
  | continues next => simp [result, following] at ending
  | finished outcome =>
    obtain ⟨delivery, rfl⟩ := answering_of_finished calling result kept
    obtain ⟨draft, answers, -⟩ := faithful.keeps _ _ _ rfl
    exact mapped_of_answers answers names

omit [Clearable β] [EventEncoder ε β] in
theorem Recounts.number_lt {results : List (Job δ × Option (Outcome DeliveryFailure Unit))}
    (recounts : Recounts past results) {entry : Turn × Report}
    (member : entry ∈ (chronicle past).answered) : entry.1.number < results.length := by
  obtain ⟨job, outcome, ended, -⟩ := recounts.reported entry member
  exact (List.getElem?_eq_some_iff.mp ended).1

omit [Clearable β] [EventEncoder ε β] in
/-- What has been read of the calls that have ended stays right. -/
theorem Recounts.still_reported {results : List (Job δ × Option (Outcome DeliveryFailure Unit))}
    (recounts : Recounts past results) (last : access.turn.number = results.length)
    (more : List (Job δ × Option (Outcome DeliveryFailure Unit))) :
    ∀ entry ∈ (chronicle past).answered, ∃ job outcome,
      (results ++ more)[entry.1.number]? = some (job, outcome) ∧
        (chronicle (past ++ [access])).report? entry.1 job = some entry.2 := by
  intro entry member
  obtain ⟨job, outcome, ended, reported⟩ := recounts.reported entry member
  have before := recounts.number_lt member
  have apart : entry.1 ≠ access.turn := by
    intro same
    rw [same] at before
    omega
  refine ⟨job, outcome, ?_, ?_⟩
  · rw [List.getElem?_append_left before, ended]
  · rw [report?_concat (.inr apart), reported]

/-- Every access keeps what the stream tells of the jobs that have ended. -/
theorem Recounts.advance {results : List (Job δ × Option (Outcome DeliveryFailure Unit))}
    (recounts : Recounts past results) (last : access.turn.number = results.length)
    (faithful : Faithful access.before past access.turn call?)
    (engages : Engages (some (access.job, access.phase)) call?)
    (made : (procedure obeys).step access.job access.phase access.before =
      (access.moved, access.after))
    (kept : ∀ lost, ends? access = some (lost, false) → lost = .answer) :
    Recounts (past ++ [access]) (results ++ access.result?.toList) := by
  have stillReported := recounts.still_reported last access.result?.toList
  have stillTold : ∀ thread activity outcome,
      (.atSite (.request thread (.report activity)), outcome) ∈ results ++ access.result?.toList →
      ∀ (register : Register) text, register.names? activity = some text →
        text ∈ (register.mappings (chronicle (past ++ [access])).stream).map Prod.fst := by
    intro thread activity outcome member register text names
    obtain ⟨more, grown⟩ := stream_concat past access
    rw [grown, Register.mappings, List.filterMap_append, List.map_append]
    apply List.mem_append_left
    rcases List.mem_append.mp member with old | new
    · exact recounts.told thread activity outcome old register text names
    · exact faithful.told engages made kept (Option.mem_toList.mp new) names
  cases answers : answers? access with
  | none =>
    have same : (chronicle (past ++ [access])).answered = (chronicle past).answered := by
      simp [answered_concat, answers]
    refine ⟨?_, ?_, ?_, stillTold⟩
    · simp [same, recounts.turns, answers]
    · rw [same]
      exact recounts.ordered
    · rw [same]
      exact stillReported
  | some turn =>
    obtain ⟨rfl, silent, ⟨outcome, ended⟩, report, reported⟩ :=
      faithful.answering engages made answers
    have grown : (chronicle (past ++ [access])).answered =
        (chronicle past).answered ++ [(access.turn, report)] := by
      simp [answered_concat, answers, reported]
    refine ⟨?_, ?_, ?_, stillTold⟩
    · simp [grown, recounts.turns, answers]
    · rw [grown, List.pairwise_append]
      refine ⟨recounts.ordered, List.pairwise_singleton .., ?_⟩
      intro entry member new own
      rw [List.mem_singleton.mp own, last]
      exact recounts.number_lt member
    · intro entry member
      rw [grown, List.mem_append, List.mem_singleton] at member
      rcases member with old | rfl
      · exact stillReported entry old
      · refine ⟨access.job, outcome, ?_, ?_⟩
        · simp [ended, last]
        · rw [report?_concat (.inl silent), reported]

/-- In each table the ids count up from one, in the order of their announcements. -/
def Orderly (site : Site π ε) (past : List (SiteAccess π ε β δ))
    (call? : Option (Thread × Request × Call β)) : Prop :=
  ∀ register : Register,
    Inquiry.InTurn (register.table site.reporter) (announced register past) (drawn register past)
      (call?.bind fun call => register.inquiry? call.2.2) ∧
      Inquiry.CountsUp (announced register past)

/-- Every access keeps the ids in order. -/
theorem Orderly.advance {next? : Option (Thread × Request × Call β)}
    (orderly : Orderly access.before past call?)
    (faithful : Faithful access.before past access.turn call?)
    (engages : Engages (some (access.job, access.phase)) call?)
    (made : (procedure obeys).step access.job access.phase access.before =
      (access.moved, access.after))
    (goesOn : Engages (access.next?.map fun next => (next.job, next.phase)) next?) :
    Orderly access.after (past ++ [access]) next? := by
  intro register
  have own := engages.inquiry? register
  have next := goesOn.inquiry? register
  rw [Option.bind_some] at own
  rw [Option.bind_map] at next
  have uses := uses_of_step register made
  obtain ⟨inTurn, counts⟩ := orderly register
  have kept := uses.inTurn (by rw [own]; exact faithful.consistent register)
    (by rw [own]; exact inTurn) counts
  rw [drawn_concat, announced_concat, ← next]
  exact kept

/-- What a run of one strand keeps, as long as it is not spoilt. -/
structure Follows (work : List (Job δ)) (traffic : Traffic π ε β δ)
    (past : List (SiteAccess π ε β δ))
    (strand : SiteStrand β δ)
    (call? : Option (Thread × Request × Call β)) : Prop where
  alone : traffic.strands = [strand]
  inOrder : strand.results.map Prod.fst ++
    ((strand.going.map Prod.fst).toList ++ strand.jobs) = work
  engages : Engages strand.going call?
  reports : ∀ job ∈ strand.jobs, job.isReport = true
  faithful : Faithful traffic.shared past ⟨0, strand.ended.length⟩ call?
  orderly : Orderly traffic.shared past call?
  recounts : Recounts past strand.results

omit [Clearable β] [EventEncoder ε β] in
/-- A new reporter has told nothing. -/
theorem follows_fresh (supply : π) (encoder : ε) (names : NameSource) (host : Host)
    (jobs : List (Job δ))
    (unused : ∀ thread, host.memos.find? thread host.memos.upcoming = none)
    (reports : ∀ job ∈ jobs, job.isReport = true) :
    Follows jobs (Interleaving.fresh (Site.create supply encoder names host) [jobs] :
      Traffic π ε β δ) [] { jobs } none := by
  refine ⟨rfl, rfl, .rests, reports, ⟨rfl, ?_, ?_, ?_, by simp, by simp, by simp⟩, ?_, ?_⟩
  · intro register
    cases register <;> exact IdTable.Consistent.empty
  · intro register
    rfl
  · exact Roster.empty rfl unused
  · intro register
    exact ⟨rfl, rfl⟩
  · exact ⟨rfl, List.Pairwise.nil, by simp [chronicle], by simp [Strand.results]⟩

omit [Clearable β] [EventEncoder ε β] in
theorem Follows.found {traffic : Traffic π ε β δ} {number : Nat}
    {strand own : SiteStrand β δ}
    (follows : Follows work traffic past strand call?)
    (found : traffic.strands[number]? = some own) : number = 0 ∧ own = strand := by
  rw [follows.alone, List.getElem?_singleton] at found
  split at found
  · rename_i first
    cases found
    exact ⟨first, rfl⟩
  · cases found

/-- The start of a job tells nothing. -/
theorem Follows.start {traffic : Traffic π ε β δ}
    {strand : SiteStrand β δ}
    {job : Job δ} {jobs : List (Job δ)} (follows : Follows work traffic past strand call?)
    (idle : strand.going = none) (next : strand.jobs = job :: jobs) :
    ∃ call?, Follows work (traffic.afterStart (procedure obeys) 0 strand job jobs) past
      { strand with going := some (job, (procedure obeys).start job), jobs } call? := by
  obtain ⟨alone, inOrder, engages, reports, faithful, orderly, recounts⟩ := follows
  rw [idle] at engages inOrder
  rw [next] at reports inOrder
  cases engages
  obtain ⟨call?, begun, entering⟩ := Engages.of_start (ε := ε) obeys job
  have still (other : Job δ) (member : other ∈ jobs) : other.isReport = true :=
    reports other (List.mem_cons_of_mem _ member)
  have strands : (traffic.afterStart (procedure obeys) 0 strand job jobs).strands =
      [{ strand with going := some (job, (procedure obeys).start job), jobs }] := by
    simp [Interleaving.afterStart, alone]
  cases call? with
  | none => exact ⟨none, strands, inOrder, begun, still, faithful, orderly, recounts⟩
  | some making =>
    obtain ⟨thread, request, call⟩ := making
    obtain ⟨rfl, rfl⟩ := entering _ _ _ rfl
    have reporting := reports _ List.mem_cons_self
    refine ⟨_, strands, inOrder, begun, still, faithful.begin thread reporting, ?_, recounts⟩
    intro register
    cases register <;> exact orderly _

/-- Every access keeps what a run of one strand keeps. -/
theorem Follows.advance {traffic : Traffic π ε β δ}
    {strand : SiteStrand β δ}
    (follows : Follows work traffic past strand call?)
    (makes : traffic.Makes (procedure obeys) strand access)
    (unspoilt : Unspoilt (past ++ [access])) :
    ∃ call?, Follows work (traffic.afterAccess strand access) (past ++ [access])
      (strand.after access.job access.moved) call? := by
  obtain ⟨first, -⟩ := follows.found makes.found
  obtain ⟨alone, inOrder, engages, reports, faithful, orderly, recounts⟩ := follows
  have turn : access.turn = ⟨0, strand.ended.length⟩ := by
    rw [← first, ← makes.number]
  have kept (lost : Purpose) (ends : ends? access = some (lost, false)) : lost = .answer :=
    unspoilt.kept lost (by simp [loses?, ends])
  rw [makes.going] at engages inOrder
  rw [← makes.before, ← turn] at faithful
  rw [← makes.before] at orderly
  obtain ⟨next?, goesOn, faithfulNext⟩ :=
    faithful.advance engages makes.made unspoilt.few unspoilt.room kept
  have last : access.turn.number = strand.results.length := by
    simp [turn, Strand.results]
  have recountsNext := recounts.advance last faithful engages makes.made kept
  rw [← Strand.results_after] at recountsNext
  have strands : (traffic.afterAccess strand access).strands =
      [strand.after access.job access.moved] := by
    simp [Interleaving.afterAccess, alone, first]
  have orderlyNext := orderly.advance faithful engages makes.made goesOn
  refine ⟨next?, strands, ?_, ?_, ?_, ?_, orderlyNext, recountsNext⟩
  · rw [Strand.results_after]
    cases moved : access.moved <;> simpa [Strand.after, Access.result?, moved] using inOrder
  · cases moved : access.moved <;> simpa [Strand.after, Access.next?, moved] using goesOn
  · cases access.moved <;> exact reports
  · cases moved : access.moved with
    | continues phase =>
      rw [turn] at faithfulNext
      exact faithfulNext
    | finished outcome =>
      -- no call is left in progress, so what is kept does not depend on the turn
      simp only [Access.next?, moved, Option.map_none] at goesOn
      cases goesOn
      exact faithfulNext.between_turns _

/-- A run of one strand that is not spoilt keeps all that holds at first. -/
theorem follows_run (obeys : δ → π × ε → π × ε) (supply : π) (encoder : ε) (names : NameSource)
    (host : Host) (jobs : List (Job δ)) (schedule : List Nat)
    (unused : ∀ thread, host.memos.find? thread host.memos.upcoming = none)
    (reports : ∀ job ∈ jobs, job.isReport = true)
    (unspoilt : Unspoilt ((Interleaving.fresh (Site.create supply encoder names host)
      [jobs]).accesses (procedure obeys) schedule)) :
    ∃ strand call?, Follows jobs
      ((Interleaving.fresh (Site.create supply encoder names host) [jobs]).run
        (procedure obeys) schedule)
      ((Interleaving.fresh (Site.create supply encoder names host) [jobs]).accesses
        (procedure obeys) schedule) strand call? := by
  revert unspoilt
  refine Interleaving.run_induction (motive := fun traffic past => Unspoilt past →
    ∃ strand call?, Follows jobs traffic past strand call?) (procedure obeys) _ ?_ ?_ ?_ schedule
  · intro _
    exact ⟨_, _, follows_fresh supply encoder names host jobs unused reports⟩
  · intro traffic past number own job jobs kept found idle next unspoilt
    obtain ⟨strand, call?, follows⟩ := kept unspoilt
    obtain ⟨rfl, rfl⟩ := follows.found found
    exact ⟨_, follows.start idle next⟩
  · intro traffic past own access kept makes unspoilt
    obtain ⟨strand, call?, follows⟩ := kept unspoilt.before
    obtain ⟨-, rfl⟩ := follows.found makes.found
    exact ⟨_, follows.advance makes unspoilt⟩

/-- A reader of the stream gets just the calls whose own events have been shipped, in their order
and as they were made, and never meets an id that has not been mapped before. -/
theorem stream_decodes (obeys : δ → π × ε → π × ε) (supply : π) (encoder : ε) (names : NameSource)
    (host : Host) (jobs : List (Job δ)) (schedule : List Nat)
    (unused : ∀ thread, host.memos.find? thread host.memos.upcoming = none)
    (reports : ∀ job ∈ jobs, job.isReport = true)
    (unspoilt : Unspoilt ((Interleaving.fresh (Site.create supply encoder names host)
      [jobs]).accesses (procedure obeys) schedule)) :
    let traffic := (Interleaving.fresh (Site.create supply encoder names host) [jobs]).run
      (procedure obeys) schedule
    let past := (Interleaving.fresh (Site.create supply encoder names host) [jobs]).accesses
      (procedure obeys) schedule
    let told := chronicle past
    ({} : Legend).readStream told.stream = told.answered.map (fun entry => some entry.2) ∧
      told.answered.map Prod.fst = past.filterMap answers? ∧
      (told.answered.Pairwise fun first second => first.1.number < second.1.number) ∧
      (∀ entry ∈ told.answered, ∃ job, jobs[entry.1.number]? = some job ∧
        told.report? entry.1 job = some entry.2) ∧
      (∀ register : Register, ((register.mappings told.stream).map Prod.fst).Nodup ∧
        (register.mappings told.stream).map Prod.snd =
          (List.range (register.mappings told.stream).length).map fun count =>
            UInt32.ofNat (count + 1)) ∧
      ∀ thread activity outcome,
        (.atSite (.request thread (.report activity)), outcome) ∈ traffic.results →
        ∀ (register : Register) text, register.names? activity = some text →
          ((register.mappings told.stream).map Prod.fst).count text = 1 := by
  obtain ⟨strand, call?, follows⟩ :=
    follows_run obeys supply encoder names host jobs schedule unused reports unspoilt
  intro traffic past told
  have results : traffic.results = strand.results := by
    simp [traffic, Interleaving.results, follows.alone]
  have announcing (register : Register) : announced register past =
      register.mappings told.stream ++
        (opening? (call?.bind fun call => register.inquiry? call.2.2)).toList :=
    follows.faithful.mapped register
  have once (register : Register) : ((register.mappings told.stream).map Prod.fst).Nodup := by
    have once := (follows.faithful.consistent register).once
    rw [announcing, List.map_append] at once
    exact (List.nodup_append.mp once).1
  rw [results]
  refine ⟨follows.faithful.read, follows.recounts.turns, follows.recounts.ordered, ?_, ?_, ?_⟩
  · intro entry member
    obtain ⟨job, outcome, ended, reported⟩ := follows.recounts.reported entry member
    have inside : entry.1.number < (strand.results.map Prod.fst).length := by
      rw [List.length_map]
      exact (List.getElem?_eq_some_iff.mp ended).1
    refine ⟨job, ?_, reported⟩
    rw [← follows.inOrder, List.getElem?_append_left inside, List.getElem?_map, ended]
    rfl
  · intro register
    have counts := (follows.orderly register).2
    rw [announcing] at counts
    exact ⟨once register, counts.of_append⟩
  · intro thread activity outcome member register text names
    have mapped := follows.recounts.told thread activity outcome member register text names
    exact List.count_eq_one_of_mem (once register) mapped

/-- A thread takes on another name between two of its calls. The archive swallows the marker that
another thread makes in between. -/
def renamedCalls : List (Job Bool) :=
  [.atSite (.change (.rename ⟨0⟩ "first")), .atSite (.request ⟨0⟩ (.report (.entry "run"))),
    .atSite (.change (.rename ⟨0⟩ "second")), .order true,
    .atSite (.request ⟨1⟩ (.marker "phase" "start")), .order false,
    .atSite (.request ⟨0⟩ (.report (.bubble "Fault" "run")))]

/-- What the calls do at a new site. -/
def renamedRun : List (SiteAccess Archive Scribe Transcript Bool) :=
  (Interleaving.fresh (Site.create {} {} .scripted {}) [renamedCalls]).accesses
    (procedure swallows) (List.replicate 80 0)

/-- Each call is read under the name that its thread had at the time, and the marker is not read.
All that is read is in the archive. -/
theorem stream_decodes_renamed : Unspoilt renamedRun ∧
    ({} : Legend).readStream (chronicle renamedRun).stream =
      [some (.activity "first" (.entry "run")),
        some (.activity "second" (.bubble "Fault" "run"))] ∧
    ((Interleaving.fresh (Site.create {} {} .scripted {}) [renamedCalls]).run (procedure swallows)
      (List.replicate 80 0)).shared.reporter.supply.entries =
        (chronicle renamedRun).stream.map .complete := by
  have unspoilt : Unspoilt renamedRun := by
    constructor
    · intro register
      have drawn : drawn register renamedRun = 1 := by
        cases register <;> rfl
      omega
    · have enrolled : enrolled renamedRun = 1 := by
        rfl
      omega
    · have lost : renamedRun.filterMap loses? = [.answer] := by
        rfl
      rw [lost]
      decide
  have reports : ∀ job ∈ renamedCalls, job.isReport = true := by
    decide
  have decodes := (stream_decodes swallows {} {} .scripted {} renamedCalls (List.replicate 80 0)
    (fun _ => rfl) reports unspoilt).1
  refine ⟨unspoilt, decodes.trans ?_, ?_⟩
  · rfl
  · exact entries_run (fun _ _ _ => rfl) _ rfl [renamedCalls] (List.replicate 80 0)

/-- Without the bounds a method is mapped twice and a thread takes the id and the name of another
one, although no mapping has been lost. -/
theorem stream_misread :
    ((reportsPast (entriesAgain (2 ^ 32))).filterMap loses? = [] ∧
      ¬ ((Register.methods.mappings
        (chronicle (reportsPast (entriesAgain (2 ^ 32)))).stream).map Prod.fst).Nodup) ∧
    (reportsPast (debutsAgain (2 ^ 32))).filterMap loses? = [] ∧
      ampleSite.tracked.nameOf ⟨0⟩ = "main" ∧
      ∃ before stamp, (chronicle (reportsPast (debutsAgain (2 ^ 32)))).stream =
          before ++ [.activity stamp 0 (.entry 1)] ∧
        (Legend.ofEvents before).threads.find? 0 = some "" := by
  have lossless (observations : List Observation) :
      (reportsPast observations).filterMap loses? = [] := by
    rw [List.filterMap_eq_nil_iff]
    intro access made
    unfold loses?
    split
    · rename_i purpose ends
      cases ends_reports made ends
    · rfl
  have positive : 2 ^ 32 ≠ 0 := by decide
  exact ⟨⟨lossless _, (mappings_entriesAgain positive ofNat_exhausted).1⟩, lossless _, rfl,
    stream_debutsAgain positive ofNat_exhausted⟩

end OpenSite

end TraceRelay
