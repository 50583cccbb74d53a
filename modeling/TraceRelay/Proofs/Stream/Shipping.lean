import TraceRelay.Proofs.Stream.Findings

/-! What a delivery keeps about the stream. -/

namespace TraceRelay.OpenSite

variable {π ε β δ : Type} [Clearable β] [BufferSupply π β] [EventEncoder ε β]
  {obeys : δ → π × ε → π × ε} {past : List (SiteAccess π ε β δ)} {access : SiteAccess π ε β δ}
  {siteJob : Site.Job} {thread : Thread} {request : Request} {purpose : Purpose}
  {delivery : Delivery β}
  (made : (procedure obeys).step access.job access.phase access.before =
    (access.moved, access.after))
  (few : ∀ register, drawn register (past ++ [access]) < 2 ^ 32)

omit [Clearable β] [BufferSupply π β] [EventEncoder ε β] in
theorem opening?_resume (purpose : Purpose) (register : Register) :
    opening? ((following (Call.resume purpose : Progress (Call β) _)).bind register.inquiry?) =
      none := by
  cases purpose <;> cases register <;> rfl

omit [Clearable β] [BufferSupply π β] [EventEncoder ε β] in
theorem inquiry?_delivering (purpose : Purpose) (delivery next : Delivery β)
    (register : Register) : register.inquiry? (.delivering purpose delivery) =
      register.inquiry? (.delivering purpose next) := by
  cases purpose <;> cases register <;> rfl

theorem tracked_delivering (thread : Thread) (purpose : Purpose) (delivery : Delivery β)
    (site : Site π ε) :
    ((Call.delivering purpose delivery).step thread site).state.tracked = site.tracked := by
  cases delivery with
  | obtaining draft =>
    simp only [Call.step, Delivery.step]
    split <;> rfl
  | stamping | writing | returning => rfl

/-- A delivery that does not end with an access goes on, one that ships its event leads its call on,
and one that loses the own event of its call ends the call. -/
theorem step_delivering (thread : Thread) (purpose : Purpose) (delivery : Delivery β)
    (site : Site π ε) :
    (delivery.ships? site.reporter.supply = none → ∃ next,
      ((Call.delivering purpose delivery).step thread site).result =
        .continues (.delivering purpose next)) ∧
      (delivery.ships? site.reporter.supply = some true →
        ((Call.delivering purpose delivery).step thread site).result = Call.resume purpose) ∧
      (delivery.ships? site.reporter.supply = some false → purpose = .answer → ∃ outcome,
        ((Call.delivering purpose delivery).step thread site).result = .finished outcome) := by
  cases delivery with
  | stamping draft buffer => exact ⟨fun _ => ⟨_, rfl⟩, by simp [Delivery.ships?]⟩
  | writing event buffer => exact ⟨fun _ => ⟨_, rfl⟩, by simp [Delivery.ships?]⟩
  | obtaining draft =>
    simp only [Call.step, Delivery.step, Delivery.ships?]
    cases (BufferSupply.lend site.reporter.supply).result with
    | error failure => simp
    | ok found =>
      cases found with
      | none =>
        refine ⟨by simp, by simp, ?_⟩
        rintro - rfl
        exact ⟨_, rfl⟩
      | some buffer => simp
  | returning written buffer =>
    simp only [Call.step, Delivery.step, Delivery.ships?]
    cases (BufferSupply.ship buffer site.reporter.supply).result with
    | error failure => cases written <;> simp [Delivery.conclude]
    | ok value =>
      cases written with
      | returned value => simp [Delivery.conclude]
      | failed | panicked => simp [Delivery.conclude]

omit [Clearable β] in
/-- A delivery that ships its event has written it. -/
theorem exists_of_ships {supply : π} {written : Option Event} {draft : Draft}
    (carries : delivery.Carries written draft) (ships : delivery.ships? supply = some true) :
    ∃ event, written = some event ∧ draft.Becomes event := by
  cases delivery with
  | returning => exact carries
  | stamping | writing => cases ships
  | obtaining draft =>
    simp only [Delivery.ships?] at ships
    split at ships <;> cases ships

/-- If a call goes on after an access of its delivery, either the delivery carries its draft on, or
it has ended: its event is shipped, or there is no buffer to spare for it. -/
theorem carries_delivering {draft : Draft} {next : Call β}
    (calling : access.phase = .atSite siteJob (.calling thread (.delivering purpose delivery)))
    (carries : delivery.Carries ((chronicle past).written ⟨access.turn, purpose.stage⟩) draft)
    (goesOn : ((Call.delivering purpose delivery).step thread access.before).result =
      .continues next) :
    (∃ later, next = .delivering purpose later ∧ ends? access = none ∧
      later.Carries ((chronicle (past ++ [access])).written ⟨access.turn, purpose.stage⟩) draft) ∨
    Call.resume purpose = .continues next ∧ (ends? access = some (purpose, true) ∨
      ends? access = some (purpose, false) ∧ (∃ own, delivery = .obtaining own) ∧
        (BufferSupply.lend access.before.reporter.supply).result = .ok none) := by
  rw [ends?_of_delivering calling]
  cases delivery with
  | obtaining own =>
    simp only [Call.step, Delivery.step, Delivery.ships?] at goesOn ⊢
    cases lent : (BufferSupply.lend access.before.reporter.supply).result with
    | error failure => simp [lent] at goesOn
    | ok found =>
      cases found with
      | none =>
        simp only [lent] at goesOn
        exact .inr ⟨goesOn, .inr ⟨rfl, ⟨own, rfl⟩, rfl⟩⟩
      | some buffer =>
        simp only [lent] at goesOn
        cases goesOn
        exact .inl ⟨_, rfl, rfl, carries⟩
  | stamping own buffer =>
    have same : own = draft := carries
    cases goesOn
    exact .inl ⟨_, rfl, rfl, _, _, congrArg (fun draft => (Draft.complete _ _ draft).1) same.symm⟩
  | writing event buffer =>
    have writes : writes? access = some (⟨access.turn, purpose.stage⟩, event, buffer) := by
      simp [writes?, Phase.delivery?, Phase.call?, calling, Call.delivery?]
    cases goesOn
    refine .inl ⟨_, rfl, rfl, event, ?_, carries⟩
    simp [written_concat, writes]
  | returning ended buffer =>
    simp only [Call.step, Delivery.step, Delivery.ships?] at goesOn ⊢
    generalize (BufferSupply.ship buffer access.before.reporter.supply).result = shipped at goesOn ⊢
    cases shipped <;> cases ended
    case ok.returned => exact .inr ⟨goesOn, .inl rfl⟩
    all_goals cases goesOn

/-- A delivery changes no memo and gives no thread an id. -/
theorem memos_delivering (past : List (SiteAccess π ε β δ))
    (made : (procedure obeys).step access.job access.phase access.before =
      (access.moved, access.after))
    (calling : access.phase = .atSite siteJob (.calling thread (.delivering purpose delivery))) :
    access.after.tracked = access.before.tracked ∧
      enrolled (past ++ [access]) = enrolled past := by
  constructor
  · rw [(call_of_step made calling).1, tracked_delivering]
  · rw [enrolled_concat]
    simp [enrols, calling]

include made few in
/-- A delivery makes an access and goes on. -/
theorem Faithful.handling {next : Delivery β}
    (faithful : Faithful access.before past access.turn
      (some (thread, request, .delivering purpose delivery)))
    (calling : access.phase = .atSite siteJob (.calling thread (.delivering purpose delivery)))
    (unended : ends? access = none)
    (goesOn : ((Call.delivering purpose delivery).step thread access.before).result =
      .continues (.delivering purpose next))
    (carries : ∀ draft,
      delivery.Carries ((chronicle past).written ⟨access.turn, purpose.stage⟩) draft →
      next.Carries ((chronicle (past ++ [access])).written ⟨access.turn, purpose.stage⟩) draft) :
    FaithfulAfter past access thread request (.delivering purpose delivery) := by
  obtain ⟨stream, answered⟩ := unshipped_concat past unended
  have silent : readsName? access = none := by
    simp [readsName?, calling]
  have named := named_concat past silent
  have legend : (chronicle (past ++ [access])).legend = (chronicle past).legend := by
    simp only [Chronicle.legend, stream]
  obtain ⟨tracked, enrolled⟩ := memos_delivering past made calling
  have onward : following ((Call.delivering purpose delivery).step thread access.before).result =
      some (.delivering purpose next) := by
    rw [goesOn]
    rfl
  have same (register : Register) : (following ((Call.delivering purpose delivery).step thread
      access.before).result).bind register.inquiry? =
        register.inquiry? (.delivering purpose delivery) := by
    rw [onward]
    exact inquiry?_delivering purpose next delivery register
  apply faithful.unshipped made few calling (fun register => .inr (same register)) stream answered
  · rw [enrolled, tracked, onward]
    exact faithful.roster
  · intro after goesOnToo
    rw [goesOn] at goesOnToo
    cases goesOnToo
    obtain ⟨draft, means, carried⟩ := faithful.keeps _ _ _ rfl
    refine ⟨⟨draft, ?_, carries draft carried⟩, ?_⟩
    · cases purpose <;> simpa only [Means, Knows, Answers, named, legend] using means
    · rw [tracked]
      have owns := faithful.owns _ _ _ rfl
      cases purpose <;> exact owns

include made few in
/-- The delivery of a call's own event ends without shipping it. -/
theorem Faithful.lost
    (faithful : Faithful access.before past access.turn
      (some (thread, request, .delivering .answer delivery)))
    (calling : access.phase = .atSite siteJob (.calling thread (.delivering .answer delivery)))
    (ships : delivery.ships? access.before.reporter.supply = some false)
    (lost : ends? access = some (.answer, false)) :
    FaithfulAfter past access thread request (.delivering .answer delivery) := by
  obtain ⟨outcome, stops⟩ := (step_delivering thread _ delivery access.before).2.2 ships rfl
  have unwritten := writes?_of_ends lost
  have same : chronicle (past ++ [access]) = chronicle past := by
    rw [chronicle_concat]
    simp [Chronicle.add, lost, unwritten, readsName?, calling]
  obtain ⟨tracked, enrolled⟩ := memos_delivering past made calling
  have ended : following ((Call.delivering .answer delivery).step thread access.before).result =
      none := by
    rw [stops]
    rfl
  have silent (register : Register) :
      opening? (register.inquiry? (.delivering .answer delivery)) = none := by
    cases register <;> rfl
  apply faithful.unshipped made few calling (fun register => .inl (silent register))
    (by rw [same]) (by rw [same])
  · rw [enrolled, tracked, ended]
    exact faithful.roster
  · intro next goesOn
    rw [stops] at goesOn
    cases goesOn

omit [Clearable β] [BufferSupply π β] [EventEncoder ε β] in
/-- An event that is shipped maps in each table what the call has just looked up there. -/
theorem mapping?_of_means {chronicle : Chronicle} {turn : Turn} {draft : Draft} {event : Event}
    (means : Means chronicle turn request draft purpose) (becomes : draft.Becomes event)
    (delivery : Delivery β) (register : Register) : register.mapping? event =
      opening? (register.inquiry? (.delivering purpose delivery)) := by
  obtain ⟨current, numbering, rfl⟩ := becomes
  cases purpose with
  | announceThread activity entered announcement =>
    obtain ⟨-, -, rfl⟩ := means
    cases register <;> rfl
  | announceMethod activity entered caller id =>
    obtain ⟨-, rfl⟩ := means
    cases register <;> rfl
  | announceException activity entered caller method raised id =>
    obtain ⟨-, -, -, rfl⟩ := means
    cases register <;> rfl
  | answer =>
    cases draft with
    | methodMapping | exceptionMapping | threadMapping => exact means.elim
    | activity | marker => cases register <;> rfl

omit [Clearable β] [BufferSupply π β] [EventEncoder ε β] in
theorem stamp?_of_means {chronicle : Chronicle} {turn : Turn} {draft : Draft} {event : Event}
    (means : Means chronicle turn request draft purpose) (becomes : draft.Becomes event)
    (announcing : purpose ≠ .answer) : event.stamp? = none := by
  obtain ⟨current, numbering, rfl⟩ := becomes
  cases purpose with
  | announceThread =>
    obtain ⟨-, -, rfl⟩ := means
    rfl
  | announceMethod =>
    obtain ⟨-, rfl⟩ := means
    rfl
  | announceException =>
    obtain ⟨-, -, -, rfl⟩ := means
    rfl
  | answer => exact absurd rfl announcing

/-- The call's own event reads as what the call was asked to report. -/
theorem read?_of_answers {chronicle : Chronicle} {turn : Turn} {draft : Draft} {event : Event}
    (answers : Answers chronicle turn request draft) (becomes : draft.Becomes event)
    {job : Job δ} {caller : Thread} (asked : job = .atSite (.request caller request)) :
    event.stamp?.isSome = true ∧ ∃ report, chronicle.report? turn job = some report ∧
      chronicle.legend.read? event = some report := by
  subst asked
  obtain ⟨current, numbering, rfl⟩ := becomes
  cases draft with
  | methodMapping | exceptionMapping | threadMapping => exact answers.elim
  | activity entered thread act =>
    obtain ⟨activity, ⟨rfl, name, named, known⟩, read⟩ := answers
    refine ⟨rfl, .activity name activity, ?_, ?_⟩
    · simp [Chronicle.report?, named]
    · simp [Draft.complete, Legend.read?, known, read]
  | marker entered key value =>
    have asked : request = .marker key value := answers
    subst asked
    exact ⟨rfl, .marker key value, rfl, rfl⟩

omit [Clearable β] [BufferSupply π β] [EventEncoder ε β] in
/-- What the reader of a shipped announcement has learnt is what the call goes on with. -/
theorem keeps_resume {before after : Chronicle} {turn : Turn} {draft : Draft} {event : Event}
    {next : Call β} (means : Means before turn request draft purpose)
    (becomes : draft.Becomes event) (named : after.named = before.named)
    (legend : after.legend = before.legend.learn event)
    (goesOn : Call.resume purpose = .continues next) : Keeps after turn request next := by
  obtain ⟨current, numbering, rfl⟩ := becomes
  cases purpose with
  | announceThread activity entered announcement =>
    cases goesOn
    obtain ⟨asked, read, rfl⟩ := means
    refine ⟨asked, by rw [named, read], ?_⟩
    rw [legend]
    simp [Draft.complete, Legend.learn, Table.find?_insert]
  | announceMethod activity entered caller id =>
    cases goesOn
    obtain ⟨knows, rfl⟩ := means
    have threads : after.legend.threads = before.legend.threads := by
      rw [legend]
      rfl
    simpa only [Keeps, Knows, named, threads] using knows
  | announceException activity entered caller method raised id =>
    cases goesOn
    obtain ⟨knows, known, raises, rfl⟩ := means
    have threads : after.legend.threads = before.legend.threads := by
      rw [legend]
      rfl
    have methods : after.legend.methods = before.legend.methods := by
      rw [legend]
      rfl
    exact ⟨by simpa only [Knows, named, threads] using knows, by rw [methods, known], raises⟩
  | answer => cases goesOn

omit [Clearable β] [BufferSupply π β] [EventEncoder ε β] in
/-- What the reader of a shipped announcement has learnt about threads is in their memos, but for
the name of the thread that makes the announcement. -/
theorem roster_resume {chronicle : Chronicle} {turn : Turn} {draft : Draft} {event : Event}
    {tracked : TrackedHost} {count : Nat} (means : Means chronicle turn request draft purpose)
    (becomes : draft.Becomes event)
    (roster : Roster tracked chronicle.legend.threads count none)
    (owns : Owns tracked thread (.delivering purpose delivery)) :
    Roster tracked (chronicle.legend.learn event).threads count
        ((following (Call.resume purpose : Progress (Call β) _)).bind (exempt? thread)) ∧
      ∀ next, Call.resume purpose = .continues next → Owns tracked thread (next : Call β) := by
  obtain ⟨current, numbering, rfl⟩ := becomes
  cases purpose with
  | announceThread activity entered announcement =>
    obtain ⟨-, -, rfl⟩ := means
    obtain ⟨memo, found, own⟩ := owns
    refine ⟨?_, ?_⟩
    · have learnt := roster.learn found announcement.name
      rw [own] at learnt
      exact learnt
    · intro next goesOn
      cases goesOn
      exact ⟨memo, found, own⟩
  | announceMethod activity entered caller id =>
    obtain ⟨-, rfl⟩ := means
    refine ⟨roster, ?_⟩
    intro next goesOn
    cases goesOn
    trivial
  | announceException activity entered caller method raised id =>
    obtain ⟨-, -, -, rfl⟩ := means
    refine ⟨roster, ?_⟩
    intro next goesOn
    cases goesOn
    trivial
  | answer =>
    constructor
    · cases draft with
      | methodMapping | exceptionMapping | threadMapping => exact means.elim
      | activity | marker => exact roster
    · intro next goesOn
      cases goesOn

include made few in
/-- A delivery ships its event. -/
theorem Faithful.shipped {caller : Thread}
    (faithful : Faithful access.before past access.turn
      (some (thread, request, .delivering purpose delivery)))
    (job : access.job = .atSite (.request caller request))
    (calling : access.phase = .atSite siteJob (.calling thread (.delivering purpose delivery)))
    (ships : delivery.ships? access.before.reporter.supply = some true)
    (shipped : ends? access = some (purpose, true)) :
    FaithfulAfter past access thread request (.delivering purpose delivery) := by
  have goesOn := (step_delivering thread purpose delivery access.before).2.1 ships
  obtain ⟨draft, means, carries⟩ := faithful.keeps _ _ _ rfl
  obtain ⟨event, own, becomes⟩ := exists_of_ships carries ships
  have stream := stream_shipped shipped own
  have silent : readsName? access = none := by
    simp [readsName?, calling]
  have named := named_concat past silent
  have legend : (chronicle (past ++ [access])).legend =
      (chronicle past).legend.learn event := by
    simp only [Chronicle.legend, stream, Legend.ofEvents_concat]
  obtain ⟨tracked, enrolled⟩ := memos_delivering past made calling
  apply faithful.next made few calling
  · rw [stream, Legend.readStream_concat, faithful.read, chronicle_concat]
    -- only the call's own event has a stamp, so only it is read as a report
    cases purpose with
    | answer =>
      obtain ⟨stamped, report, reported, reads⟩ := read?_of_answers means becomes job
      change (Legend.ofEvents (chronicle past).stream).read? event = some report at reads
      simp [Chronicle.add, shipped, reported, stamped, reads]
    | announceThread | announceMethod | announceException =>
      have unstamped := stamp?_of_means means becomes (by simp)
      simp [Chronicle.add, shipped, unstamped]
  · intro register
    have before := faithful.mapped register
    have maps := mapping?_of_means means becomes delivery register
    have unopened : Inquiry.opens? (access.phase.inquiry? register)
        (nextInquiry? register access) = none := by
      rw [nextInquiry?_of_step register made calling, goesOn, calling]
      cases register <;> cases purpose <;> rfl
    rw [announced_concat, unopened, goesOn, opening?_resume, stream, before,
      Register.mappings_concat, maps]
    simp
  · obtain ⟨roster, -⟩ := roster_resume means becomes faithful.roster (faithful.owns _ _ _ rfl)
    rw [enrolled, tracked, legend, goesOn]
    exact roster
  · intro next goesOnToo
    rw [goesOn] at goesOnToo
    obtain ⟨-, owns⟩ := roster_resume means becomes faithful.roster (faithful.owns _ _ _ rfl)
    rw [tracked]
    exact ⟨keeps_resume means becomes named legend goesOnToo, owns next goesOnToo⟩

include made few in
/-- An access of a delivery keeps all faithful, unless it loses an announcement. -/
theorem Faithful.delivering {caller : Thread}
    (faithful : Faithful access.before past access.turn
      (some (thread, request, .delivering purpose delivery)))
    (job : access.job = .atSite (.request caller request))
    (calling : access.phase = .atSite siteJob (.calling thread (.delivering purpose delivery)))
    (kept : ∀ lost, ends? access = some (lost, false) → lost = .answer) :
    FaithfulAfter past access thread request (.delivering purpose delivery) := by
  have ending := ends?_of_delivering calling
  cases ships : delivery.ships? access.before.reporter.supply with
  | some shipped =>
    rw [ships] at ending
    cases shipped with
    | true => exact faithful.shipped made few job calling ships ending
    | false =>
      cases kept purpose ending
      exact faithful.lost made few calling ships ending
  | none =>
    rw [ships] at ending
    cases delivery with
    | obtaining draft =>
      simp only [Delivery.ships?] at ships
      split at ships
      · rename_i buffer lent
        apply faithful.handling made few calling ending
        · simp only [Call.step, Delivery.step, lent]
          rfl
        · intro other same
          exact same
      · cases ships
    | stamping draft buffer =>
      apply faithful.handling made few calling ending rfl
      intro other same
      exact ⟨_, _, congrArg (fun draft => (Draft.complete _ _ draft).1) same.symm⟩
    | writing event buffer =>
      have written : writes? access = some (⟨access.turn, purpose.stage⟩, event, buffer) := by
        simp [writes?, Phase.delivery?, Phase.call?, calling, Call.delivery?]
      apply faithful.handling made few calling ending rfl
      intro draft becomes
      refine ⟨event, ?_, becomes⟩
      rw [chronicle_concat]
      simp [Chronicle.add, written]
    | returning written buffer =>
      simp only [Delivery.ships?] at ships
      split at ships <;> cases ships

end TraceRelay.OpenSite
