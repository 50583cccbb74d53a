import TraceRelay.Proofs.Stream.Faithful

/-! What a call finds out between two deliveries is right. -/

namespace TraceRelay.OpenSite

variable {π ε β δ : Type} [Clearable β] [BufferSupply π β] [EventEncoder ε β]
  {obeys : δ → π × ε → π × ε} {past : List (SiteAccess π ε β δ)} {access : SiteAccess π ε β δ}
  {siteJob : Site.Job} {thread : Thread} {request : Request} {call : Call β}
  (made : (procedure obeys).step access.job access.phase access.before =
    (access.moved, access.after))
  (few : ∀ register, drawn register (past ++ [access]) < 2 ^ 32)

omit [Clearable β] [EventEncoder ε β] in
/-- An access between two deliveries that reads no name leaves the chronicle as it is. -/
theorem chronicle_between (between : access.phase.delivery? = none)
    (silent : readsName? access = none) : chronicle (past ++ [access]) = chronicle past := by
  rw [chronicle_concat]
  simp [Chronicle.add, writes?, ends?, between, silent]

omit [Clearable β] [BufferSupply π β] [EventEncoder ε β] in
theorem enrolled_concat (past : List (SiteAccess π ε β δ)) (access : SiteAccess π ε β δ) :
    enrolled (past ++ [access]) = enrolled past + enrols access := by
  simp [enrolled]

omit [Clearable β] [BufferSupply π β] [EventEncoder ε β] in
theorem opening?_between (between : call.delivery? = none) (register : Register) :
    opening? (register.inquiry? call) = none := by
  cases call with
  | delivering => cases between
  | entering | identifying | resolvingMethod | resolvingException => cases register <;> rfl

include made few in
/-- An access that ships nothing keeps the mappings, unless it gives up an announcement. -/
theorem Faithful.unshipped (faithful : Faithful access.before past access.turn
      (some (thread, request, call)))
    (calling : access.phase = .atSite siteJob (.calling thread call))
    (stays : ∀ register : Register, opening? (register.inquiry? call) = none ∨
      (following (call.step thread access.before).result).bind register.inquiry? =
        register.inquiry? call)
    (stream : (chronicle (past ++ [access])).stream = (chronicle past).stream)
    (answered : (chronicle (past ++ [access])).answered = (chronicle past).answered)
    (roster : Roster access.after.tracked (chronicle past).legend.threads
      (enrolled (past ++ [access]))
      ((following (call.step thread access.before).result).bind (exempt? thread)))
    (keeps : ∀ next, (call.step thread access.before).result = .continues next →
      Keeps (chronicle (past ++ [access])) access.turn request next ∧
        Owns access.after.tracked thread next) :
    FaithfulAfter past access thread request call := by
  apply faithful.next made few calling
  · rw [stream, answered]
    exact faithful.read
  · intro register
    have own : access.phase.inquiry? register = register.inquiry? call := by
      simp [Phase.inquiry?, Phase.call?, calling]
    have uses := uses_of_step register made
    have before := faithful.mapped register
    rw [Option.bind_some] at before
    rw [own, nextInquiry?_of_step register made calling] at uses
    rw [announced_concat, stream, before, own, nextInquiry?_of_step register made calling]
    rcases stays register with resolving | same
    · rw [opens?_of_resolving uses resolving, resolving, Option.toList_none, List.append_nil]
    · rw [same, opens?_self, Option.toList_none, List.append_nil]
  · have legend : (chronicle (past ++ [access])).legend = (chronicle past).legend := by
      simp only [Chronicle.legend, stream]
    rw [legend]
    exact roster
  · exact keeps

omit [Clearable β] [BufferSupply π β] [EventEncoder ε β] in
theorem keeps_enter {chronicle : Chronicle} {turn : Turn} {wanted : Request}
    (reports : request.isReport = true)
    (keeps : Keeps chronicle turn request (.entering wanted : Call β)) (entered : Timestamp) :
    Keeps chronicle turn request (Call.enter entered wanted : Call β) := by
  have same : wanted = request := keeps
  subst same
  cases wanted with
  | mapMethod | mapException | mapThread => cases reports
  | report activity => rfl
  | marker key value => exact ⟨.marker entered key value, rfl, rfl⟩

include made few in
/-- A call is entered. -/
theorem Faithful.entering {wanted : Request} (faithful : Faithful access.before past access.turn
      (some (thread, request, .entering wanted)))
    (calling : access.phase = .atSite siteJob (.calling thread (.entering wanted))) :
    FaithfulAfter past access thread request (.entering wanted) := by
  have silent : chronicle (past ++ [access]) = chronicle past :=
    chronicle_between (by rw [calling]; rfl) (by simp [readsName?, calling])
  have reports := faithful.reports _ _ _ rfl
  have keeps := faithful.keeps _ _ _ rfl
  have same : wanted = request := keeps
  have after := (call_of_step made calling).1
  apply faithful.unshipped made few calling (fun register => .inl (opening?_between rfl register))
    (by rw [silent]) (by rw [silent])
  · have none : enrols access = 0 := by
      simp [enrols, calling]
    rw [enrolled_concat, none, after]
    have roster := faithful.roster
    cases wanted <;> exact roster
  · intro next goesOn
    cases goesOn
    rw [silent]
    refine ⟨keeps_enter reports keeps _, ?_⟩
    rw [after]
    cases wanted <;> trivial

/-- What the lookup of a thread's id leads a call to. -/
def identified (activity : Activity String String) (entered : Timestamp) :
    Lookup Identification ThreadAnnouncement ThreadId → Call β
  | .continues phase => .identifying activity entered phase
  | .announces announcement => .delivering (.announceThread activity entered announcement)
    (.obtaining (.threadMapping announcement.id announcement.name))
  | .returns id => Call.withThread activity entered id

theorem step_identifying (thread : Thread) (activity : Activity String String)
    (entered : Timestamp) (phase : Identification) (site : Site π ε) :
    ((Call.identifying activity entered phase : Call β).step thread site).state.tracked =
        (phase.step thread site.tracked).2 ∧
      ((Call.identifying activity entered phase : Call β).step thread site).result =
        .continues (identified activity entered (phase.step thread site.tracked).1) := by
  simp only [Call.step, Site.tracked]
  split <;> rename_i found <;> rw [found] <;> exact ⟨rfl, rfl⟩

omit [Clearable β] [BufferSupply π β] [EventEncoder ε β] in
/-- The lookup of a thread's id keeps the memos and what a reader knows of them together, and what
the call has found out is what the reader knows. -/
theorem identify {chronicle after : Chronicle} {turn : Turn} {phase : Identification}
    {tracked : TrackedHost} {count : Nat} (activity : Activity String String) (entered : Timestamp)
    (roster : Roster tracked chronicle.legend.threads count
      (exempt? thread (.identifying activity entered phase : Call β)))
    (keeps : Keeps chronicle turn request (.identifying activity entered phase : Call β))
    (owns : Owns tracked thread (.identifying activity entered phase : Call β))
    (room : count + phase.enrols tracked thread ≤ 2 ^ 32)
    (legend : after.legend = chronicle.legend)
    (named : after.named turn =
      if phase = .readName then some ((tracked.host.nameOf tracked.tracker.names thread).getD "")
      else chronicle.named turn) :
    Roster (phase.step thread tracked).2 chronicle.legend.threads
        (count + phase.enrols tracked thread)
        (exempt? thread (identified activity entered (phase.step thread tracked).1 : Call β)) ∧
      Keeps after turn request
        (identified activity entered (phase.step thread tracked).1 : Call β) ∧
      Owns (phase.step thread tracked).2 thread
        (identified activity entered (phase.step thread tracked).1 : Call β) := by
  cases phase with
  | readName =>
    refine ⟨roster, ⟨keeps, ?_⟩, trivial⟩
    simpa using named
  | consult name =>
    obtain ⟨asked, read⟩ := keeps
    have still : after.named turn = some name := by
      rw [named]
      simpa using read
    simp only [Identification.step, Identification.enrols] at room ⊢
    cases found : tracked.memo? thread with
    | none =>
      simp only [found, Option.isNone_none, if_true] at room
      have enrolled := roster.enroll room thread
      refine ⟨enrolled, ⟨_, ⟨asked, still, rfl⟩, rfl⟩, { id := tracked.tracker.upcoming }, ?_, rfl⟩
      exact (tracked.memo?_remember thread thread _).trans (if_pos rfl)
    | some memo =>
      by_cases same : memo.announced = some name
      · simp only [same, if_true]
        have known := roster.told thread memo name (by simp [exempt?]) found same
        refine ⟨roster, ⟨asked, name, still, ?_⟩, trivial⟩
        rw [legend]
        exact known
      · simp only [same, if_false]
        exact ⟨roster, ⟨_, ⟨asked, still, rfl⟩, rfl⟩, memo, found, rfl⟩
  | settle announcement =>
    obtain ⟨asked, read, known⟩ := keeps
    obtain ⟨memo, found, own⟩ := owns
    have still : after.named turn = some announcement.name := by
      rw [named]
      simpa using read
    simp only [Identification.step, found]
    refine ⟨roster.settle found (own ▸ known), ⟨asked, announcement.name, still, ?_⟩, trivial⟩
    rw [legend]
    exact known

include made few in
/-- A call looks up the id of its thread. -/
theorem Faithful.identifying {activity : Activity String String} {entered : Timestamp}
    {phase : Identification} (faithful : Faithful access.before past access.turn
      (some (thread, request, .identifying activity entered phase)))
    (calling : access.phase = .atSite siteJob
      (.calling thread (.identifying activity entered phase)))
    (room : enrolled (past ++ [access]) ≤ 2 ^ 32) :
    FaithfulAfter past access thread request (.identifying activity entered phase) := by
  obtain ⟨state, result⟩ :=
    step_identifying (β := β) thread activity entered phase access.before
  have tracked : access.after.tracked = (phase.step thread access.before.tracked).2 := by
    rw [(call_of_step made calling).1, state]
  have unended : ends? access = none := by
    simp [ends?, Phase.delivery?, Phase.call?, calling, Call.delivery?]
  obtain ⟨stream, answered⟩ := unshipped_concat past unended
  have named : (chronicle (past ++ [access])).named access.turn =
      if phase = .readName then some ((access.before.tracked.host.nameOf
        access.before.tracked.tracker.names thread).getD "")
      else (chronicle past).named access.turn := by
    rw [chronicle_concat]
    cases phase <;> simp [Chronicle.add, readsName?, calling, Site.tracked]
  have enrolling : enrols access = phase.enrols access.before.tracked thread := by
    simp [enrols, calling]
  rw [enrolled_concat, enrolling] at room
  obtain ⟨roster, keeps, owns⟩ := identify activity entered faithful.roster
    (faithful.keeps _ _ _ rfl) (faithful.owns _ _ _ rfl) room
    (by simp only [Chronicle.legend, stream]) named
  apply faithful.unshipped made few calling (fun register => .inl (opening?_between rfl register))
    stream answered
  · rw [enrolled_concat, enrolling, tracked, result]
    exact roster
  · intro next goesOn
    rw [result] at goesOn
    cases goesOn
    rw [tracked]
    exact ⟨keeps, owns⟩

omit [Clearable β] [EventEncoder ε β] in
/-- A reader knows every id that a table holds, unless it is being announced. -/
theorem Faithful.known {site : Site π ε} {turn : Turn} {register : Register} {key : String}
    {id : UInt32} (faithful : Faithful site past turn (some (thread, request, call)))
    (settled : opening? (register.inquiry? call) = none)
    (found : (register.table site.reporter).find? key = some id) :
    ((chronicle past).legend.known register).find? id = some key := by
  have consistent := faithful.consistent register
  have mapped := faithful.mapped register
  simp only [Option.bind_some, settled, Option.toList_none, List.append_nil] at mapped
  have once : ((announced register past).map Prod.snd).Nodup :=
    consistent.owned.sublist (List.sublist_append_left _ _)
  have stored := (consistent.find?_iff key id).mp found
  rw [mapped] at once stored
  exact Legend.known_of_mem_mappings once stored

include made few in
/-- An access between two deliveries that only looks a key up keeps all faithful, if what the call
has found out is right. -/
theorem Faithful.resolving (next : Call β)
    (faithful : Faithful access.before past access.turn (some (thread, request, call)))
    (calling : access.phase = .atSite siteJob (.calling thread call))
    (between : call.delivery? = none) (silent : readsName? access = none)
    (unenrolled : enrols access = 0) (unexempt : exempt? thread call = none)
    (tracked : (call.step thread access.before).state.tracked = access.before.tracked)
    (goesOn : (call.step thread access.before).result = .continues next)
    (unexemptNext : exempt? thread next = none)
    (keeps : Keeps (chronicle past) access.turn request next)
    (owns : Owns access.before.tracked thread next) :
    FaithfulAfter past access thread request call := by
  have same : chronicle (past ++ [access]) = chronicle past := by
    apply chronicle_between _ silent
    simpa [Phase.delivery?, Phase.call?, calling] using between
  have after : access.after.tracked = access.before.tracked := by
    rw [(call_of_step made calling).1, tracked]
  apply faithful.unshipped made few calling
    (fun register => .inl (opening?_between between register)) (by rw [same]) (by rw [same])
  · have roster := faithful.roster
    simp only [Option.bind_some, unexempt] at roster
    rw [enrolled_concat, unenrolled, after, goesOn, Nat.add_zero]
    simpa only [following, Option.bind_some, unexemptNext] using roster
  · intro other goesOnToo
    rw [goesOn] at goesOnToo
    cases goesOnToo
    rw [same, after]
    exact ⟨keeps, owns⟩

omit [Clearable β] [BufferSupply π β] [EventEncoder ε β] in
theorem keeps_withMethod {chronicle : Chronicle} {turn : Turn} {activity : Activity String String}
    {caller : ThreadId} {method : MethodId} (entered : Timestamp)
    (knows : Knows chronicle turn request activity caller)
    (known : chronicle.legend.methods.find? method = some activity.method) :
    Keeps chronicle turn request (Call.withMethod activity entered caller method : Call β) := by
  cases activity with
  | entry signature =>
    simp only [Activity.method] at known
    have read : chronicle.legend.readActivity? (.entry method) = some (.entry signature) := by
      simp [Legend.readActivity?, known]
    exact ⟨.activity entered caller (.entry method), ⟨_, knows, read⟩, rfl⟩
  | exit signature line =>
    simp only [Activity.method] at known
    have read : chronicle.legend.readActivity? (.exit method line) =
        some (.exit signature line) := by
      simp [Legend.readActivity?, known]
    exact ⟨.activity entered caller (.exit method line), ⟨_, knows, read⟩, rfl⟩
  | exception | bubble => exact ⟨knows, known, rfl⟩

omit [Clearable β] [BufferSupply π β] [EventEncoder ε β] in
theorem keeps_withIds {chronicle : Chronicle} {turn : Turn} {activity : Activity String String}
    {caller : ThreadId} {method : MethodId} {raised : String} {id : ExceptionId}
    (entered : Timestamp) (knows : Knows chronicle turn request activity caller)
    (known : chronicle.legend.methods.find? method = some activity.method)
    (raises : activity.raised? = some raised)
    (knownRaised : chronicle.legend.exceptions.find? id = some raised) :
    Keeps chronicle turn request (Call.withIds activity entered caller method id : Call β) := by
  have read : chronicle.legend.readActivity? (activity.map (fun _ => method) fun _ => id) =
      some activity := by
    cases activity with
    | entry | exit => cases raises
    | exception | bubble =>
      cases raises
      simp only [Activity.method] at known
      simp [Activity.map, Legend.readActivity?, known, knownRaised]
  exact ⟨.activity entered caller (activity.map (fun _ => method) fun _ => id),
    ⟨activity, knows, read⟩, rfl⟩

/-- What the lookup of a method's id leads a call to. -/
def resolvedMethod (activity : Activity String String) (entered : Timestamp) (caller : ThreadId) :
    Lookup Resolution UInt32 UInt32 → Call β
  | .continues phase => .resolvingMethod activity entered caller phase
  | .announces id => .delivering (.announceMethod activity entered caller id)
    (.obtaining (.methodMapping id activity.method))
  | .returns method => Call.withMethod activity entered caller method

theorem step_resolvingMethod (thread : Thread) (activity : Activity String String)
    (entered : Timestamp) (caller : ThreadId) (phase : Resolution) (site : Site π ε) :
    ((Call.resolvingMethod activity entered caller phase : Call β).step thread
        site).state.tracked = site.tracked ∧
      ((Call.resolvingMethod activity entered caller phase : Call β).step thread site).result =
        .continues (resolvedMethod activity entered caller
          (phase.step activity.method site.reporter.methods).1) := by
  simp only [Call.step]
  split <;> rename_i found <;> rw [found] <;> exact ⟨rfl, rfl⟩

include made few in
/-- A call looks up the id of its method. -/
theorem Faithful.resolvingMethod {activity : Activity String String} {entered : Timestamp}
    {caller : ThreadId} {phase : Resolution} (faithful : Faithful access.before past access.turn
      (some (thread, request, .resolvingMethod activity entered caller phase)))
    (calling : access.phase = .atSite siteJob
      (.calling thread (.resolvingMethod activity entered caller phase))) :
    FaithfulAfter past access thread request
      (.resolvingMethod activity entered caller phase) := by
  obtain ⟨tracked, goesOn⟩ :=
    step_resolvingMethod (β := β) thread activity entered caller phase access.before
  have knows : Knows (chronicle past) access.turn request activity caller :=
    faithful.keeps _ _ _ rfl
  have room := few .methods
  rw [drawn_concat] at room
  have own : access.phase.inquiry? .methods = some (activity.method, .resolving phase) := by
    simp [Phase.inquiry?, Phase.call?, calling, Register.inquiry?]
  rw [own] at room
  have alone : (Register.methods.table access.before.reporter).Consistent
      ([] ++ [(activity.method, .resolving phase)] ++ []) (announced .methods past)
      (drawn .methods past) := faithful.consistent .methods
  have onward (next : Call β) := faithful.resolving made few next calling rfl
    (by simp [readsName?, calling]) (by simp [enrols, calling]) rfl tracked
  cases resolved : phase.step activity.method access.before.reporter.methods with
  | mk found methods =>
    rw [resolved] at goesOn
    cases found with
    | continues next => exact onward _ goesOn rfl knows trivial
    | announces id => exact onward _ goesOn rfl ⟨_, ⟨knows, rfl⟩, rfl⟩ trivial
    | returns method =>
      have held := Inquiry.found_of_returns resolved room alone
      have known : ((chronicle past).legend.known .methods).find? method = some activity.method :=
        faithful.known rfl held
      apply onward _ goesOn
      · cases activity <;> rfl
      · exact keeps_withMethod entered knows known
      · cases activity <;> trivial

/-- What the lookup of an exception's id leads a call to. -/
def resolvedException (activity : Activity String String) (entered : Timestamp) (caller : ThreadId)
    (method : MethodId) (raised : String) : Lookup Resolution UInt32 UInt32 → Call β
  | .continues phase => .resolvingException activity entered caller method raised phase
  | .announces id => .delivering (.announceException activity entered caller method raised id)
    (.obtaining (.exceptionMapping id raised))
  | .returns id => Call.withIds activity entered caller method id

theorem step_resolvingException (thread : Thread) (activity : Activity String String)
    (entered : Timestamp) (caller : ThreadId) (method : MethodId) (raised : String)
    (phase : Resolution) (site : Site π ε) :
    ((Call.resolvingException activity entered caller method raised phase : Call β).step thread
        site).state.tracked = site.tracked ∧
      ((Call.resolvingException activity entered caller method raised phase : Call β).step thread
        site).result = .continues (resolvedException activity entered caller method raised
          (phase.step raised site.reporter.exceptions).1) := by
  simp only [Call.step]
  split <;> rename_i found <;> rw [found] <;> exact ⟨rfl, rfl⟩

include made few in
/-- A call looks up the id of its exception. -/
theorem Faithful.resolvingException {activity : Activity String String} {entered : Timestamp}
    {caller : ThreadId} {method : MethodId} {raised : String} {phase : Resolution}
    (faithful : Faithful access.before past access.turn
      (some (thread, request, .resolvingException activity entered caller method raised phase)))
    (calling : access.phase = .atSite siteJob
      (.calling thread (.resolvingException activity entered caller method raised phase))) :
    FaithfulAfter past access thread request
      (.resolvingException activity entered caller method raised phase) := by
  obtain ⟨tracked, goesOn⟩ := step_resolvingException (β := β) thread activity entered caller
    method raised phase access.before
  obtain ⟨knows, known, raises⟩ := faithful.keeps _ _ _ rfl
  have room := few .exceptions
  rw [drawn_concat] at room
  have own : access.phase.inquiry? .exceptions = some (raised, .resolving phase) := by
    simp [Phase.inquiry?, Phase.call?, calling, Register.inquiry?]
  rw [own] at room
  have alone : (Register.exceptions.table access.before.reporter).Consistent
      ([] ++ [(raised, .resolving phase)] ++ []) (announced .exceptions past)
      (drawn .exceptions past) := faithful.consistent .exceptions
  have onward (next : Call β) := faithful.resolving made few next calling rfl
    (by simp [readsName?, calling]) (by simp [enrols, calling]) rfl tracked
  cases resolved : phase.step raised access.before.reporter.exceptions with
  | mk found exceptions =>
    rw [resolved] at goesOn
    cases found with
    | continues next => exact onward _ goesOn rfl ⟨knows, known, raises⟩ trivial
    | announces id => exact onward _ goesOn rfl ⟨_, ⟨knows, known, raises, rfl⟩, rfl⟩ trivial
    | returns id =>
      have held := Inquiry.found_of_returns resolved room alone
      have knownRaised : ((chronicle past).legend.known .exceptions).find? id = some raised :=
        faithful.known rfl held
      exact onward _ goesOn rfl (keeps_withIds entered knows known raises knownRaised) trivial

end TraceRelay.OpenSite
