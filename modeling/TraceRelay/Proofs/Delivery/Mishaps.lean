import Mathlib.Data.List.Basic
import TraceRelay.Proofs.Delivery.Writes
import TraceRelay.Recording.Directive

/-! All that can go wrong in a call, paired with its outcome and its warnings. -/

namespace TraceRelay

/-- What can go wrong in a delivery. -/
inductive Mishap where
  | obtain (error : TransportFailure)
  | encode (cause : IoFailure)
  | panic (message : String)
  | send (error : TransportFailure)
deriving DecidableEq, Repr

/-- What goes wrong in a write that ends as told. -/
def Mishap.ofWrite? : Outcome IoFailure Unit → Option Mishap
  | .returned _ => none
  | .failed cause => some (.encode cause)
  | .panicked message => some (.panic message)

/-- What goes wrong when the supply ends a shipment as told. -/
def Mishap.ofShipment? : Except TransportFailure Unit → Option Mishap
  | .ok () => none
  | .error error => some (.send error)

/-- What a call reports and which warnings the reporter logs, by what has gone wrong in the call. -/
inductive Accounts : List Mishap → Outcome DeliveryFailure Unit → List LogEntry → Prop
  | smooth : Accounts [] (.returned ()) []
  | unobtained (error : TransportFailure) : Accounts [.obtain error] (.failed (.obtain error)) []
  | unencoded (cause : IoFailure) :
    Accounts [.encode cause] (.failed (.encode cause)) [.encodeFailed cause]
  | undiscarded (cause : IoFailure) (error : TransportFailure) :
    Accounts [.encode cause, .send error] (.failed (.encode cause))
      [.encodeFailed cause, .discardFailed error]
  | panicked (message : String) : Accounts [.panic message] (.panicked message) []
  | unwound (message : String) (error : TransportFailure) :
    Accounts [.panic message, .send error] (.panicked message) [.unwindingSendFailed error]
  | unsent (error : TransportFailure) : Accounts [.send error] (.failed (.send error)) []

/-- A call returns just if nothing has gone wrong. -/
theorem Accounts.returned_iff {mishaps : List Mishap} {outcome : Outcome DeliveryFailure Unit}
    {warnings : List LogEntry} (accounts : Accounts mishaps outcome warnings) :
    outcome = .returned () ↔ mishaps = [] := by
  cases accounts <;> simp

/-- The end of a delivery accounts for its write and for the shipment of its buffer. -/
theorem accounts_conclude (written : Outcome IoFailure Unit)
    (shipped : Except TransportFailure Unit) :
    Accounts ((Mishap.ofWrite? written).toList ++ (Mishap.ofShipment? shipped).toList)
      (Delivery.conclude written shipped).1
      (Delivery.writeLog written ++
        (Delivery.conclude written shipped).2.filter fun entry => entry.level = .warn) := by
  cases written with
  | returned =>
    cases shipped with
    | ok => exact .smooth
    | error error => exact .unsent error
  | failed cause =>
    cases shipped with
    | ok => exact .unencoded cause
    | error error => exact .undiscarded cause error
  | panicked message =>
    cases shipped with
    | ok => exact .panicked message
    | error error => exact .unwound message error

/-- What a reporter logs about a delivery. -/
def Delivery.remarks {π ε β : Type} [BufferSupply π β] [EventEncoder ε β]
    (reporter : Reporter π ε) : Delivery β → List LogEntry
  | .obtaining _ =>
    match (BufferSupply.lend reporter.supply).result with
    | .ok none => [.eventDropped]
    | _ => []
  | .stamping _ _ => []
  | .writing event buffer =>
    Delivery.writeLog (EventEncoder.encode event reporter.encoder buffer).outcome
  | .returning written buffer =>
    (Delivery.conclude written (BufferSupply.ship buffer reporter.supply).result).2

namespace OpenSite

variable {π ε β δ : Type} [Clearable β] [BufferSupply π β] [EventEncoder ε β]

/-- What goes wrong with an access. -/
def mishap? (access : SiteAccess π ε β δ) : Option Mishap :=
  match access.phase.delivery? with
  | some (_, .obtaining _) =>
    match (BufferSupply.lend access.before.reporter.supply).result with
    | .ok _ => none
    | .error error => some (.obtain error)
  | some (_, .writing event buffer) =>
    Mishap.ofWrite? (EventEncoder.encode event access.before.reporter.encoder buffer).outcome
  | some (_, .returning _ buffer) =>
    Mishap.ofShipment? (BufferSupply.ship buffer access.before.reporter.supply).result
  | _ => none

/-- All that has gone wrong, in order. -/
def mishaps (past : List (SiteAccess π ε β δ)) : List Mishap := past.filterMap mishap?

/-- The delivery for which the supply has no buffer to spare. -/
def refuses? (access : SiteAccess π ε β δ) : Option DeliveryId :=
  match access.phase.delivery?, (BufferSupply.lend access.before.reporter.supply).result with
  | some (purpose, .obtaining _), .ok none => some ⟨access.turn, purpose.stage⟩
  | _, _ => none

/-- The deliveries that have succeeded, in order: their events are delivered, or dropped because the
supply has had no buffer to spare. -/
def completed (past : List (SiteAccess π ε β δ)) : List DeliveryId :=
  past.filterMap fun access => (delivers? access).or (refuses? access)

/-- The lines that are logged with an access. -/
def logged (access : SiteAccess π ε β δ) : List LogEntry :=
  match access.phase with
  | .atSite _ (.calling thread call) => (call.step thread access.before).log
  | _ => []

/-- The lines among them that the supply logs. -/
def supplyLog (access : SiteAccess π ε β δ) : List LogEntry :=
  match access.phase.delivery? with
  | some (_, .obtaining _) => (BufferSupply.lend access.before.reporter.supply).log
  | some (_, .returning _ buffer) => (BufferSupply.ship buffer access.before.reporter.supply).log
  | _ => []

/-- The lines among them that the reporter logs itself, which come after those of the supply. -/
def remarks (access : SiteAccess π ε β δ) : List LogEntry :=
  (logged access).drop (supplyLog access).length

/-- The warnings of the reporter, in order. -/
def warnings (past : List (SiteAccess π ε β δ)) : List LogEntry :=
  (past.flatMap remarks).filter fun entry => entry.level = .warn

/-- What has gone wrong in the delivery that a call is making. -/
def failedInHand : Option (Purpose × Delivery β) → List Mishap
  | some (_, .returning written _) => (Mishap.ofWrite? written).toList
  | _ => []

/-- The warnings about the delivery that a call is making. -/
def warnedInHand : Option (Purpose × Delivery β) → List LogEntry
  | some (_, .returning written _) => Delivery.writeLog written
  | _ => []

/-- How things stand with a call that has made some accesses and is about to make another one. -/
structure Course (own : List (SiteAccess π ε β δ)) (turn : Turn)
    (delivery? : Option (Purpose × Delivery β)) : Prop where
  asked : asked own = completed own ++ (holding turn delivery?).toList
  returned : obtained own = sent own ++ (holding turn delivery?).toList
  failed : mishaps own = failedInHand delivery?
  warned : warnings own = warnedInHand delivery?

/-- How things stand with a call that has ended with an outcome. -/
structure Concludes (own : List (SiteAccess π ε β δ)) (outcome : Outcome DeliveryFailure Unit) :
    Prop where
  accounts : Accounts (mishaps own) outcome (warnings own)
  asked : ∃ lost : Option DeliveryId, asked own = completed own ++ lost.toList ∧
    (lost = none ↔ mishaps own = [])
  returned : obtained own = sent own

section Concatenation

variable (own : List (SiteAccess π ε β δ)) (access : SiteAccess π ε β δ)

omit [Clearable β] [BufferSupply π β] [EventEncoder ε β] in
theorem asked_concat : asked (own ++ [access]) = asked own ++ (asks? access).toList := by
  rw [asked, List.filterMap_append, filterMap_singleton]
  rfl

omit [Clearable β] [EventEncoder ε β] in
theorem completed_concat : completed (own ++ [access]) =
    completed own ++ ((delivers? access).or (refuses? access)).toList := by
  rw [completed, List.filterMap_append, filterMap_singleton]
  rfl

omit [Clearable β] in
theorem mishaps_concat : mishaps (own ++ [access]) = mishaps own ++ (mishap? access).toList := by
  rw [mishaps, List.filterMap_append, filterMap_singleton]
  rfl

theorem warnings_concat : warnings (own ++ [access]) =
    warnings own ++ (remarks access).filter fun entry => entry.level = .warn := by
  rw [warnings, List.flatMap_append, List.filter_append, List.flatMap_singleton]
  rfl

end Concatenation

variable {own : List (SiteAccess π ε β δ)} {access : SiteAccess π ε β δ} {siteJob : Site.Job}
  {thread : Thread} {purpose : Purpose}

theorem remarks_of_delivering {delivery : Delivery β}
    (making : access.phase.delivery? = some (purpose, delivery)) :
    remarks access = Delivery.remarks access.before.reporter delivery := by
  obtain ⟨siteJob, thread, calling⟩ := calling_of_delivery making
  rw [remarks, supplyLog, logged, making, calling]
  cases delivery with
  | obtaining draft =>
    simp only [Call.step, Delivery.step, Delivery.remarks]
    split <;> rename_i lent <;> simp [lent]
  | stamping | writing => rfl
  | returning => exact List.drop_left

/-- Between deliveries the reporter logs only what it is going to announce. -/
theorem remarks_of_idle (idle : access.phase.delivery? = none) :
    ∀ entry ∈ remarks access, entry.level = .trace ∧ entry ≠ .eventDropped := by
  rw [remarks, supplyLog, logged, idle]
  generalize access.phase = phase at idle
  cases phase with
  | ordering order => simp
  | atSite siteJob sitePhase =>
    cases sitePhase with
    | changing change => simp
    | calling thread call =>
      cases call with
      | delivering => cases idle
      | entering request => simp [Call.step]
      | identifying | resolvingMethod | resolvingException =>
        simp only [Call.step]
        split <;> simp [LogEntry.level]

/-- A call that goes on, on balance. -/
theorem Course.after {here next? : Option (Purpose × Delivery β)}
    (course : Course own access.turn here)
    (asks : (holding access.turn here).toList ++ (asks? access).toList =
      ((delivers? access).or (refuses? access)).toList ++ (holding access.turn next?).toList)
    (returns : (holding access.turn here).toList ++ ((obtains? access).map Prod.fst).toList =
      ((sends? access).map Prod.fst).toList ++ (holding access.turn next?).toList)
    (fails : failedInHand here ++ (mishap? access).toList = failedInHand next?)
    (warns : warnedInHand here ++ ((remarks access).filter fun entry => entry.level = .warn) =
      warnedInHand next?) :
    Course (own ++ [access]) access.turn next? where
  asked := by
    rw [asked_concat, completed_concat, course.asked, List.append_assoc, asks, List.append_assoc]
  returned := by
    rw [obtained_concat, sent_concat, course.returned, List.append_assoc, returns,
      List.append_assoc]
  failed := by rw [mishaps_concat, course.failed, fails]
  warned := by rw [warnings_concat, course.warned, warns]

/-- A call that ends with an access, on balance. -/
theorem Course.last {here : Option (Purpose × Delivery β)} {outcome : Outcome DeliveryFailure Unit}
    (lost : Option DeliveryId) (course : Course own access.turn here)
    (asks : (holding access.turn here).toList ++ (asks? access).toList =
      ((delivers? access).or (refuses? access)).toList ++ lost.toList)
    (returns : (holding access.turn here).toList ++ ((obtains? access).map Prod.fst).toList =
      ((sends? access).map Prod.fst).toList)
    (loses : lost = none ↔ failedInHand here ++ (mishap? access).toList = [])
    (accounts : Accounts (failedInHand here ++ (mishap? access).toList) outcome
      (warnedInHand here ++ (remarks access).filter fun entry => entry.level = .warn)) :
    Concludes (own ++ [access]) outcome where
  accounts := by
    rw [mishaps_concat, warnings_concat, course.failed, course.warned]
    exact accounts
  asked := by
    refine ⟨lost, ?_, ?_⟩
    · rw [asked_concat, completed_concat, course.asked, List.append_assoc, asks, List.append_assoc]
    · rw [mishaps_concat, course.failed]
      exact loses
  returned := by
    rw [obtained_concat, sent_concat, course.returned, List.append_assoc, returns]

/-- A call that makes no delivery adds nothing to what is told of its deliveries. -/
theorem Course.between {call : Call β} {next? : Option (Purpose × Delivery β)}
    (course : Course own access.turn none)
    (calling : access.phase = .atSite siteJob (.calling thread call))
    (idle : call.delivery? = none)
    (opens : next? = none ∨ ∃ purpose draft, next? = some (purpose, .obtaining draft)) :
    Course (own ++ [access]) access.turn next? := by
  have here : access.phase.delivery? = none := by
    rw [calling]
    exact idle
  have announced : (remarks access).filter (fun entry => entry.level = .warn) = [] := by
    refine List.filter_eq_nil_iff.mpr fun entry member => ?_
    rw [(remarks_of_idle here entry member).1]
    decide
  obtain rfl | ⟨purpose, draft, rfl⟩ := opens <;> refine course.after ?_ ?_ ?_ ?_
  all_goals simp [holding, Delivery.buffer?, asks?, delivers?, ships?, refuses?, obtains?, sends?,
    failedInHand, warnedInHand, mishap?, here, announced]

/-- Nothing has gone wrong in a call that makes no delivery, so it can end by returning. -/
theorem Course.concludes {turn : Turn} (course : Course own turn none) :
    Concludes own (.returned ()) := by
  obtain ⟨asked, returned, failed, warned⟩ := course
  simp only [holding, failedInHand, warnedInHand, Option.toList_none, List.append_nil]
    at asked returned failed warned
  refine ⟨?_, ⟨none, ?_, by simp [failed]⟩, returned⟩
  · rw [failed, warned]
    exact .smooth
  · rw [asked, Option.toList_none, List.append_nil]

/-- A delivery that gives its buffer back has succeeded if its write has, and the supply ships the
buffer. -/
theorem Course.succeeds {buffer : β}
    (course : Course own access.turn (some (purpose, .returning (.returned ()) buffer)))
    (here : access.phase.delivery? = some (purpose, .returning (.returned ()) buffer))
    (shipped : (BufferSupply.ship buffer access.before.reporter.supply).result = .ok ()) :
    Course (own ++ [access]) access.turn none := by
  have told := remarks_of_delivering here
  rw [Delivery.remarks, shipped] at told
  refine course.after ?_ ?_ ?_ ?_
  · simp [holding, Delivery.buffer?, asks?, delivers?, ships?, here, shipped]
  · simp [holding, Delivery.buffer?, obtains?, sends?, here]
  · simp [failedInHand, mishap?, Mishap.ofWrite?, Mishap.ofShipment?, here, shipped]
  · simp [warnedInHand, Delivery.writeLog, Delivery.conclude, told]

/-- A delivery that gives its buffer back is the last one of its call if anything has gone wrong. -/
theorem Course.founders {written : Outcome IoFailure Unit} {buffer : β}
    (course : Course own access.turn (some (purpose, .returning written buffer)))
    (here : access.phase.delivery? = some (purpose, .returning written buffer))
    (harmed : (Mishap.ofWrite? written).toList ++ (Mishap.ofShipment?
      (BufferSupply.ship buffer access.before.reporter.supply).result).toList ≠ []) :
    Concludes (own ++ [access]) (Delivery.conclude written
      (BufferSupply.ship buffer access.before.reporter.supply).result).1 := by
  have accounts := accounts_conclude written
    (BufferSupply.ship buffer access.before.reporter.supply).result
  have told := remarks_of_delivering here
  rw [Delivery.remarks] at told
  have undelivered : delivers? access = none := by
    simp only [delivers?, ships?, here]
    cases written <;>
      cases shipped : (BufferSupply.ship buffer access.before.reporter.supply).result <;>
      simp_all [Mishap.ofWrite?, Mishap.ofShipment?]
  refine course.last (some ⟨access.turn, purpose.stage⟩) ?_ ?_ ?_ ?_
  · simp [holding, Delivery.buffer?, asks?, refuses?, here, undelivered]
  · simp [holding, Delivery.buffer?, obtains?, sends?, here]
  · simpa [failedInHand, mishap?, here] using harmed
  · simpa [failedInHand, warnedInHand, mishap?, here, told] using accounts

/-- An access of a delivery: the delivery goes on, succeeds, or is the last one of its call. -/
theorem Course.delivering {delivery : Delivery β}
    (course : Course own access.turn (some (purpose, delivery)))
    (calling : access.phase = .atSite siteJob (.calling thread (.delivering purpose delivery))) :
    match (delivery.step access.before.host.clock access.before.reporter).result with
    | .continues next => Course (own ++ [access]) access.turn (some (purpose, next))
    | .finished (.returned ()) => Course (own ++ [access]) access.turn none
    | .finished outcome => Concludes (own ++ [access]) outcome := by
  have here : access.phase.delivery? = some (purpose, delivery) := by
    rw [calling]
    rfl
  have told := remarks_of_delivering here
  cases delivery with
  | obtaining draft =>
    cases lent : (BufferSupply.lend access.before.reporter.supply).result with
    | error failure =>
      simp only [Delivery.step, Delivery.remarks, lent] at told ⊢
      refine course.last (some ⟨access.turn, purpose.stage⟩) ?_ ?_ ?_ ?_
      · simp [holding, Delivery.buffer?, asks?, delivers?, ships?, refuses?, here, lent]
      · simp [holding, Delivery.buffer?, obtains?, sends?, here, lent]
      · simp [failedInHand, mishap?, here, lent]
      · simpa [failedInHand, warnedInHand, mishap?, here, lent, told] using
          Accounts.unobtained failure
    | ok found =>
      cases found <;> simp only [Delivery.step, Delivery.remarks, lent] at told ⊢ <;>
        refine course.after ?_ ?_ ?_ ?_
      all_goals simp [holding, Delivery.buffer?, asks?, delivers?, ships?, refuses?, obtains?,
        sends?, failedInHand, warnedInHand, mishap?, here, lent, told, LogEntry.level]
  | stamping draft buffer =>
    simp only [Delivery.step, Delivery.remarks] at told ⊢
    refine course.after ?_ ?_ ?_ ?_
    all_goals simp [holding, Delivery.buffer?, asks?, delivers?, ships?, refuses?, obtains?,
      sends?, failedInHand, warnedInHand, mishap?, here, told]
  | writing event buffer =>
    simp only [Delivery.step, Delivery.remarks] at told ⊢
    refine course.after ?_ ?_ ?_ ?_
    · simp [holding, Delivery.buffer?, asks?, delivers?, ships?, refuses?, here]
    · simp [holding, Delivery.buffer?, obtains?, sends?, here]
    · simp [failedInHand, mishap?, here]
    · cases written : (EventEncoder.encode event access.before.reporter.encoder buffer).outcome <;>
        simp [warnedInHand, told, written, Delivery.writeLog, LogEntry.level]
  | returning written buffer =>
    simp only [Delivery.step]
    have founders := course.founders here
    -- all cases but that of no mishap at all end the call
    cases written with
    | failed | panicked =>
      have concludes := founders (by simp [Mishap.ofWrite?])
      cases shipped : (BufferSupply.ship buffer access.before.reporter.supply).result with
      | ok | error =>
        rw [shipped] at concludes
        exact concludes
    | returned value =>
      cases shipped : (BufferSupply.ship buffer access.before.reporter.supply).result with
      | ok => exact course.succeeds here shipped
      | error failure =>
        have concludes := founders (by simp [Mishap.ofShipment?, shipped])
        rw [shipped] at concludes
        exact concludes

/-- A call that makes no delivery goes on, and at most begins one. -/
theorem goes_on_between (thread : Thread) {call : Call β} (site : Site π ε)
    (idle : call.delivery? = none) :
    ∃ next, (call.step thread site).result = .continues next ∧ (next.delivery? = none ∨
      ∃ purpose draft, next.delivery? = some (purpose, .obtaining draft)) := by
  cases call with
  | delivering => cases idle
  | entering request =>
    cases request <;> exact ⟨_, rfl, by simp [Call.enter, Call.answering, Call.delivery?]⟩
  | identifying activity entered phase =>
    simp only [Call.step]
    split
    · exact ⟨_, rfl, .inl rfl⟩
    · exact ⟨_, rfl, .inr ⟨_, _, rfl⟩⟩
    · exact ⟨_, rfl, .inl rfl⟩
  | resolvingMethod activity entered caller phase =>
    simp only [Call.step]
    split
    · exact ⟨_, rfl, .inl rfl⟩
    · exact ⟨_, rfl, .inr ⟨_, _, rfl⟩⟩
    · cases activity <;> exact ⟨_, rfl, by simp [Call.withMethod, Call.answering, Call.delivery?]⟩
  | resolvingException activity entered caller method raised phase =>
    simp only [Call.step]
    split
    · exact ⟨_, rfl, .inl rfl⟩
    · exact ⟨_, rfl, .inr ⟨_, _, rfl⟩⟩
    · exact ⟨_, rfl, .inr ⟨_, _, rfl⟩⟩

theorem Course.goes_on {call : Call β} (course : Course own access.turn none)
    (calling : access.phase = .atSite siteJob (.calling thread call))
    (idle : call.delivery? = none) :
    match (call.step thread access.before).result with
    | .continues next => Course (own ++ [access]) access.turn next.delivery?
    | .finished outcome => Concludes (own ++ [access]) outcome := by
  obtain ⟨next, goesOn, opens⟩ := goes_on_between thread access.before idle
  rw [goesOn]
  exact course.between calling idle opens

/-- An access of a call: the call goes on, or ends. -/
theorem Course.step {call : Call β} (course : Course own access.turn call.delivery?)
    (calling : access.phase = .atSite siteJob (.calling thread call)) :
    match (call.step thread access.before).result with
    | .continues next => Course (own ++ [access]) access.turn next.delivery?
    | .finished outcome => Concludes (own ++ [access]) outcome := by
  cases call with
  | delivering purpose delivery =>
    have stepped := course.delivering calling
    simp only [Call.step]
    cases result : (delivery.step access.before.host.clock access.before.reporter).result with
    | continues next =>
      rw [result] at stepped
      exact stepped
    | finished outcome =>
      rw [result] at stepped
      cases outcome with
      | returned value =>
        cases purpose with
        | answer => exact stepped.concludes
        | announceThread | announceMethod | announceException => exact stepped
      | failed error => exact stepped
      | panicked message => exact stepped
  | entering | identifying | resolvingMethod | resolvingException =>
    exact course.goes_on calling rfl

/-- The accesses of one turn. -/
def ofTurn (turn : Turn) (past : List (SiteAccess π ε β δ)) : List (SiteAccess π ε β δ) :=
  past.filter fun access => access.turn = turn

variable {obeys : δ → π × ε → π × ε}

/-- Any access: its job goes on, or ends, and has an outcome if it is a call. -/
theorem Course.after_access
    (made : (procedure obeys).step access.job access.phase access.before =
      (access.moved, access.after))
    (course : Course own access.turn access.phase.delivery?) :
    match access.moved with
    | .continues next => Course (own ++ [access]) access.turn next.delivery?
    | .finished outcome? =>
      ∀ outcome, outcome? = some outcome → Concludes (own ++ [access]) outcome := by
  generalize here : access.phase = phase at course
  cases phase with
  | ordering order =>
    rw [here] at made
    rw [← (Prod.mk.inj made).1]
    simp
  | atSite siteJob sitePhase =>
    cases sitePhase with
    | changing change =>
      rw [here] at made
      rw [← (Prod.mk.inj made).1]
      simp
    | calling thread call =>
      have stepped := course.step here
      rw [moved_of_calling made here]
      cases result : (call.step thread access.before).result with
      | continues next =>
        rw [result] at stepped
        exact stepped
      | finished outcome =>
        rw [result] at stepped
        intro own same
        cases same
        exact stepped

/-- How things stand with a call at each of its accesses. -/
theorem course_run (site : Site π ε) (work : List (List (Job δ))) (schedule : List Nat)
    {earlier later : List (SiteAccess π ε β δ)}
    (same : (Interleaving.fresh site work).accesses (procedure obeys) schedule =
      earlier ++ access :: later) :
    Course (ofTurn access.turn earlier) access.turn access.phase.delivery? := by
  refine (Interleaving.underway_induction (motive := fun past engagement =>
    Course (ofTurn engagement.turn past) engagement.turn engagement.phase.delivery?)
    (procedure obeys) site work ?_ ?_ ?_ schedule).2 earlier access later same
  · intro past turn job silent
    have empty : ofTurn turn past = [] :=
      List.filter_eq_nil_iff.mpr fun access member => by simpa using silent access member
    rw [empty]
    change Course [] turn (job.start : Phase β δ).delivery?
    rw [delivery?_start]
    exact ⟨rfl, rfl, rfl, rfl⟩
  · intro past access engagement different course
    have unchanged : ofTurn engagement.turn (past ++ [access]) = ofTurn engagement.turn past := by
      simp [ofTurn, different]
    rw [unchanged]
    exact course
  · intro past access next made goesOn course
    have grown : ofTurn access.turn (past ++ [access]) = ofTurn access.turn past ++ [access] := by
      simp [ofTurn]
    rw [Access.turn_next goesOn, grown]
    have stood := course.after_access made
    cases moved : access.moved with
    | continues phase =>
      rw [moved] at stood
      simp only [Access.next?, moved, Option.some.injEq] at goesOn
      exact goesOn ▸ stood
    | finished outcome => simp [Access.next?, moved] at goesOn

/-- How things stand with a call that has ended. -/
theorem concludes_run (site : Site π ε) (work : List (List (Job δ))) (schedule : List Nat)
    {outcome : Outcome DeliveryFailure Unit}
    (member : access ∈ (Interleaving.fresh site work).accesses (procedure obeys) schedule)
    (finished : access.moved = .finished (some outcome)) :
    Concludes (ofTurn access.turn
      ((Interleaving.fresh site work).accesses (procedure obeys) schedule)) outcome := by
  obtain ⟨earlier, later, same⟩ := List.append_of_mem member
  have stood := (course_run site work schedule same).after_access
    (Interleaving.made_of_accesses (procedure obeys) _ schedule same)
  rw [finished] at stood
  have silent : ofTurn access.turn later = [] := by
    refine List.filter_eq_nil_iff.mpr fun other behind own => ?_
    obtain ⟨between, rest, rfl⟩ := List.append_of_mem behind
    have split : (Interleaving.fresh site work).accesses (procedure obeys) schedule =
        (earlier ++ access :: between) ++ other :: rest := by
      simpa using same
    have goesOn := Interleaving.goes_on_of_turn (procedure obeys) site work schedule split access
      (by simp) (of_decide_eq_true own).symm
    simp [Access.next?, finished] at goesOn
  have whole : ofTurn access.turn
      ((Interleaving.fresh site work).accesses (procedure obeys) schedule) =
      ofTurn access.turn earlier ++ [access] := by
    rw [same]
    simpa [ofTurn] using silent
  rw [whole]
  exact stood outcome rfl

section Lines

variable (access)

/-- What is logged comes from the supply first, and then from the reporter. -/
theorem logged_eq : logged access = supplyLog access ++ remarks access := by
  have begins : supplyLog access <+: logged access := by
    rw [supplyLog, logged, Phase.delivery?]
    cases access.phase with
    | ordering order => exact List.nil_prefix
    | atSite siteJob sitePhase =>
      cases sitePhase with
      | changing change => exact List.nil_prefix
      | calling thread call =>
        cases call with
        | entering | identifying | resolvingMethod | resolvingException => exact List.nil_prefix
        | delivering purpose delivery =>
          cases delivery with
          | stamping | writing => exact List.nil_prefix
          | returning written buffer => exact List.prefix_append _ _
          | obtaining draft =>
            simp only [Phase.call?, Call.delivery?, Option.bind_some, Call.step, Delivery.step]
            split <;> first | exact List.prefix_rfl | exact List.prefix_append _ _
  rw [remarks]
  exact List.prefix_iff_eq_append.mp begins |>.symm

/-- A line about a dropped event stands for a refusal. -/
theorem drops_eq : (remarks access).filter (fun entry => entry = .eventDropped) =
    (refuses? access).toList.map fun _ => .eventDropped := by
  cases making : access.phase.delivery? with
  | none =>
    have announced := remarks_of_idle making
    have refuses : refuses? access = none := by rw [refuses?, making]
    rw [refuses]
    exact List.filter_eq_nil_iff.mpr fun entry member => by simpa using (announced entry member).2
  | some own =>
    obtain ⟨purpose, delivery⟩ := own
    rw [remarks_of_delivering making]
    cases delivery with
    | obtaining draft =>
      cases lent : (BufferSupply.lend access.before.reporter.supply).result with
      | error failure => simp [Delivery.remarks, refuses?, making, lent]
      | ok found => cases found <;> simp [Delivery.remarks, refuses?, making, lent]
    | stamping draft buffer => simp [Delivery.remarks, refuses?, making]
    | writing event buffer =>
      cases written : (EventEncoder.encode event access.before.reporter.encoder buffer).outcome <;>
        simp [Delivery.remarks, Delivery.writeLog, refuses?, making, written]
    | returning written buffer =>
      cases written <;>
        cases shipped : (BufferSupply.ship buffer access.before.reporter.supply).result <;>
        simp [Delivery.remarks, Delivery.conclude, refuses?, making, shipped]

/-- A write that fails is warned about. -/
theorem remarks_of_encode {cause : IoFailure} (fails : mishap? access = some (.encode cause)) :
    remarks access = [.encodeFailed cause] ∧
      ∃ id event buffer, writes? access = some (id, event, buffer) := by
  unfold mishap? at fails
  split at fails
  · split at fails <;> cases fails
  · rename_i purpose event buffer making
    rw [remarks_of_delivering making]
    cases written : (EventEncoder.encode event access.before.reporter.encoder buffer).outcome with
    | returned => simp [Mishap.ofWrite?, written] at fails
    | panicked message => simp [Mishap.ofWrite?, written] at fails
    | failed own =>
      simp only [Mishap.ofWrite?, written, Option.some.injEq, Mishap.encode.injEq] at fails
      refine ⟨?_, _, event, buffer, writes?_eq_some.mpr ⟨purpose, making, rfl⟩⟩
      rw [Delivery.remarks, written, fails]
      rfl
  · rename_i buffer making
    cases shipped : (BufferSupply.ship buffer access.before.reporter.supply).result <;>
      simp [Mishap.ofShipment?, shipped] at fails
  · cases fails

end Lines

/-- A delivery that is about to write has not given its buffer back. -/
theorem unsent_of_writes (site : Site π ε) (work : List (List (Job δ))) (schedule : List Nat)
    {earlier later : List (SiteAccess π ε β δ)} {id : DeliveryId} {event : Event} {buffer : β}
    (same : (Interleaving.fresh site work).accesses (procedure obeys) schedule =
      earlier ++ access :: later) (writes : writes? access = some (id, event, buffer)) :
    id ∉ sent earlier := by
  intro member
  obtain ⟨other, inside, named⟩ := List.mem_filterMap.mp member
  obtain ⟨⟨_, left⟩, sends, rfl⟩ := Option.map_eq_some_iff.mp named
  have falls := ranks_fall_run obeys site work schedule
  rw [same] at falls
  obtain ⟨turn, rank⟩ := rank_of_writes writes
  obtain ⟨turnSent, rankSent⟩ := rank_of_sends sends
  have lower := (List.pairwise_append.mp falls).2.2 other inside access List.mem_cons_self
    (turnSent.trans turn.symm)
  simp only at rank rankSent
  omega

/-- A delivery that has failed to obtain a buffer neither writes nor gives one back. -/
theorem idle_of_unobtained (site : Site π ε) (work : List (List (Job δ))) (schedule : List Nat)
    {error : TransportFailure}
    (member : access ∈ (Interleaving.fresh site work).accesses (procedure obeys) schedule)
    (fails : mishap? access = some (.obtain error)) :
    ∃ id, asks? access = some id ∧
      id ∉ sent ((Interleaving.fresh site work).accesses (procedure obeys) schedule) ∧
      id ∉ wrote ((Interleaving.fresh site work).accesses (procedure obeys) schedule) := by
  obtain ⟨purpose, draft, asking, refused⟩ : ∃ purpose draft,
      access.phase.delivery? = some (purpose, .obtaining draft) ∧
        (BufferSupply.lend access.before.reporter.supply).result = .error error := by
    unfold mishap? at fails
    split at fails
    · rename_i purpose draft asking
      split at fails
      · cases fails
      · rename_i refused
        cases fails
        exact ⟨purpose, draft, asking, refused⟩
    · rename_i event buffer writing
      cases written : (EventEncoder.encode event access.before.reporter.encoder buffer).outcome <;>
        simp [Mishap.ofWrite?, written] at fails
    · rename_i buffer returning
      cases shipped : (BufferSupply.ship buffer access.before.reporter.supply).result <;>
        simp [Mishap.ofShipment?, shipped] at fails
    · cases fails
  have asks : asks? access = some ⟨access.turn, purpose.stage⟩ := by rw [asks?, asking]
  have without : obtains? access = none := by rw [obtains?, asking, refused]
  have missing := not_obtained (asked_nodup site work schedule) member asks without
  refine ⟨_, asks, fun sends => missing ?_, fun writes => missing ?_⟩
  · exact (custody_run site work schedule).mem_iff.mpr (List.mem_append_left _ sends)
  · obtain ⟨write, made, named⟩ := List.mem_filterMap.mp writes
    obtain ⟨⟨_, event, buffer⟩, writing, rfl⟩ := Option.map_eq_some_iff.mp named
    obtain ⟨earlier, later, same⟩ := List.append_of_mem made
    have has := hasObtained_run site work schedule same
    obtain ⟨own, here, named⟩ := writes?_eq_some.mp writing
    rw [here] at has
    obtain ⟨grant, granted, obtains⟩ := has
    refine List.mem_filterMap.mpr ⟨grant, ?_, ?_⟩
    · rw [same]
      exact List.mem_append_left _ granted
    · rw [obtains, named]
      rfl

/-- Every call ends, and it returns just if nothing has gone wrong in it; otherwise `Accounts` pairs
what has gone wrong with the outcome of the call and with the warnings of the reporter. -/
theorem failures_accounted (obeys : δ → π × ε → π × ε) (site : Site π ε)
    (work : List (List (Job δ))) (schedule : List Nat) :
    let past := (Interleaving.fresh site work).accesses (procedure obeys) schedule
    let final := (Interleaving.fresh site work).run (procedure obeys) schedule
    (∀ number jobs, work[number]? = some jobs → 31 * jobs.length ≤ schedule.count number →
      ∃ done, final.strands[number]? = some done ∧ done.jobs = [] ∧ done.going = none ∧
        done.results.map Prod.fst = jobs) ∧
    (∀ job outcome, (job, some outcome) ∈ final.results →
      ∃ last ∈ past, last.job = job ∧ last.moved = .finished (some outcome)) ∧
    (∀ last ∈ past, ∀ outcome, last.moved = .finished (some outcome) →
      let own := ofTurn last.turn past
      (outcome = .returned () ↔ mishaps own = []) ∧
      Accounts (mishaps own) outcome (warnings own) ∧
      (∃ lost : Option DeliveryId, asked own = completed own ++ lost.toList ∧
        (lost = none ↔ mishaps own = [])) ∧
      obtained own = sent own ∧
      (own.flatMap remarks).filter (fun entry => entry = .eventDropped) =
        (own.filterMap refuses?).map fun _ => .eventDropped) ∧
    (∀ access ∈ past, logged access = supplyLog access ++ remarks access) ∧
    (∀ earlier access later, past = earlier ++ access :: later →
      ∀ cause, mishap? access = some (.encode cause) →
        remarks access = [.encodeFailed cause] ∧
          ∃ id event buffer, writes? access = some (id, event, buffer) ∧ id ∉ sent earlier) ∧
    (∀ access ∈ past, ∀ error, mishap? access = some (.obtain error) →
      ∃ id, asks? access = some id ∧ id ∉ sent past ∧ id ∉ wrote past) ∧
    ∀ access ∈ past, Supplied obeys access := by
  intro past final
  refine ⟨?_, ?_, ?_, fun access _ => logged_eq access, ?_, ?_,
    supplied_run obeys site work schedule⟩
  · intro number jobs listed enough
    exact exists_done obeys site work listed schedule enough
  · intro job outcome member
    exact Interleaving.exists_access_of_mem_results (procedure obeys) site work schedule member
  · intro last member outcome finished own
    obtain ⟨accounts, asked, returned⟩ := concludes_run site work schedule member finished
    refine ⟨accounts.returned_iff, accounts, asked, returned, ?_⟩
    rw [List.filter_flatMap, List.filterMap_eq_flatMap_toList, List.map_flatMap]
    exact List.flatMap_congr fun access _ => drops_eq access
  · intro earlier access later same cause fails
    obtain ⟨told, id, event, buffer, writes⟩ := remarks_of_encode access fails
    exact ⟨told, id, event, buffer, writes, unsent_of_writes site work schedule same writes⟩
  · intro access member error fails
    exact idle_of_unobtained site work schedule member fails

/-- A call during which the scribe spoils the mapping of the thread, and the archive swallows what
it gets back. -/
theorem failures_accounted_spoilt :
    let work : List (List (Job Directive)) :=
      [[.atSite (.request ⟨0⟩ (.report (.entry "run")))],
        [.order (.spoil (.write .threadMapping)), .order (.failShipping true)]]
    let schedule := [1, 1, 1, 1] ++ List.replicate 12 0
    let past :=
      (Interleaving.fresh recordingSite work).accesses (procedure Directive.obeyed) schedule
    ∃ last ∈ past, last.turn = ⟨0, 0⟩ ∧
      last.moved = .finished (some (.failed (.encode { message := "injected failure" }))) ∧
      mishaps (ofTurn ⟨0, 0⟩ past) =
        [.encode { message := "injected failure" }, .send .disconnected] ∧
      warnings (ofTurn ⟨0, 0⟩ past) =
        [.encodeFailed { message := "injected failure" }, .discardFailed .disconnected] := by
  intro work schedule past
  have ended : ∃ last ∈ past, last.turn = ⟨0, 0⟩ ∧
      last.moved = .finished (some (.failed (.encode { message := "injected failure" }))) := by
    decide +kernel
  have harmed : mishaps (ofTurn ⟨0, 0⟩ past) =
      [.encode { message := "injected failure" }, .send .disconnected] := by
    decide +kernel
  obtain ⟨last, member, turn, finished⟩ := ended
  obtain ⟨-, -, calls, -⟩ := failures_accounted Directive.obeyed recordingSite work schedule
  obtain ⟨-, accounts, -⟩ := calls last member _ finished
  rw [turn] at accounts
  have told := harmed ▸ accounts
  refine ⟨last, member, turn, finished, harmed, ?_⟩
  generalize warnings (ofTurn ⟨0, 0⟩ past) = warned at told
  cases told
  rfl

end OpenSite

end TraceRelay
