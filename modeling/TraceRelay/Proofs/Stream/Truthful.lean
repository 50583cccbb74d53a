import TraceRelay.Proofs.Stream.Attribution
import TraceRelay.Proofs.Stream.Exhaustion
import TraceRelay.Recording.Directive

/-! What a stream says is true, whatever has been lost from it. -/

namespace TraceRelay

/-- The text and the id that a delivery with the given purpose announces on behalf of a table. -/
def Register.announcement? : Register → Purpose → Option (String × UInt32)
  | .methods, .announceMethod activity _ _ id => some (activity.method, id)
  | .exceptions, .announceException _ _ _ _ raised id => some (raised, id)
  | _, _ => none

namespace OpenSite

variable {π ε β δ : Type}

/-- The deliveries that have ended, in order: their purposes, and whether their events have been
shipped. -/
def endings [BufferSupply π β] (past : List (SiteAccess π ε β δ)) : List (Purpose × Bool) :=
  past.filterMap ends?

/-- The announcements of a table that have ended, in order. -/
def concluded [BufferSupply π β] (register : Register) (past : List (SiteAccess π ε β δ)) :
    List (String × UInt32) :=
  (endings past).filterMap fun ending => register.announcement? ending.1

/-- The announcements of a table that are in progress. -/
def announcing (register : Register) (traffic : Traffic π ε β δ) : List (String × UInt32) :=
  traffic.underway.filterMap fun engagement => opening? (engagement.phase.inquiry? register)

/-- The ids of the event are those that the tables hold for the texts of the activity, so that
whatever a stream maps these ids to is what the activity names. -/
structure Names (reporter : Reporter π ε) (stream : List Event)
    (activity : Activity String String) (act : Activity MethodId ExceptionId) : Prop where
  shape : act.map (fun _ => ()) (fun _ => ()) = activity.map (fun _ => ()) (fun _ => ())
  ids : ∀ register : Register,
    register.id? act = (register.names? activity).bind (register.table reporter).find?
  decodes : ∀ (register : Register) text id, register.id? act = some id →
    (text, id) ∈ register.mappings stream → register.names? activity = some text

/-- The event of a shipment tells what its call was asked to report: the call's own event does so
in full, and a mapping is one of a text that the call names. -/
def Tells (reporter : Reporter π ε) (stream : List Event) (job : Job δ) : Event → Prop
  | .activity _ _ act => ∃ caller activity,
    job = .atSite (.request caller (.report activity)) ∧ Names reporter stream activity act
  | .marker _ key value => ∃ caller, job = .atSite (.request caller (.marker key value))
  | event => ∃ caller activity, job = .atSite (.request caller (.report activity)) ∧
    ∀ (register : Register) text id, register.mapping? event = some (text, id) →
      register.names? activity = some text

theorem concluded_concat [BufferSupply π β] (register : Register)
    (past : List (SiteAccess π ε β δ)) (access : SiteAccess π ε β δ) :
    concluded register (past ++ [access]) = concluded register past ++
      ((ends? access).bind fun ending => register.announcement? ending.1).toList := by
  rw [concluded, endings, List.filterMap_append, List.filterMap_append, filterMap_singleton,
    filterMap_toList]
  rfl

theorem opening?_delivering (register : Register) (purpose : Purpose) (delivery : Delivery β) :
    opening? (register.inquiry? (.delivering purpose delivery)) =
      register.announcement? purpose := by
  cases register <;> cases purpose <;> rfl

/-- An event that is shipped maps what its delivery has been made to announce. -/
theorem mapping?_of_suits {holds : Register → String → UInt32 → Prop} {request : Request}
    {draft : Draft} {event : Event} {purpose : Purpose}
    (suits : Suits holds request draft purpose) (becomes : draft.Becomes event)
    (register : Register) : register.mapping? event = register.announcement? purpose := by
  obtain ⟨current, numbering, rfl⟩ := becomes
  cases purpose with
  | announceThread =>
    obtain ⟨-, rfl⟩ := suits
    cases register <;> rfl
  | announceMethod =>
    obtain ⟨-, rfl⟩ := suits
    cases register <;> rfl
  | announceException =>
    obtain ⟨-, -, -, rfl⟩ := suits
    cases register <;> rfl
  | answer =>
    cases draft with
    | methodMapping | exceptionMapping | threadMapping => exact suits.elim
    | activity | marker => cases register <;> rfl

section Balance

variable [Clearable β] [BufferSupply π β] [EventEncoder ε β] {obeys : δ → π × ε → π × ε}
  {access : SiteAccess π ε β δ}

/-- A delivery that ends leads its call on or ends it. -/
theorem step_of_ships (thread : Thread) (purpose : Purpose) {delivery : Delivery β}
    {site : Site π ε} {shipped : Bool}
    (ships : delivery.ships? site.reporter.supply = some shipped) :
    ((Call.delivering purpose delivery).step thread site).result = Call.resume purpose ∨
      ∃ outcome, ((Call.delivering purpose delivery).step thread site).result =
        .finished outcome := by
  cases delivery with
  | stamping | writing => cases ships
  | obtaining draft =>
    simp only [Call.step, Delivery.step, Delivery.ships?] at ships ⊢
    cases lent : (BufferSupply.lend site.reporter.supply).result with
    | error failure => exact .inr ⟨_, rfl⟩
    | ok found =>
      cases found with
      | none => exact .inl rfl
      | some buffer => simp [lent] at ships
  | returning written buffer =>
    simp only [Call.step, Delivery.step]
    cases (BufferSupply.ship buffer site.reporter.supply).result <;> cases written <;>
      first | exact .inl rfl | exact .inr ⟨_, rfl⟩

/-- An announcement that is started with an access is in progress after it, and one that is in
progress before an access stays so unless its delivery ends. -/
theorem announcement_access (register : Register)
    (made : (procedure obeys).step access.job access.phase access.before =
      (access.moved, access.after)) :
    (opening? (access.phase.inquiry? register)).toList ++
        (Inquiry.opens? (access.phase.inquiry? register) (nextInquiry? register access)).toList =
      ((ends? access).bind fun ending => register.announcement? ending.1).toList ++
        (opening? (nextInquiry? register access)).toList := by
  have uses := uses_of_step register made
  cases delivering : access.phase.delivery? with
  | none =>
    have resolving : opening? (access.phase.inquiry? register) = none := by
      cases calling : access.phase.call? with
      | none => simp [Phase.inquiry?, calling, opening?]
      | some call =>
        rw [Phase.delivery?, calling, Option.bind_some] at delivering
        rw [Phase.inquiry?, calling, Option.bind_some, opening?_between delivering]
    rw [resolving, opens?_of_resolving uses resolving]
    simp [ends?, delivering]
  | some making =>
    obtain ⟨purpose, delivery⟩ := making
    obtain ⟨siteJob, thread, calling⟩ := calling_of_delivery delivering
    rw [nextInquiry?_of_step register made calling, ends?_of_delivering calling]
    have own : access.phase.inquiry? register =
        register.inquiry? (.delivering purpose delivery) := by
      simp [Phase.inquiry?, Phase.call?, calling]
    have opens (next : Option (Inquiry String)) :
        Inquiry.opens? (register.inquiry? (.delivering purpose delivery)) next = none := by
      cases register <;> cases purpose <;> rfl
    rw [own, opens, opening?_delivering]
    cases ships : delivery.ships? access.before.reporter.supply with
    | none =>
      obtain ⟨next, stepped⟩ := (step_delivering thread purpose delivery access.before).1 ships
      rw [stepped, following, Option.bind_some, opening?_delivering]
      exact List.append_nil _
    | some shipped =>
      have ended : opening? ((following ((Call.delivering purpose delivery).step thread
          access.before).result).bind register.inquiry?) = none := by
        rcases step_of_ships thread purpose ships with resumes | ⟨outcome, finishes⟩
        · rw [resumes, opening?_resume]
        · rw [finishes]
          rfl
      rw [ended]
      simp

/-- Every announcement that has been started has ended or is in progress. -/
theorem balance_run (obeys : δ → π × ε → π × ε) (register : Register) (site : Site π ε)
    (work : List (List (Job δ))) (schedule : List Nat) :
    (announced register ((Interleaving.fresh site work).accesses (procedure obeys)
      schedule)).Perm
      (concluded register ((Interleaving.fresh site work).accesses (procedure obeys) schedule) ++
        announcing register ((Interleaving.fresh site work).run (procedure obeys) schedule)) := by
  refine Interleaving.run_induction (motive := fun traffic past =>
    (announced register past).Perm (concluded register past ++ announcing register traffic))
    (procedure obeys) _ ?_ ?_ ?_ schedule
  · simp [announced, concluded, endings, announcing]
  · intro traffic past number strand job jobs kept found idle next
    obtain ⟨earlier, later, before, after⟩ :=
      Interleaving.underway_afterStart (procedure obeys) job jobs found idle
    have start : opening? (((procedure obeys : Procedure (Site π ε) _ (Phase β δ) _).start
        job).inquiry? register) = none :=
      congrArg opening? (inquiry?_start register job)
    rw [announcing, before] at kept
    rw [announcing, after]
    simpa [List.filterMap_append, List.filterMap_cons, start] using kept
  · intro traffic past strand access kept makes
    obtain ⟨earlier, later, before, after⟩ := makes.underway
    have own := announcement_access register makes.made
    have next : (access.next?.bind fun next => opening? (next.phase.inquiry? register)) =
        opening? (nextInquiry? register access) := by
      rw [nextInquiry?]
      cases access.next? <;> rfl
    rw [announced_concat, concluded_concat, announcing, after]
    rw [announcing, before] at kept
    simp only [List.filterMap_append, filterMap_singleton, filterMap_toList, next,
      Access.engagement] at kept ⊢
    apply List.perm_iff_count.mpr
    intro mapping
    have countKept := kept.count_eq mapping
    have countOwn := congrArg (List.count mapping) own
    simp only [List.count_append] at countKept countOwn ⊢
    omega

end Balance

section Runs

variable [Clearable β] [BufferSupply π β] [EventEncoder ε β] (obeys : δ → π × ε → π × ε)
  (site : Site π ε) (new : ∀ register : Register, register.table site.reporter = {})
  (work : List (List (Job δ))) (reports : ∀ jobs ∈ work, ∀ job ∈ jobs, job.isReport = true)
  (schedule : List Nat)
  (few : ∀ register, drawn register
    ((Interleaving.fresh site work).accesses (procedure obeys) schedule) < 2 ^ 32)

include new reports few in
/-- A stream maps what the deliveries that have shipped their events announce. -/
theorem mappings_run (register : Register) :
    register.mappings (chronicle ((Interleaving.fresh site work).accesses (procedure obeys)
      schedule)).stream =
      ((endings ((Interleaving.fresh site work).accesses (procedure obeys) schedule)).filter
        Prod.snd).filterMap fun ending => register.announcement? ending.1 := by
  rw [stream_run, Register.mappings, List.filterMap_map, shipments, List.filterMap_filterMap,
    List.filterMap_filter, endings, List.filterMap_filterMap]
  apply List.filterMap_congr
  intro access made
  cases ends : ends? access with
  | none =>
    rw [Chronicle.shipment?, delivers?_eq_none (by simp [ends])]
    rfl
  | some ending =>
    obtain ⟨purpose, shipped⟩ := ending
    cases shipped with
    | false =>
      rw [Chronicle.shipment?, delivers?_eq_none (by simp [ends])]
      rfl
    | true =>
      obtain ⟨caller, request, draft, event, -, suits, becomes, shipment⟩ :=
        shipment_of_ends obeys site new work reports schedule few made ends
      rw [shipment]
      exact mapping?_of_suits suits becomes register

include new reports few in
/-- What a stream maps has been announced, each time by an announcement of its own. -/
theorem exists_perm_mappings (register : Register) : ∃ more,
    (announced register ((Interleaving.fresh site work).accesses (procedure obeys)
      schedule)).Perm
      (register.mappings (chronicle ((Interleaving.fresh site work).accesses (procedure obeys)
        schedule)).stream ++ more) := by
  have ended : List.Sublist
      (register.mappings (chronicle ((Interleaving.fresh site work).accesses (procedure obeys)
        schedule)).stream)
      (concluded register
        ((Interleaving.fresh site work).accesses (procedure obeys) schedule)) := by
    rw [mappings_run obeys site new work reports schedule few]
    exact List.filter_sublist.filterMap _
  obtain ⟨more, same⟩ := ended.exists_perm_append
  have balance := (balance_run obeys register site work schedule).trans
    (same.append_right _)
  rw [List.append_assoc] at balance
  exact ⟨_, balance⟩

include new reports few in
/-- What has been announced and is neither mapped nor being announced has been lost. -/
theorem lost_of_unmapped {register : Register} {text : String} {id : UInt32}
    (given : Given ((Interleaving.fresh site work).accesses (procedure obeys) schedule) register
      text id)
    (unmapped : (text, id) ∉ register.mappings (chronicle ((Interleaving.fresh site work).accesses
      (procedure obeys) schedule)).stream)
    (idle : ∀ engagement ∈ ((Interleaving.fresh site work).run (procedure obeys)
      schedule).underway, engagement.phase.call? = none) :
    ∃ purpose, register.announcement? purpose = some (text, id) ∧
      (purpose, false) ∈
        endings ((Interleaving.fresh site work).accesses (procedure obeys) schedule) := by
  have quiet : announcing register
      ((Interleaving.fresh site work).run (procedure obeys) schedule) = [] := by
    apply List.filterMap_eq_nil_iff.mpr
    intro engagement member
    rw [Phase.inquiry?, idle engagement member]
    rfl
  have balance := balance_run obeys register site work schedule
  rw [quiet, List.append_nil] at balance
  obtain ⟨⟨purpose, shipped⟩, ended, announces⟩ :=
    List.mem_filterMap.mp (balance.mem_iff.mp given)
  cases shipped with
  | false => exact ⟨purpose, announces, ended⟩
  | true =>
    rw [mappings_run obeys site new work reports schedule few] at unmapped
    exact absurd (List.mem_filterMap.mpr ⟨_, List.mem_filter.mpr ⟨ended, rfl⟩, announces⟩) unmapped

end Runs

section Reading

variable {past : List (SiteAccess π ε β δ)} {site : Site π ε} {stream : List Event}
  {inquiries : Register → List (Inquiry String)}

theorem id?_of_encodes {activity : Activity String String} {act : Activity MethodId ExceptionId}
    {holds : Register → String → UInt32 → Prop} {find? : Register → String → Option UInt32}
    (encodes : activity.Encodes holds act)
    (finds : ∀ register text id, holds register text id → find? register text = some id)
    (register : Register) :
    register.id? act = (register.names? activity).bind (find? register) := by
  obtain ⟨method, raised, rfl, named, raises⟩ := encodes
  cases register with
  | methods =>
    rw [Register.id?, Activity.method_map, Register.names?, Option.bind_some, finds _ _ _ named]
  | exceptions =>
    rw [Register.id?, Activity.raised?_map, Register.names?]
    cases found : activity.raised? with
    | none => rfl
    | some text =>
      rw [Option.map_some, Option.bind_some, finds _ _ _ (raises text found)]

/-- An activity in ids that have been given names the activity in texts. -/
theorem names_of_encodes
    (consistent : ∀ register : Register, (register.table site.reporter).Consistent
      (inquiries register) (announced register past) (drawn register past))
    (mapped : ∀ (register : Register) mapping, mapping ∈ register.mappings stream →
      mapping ∈ announced register past)
    {activity : Activity String String} {act : Activity MethodId ExceptionId}
    (encodes : activity.Encodes (Given past) act) : Names site.reporter stream activity act := by
  have finds (register : Register) text id (given : Given past register text id) :
      (register.table site.reporter).find? text = some id :=
    ((consistent register).find?_iff text id).mpr given
  constructor
  · obtain ⟨method, raised, rfl, -, -⟩ := encodes
    cases activity <;> rfl
  · exact id?_of_encodes encodes finds
  · intro register text id used inStream
    obtain ⟨own, names, given⟩ := encodes.exists_name used
    have found := finds register text id (mapped register _ inStream)
    rw [names, (consistent register).key_unique (finds register own id given) found]

theorem tells_of_suits
    (consistent : ∀ register : Register, (register.table site.reporter).Consistent
      (inquiries register) (announced register past) (drawn register past))
    (mapped : ∀ (register : Register) mapping, mapping ∈ register.mappings stream →
      mapping ∈ announced register past)
    {caller : Thread} {request : Request} {draft : Draft} {purpose : Purpose} {event : Event}
    (suits : Suits (Given past) request draft purpose) (becomes : draft.Becomes event) :
    Tells site.reporter stream (.atSite (.request caller request) : Job δ) event := by
  obtain ⟨current, numbering, rfl⟩ := becomes
  cases purpose with
  | announceThread activity entered announcement =>
    obtain ⟨rfl, rfl⟩ := suits
    refine ⟨caller, activity, rfl, ?_⟩
    intro register text id maps
    cases register <;> cases maps
  | announceMethod activity entered thread own =>
    obtain ⟨rfl, rfl⟩ := suits
    refine ⟨caller, activity, rfl, ?_⟩
    intro register text id maps
    cases register <;> cases maps
    rfl
  | announceException activity entered thread method raised own =>
    obtain ⟨rfl, -, raises, rfl⟩ := suits
    refine ⟨caller, activity, rfl, ?_⟩
    intro register text id maps
    cases register <;> cases maps
    exact raises
  | answer =>
    cases draft with
    | methodMapping | exceptionMapping | threadMapping => exact suits.elim
    | activity entered thread act =>
      obtain ⟨activity, rfl, encodes⟩ := suits
      exact ⟨caller, activity, rfl, names_of_encodes consistent mapped encodes⟩
    | marker entered key value =>
      have asked : request = .marker key value := suits
      exact ⟨caller, by rw [asked]⟩

end Reading

variable [Clearable β] [BufferSupply π β] [EventEncoder ε β]

/-- The mappings of a stream are those that the tables hold, its events use the ids of just the
texts that their calls name, and an id that is used and not mapped is one whose only announcement
has been lost. -/
theorem stream_truthful (obeys : δ → π × ε → π × ε) (site : Site π ε)
    (new : ∀ register : Register, register.table site.reporter = {})
    (work : List (List (Job δ))) (reports : ∀ jobs ∈ work, ∀ job ∈ jobs, job.isReport = true)
    (schedule : List Nat)
    (few : ∀ register, drawn register
      ((Interleaving.fresh site work).accesses (procedure obeys) schedule) < 2 ^ 32) :
    let past := (Interleaving.fresh site work).accesses (procedure obeys) schedule
    let traffic := (Interleaving.fresh site work).run (procedure obeys) schedule
    let stream := (chronicle past).stream
    (∀ register : Register,
      (∀ text id, (text, id) ∈ register.mappings stream →
        (register.table traffic.shared.reporter).find? text = some id) ∧
      ((register.mappings stream).map Prod.fst).Nodup ∧
      ((register.mappings stream).map Prod.snd).Nodup) ∧
    stream = (shipments past).map Shipment.event ∧
    (∀ shipment ∈ shipments past,
      Tells traffic.shared.reporter stream shipment.job shipment.event) ∧
    ((∀ engagement ∈ traffic.underway, engagement.phase.call? = none) →
      ∀ stamp thread act, .activity stamp thread act ∈ stream →
      ∀ (register : Register) id, register.id? act = some id →
      (∀ text, (text, id) ∉ register.mappings stream) →
      ((announced register past).map Prod.snd).count id = 1 ∧
      ∃ text purpose, (register.table traffic.shared.reporter).find? text = some id ∧
        register.announcement? purpose = some (text, id) ∧ (purpose, false) ∈ endings past) := by
  intro past traffic stream
  have consistent (register : Register) :=
    consistent_run register site (new register) work schedule (few register)
  have partly (register : Register) :=
    exists_perm_mappings obeys site new work reports schedule few register
  have mapped (register : Register) mapping (inside : mapping ∈ register.mappings stream) :
      mapping ∈ announced register past := by
    obtain ⟨more, same⟩ := partly register
    exact same.mem_iff.mpr (List.mem_append_left _ inside)
  have ownIds (register : Register) : ((announced register past).map Prod.snd).Nodup :=
    (consistent register).owned.sublist (List.sublist_append_left _ _)
  have tells (shipment : Shipment δ) (member : shipment ∈ shipments past) :
      Tells traffic.shared.reporter stream shipment.job shipment.event := by
    obtain ⟨caller, request, draft, purpose, job, suits, becomes⟩ :=
      exists_suits obeys site new work reports schedule few member
    rw [job]
    exact tells_of_suits consistent mapped suits becomes
  refine ⟨fun register => ⟨?_, ?_, ?_⟩, stream_run obeys site work schedule, tells, ?_⟩
  · intro text id inside
    exact ((consistent register).find?_iff text id).mpr (mapped register _ inside)
  · obtain ⟨more, same⟩ := partly register
    have once := (same.map Prod.fst).nodup_iff.mp (consistent register).once
    rw [List.map_append] at once
    exact (List.nodup_append.mp once).1
  · obtain ⟨more, same⟩ := partly register
    have once := (same.map Prod.snd).nodup_iff.mp (ownIds register)
    rw [List.map_append] at once
    exact (List.nodup_append.mp once).1
  · intro idle stamp thread act inStream register id used unmapped
    rw [show stream = _ from stream_run obeys site work schedule] at inStream
    obtain ⟨shipment, member, same⟩ := List.mem_map.mp inStream
    have told := tells shipment member
    rw [same] at told
    obtain ⟨caller, activity, -, names⟩ := told
    obtain ⟨text, -, found⟩ := Option.bind_eq_some_iff.mp ((names.ids register).symm.trans used)
    have given : Given past register text id :=
      ((consistent register).find?_iff text id).mp found
    obtain ⟨purpose, announces, ended⟩ :=
      lost_of_unmapped obeys site new work reports schedule few given (unmapped text) idle
    exact ⟨List.count_eq_one_of_mem (ownIds register) (List.mem_map_of_mem given), text, purpose,
      found, announces, ended⟩

/-- A call, in the middle of which the archive is told to turn down a request, and a later call that
names the same method. -/
def unmappedCalls : List (List (Job Directive)) :=
  [[.atSite (.request ⟨0⟩ (.report (.entry "run")))],
    [.order (.turnDown 1), .atSite (.request ⟨0⟩ (.report (.exit "run" 3)))]]

/-- The order comes between the mapping of the thread and that of the method. -/
def unmappedTurns : List Nat :=
  List.replicate 8 0 ++ List.replicate 2 1 ++ List.replicate 20 0 ++ List.replicate 20 1

/-- Both calls use the id of the method, whose only announcement has been turned down. -/
theorem stream_truthful_unmapped :
    let past := (Interleaving.fresh recordingSite unmappedCalls).accesses
      (procedure Directive.obeyed) unmappedTurns
    let table := ((Interleaving.fresh recordingSite unmappedCalls).run
      (procedure Directive.obeyed) unmappedTurns).shared.reporter.methods
    (chronicle past).stream = [.threadMapping 0 0 "main", .activity ⟨0, 0⟩ 0 (.entry 1),
      .activity ⟨0, 1⟩ 0 (.exit 1 3)] ∧
    ((announced .methods past).map Prod.snd).count 1 = 1 ∧
    ∃ text purpose, table.find? text = some 1 ∧
      Register.methods.announcement? purpose = some (text, 1) ∧
      (purpose, false) ∈ endings past := by
  have new (register : Register) : register.table recordingSite.reporter = {} := by
    cases register <;> rfl
  have reports : ∀ jobs ∈ unmappedCalls, ∀ job ∈ jobs, job.isReport = true := by
    decide
  have few (register : Register) : drawn register ((Interleaving.fresh recordingSite
      unmappedCalls).accesses (procedure Directive.obeyed) unmappedTurns) < 2 ^ 32 := by
    have counted : drawn register ((Interleaving.fresh recordingSite unmappedCalls).accesses
        (procedure Directive.obeyed) unmappedTurns) ≤ 1 := by
      cases register <;> decide +kernel
    omega
  have told : (chronicle ((Interleaving.fresh recordingSite unmappedCalls).accesses
      (procedure Directive.obeyed) unmappedTurns)).stream =
        [.threadMapping 0 0 "main", .activity ⟨0, 0⟩ 0 (.entry 1),
          .activity ⟨0, 1⟩ 0 (.exit 1 3)] := by
    rfl
  have idle : ((Interleaving.fresh recordingSite unmappedCalls).run
      (procedure Directive.obeyed) unmappedTurns).underway = [] := by
    rfl
  have truthful := (stream_truthful Directive.obeyed recordingSite new unmappedCalls reports
    unmappedTurns few).2.2.2
  rw [told, idle] at truthful
  exact ⟨told, truthful (by simp) ⟨0, 0⟩ 0 (.entry 1) (by simp) .methods 1 rfl (by
    intro text
    simp [Register.mappings, Register.mapping?])⟩

/-- Without the bound a text and an id are mapped twice in one table, and in any case a text can be
mapped to the same id in both tables. -/
theorem mappings_repeated :
    ¬ ((Register.methods.mappings
      (chronicle (reportsPast (entriesAgain (2 ^ 32)))).stream).map Prod.fst).Nodup ∧
    ¬ ((Register.methods.mappings
      (chronicle (reportsPast (entriesAgain (2 ^ 32)))).stream).map Prod.snd).Nodup ∧
    (chronicle (reportsPast [(⟨0⟩, .exception "x" "x" 1)])).stream =
      [.threadMapping 0 0 "main", .methodMapping 1 "x", .exceptionMapping 1 "x",
        .activity ⟨0, 0⟩ 0 (.exception 1 1 1)] := by
  obtain ⟨texts, ids⟩ := mappings_entriesAgain (by decide) ofNat_exhausted
  exact ⟨texts, ids, rfl⟩

end OpenSite

end TraceRelay
