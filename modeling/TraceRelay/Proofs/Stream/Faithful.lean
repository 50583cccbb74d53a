import TraceRelay.Proofs.Stream.Chronicle
import TraceRelay.Proofs.Threads.Roster

/-! What a call that nothing interrupts keeps about the stream. -/

namespace TraceRelay

/-- The request reports what the traced program does, and maps no id on its own account. -/
def Request.isReport : Request → Bool
  | .report _ => true
  | .marker _ _ => true
  | _ => false

/-- The event is what the draft becomes when it is completed. -/
def Draft.Becomes (draft : Draft) (event : Event) : Prop :=
  ∃ current numbering, (draft.complete current numbering).1 = event

/-- The delivery is one of the draft. What it has written is told beside it. -/
def Delivery.Carries {β : Type} (written : Option Event) (draft : Draft) : Delivery β → Prop
  | .obtaining own => own = draft
  | .stamping own _ => own = draft
  | .writing event _ => draft.Becomes event
  | .returning _ _ => ∃ event, written = some event ∧ draft.Becomes event

/-- A tracker and its host at a site. -/
def Site.tracked {π ε : Type} (site : Site π ε) : TrackedHost :=
  { tracker := site.reporter.tracker, host := site.host }

namespace OpenSite

variable {π ε β δ : Type}

/-- A call that was asked to report the activity knows the id of its thread: a reader knows this id
by the name that the call has read. -/
def Knows (chronicle : Chronicle) (turn : Turn) (request : Request)
    (activity : Activity String String) (caller : ThreadId) : Prop :=
  request = .report activity ∧ ∃ name, chronicle.named turn = some name ∧
    chronicle.legend.threads.find? caller = some name

/-- The draft of a call's own event reads as what the call was asked to report. -/
def Answers (chronicle : Chronicle) (turn : Turn) (request : Request) : Draft → Prop
  | .activity _ caller act => ∃ activity, Knows chronicle turn request activity caller ∧
    chronicle.legend.readActivity? act = some activity
  | .marker _ key value => request = .marker key value
  | _ => False

/-- The draft is what a delivery with the given purpose is to tell the reader of the stream, and
what the call has found out before is right. -/
def Means (chronicle : Chronicle) (turn : Turn) (request : Request) (draft : Draft) :
    Purpose → Prop
  | .announceThread activity _ announcement =>
    request = .report activity ∧ chronicle.named turn = some announcement.name ∧
      draft = .threadMapping announcement.id announcement.name
  | .announceMethod activity _ caller id =>
    Knows chronicle turn request activity caller ∧ draft = .methodMapping id activity.method
  | .announceException activity _ caller method raised id =>
    Knows chronicle turn request activity caller ∧
      chronicle.legend.methods.find? method = some activity.method ∧
      activity.raised? = some raised ∧ draft = .exceptionMapping id raised
  | .answer => Answers chronicle turn request draft

/-- What a call in progress has found out so far is right. -/
def Keeps (chronicle : Chronicle) (turn : Turn) (request : Request) : Call β → Prop
  | .entering wanted => wanted = request
  | .identifying activity _ .readName => request = .report activity
  | .identifying activity _ (.consult name) =>
    request = .report activity ∧ chronicle.named turn = some name
  | .identifying activity _ (.settle announcement) =>
    request = .report activity ∧ chronicle.named turn = some announcement.name ∧
      chronicle.legend.threads.find? announcement.id = some announcement.name
  | .resolvingMethod activity _ caller _ => Knows chronicle turn request activity caller
  | .resolvingException activity _ caller method raised _ =>
    Knows chronicle turn request activity caller ∧
      chronicle.legend.methods.find? method = some activity.method ∧
      activity.raised? = some raised
  | .delivering purpose delivery => ∃ draft, Means chronicle turn request draft purpose ∧
    delivery.Carries (chronicle.written ⟨turn, purpose.stage⟩) draft

/-- A call that announces its thread does so with the id in the memo of the thread. -/
def Owns (tracked : TrackedHost) (thread : Thread) : Call β → Prop
  | .identifying _ _ (.settle announcement) =>
    ∃ memo, tracked.memo? thread = some memo ∧ memo.id = announcement.id
  | .delivering (.announceThread _ _ announcement) _ =>
    ∃ memo, tracked.memo? thread = some memo ∧ memo.id = announcement.id
  | _ => True

/-- The thread whose memo still has to be brought up to date. -/
def exempt? (thread : Thread) : Call β → Option Thread
  | .identifying _ _ (.settle _) => some thread
  | _ => none

/-- The number of threads that get an id with an access. -/
def enrols (access : SiteAccess π ε β δ) : Nat :=
  match access.phase with
  | .atSite _ (.calling thread (.identifying _ _ phase)) =>
    phase.enrols access.before.tracked thread
  | _ => 0

/-- The number of threads that accesses have given an id. -/
def enrolled (past : List (SiteAccess π ε β δ)) : Nat := (past.map enrols).sum

/-- The announcement that a lookup has not finished yet. -/
def opening? : Option (Inquiry String) → Option (String × UInt32)
  | some (key, .announcing id) => some (key, id)
  | _ => none

/-- The shared state and the chronicle fit each other while `call?` is the call in progress, if
there is one, with the thread that makes it and what it was asked to do. -/
structure Faithful [BufferSupply π β] (site : Site π ε) (past : List (SiteAccess π ε β δ))
    (turn : Turn) (call? : Option (Thread × Request × Call β)) : Prop where
  read : ({} : Legend).readStream (chronicle past).stream =
    (chronicle past).answered.map fun entry => some entry.2
  consistent : ∀ register : Register, (register.table site.reporter).Consistent
    (call?.bind fun call => register.inquiry? call.2.2).toList (announced register past)
    (drawn register past)
  mapped : ∀ register, announced register past = register.mappings (chronicle past).stream ++
    (opening? (call?.bind fun call => register.inquiry? call.2.2)).toList
  roster : Roster site.tracked (chronicle past).legend.threads (enrolled past)
    (call?.bind fun call => exempt? call.1 call.2.2)
  reports : ∀ thread request call, call? = some (thread, request, call) → request.isReport = true
  keeps : ∀ thread request call, call? = some (thread, request, call) →
    Keeps (chronicle past) turn request call
  owns : ∀ thread request call, call? = some (thread, request, call) →
    Owns site.tracked thread call

/-- The call that goes on after an access. -/
def following : Progress (Call β) (Outcome DeliveryFailure Unit) → Option (Call β)
  | .continues next => some next
  | .finished _ => none

theorem continues_of_following {result : Progress (Call β) (Outcome DeliveryFailure Unit)}
    {thread : Thread} {request : Request} {other : Thread × Request × Call β}
    (goesOn : ((following result).map fun next => (thread, request, next)) = some other) :
    other.1 = thread ∧ other.2.1 = request ∧ result = .continues other.2.2 := by
  cases result with
  | finished outcome => cases goesOn
  | continues next =>
    cases goesOn
    exact ⟨rfl, rfl, rfl⟩

theorem inquiry?_following (result : Progress (Call β) (Outcome DeliveryFailure Unit))
    (thread : Thread) (request : Request) (register : Register) :
    (((following result).map fun next => (thread, request, next)).bind fun call =>
      register.inquiry? call.2.2) = (following result).bind register.inquiry? := by
  cases result <;> rfl

theorem opens?_of_resolving {table after : IdTable String} {own next : Option (Inquiry String)}
    (uses : Inquiry.Uses table own next after) (resolving : opening? own = none) :
    Inquiry.opens? own next = opening? next := by
  cases uses with
  | delivers | announced | fails => cases resolving
  | nothing | begins | continues | announces | returns => rfl

theorem opens?_self (own : Option (Inquiry String)) : Inquiry.opens? own own = none := by
  cases own with
  | none => rfl
  | some inquiry =>
    obtain ⟨key, phase⟩ := inquiry
    cases phase <;> rfl

variable [Clearable β] [BufferSupply π β] [EventEncoder ε β] {obeys : δ → π × ε → π × ε}
  {past : List (SiteAccess π ε β δ)} {access : SiteAccess π ε β δ} {siteJob : Site.Job}
  {thread : Thread} {request : Request} {call : Call β}

/-- What an access of a call does is what the call does. -/
theorem call_of_step
    (made : (procedure obeys).step access.job access.phase access.before =
      (access.moved, access.after))
    (calling : access.phase = .atSite siteJob (.calling thread call)) :
    access.after = (call.step thread access.before).state ∧
      access.next?.map (fun next => next.phase) =
        (following (call.step thread access.before).result).map fun next =>
          .atSite siteJob (.calling thread next) := by
  obtain ⟨turn, job, phase, before, moved, after⟩ := access
  simp only at made calling
  subst calling
  cases happens_of_step made with
  | goesOn _ _ _ next stepped =>
    rw [stepped]
    exact ⟨rfl, rfl⟩
  | ends _ _ _ outcome stepped =>
    rw [stepped]
    exact ⟨rfl, rfl⟩

theorem nextInquiry?_of_step (register : Register)
    (made : (procedure obeys).step access.job access.phase access.before =
      (access.moved, access.after))
    (calling : access.phase = .atSite siteJob (.calling thread call)) :
    nextInquiry? register access =
      (following (call.step thread access.before).result).bind register.inquiry? := by
  have next := (call_of_step made calling).2
  have mapped : nextInquiry? register access =
      (access.next?.map fun next => next.phase).bind fun phase => phase.inquiry? register := by
    rw [nextInquiry?, Option.bind_map]
    rfl
  rw [mapped, next]
  cases following (call.step thread access.before).result <;> rfl

/-- The shared state and the chronicle still fit each other after an access of the call. -/
abbrev FaithfulAfter (past : List (SiteAccess π ε β δ)) (access : SiteAccess π ε β δ)
    (thread : Thread) (request : Request) (call : Call β) : Prop :=
  Faithful access.after (past ++ [access]) access.turn
    ((following (call.step thread access.before).result).map fun next => (thread, request, next))

/-- An access of a call keeps all faithful, if it keeps the reading of the stream, the mappings, the
memos and the findings of the call. -/
theorem Faithful.next (faithful : Faithful access.before past access.turn
      (some (thread, request, call)))
    (made : (procedure obeys).step access.job access.phase access.before =
      (access.moved, access.after))
    (few : ∀ register, drawn register (past ++ [access]) < 2 ^ 32)
    (calling : access.phase = .atSite siteJob (.calling thread call))
    (read : ({} : Legend).readStream (chronicle (past ++ [access])).stream =
      (chronicle (past ++ [access])).answered.map fun entry => some entry.2)
    (mapped : ∀ register : Register, announced register (past ++ [access]) =
      register.mappings (chronicle (past ++ [access])).stream ++
        (opening? ((following (call.step thread access.before).result).bind
          register.inquiry?)).toList)
    (roster : Roster access.after.tracked (chronicle (past ++ [access])).legend.threads
      (enrolled (past ++ [access]))
      ((following (call.step thread access.before).result).bind (exempt? thread)))
    (keeps : ∀ next, (call.step thread access.before).result = .continues next →
      Keeps (chronicle (past ++ [access])) access.turn request next ∧
        Owns access.after.tracked thread next) :
    FaithfulAfter past access thread request call := by
  constructor
  · exact read
  · intro register
    have own : access.phase.inquiry? register = register.inquiry? call := by
      simp [Phase.inquiry?, Phase.call?, calling]
    have before := faithful.consistent register
    have uses := uses_of_step register made
    have room := few register
    rw [drawn_concat] at room
    rw [inquiry?_following, drawn_concat, announced_concat,
      ← nextInquiry?_of_step register made calling]
    have alone : (register.table access.before.reporter).Consistent
        ([] ++ (access.phase.inquiry? register).toList ++ []) (announced register past)
        (drawn register past) := by
      rw [own]
      simpa using before
    simpa using uses.consistent room alone
  · intro register
    rw [inquiry?_following]
    exact mapped register
  · simpa [Option.bind_map, Function.comp_def] using roster
  · intro otherThread otherRequest next goesOn
    obtain ⟨rfl, rfl, -⟩ := continues_of_following goesOn
    exact faithful.reports _ _ _ rfl
  · intro otherThread otherRequest next goesOn
    obtain ⟨rfl, rfl, result⟩ := continues_of_following goesOn
    exact (keeps next result).1
  · intro otherThread otherRequest next goesOn
    obtain ⟨rfl, rfl, result⟩ := continues_of_following goesOn
    exact (keeps next result).2

end OpenSite

end TraceRelay
