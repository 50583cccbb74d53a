import TraceRelay.Proofs.Community.Keys
import TraceRelay.Proofs.Interleaving.Thinning
import TraceRelay.Recording.Directive

/-! What it means that two members of different communities cannot be told apart. -/

namespace TraceRelay

/-- Timestamps that are equal, if they are to be compared at all. -/
def Timestamp.Alike (timed : Bool) (timestamp other : Timestamp) : Prop :=
  timed = true → timestamp = other

/-- Drafts that are equal, up to the timestamps if these are not to be compared. -/
inductive Draft.Alike (timed : Bool) : Draft → Draft → Prop where
  | methodMapping (id : MethodId) (signature : String) :
    Draft.Alike timed (.methodMapping id signature) (.methodMapping id signature)
  | exceptionMapping (id : ExceptionId) (exception : String) :
    Draft.Alike timed (.exceptionMapping id exception) (.exceptionMapping id exception)
  | threadMapping (id : ThreadId) (name : String) :
    Draft.Alike timed (.threadMapping id name) (.threadMapping id name)
  | activity {entered other : Timestamp} (times : entered.Alike timed other) (thread : ThreadId)
    (act : Activity MethodId ExceptionId) :
    Draft.Alike timed (.activity entered thread act) (.activity other thread act)
  | marker {entered other : Timestamp} (times : entered.Alike timed other) (key value : String) :
    Draft.Alike timed (.marker entered key value) (.marker other key value)

/-- Events that are equal, up to the timestamps if these are not to be compared. -/
inductive Event.Alike (timed : Bool) : Event → Event → Prop where
  | methodMapping (id : MethodId) (signature : String) :
    Event.Alike timed (.methodMapping id signature) (.methodMapping id signature)
  | exceptionMapping (id : ExceptionId) (exception : String) :
    Event.Alike timed (.exceptionMapping id exception) (.exceptionMapping id exception)
  | threadMapping (id : ThreadId) {timestamp other : Timestamp}
    (times : timestamp.Alike timed other) (name : String) :
    Event.Alike timed (.threadMapping id timestamp name) (.threadMapping id other name)
  | activity {timestamp other : Timestamp} (times : timestamp.Alike timed other)
    (sequence : UInt32) (thread : ThreadId) (act : Activity MethodId ExceptionId) :
    Event.Alike timed (.activity ⟨timestamp, sequence⟩ thread act)
      (.activity ⟨other, sequence⟩ thread act)
  | marker {timestamp other : Timestamp} (times : timestamp.Alike timed other)
    (sequence : UInt32) (key value : String) :
    Event.Alike timed (.marker ⟨timestamp, sequence⟩ key value)
      (.marker ⟨other, sequence⟩ key value)

theorem Draft.Alike.eq {draft other : Draft} (alike : draft.Alike true other) :
    draft = other := by
  cases alike with
  | methodMapping | exceptionMapping | threadMapping => rfl
  | activity times | marker times => rw [times rfl]

theorem Event.Alike.eq {event other : Event} (alike : event.Alike true other) :
    event = other := by
  cases alike with
  | methodMapping | exceptionMapping => rfl
  | threadMapping _ times | activity times | marker times => rw [times rfl]

/-- Drafts that are alike become events that are alike, and draw the same numbers. -/
theorem Draft.Alike.complete {timed : Bool} {draft other : Draft} {current now : Timestamp}
    (alike : draft.Alike timed other) (times : current.Alike timed now) (numbering : Numbering) :
    (draft.complete current numbering).1.Alike timed (other.complete now numbering).1 ∧
      (draft.complete current numbering).2 = (other.complete now numbering).2 := by
  cases alike with
  | methodMapping => exact ⟨.methodMapping _ _, rfl⟩
  | exceptionMapping => exact ⟨.exceptionMapping _ _, rfl⟩
  | threadMapping id name => exact ⟨.threadMapping id times name, rfl⟩
  | activity entered => exact ⟨.activity entered _ _ _, rfl⟩
  | marker entered => exact ⟨.marker entered _ _ _, rfl⟩

/-- Two answers to a request for a buffer. -/
inductive Loan.Alike {β : Type} (buffers : β → β → Prop) :
    Except TransportFailure (Option β) → Except TransportFailure (Option β) → Prop where
  | lent {buffer other : β} (alike : buffers buffer other) :
    Loan.Alike buffers (.ok (some buffer)) (.ok (some other))
  | spent : Loan.Alike buffers (.ok none) (.ok none)
  | failed (failure : TransportFailure) : Loan.Alike buffers (.error failure) (.error failure)

theorem Loan.Alike.refl {β : Type} {buffers : β → β → Prop} (same : ∀ buffer, buffers buffer buffer)
    (loan : Except TransportFailure (Option β)) : Loan.Alike buffers loan loan := by
  cases loan with
  | error failure => exact .failed failure
  | ok buffer? =>
    cases buffer? with
    | none => exact .spent
    | some buffer => exact .lent (same buffer)

/-- When supplies, encoders and buffers are alike: they do the same with events that are alike, and
the same orders keep them alike. -/
structure Likeness {π ε β δ : Type} [Clearable β] [BufferSupply π β] [EventEncoder ε β]
    (obeys : δ → π × ε → π × ε) where
  /-- Timestamps are compared. -/
  timed : Bool
  supplies : π → π → Prop
  encoders : ε → ε → Prop
  buffers : β → β → Prop
  lend : ∀ {supply other}, supplies supply other →
    Loan.Alike buffers (BufferSupply.lend supply).result (BufferSupply.lend other).result ∧
      supplies (BufferSupply.lend supply).state (BufferSupply.lend other).state
  ship : ∀ {buffer held supply other}, buffers buffer held → supplies supply other →
    (BufferSupply.ship buffer supply).result = (BufferSupply.ship held other).result ∧
      supplies (BufferSupply.ship buffer supply).state (BufferSupply.ship held other).state
  encode : ∀ {event told encoder other buffer held}, event.Alike timed told →
    encoders encoder other → buffers buffer held →
    (EventEncoder.encode event encoder buffer).outcome =
        (EventEncoder.encode told other held).outcome ∧
      encoders (EventEncoder.encode event encoder buffer).encoder
        (EventEncoder.encode told other held).encoder ∧
      buffers (EventEncoder.encode event encoder buffer).buffer
        (EventEncoder.encode told other held).buffer
  clear : ∀ {buffer held}, buffers buffer held →
    buffers (Clearable.clear buffer) (Clearable.clear held)
  obey : ∀ {supply other encoder coder} (order : δ), supplies supply other →
    encoders encoder coder →
    supplies (obeys order (supply, encoder)).1 (obeys order (other, coder)).1 ∧
      encoders (obeys order (supply, encoder)).2 (obeys order (other, coder)).2

/-- Purposes that are equal, up to the time of their call if timestamps are not to be compared. -/
inductive Purpose.Alike (timed : Bool) : Purpose → Purpose → Prop where
  | announceThread (activity : Activity String String) {entered other : Timestamp}
    (times : entered.Alike timed other) (announcement : ThreadAnnouncement) :
    Purpose.Alike timed (.announceThread activity entered announcement)
      (.announceThread activity other announcement)
  | announceMethod (activity : Activity String String) {entered other : Timestamp}
    (times : entered.Alike timed other) (thread : ThreadId) (id : MethodId) :
    Purpose.Alike timed (.announceMethod activity entered thread id)
      (.announceMethod activity other thread id)
  | announceException (activity : Activity String String) {entered other : Timestamp}
    (times : entered.Alike timed other) (thread : ThreadId) (method : MethodId) (raised : String)
    (id : ExceptionId) :
    Purpose.Alike timed (.announceException activity entered thread method raised id)
      (.announceException activity other thread method raised id)
  | answer : Purpose.Alike timed .answer .answer

section

variable {β : Type} (timed : Bool) (buffers : β → β → Prop)

/-- Deliveries in the same phase, with drafts, events and buffers that are alike. -/
inductive Delivery.Alike : Delivery β → Delivery β → Prop where
  | obtaining {draft other : Draft} (drafts : draft.Alike timed other) :
    Delivery.Alike (.obtaining draft) (.obtaining other)
  | stamping {draft other : Draft} {buffer held : β} (drafts : draft.Alike timed other)
    (alike : buffers buffer held) : Delivery.Alike (.stamping draft buffer) (.stamping other held)
  | writing {event other : Event} {buffer held : β} (events : event.Alike timed other)
    (alike : buffers buffer held) : Delivery.Alike (.writing event buffer) (.writing other held)
  | returning (written : Outcome IoFailure Unit) {buffer held : β} (alike : buffers buffer held) :
    Delivery.Alike (.returning written buffer) (.returning written held)

/-- Calls in the same phase, which have found out the same. -/
inductive Call.Alike : Call β → Call β → Prop where
  | entering (request : Request) : Call.Alike (.entering request) (.entering request)
  | identifying (activity : Activity String String) {entered other : Timestamp}
    (times : entered.Alike timed other) (phase : Identification) :
    Call.Alike (.identifying activity entered phase) (.identifying activity other phase)
  | resolvingMethod (activity : Activity String String) {entered other : Timestamp}
    (times : entered.Alike timed other) (thread : ThreadId) (phase : Resolution) :
    Call.Alike (.resolvingMethod activity entered thread phase)
      (.resolvingMethod activity other thread phase)
  | resolvingException (activity : Activity String String) {entered other : Timestamp}
    (times : entered.Alike timed other) (thread : ThreadId) (method : MethodId) (raised : String)
    (phase : Resolution) :
    Call.Alike (.resolvingException activity entered thread method raised phase)
      (.resolvingException activity other thread method raised phase)
  | delivering {purpose other : Purpose} {delivery held : Delivery β}
    (purposes : purpose.Alike timed other) (deliveries : delivery.Alike timed buffers held) :
    Call.Alike (.delivering purpose delivery) (.delivering other held)

end

/-- Trackers on their hosts that give each thread the same id, and announce it under the same name
when the other one does. Their keys may differ. -/
structure TrackedHost.Alike (tracked other : TrackedHost) : Prop where
  names : tracked.tracker.names = other.tracker.names
  upcoming : tracked.tracker.upcoming = other.tracker.upcoming
  given : tracked.host.givenNames = other.host.givenNames
  scripted : tracked.host.scriptedNames = other.host.scriptedNames
  memos : ∀ thread, tracked.memo? thread = other.memo? thread

namespace TrackedHost.Alike

variable {tracked other : TrackedHost}

theorem nameOf (alike : tracked.Alike other) (source : NameSource) (thread : Thread) :
    tracked.host.nameOf source thread = other.host.nameOf source thread := by
  cases source
  · exact congrArg (Table.find? · thread) alike.given
  · exact congrArg (Table.find? · thread) alike.scripted

theorem remember (alike : tracked.Alike other) (thread : Thread) (memo : ThreadMemo) :
    (tracked.remember thread memo).Alike (other.remember thread memo) where
  names := alike.names
  upcoming := alike.upcoming
  given := alike.given
  scripted := alike.scripted
  memos caller := by
    rw [memo?_remember, memo?_remember, alike.memos]

/-- An access of a lookup finds out the same about both. -/
theorem step (alike : tracked.Alike other) (thread : Thread) (phase : Identification) :
    (phase.step thread tracked).1 = (phase.step thread other).1 ∧
      (phase.step thread tracked).2.Alike (phase.step thread other).2 := by
  cases phase with
  | readName =>
    simp only [Identification.step, alike.names, alike.nameOf]
    exact ⟨trivial, alike⟩
  | consult name =>
    simp only [Identification.step, alike.memos, alike.upcoming]
    cases other.memo? thread with
    | some memo =>
      by_cases announced : memo.announced = some name
      · simp only [announced, if_true]
        exact ⟨trivial, alike⟩
      · simp only [announced, if_false]
        exact ⟨trivial, alike⟩
    | none =>
      have left := alike.remember thread { id := other.tracker.upcoming }
      exact ⟨rfl, left.names, rfl, left.given, left.scripted, left.memos⟩
  | settle announcement =>
    simp only [Identification.step, alike.memos]
    cases other.memo? thread with
    | some memo => exact ⟨rfl, alike.remember thread _⟩
    | none => exact ⟨rfl, alike⟩

theorem step_recognition {ω : Type} (alike : tracked.Alike other) (request : ThreadRequest ω)
    (phase : Recognition) :
    (phase.step request tracked).1 = (phase.step request other).1 ∧
      (phase.step request tracked).2.Alike (phase.step request other).2 := by
  cases phase with
  | identifying phase =>
    obtain ⟨found, left⟩ := alike.step request.thread phase
    generalize made : phase.step request.thread tracked = step at found left
    generalize madeToo : phase.step request.thread other = stepToo at found left
    obtain ⟨lookup, state⟩ := step
    obtain ⟨lookupToo, stateToo⟩ := stepToo
    cases found
    cases lookup <;> simp only [Recognition.step, made, madeToo] <;> exact ⟨trivial, left⟩
  | announcing announcement =>
    simp only [Recognition.step]
    cases request.announcement <;> exact ⟨rfl, alike⟩

end TrackedHost.Alike

namespace Likeness

variable {π ε β δ : Type} [Clearable β] [BufferSupply π β] [EventEncoder ε β]
  {obeys : δ → π × ε → π × ε} (likeness : Likeness obeys)

/-- Reporters with the same ids and numbers, whose supplies and encoders are alike. -/
structure Reporters (reporter other : Reporter π ε) : Prop where
  supply : likeness.supplies reporter.supply other.supply
  encoder : likeness.encoders reporter.encoder other.encoder
  createdAt : likeness.timed = true → reporter.createdAt = other.createdAt
  numbering : reporter.numbering = other.numbering
  methods : reporter.methods = other.methods
  exceptions : reporter.exceptions = other.exceptions

/-- Reporters that are alike, on hosts that are alike to their trackers. -/
structure Sites (site other : Site π ε) : Prop where
  reporter : likeness.Reporters site.reporter other.reporter
  tracked : TrackedHost.Alike ⟨site.reporter.tracker, site.host⟩
    ⟨other.reporter.tracker, other.host⟩
  clock : likeness.timed = true → site.host.clock = other.host.clock

variable {likeness}

theorem Reporters.elapsed {reporter other : Reporter π ε} {now time : Nat}
    (alike : likeness.Reporters reporter other) (clock : likeness.timed = true → now = time) :
    (reporter.elapsed now).Alike likeness.timed (other.elapsed time) := by
  intro timed
  rw [Reporter.elapsed, Reporter.elapsed, alike.createdAt timed, clock timed]

/-- An access of a delivery leaves reporters alike, and leads to the same outcome. -/
theorem Reporters.step {reporter other : Reporter π ε} {delivery held : Delivery β} {now time : Nat}
    (alike : likeness.Reporters reporter other) (clock : likeness.timed = true → now = time)
    (deliveries : delivery.Alike likeness.timed likeness.buffers held) :
    (delivery.step now reporter).result.Alike (Delivery.Alike likeness.timed likeness.buffers)
        (held.step time other).result ∧
      likeness.Reporters (delivery.step now reporter).state (held.step time other).state := by
  cases deliveries with
  | obtaining drafts =>
    obtain ⟨lent, supplies⟩ := likeness.lend alike.supply
    have left : likeness.Reporters
        { reporter with supply := (BufferSupply.lend reporter.supply).state }
        { other with supply := (BufferSupply.lend other.supply).state } :=
      { supply := supplies, encoder := alike.encoder, createdAt := alike.createdAt
        numbering := alike.numbering, methods := alike.methods, exceptions := alike.exceptions }
    simp only [Delivery.step]
    generalize (BufferSupply.lend reporter.supply).result = loan at lent
    generalize (BufferSupply.lend other.supply).result = loanToo at lent
    cases lent with
    | lent buffers => exact ⟨.continues (.stamping drafts buffers), left⟩
    | spent => exact ⟨.finished _, left⟩
    | failed failure => exact ⟨.finished _, left⟩
  | stamping drafts buffers =>
    obtain ⟨events, numbering⟩ := drafts.complete (alike.elapsed clock) reporter.numbering
    rw [alike.numbering] at events numbering
    simp only [Delivery.step, alike.numbering]
    exact ⟨.continues (.writing events buffers),
      { supply := alike.supply, encoder := alike.encoder, createdAt := alike.createdAt
        numbering, methods := alike.methods, exceptions := alike.exceptions }⟩
  | writing events buffers =>
    obtain ⟨outcome, encoders, written⟩ := likeness.encode events alike.encoder buffers
    simp only [Delivery.step, outcome]
    refine ⟨.continues (.returning _ ?_),
      { supply := alike.supply, encoder := encoders, createdAt := alike.createdAt
        numbering := alike.numbering, methods := alike.methods, exceptions := alike.exceptions }⟩
    split
    · exact written
    · exact likeness.clear written
  | returning written buffers =>
    obtain ⟨result, supplies⟩ := likeness.ship buffers alike.supply
    simp only [Delivery.step, result]
    exact ⟨.finished _,
      { supply := supplies, encoder := alike.encoder, createdAt := alike.createdAt
        numbering := alike.numbering, methods := alike.methods, exceptions := alike.exceptions }⟩

/-- After a delivery that has succeeded calls that are alike go on alike. -/
theorem alike_resume {purpose other : Purpose} (alike : purpose.Alike likeness.timed other) :
    Progress.Alike (Call.Alike likeness.timed likeness.buffers) (Call.resume purpose)
      (Call.resume other) := by
  cases alike with
  | announceThread activity times announcement =>
    exact .continues (.identifying activity times _)
  | announceMethod activity times thread id =>
    exact .continues (.resolvingMethod activity times thread _)
  | announceException activity times thread method raised id =>
    exact .continues (.resolvingException activity times thread method raised _)
  | answer => exact .finished _

theorem alike_answering {draft other : Draft} (alike : draft.Alike likeness.timed other) :
    Call.Alike likeness.timed likeness.buffers (Call.answering draft) (Call.answering other) :=
  .delivering .answer (.obtaining alike)

theorem alike_withMethod (activity : Activity String String) {entered other : Timestamp}
    (times : entered.Alike likeness.timed other) (thread : ThreadId) (method : MethodId) :
    Call.Alike likeness.timed likeness.buffers (Call.withMethod activity entered thread method)
      (Call.withMethod activity other thread method) := by
  cases activity with
  | entry | exit => exact alike_answering (.activity times thread _)
  | exception | bubble => exact .resolvingException _ times thread method _ _

/-- An access of the lookup of the calling thread. -/
theorem Sites.step_identifying {site other : Site π ε} (alike : likeness.Sites site other)
    (thread : Thread) (activity : Activity String String) {entered told : Timestamp}
    (times : entered.Alike likeness.timed told) (phase : Identification) :
    let made := (Call.identifying activity entered phase : Call β).step thread site
    let madeToo := (Call.identifying activity told phase : Call β).step thread other
    made.result.Alike (Call.Alike likeness.timed likeness.buffers) madeToo.result ∧
      likeness.Sites made.state madeToo.state := by
  obtain ⟨found, left⟩ := alike.tracked.step thread phase
  have touched := Identification.touched_step thread phase ⟨site.reporter.tracker, site.host⟩
  have touchedToo :=
    Identification.touched_step thread phase ⟨other.reporter.tracker, other.host⟩
  simp only [Call.step, found]
  generalize phase.step thread ⟨site.reporter.tracker, site.host⟩ = made at left touched
  generalize phase.step thread ⟨other.reporter.tracker, other.host⟩ = madeToo at left touchedToo ⊢
  have reporters : likeness.Sites
      { reporter := { site.reporter with tracker := made.2.tracker }, host := made.2.host }
      { reporter := { other.reporter with tracker := madeToo.2.tracker }
        host := madeToo.2.host } :=
    { reporter := ⟨alike.reporter.supply, alike.reporter.encoder, alike.reporter.createdAt,
        alike.reporter.numbering, alike.reporter.methods, alike.reporter.exceptions⟩
      tracked := left
      clock := fun timed => by
        rw [touched.2.clock, touchedToo.2.clock, alike.clock timed] }
  cases madeToo.1 with
  | continues next => exact ⟨.continues (.identifying activity times next), reporters⟩
  | announces announcement =>
    exact ⟨.continues (.delivering (.announceThread activity times announcement)
      (.obtaining (.threadMapping _ _))), reporters⟩
  | returns id => exact ⟨.continues (.resolvingMethod activity times id _), reporters⟩

/-- An access of a delivery on behalf of a call. -/
theorem Sites.step_delivering {site other : Site π ε} (alike : likeness.Sites site other)
    (thread : Thread) {purpose purpose' : Purpose} {delivery delivery' : Delivery β}
    (purposes : purpose.Alike likeness.timed purpose')
    (deliveries : delivery.Alike likeness.timed likeness.buffers delivery') :
    let made := (Call.delivering purpose delivery).step thread site
    let madeToo := (Call.delivering purpose' delivery').step thread other
    made.result.Alike (Call.Alike likeness.timed likeness.buffers) madeToo.result ∧
      likeness.Sites made.state madeToo.state := by
  obtain ⟨moved, reporters⟩ := alike.reporter.step alike.clock deliveries
  refine ⟨?_, reporters, ?_, alike.clock⟩
  · simp only [Call.step]
    generalize (delivery.step site.host.clock site.reporter).result = result at moved
    generalize (delivery'.step other.host.clock other.reporter).result = resultToo at moved
    cases moved with
    | continues deliveries => exact .continues (.delivering purposes deliveries)
    | finished outcome =>
      cases outcome with
      | returned value => exact alike_resume purposes
      | failed | panicked => exact .finished _
  · simp only [Call.step, Delivery.tracker_step]
    exact alike.tracked

/-- An access of a call leaves sites alike, and leads to the same outcome. -/
theorem Sites.step {site other : Site π ε} {call made : Call β} (alike : likeness.Sites site other)
    (thread : Thread) (calls : call.Alike likeness.timed likeness.buffers made) :
    (call.step thread site).result.Alike (Call.Alike likeness.timed likeness.buffers)
        (made.step thread other).result ∧
      likeness.Sites (call.step thread site).state (made.step thread other).state := by
  cases calls with
  | entering request =>
    have times := alike.reporter.elapsed alike.clock
    refine ⟨.continues ?_, alike⟩
    cases request with
    | mapMethod signature id => exact alike_answering (.methodMapping id signature)
    | mapException exception id => exact alike_answering (.exceptionMapping id exception)
    | mapThread name id => exact alike_answering (.threadMapping id name)
    | report activity => exact .identifying activity times _
    | marker key value => exact alike_answering (.marker times key value)
  | identifying activity times phase => exact alike.step_identifying thread activity times phase
  | resolvingMethod activity times caller phase =>
    simp only [Call.step, alike.reporter.methods]
    have left (methods : IdTable String) : likeness.Sites
        { site with reporter := { site.reporter with methods } }
        { other with reporter := { other.reporter with methods } } :=
      { reporter := ⟨alike.reporter.supply, alike.reporter.encoder, alike.reporter.createdAt,
          alike.reporter.numbering, rfl, alike.reporter.exceptions⟩
        tracked := alike.tracked, clock := alike.clock }
    cases (phase.step activity.method other.reporter.methods).1 with
    | continues next => exact ⟨.continues (.resolvingMethod activity times caller next), left _⟩
    | announces id =>
      exact ⟨.continues (.delivering (.announceMethod activity times caller id)
        (.obtaining (.methodMapping id _))), left _⟩
    | returns method => exact ⟨.continues (alike_withMethod activity times caller method), left _⟩
  | resolvingException activity times caller method raised phase =>
    simp only [Call.step, alike.reporter.exceptions]
    have left (exceptions : IdTable String) : likeness.Sites
        { site with reporter := { site.reporter with exceptions } }
        { other with reporter := { other.reporter with exceptions } } :=
      { reporter := ⟨alike.reporter.supply, alike.reporter.encoder, alike.reporter.createdAt,
          alike.reporter.numbering, alike.reporter.methods, rfl⟩
        tracked := alike.tracked, clock := alike.clock }
    cases (phase.step raised other.reporter.exceptions).1 with
    | continues next =>
      exact ⟨.continues (.resolvingException activity times caller method raised next), left _⟩
    | announces id =>
      exact ⟨.continues (.delivering (.announceException activity times caller method raised id)
        (.obtaining (.exceptionMapping id raised))), left _⟩
    | returns id =>
      exact ⟨.continues (alike_answering (.activity times caller _)), left _⟩
  | delivering purposes deliveries => exact alike.step_delivering thread purposes deliveries

end Likeness

theorem Event.Alike.kind {timed : Bool} {event other : Event} (alike : event.Alike timed other) :
    event.kind = other.kind := by
  cases alike <;> rfl

/-- Entries of transcripts that are equal up to the timestamps. -/
inductive TranscriptEntry.Alike : TranscriptEntry → TranscriptEntry → Prop where
  | complete {event other : Event} (events : event.Alike false other) :
    TranscriptEntry.Alike (.complete event) (.complete other)
  | torn (kind : EventKind) : TranscriptEntry.Alike (.torn kind) (.torn kind)

/-- Transcripts that are equal up to the timestamps. -/
def Transcript.Alike (transcript other : Transcript) : Prop :=
  List.Forall₂ TranscriptEntry.Alike transcript.entries other.entries

theorem Transcript.Alike.append {transcript other : Transcript} {entry own : TranscriptEntry}
    (alike : transcript.Alike other) (entries : entry.Alike own) :
    (transcript.append entry).Alike (other.append own) :=
  List.rel_append alike (.cons entries .nil)

/-- Archives that are equal up to the timestamps in what they have delivered. -/
structure Archive.Alike (archive other : Archive) : Prop where
  shipped : List.Forall₂ Transcript.Alike archive.shipped other.shipped
  refusals : archive.refusals = other.refusals
  lent : archive.lent = other.lent
  failsToLend : archive.failsToLend = other.failsToLend
  failsToShip : archive.failsToShip = other.failsToShip

namespace Archive.Alike

variable {archive other : Archive}

theorem lend (alike : archive.Alike other) :
    Loan.Alike Transcript.Alike archive.lend.result other.lend.result ∧
      archive.lend.state.Alike other.lend.state := by
  simp only [Archive.lend, alike.failsToLend, alike.refusals]
  split
  · exact ⟨.failed _, alike⟩
  · cases other.refusals with
    | zero =>
      exact ⟨.lent .nil, alike.shipped, rfl, congrArg (· + 1) alike.lent, rfl,
        alike.failsToShip⟩
    | succ refusals => exact ⟨.spent, alike.shipped, rfl, alike.lent, rfl, alike.failsToShip⟩

theorem ship (alike : archive.Alike other) {transcript held : Transcript}
    (transcripts : transcript.Alike held) :
    (archive.ship transcript).result = (other.ship held).result ∧
      (archive.ship transcript).state.Alike (other.ship held).state := by
  have lent := congrArg (· - 1) alike.lent
  simp only [Archive.ship, alike.failsToShip]
  split
  · exact ⟨rfl, alike.shipped, alike.refusals, lent, alike.failsToLend, rfl⟩
  · exact ⟨rfl, .cons transcripts alike.shipped, alike.refusals, lent, alike.failsToLend, rfl⟩

theorem obeyed (alike : archive.Alike other) (directive : Directive) (scribe : Scribe) :
    (directive.obeyed (archive, scribe)).1.Alike (directive.obeyed (other, scribe)).1 ∧
      (directive.obeyed (archive, scribe)).2 = (directive.obeyed (other, scribe)).2 := by
  obtain ⟨shipped, refusals, lent, lends, ships⟩ := alike
  cases directive with
  | turnDown count => exact ⟨⟨shipped, rfl, lent, lends, ships⟩, rfl⟩
  | failLending fails => exact ⟨⟨shipped, refusals, lent, rfl, ships⟩, rfl⟩
  | failShipping fails => exact ⟨⟨shipped, refusals, lent, lends, rfl⟩, rfl⟩
  | spoil point => exact ⟨⟨shipped, refusals, lent, lends, ships⟩, rfl⟩

end Archive.Alike

/-- A scribe does the same with events that are equal up to the timestamps. -/
theorem Scribe.alike_encode {event told : Event} {transcript held : Transcript}
    (events : event.Alike false told) (alike : transcript.Alike held) (scribe : Scribe) :
    (scribe.encode event transcript).outcome = (scribe.encode told held).outcome ∧
      (scribe.encode event transcript).encoder = (scribe.encode told held).encoder ∧
      (scribe.encode event transcript).buffer.Alike (scribe.encode told held).buffer := by
  have recorded := alike.append (.complete events)
  have torn := alike.append (.torn told.kind)
  simp only [Scribe.encode, events.kind]
  split
  · exact ⟨rfl, rfl, torn⟩
  · split
    · exact ⟨rfl, rfl, torn⟩
    · exact ⟨rfl, rfl, recorded⟩
  · exact ⟨rfl, rfl, recorded⟩

/-- Archives and their scribes pay no heed to timestamps. -/
def Likeness.recorded : Likeness Directive.obeyed where
  timed := false
  supplies := Archive.Alike
  encoders := Eq
  buffers := Transcript.Alike
  lend := Archive.Alike.lend
  ship buffers supplies := supplies.ship buffers
  encode := by
    rintro event told scribe _ transcript held events rfl buffers
    exact scribe.alike_encode events buffers
  clear _ := .nil
  obey := by
    rintro archive other scribe _ directive supplies rfl
    exact supplies.obeyed directive scribe

end TraceRelay
