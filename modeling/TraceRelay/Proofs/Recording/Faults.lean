import TraceRelay.Recording.Desk

/-! Each order to spoil a write spoils at most one: the first one since that it hits. -/

namespace TraceRelay

/-- What the writes of each kind are given. -/
inductive Event.OfKind : EventKind → Event → Prop
  | methodMapping (id : MethodId) (signature : String) :
    OfKind .methodMapping (.methodMapping id signature)
  | exceptionMapping (id : ExceptionId) (exception : String) :
    OfKind .exceptionMapping (.exceptionMapping id exception)
  | threadMapping (id : ThreadId) (timestamp : Timestamp) (name : String) :
    OfKind .threadMapping (.threadMapping id timestamp name)
  | entry (stamp : Stamp) (method : MethodId) (thread : ThreadId) :
    OfKind .entry (.activity stamp thread (.entry method))
  | exit (stamp : Stamp) (method : MethodId) (line : Int32) (thread : ThreadId) :
    OfKind .exit (.activity stamp thread (.exit method line))
  | exception (stamp : Stamp) (method : MethodId) (raised : ExceptionId) (line : Int32)
      (thread : ThreadId) :
    OfKind .exception (.activity stamp thread (.exception raised method line))
  | bubble (stamp : Stamp) (method : MethodId) (raised : ExceptionId) (thread : ThreadId) :
    OfKind .bubble (.activity stamp thread (.bubble raised method))
  | marker (stamp : Stamp) (key value : String) : OfKind .marker (.marker stamp key value)

theorem Event.ofKind_iff {kind : EventKind} {event : Event} :
    event.OfKind kind ↔ event.kind = kind := by
  constructor
  · intro ofKind
    cases ofKind <;> rfl
  · rintro rfl
    cases event with
    | methodMapping id signature => exact .methodMapping id signature
    | exceptionMapping id exception => exact .exceptionMapping id exception
    | threadMapping id timestamp name => exact .threadMapping id timestamp name
    | marker stamp key value => exact .marker stamp key value
    | activity stamp thread act =>
      cases act with
      | entry method => exact .entry stamp method thread
      | exit method line => exact .exit stamp method line thread
      | exception raised method line => exact .exception stamp method raised line thread
      | bubble raised method => exact .bubble stamp method raised thread

namespace Scribe

/-- How a scribe writes an event. -/
inductive Encodes (scribe : Scribe) (event : Event) (transcript : Transcript) :
    Attempt Scribe Transcript → Prop
  | records (unhit : ∀ point, scribe.armed = some point → point.hits event.kind = false) :
    Encodes scribe event transcript
      { outcome := .returned (), encoder := scribe
        buffer := transcript.append (.complete event) }
  | fails (told : scribe.armed = some (.write event.kind)) :
    Encodes scribe event transcript
      { outcome := .failed { message := "injected failure" }, encoder := {}
        buffer := transcript.append (.torn event.kind) }
  | panics (told : scribe.armed = some .panic) :
    Encodes scribe event transcript
      { outcome := .panicked ("injected panic while writing " ++ event.kind.name), encoder := {}
        buffer := transcript.append (.torn event.kind) }

theorem encodes_encode (scribe : Scribe) (event : Event) (transcript : Transcript) :
    scribe.Encodes event transcript (scribe.encode event transcript) := by
  unfold encode
  cases told : scribe.armed with
  | none => exact .records (by simp [told])
  | some point =>
    cases point with
    | panic => exact .panics told
    | write kind =>
      by_cases same : kind = event.kind
      · subst same
        simpa using Encodes.fails told
      · have unhit : ∀ point, scribe.armed = some point → point.hits event.kind = false := by
          intro point held
          cases told.symm.trans held
          exact decide_eq_false same
        have records : scribe.Encodes event transcript _ := .records unhit
        simpa [same] using records

variable {scribe : Scribe} {event : Event} {transcript : Transcript}
  {attempt : Attempt Scribe Transcript}

/-- A write uses up the fault that hits it. -/
theorem Encodes.armed_encoder (encodes : scribe.Encodes event transcript attempt) :
    attempt.encoder.armed = scribe.armed.filter fun point => !point.hits event.kind := by
  cases encodes with
  | records unhit =>
    cases told : scribe.armed with
    | none => rfl
    | some point => simp [Option.filter_some, unhit point told]
  | fails told => simp [told, Option.filter_some, FaultPoint.hits]
  | panics told => simp [told, Option.filter_some, FaultPoint.hits]

/-- A write is spoilt just if it uses up a fault. -/
theorem Encodes.balance (encodes : scribe.Encodes event transcript attempt) :
    (if attempt.outcome = .returned () then 0 else 1) + attempt.encoder.armed.toList.length =
      scribe.armed.toList.length := by
  cases encodes with
  | records => simp
  | fails told => simp [told]
  | panics told => simp [told]

/-- A write adds to its transcript the event, or the trace of the fault. -/
theorem Encodes.entries (encodes : scribe.Encodes event transcript attempt) :
    attempt.buffer.entries = transcript.entries ++
      [if attempt.outcome = .returned () then .complete event else .torn event.kind] := by
  cases encodes with
  | records => simp [Transcript.append]
  | fails told => simp [Transcript.append]
  | panics told => simp [Transcript.append]

end Scribe

namespace Desk

open Session

variable {ι : Type}

theorem pending?_arm (past : List (Act ι × Answer)) (point : FaultPoint) (answer : Answer) :
    pending? (past ++ [(.arm point, answer)]) = some point := by
  unfold pending?
  rw [latest?_concat_some past (Act.point?_arm point)]
  rfl

theorem pending?_write (past : List (Act ι × Answer)) (place : ι) (event : Event)
    (answer : Answer) :
    pending? (past ++ [(.write place event, answer)]) =
      (pending? past).filter fun point => !point.hits event.kind := by
  unfold pending?
  rw [latest?_concat_none past (Act.point?_write place event)]
  cases latest? (fun entry : Act ι × Answer => entry.1.point?) past with
  | none => rfl
  | some latest =>
    obtain ⟨point, since⟩ := latest
    cases used : since.any fun entry => entry.1.isHitBy point with
    | true => simp [used]
    | false => cases hit : point.hits event.kind <;> simp [used, Option.filter_some, hit]

theorem orders_arm (past : List (Act ι × Answer)) (point : FaultPoint) (answer : Answer) :
    orders (past ++ [(.arm point, answer)]) = orders past + 1 := by
  unfold orders
  rw [List.countP_append]
  rfl

theorem orders_write (past : List (Act ι × Answer)) (place : ι) (event : Event)
    (answer : Answer) : orders (past ++ [(.write place event, answer)]) = orders past := by
  unfold orders
  rw [List.countP_append]
  rfl

/-- An order replaces the one whose fault is pending. -/
theorem replacements_arm (past : List (Act ι × Answer)) (point : FaultPoint) (answer : Answer) :
    replacements (past ++ [(.arm point, answer)]) =
      replacements past + (pending? past).toList.length := by
  unfold replacements
  rw [moments_concat, List.countP_append, List.countP_singleton, Option.length_toList]
  rfl

theorem replacements_write (past : List (Act ι × Answer)) (place : ι) (event : Event)
    (answer : Answer) :
    replacements (past ++ [(.write place event, answer)]) = replacements past := by
  unfold replacements
  rw [moments_concat, List.countP_append]
  rfl

variable [DecidableEq ι]

/-- What an act does at a desk, and its answer. -/
inductive Does (desk : Desk ι) : Act ι → Answer → Desk ι → Prop
  | arms (point : FaultPoint) :
    Does desk (.arm point) .told { desk with scribe := { armed := some point } }
  | writes (place : ι) (event : Event) {attempt : Attempt Scribe Transcript}
      (encodes : desk.scribe.Encodes event (desk.transcripts place) attempt) :
    Does desk (.write place event) (.wrote attempt.outcome)
      { scribe := attempt.encoder
        transcripts := fun other =>
          if other = place then attempt.buffer else desk.transcripts other }

theorem does_perform (act : Act ι) (desk : Desk ι) :
    Does desk act (perform act desk).1 (perform act desk).2 := by
  cases act with
  | arm point => exact .arms point
  | write place event => exact .writes place event (desk.scribe.encodes_encode event _)

/-- What every session at a desk keeps: the scribe is told to make the fault that is pending, each
order has been obeyed once, has been replaced or is pending, and the writes have only added to what
was there. -/
structure Tallied (transcripts : ι → Transcript) (past : List (Act ι × Answer)) (desk : Desk ι) :
    Prop where
  armed : desk.scribe.armed = pending? past
  once : ∀ point since, latest? (fun entry => entry.1.point?) past = some (point, since) →
    since.countP isSpoilt + (pending? past).toList.length = 1
  balanced :
    past.countP isSpoilt + replacements past + (pending? past).toList.length = orders past
  contents : ∀ place,
    (desk.transcripts place).entries = (transcripts place).entries ++ written place past

variable {transcripts : ι → Transcript} {past : List (Act ι × Answer)} {desk after : Desk ι}
  {act : Act ι} {answer : Answer}

theorem tallied_start : Tallied transcripts [] { transcripts } where
  armed := rfl
  once _ _ latest := nomatch latest
  balanced := rfl
  contents _ := (List.append_nil _).symm

theorem Does.armed (does : Does desk act answer after) (armed : desk.scribe.armed = pending? past) :
    after.scribe.armed = pending? (past ++ [(act, answer)]) := by
  cases does with
  | arms point => exact (pending?_arm past point _).symm
  | writes place event encodes =>
    rw [pending?_write, ← armed]
    exact encodes.armed_encoder

/-- A write is spoilt just if it uses up the fault that was pending. -/
theorem Does.spoils {place : ι} {event : Event} (does : Does desk (.write place event) answer after)
    (armed : desk.scribe.armed = pending? past) :
    [((Act.write place event : Act ι), answer)].countP isSpoilt +
        (pending? (past ++ [(.write place event, answer)])).toList.length =
      (pending? past).toList.length := by
  rw [← does.armed armed, ← armed]
  cases does with
  | writes _ _ encodes =>
    rw [← encodes.balance, List.countP_singleton]
    simp [isSpoilt]

theorem Tallied.after_does (tallied : Tallied transcripts past desk)
    (does : Does desk act answer after) :
    Tallied transcripts (past ++ [(act, answer)]) after where
  armed := does.armed tallied.armed
  once := by
    intro point since latest
    cases act with
    | arm ordered =>
      -- Nothing has been written since the order, and its fault is pending.
      rw [latest?_concat_some past (Act.point?_arm ordered)] at latest
      cases latest
      rw [pending?_arm]
      rfl
    | write place event =>
      have spoils := does.spoils tallied.armed
      rw [latest?_concat_none past (Act.point?_write place event)] at latest
      obtain ⟨⟨_, before⟩, found, same⟩ := Option.map_eq_some_iff.mp latest
      cases same
      have once := tallied.once point before found
      rw [List.countP_append]
      omega
  balanced := by
    have balanced := tallied.balanced
    rw [List.countP_append]
    cases act with
    | arm ordered =>
      have unspoilt : [((Act.arm ordered : Act ι), answer)].countP isSpoilt = 0 := rfl
      have one : (some ordered).toList.length = 1 := rfl
      rw [replacements_arm, orders_arm, pending?_arm, unspoilt, one]
      omega
    | write place event =>
      have spoils := does.spoils tallied.armed
      rw [replacements_write, orders_write]
      omega
  contents := by
    intro place
    have before := tallied.contents place
    cases does with
    | arms point => simpa [written] using before
    | writes own event encodes =>
      by_cases here : place = own
      · subst here
        simp [written, encodes.entries, before]
      · simpa [written, here, Ne.symm here] using before

theorem tallied_follow (transcripts : ι → Transcript) (acts : List (Act ι)) :
    Tallied transcripts (follow perform ({ transcripts } : Desk ι) acts).past
      (follow perform ({ transcripts } : Desk ι) acts).state :=
  follow_induction perform tallied_start
    (fun _ _ act tallied => tallied.after_does (does_perform act _)) acts

/-- A write ends as the fault that is pending tells. -/
theorem Does.outcome {place : ι} {event : Event} {kind : EventKind}
    (does : Does desk (.write place event) answer after)
    (armed : desk.scribe.armed = pending? past) (ofKind : event.OfKind kind) :
    ((∃ message, answer = .wrote (.panicked message)) ↔ pending? past = some .panic) ∧
      ((∃ failure, answer = .wrote (.failed failure)) ↔ pending? past = some (.write kind)) ∧
      (answer = .wrote (.returned ()) ↔
        pending? past ≠ some .panic ∧ pending? past ≠ some (.write kind)) := by
  obtain rfl := Event.ofKind_iff.mp ofKind
  rw [← armed]
  cases does with
  | writes _ _ encodes =>
    cases encodes with
    | records unhit =>
      have calm : desk.scribe.armed ≠ some .panic :=
        fun told => absurd (unhit _ told) (by simp [FaultPoint.hits])
      have missed : desk.scribe.armed ≠ some (.write event.kind) :=
        fun told => absurd (unhit _ told) (by simp [FaultPoint.hits])
      simp [calm, missed]
    | fails told => simp [told]
    | panics told => simp [told]

/-- A write adds one entry to the transcript at its place, and touches no other one. -/
theorem Does.leaves {place : ι} {event : Event} {kind : EventKind}
    (does : Does desk (.write place event) answer after) (ofKind : event.OfKind kind) :
    (after.transcripts place).entries = (desk.transcripts place).entries ++
        [if answer = .wrote (.returned ()) then .complete event else .torn kind] ∧
      ∀ other, other ≠ place → after.transcripts other = desk.transcripts other := by
  obtain rfl := Event.ofKind_iff.mp ofKind
  cases does with
  | writes _ _ encodes =>
    constructor
    · simp [encodes.entries]
    · intro other apart
      simp [apart]

/-- A write is spoilt just if the latest order fits it and no write since has used that order up,
and it adds one entry to its own transcript and leaves all others alone. -/
theorem faults_hit_once (transcripts : ι → Transcript) (acts : List (Act ι)) :
    let session := follow perform ({ transcripts } : Desk ι) acts
    let past := session.past
    let desk := session.state
    (∀ place kind event, event.OfKind kind →
      let (answer, after) := perform (.write place event) desk
      ((∃ message, answer = .wrote (.panicked message)) ↔ pending? past = some .panic) ∧
        ((∃ failure, answer = .wrote (.failed failure)) ↔ pending? past = some (.write kind)) ∧
        (answer = .wrote (.returned ()) ↔
          pending? past ≠ some .panic ∧ pending? past ≠ some (.write kind)) ∧
        (after.transcripts place).entries = (desk.transcripts place).entries ++
          [if answer = .wrote (.returned ()) then .complete event else .torn kind] ∧
        ∀ other, other ≠ place → after.transcripts other = desk.transcripts other) ∧
      (∀ point since, latest? (fun entry => entry.1.point?) past = some (point, since) →
        since.countP isSpoilt + (pending? past).toList.length = 1) ∧
      past.countP isSpoilt + replacements past + (pending? past).toList.length = orders past ∧
      ∀ place, (desk.transcripts place).entries =
        (transcripts place).entries ++ written place past := by
  intro session past desk
  have tallied : Tallied transcripts past desk := tallied_follow transcripts acts
  refine ⟨?_, tallied.once, tallied.balanced, tallied.contents⟩
  intro place kind event ofKind
  have does := does_perform (.write place event) desk
  obtain ⟨panics, fails, returns⟩ := does.outcome tallied.armed ofKind
  exact ⟨panics, fails, returns, does.leaves ofKind⟩

/-- An order to spoil an exit is replaced by one to panic, which a marker uses up; so the next exit
is spared, and it takes a third order to spoil one. -/
theorem faults_hit_once_replaced :
    let entered : Event := .activity ⟨5, 0⟩ 1 (.entry 1)
    let marked : Event := .marker ⟨6, 1⟩ "k" "v"
    let left : Event := .activity ⟨7, 2⟩ 1 (.exit 1 9)
    let acts : List (Act Bool) :=
      [.arm (.write .exit), .write false entered, .arm .panic, .write true marked,
        .write true left, .arm (.write .exit), .write false marked]
    let session := follow perform { transcripts := fun _ => { entries := [.torn .bubble] } } acts
    let since : List (Act Bool × Answer) := [(.write false marked, .wrote (.returned ()))]
    let made := perform (.write true left) session.state
    left.OfKind .exit ∧
      pending? session.past = some (.write .exit) ∧
      (∃ failure, made.1 = .wrote (.failed failure)) ∧
      (made.2.transcripts true).entries =
        [.torn .bubble, .torn .marker, .complete left, .torn .exit] ∧
      false ≠ true ∧ made.2.transcripts false = session.state.transcripts false ∧
      latest? (fun entry => entry.1.point?) session.past = some (.write .exit, since) ∧
      since.countP isSpoilt + (pending? session.past).toList.length = 1 ∧
      session.past.countP isSpoilt = 1 ∧ replacements session.past = 1 ∧
      session.past.countP isSpoilt + replacements session.past +
        (pending? session.past).toList.length = orders session.past ∧
      (session.state.transcripts false).entries =
        [.torn .bubble, .complete entered, .complete marked] := by
  intro entered marked left acts session since made
  have ofKind : left.OfKind .exit := .exit ⟨7, 2⟩ 1 9 1
  have pending : pending? session.past = some (.write .exit) := by decide
  have apart : false ≠ true := by decide
  have latest : latest? (fun entry => entry.1.point?) session.past =
      some (.write .exit, since) := by decide
  obtain ⟨writes, once, balanced, contents⟩ :=
    faults_hit_once (fun _ : Bool => { entries := [.torn .bubble] }) acts
  obtain ⟨-, fails, -, entries, others⟩ := writes true .exit left ofKind
  exact ⟨ofKind, pending, fails.mpr pending, entries, apart, others false apart, latest,
    once _ _ latest, by decide, by decide, balanced, contents false⟩

end Desk

end TraceRelay
