import Mathlib.Logic.Function.Iterate
import TraceRelay.Proofs.Transport.Delivered

/-! Letting go of the guard when all producers are silent. -/

namespace TraceRelay

namespace Conveyor

variable {β σ : Type} [ByteBuffer β] [PatientSink σ] {fine : σ → Prop}

/-- A consumer that works on its own makes steps until it waits or has ended. -/
theorem exists_turns_of_run (phase : Consumer β) (drain : Drain β (ObservedSink σ))
    (log : List LogEntry) : ∃ count,
      turn^[count]
          { pool := drain.pool, guard := { consumer := .inl phase, sink := drain.sink, log } } =
        { pool := (phase.run drain).state.pool
          guard := {
            consumer := (phase.run drain).result
            sink := (phase.run drain).state.sink
            log := log ++ (phase.run drain).log } } ∧
      ∀ next, (phase.run drain).result = .inl next →
        (next.step (phase.run drain).state).result = .waits := by
  induction phase, drain using Consumer.run.induct generalizing log with
  | case1 phase drain next moved ih =>
    obtain ⟨count, turned, waits⟩ := ih (log ++ (phase.step drain).log)
    have run : phase.run drain =
        { next.run (phase.step drain).state with
          log := (phase.step drain).log ++ (next.run (phase.step drain).state).log } := by
      rw [Consumer.run]
      split <;> simp_all
    refine ⟨count + 1, ?_, by rwa [run]⟩
    have first : turn
          { pool := drain.pool, guard := { consumer := .inl phase, sink := drain.sink, log } } =
        { pool := (phase.step drain).state.pool
          guard := {
            consumer := .inl next
            sink := (phase.step drain).state.sink
            log := log ++ (phase.step drain).log } } := by
      simp [turn, Guard.turn, moved]
    rw [Function.iterate_succ_apply, first, turned, run]
    simp
  | case2 phase drain waits =>
    have run : phase.run drain = { phase.step drain with result := .inl phase } := by
      rw [Consumer.run]
      split <;> simp_all
    obtain ⟨⟨handled, rfl⟩, empty, sendable⟩ := idle_of_waits waits
    have next := CirculatingPool.receive_of_nil empty
    rw [if_neg sendable] at next
    have still : (Consumer.receiving false handled).step drain =
        { result := .waits, state := drain } := by
      simp [Consumer.step, next]
    refine ⟨0, by simp [run, still], fun later same => ?_⟩
    rw [run, still] at same ⊢
    cases same
    exact waits
  | case3 phase drain outcome ends =>
    have run : phase.run drain = { phase.step drain with result := .inr outcome } := by
      rw [Consumer.run]
      split <;> simp_all
    refine ⟨1, by simp [run, turn, Guard.turn, ends], fun later same => ?_⟩
    rw [run] at same
    cases same

theorem foldl_turns (conveyor : Conveyor β (ObservedSink σ)) (count : Nat) :
    (List.replicate count Act.turn).foldl (fun conveyor act => (perform act conveyor).2) conveyor =
      turn^[count] conveyor := by
  induction count generalizing conveyor with
  | zero => rfl
  | succ count ih => exact ih conveyor.turn

/-- Whoever lets go of the guard when nobody else does anything sees the consumer take steps until
it waits or has ended. -/
theorem exists_release (start : Conveyor β (ObservedSink σ)) (acts : List (Act β))
    (sendable : (Session.follow perform start acts).state.pool.senders ≠ 0) : ∃ count,
      let full := Session.follow perform start (acts ++ .stop :: List.replicate count .turn)
      (Session.follow perform start acts).state.release =
          { pool := full.state.pool.dropSender, guard := full.state.guard } ∧
        ∀ phase, full.state.guard.consumer = .inl phase →
          (phase.step { pool := full.state.pool, sink := full.state.guard.sink }).result =
            .waits := by
  generalize before : (Session.follow perform start acts).state = conveyor at sendable
  have settled : ∃ count,
      let after := turn^[count] { conveyor with pool := (conveyor.pool.enqueue .stop).state }
      conveyor.guard.settle (conveyor.pool.enqueue .stop).state = (after.guard, after.pool) ∧
        ∀ phase, after.guard.consumer = .inl phase →
          (phase.step { pool := after.pool, sink := after.guard.sink }).result = .waits := by
    obtain ⟨pool, consumer, sink, log⟩ := conveyor
    cases consumer with
    | inr outcome => exact ⟨0, rfl, nofun⟩
    | inl phase =>
      obtain ⟨count, turned, waits⟩ :=
        exists_turns_of_run phase { pool := (pool.enqueue .stop).state, sink } log
      refine ⟨count, ?_⟩
      dsimp only at turned ⊢
      rw [turned]
      exact ⟨rfl, waits⟩
  obtain ⟨count, settled, waits⟩ := settled
  refine ⟨count, ?_⟩
  have after : (Session.follow perform start (acts ++ .stop :: List.replicate count .turn)).state =
      turn^[count] { conveyor with pool := (conveyor.pool.enqueue .stop).state } := by
    rw [Session.follow_append, Session.state_foldl, before, List.foldl_cons, foldl_turns]
    simp [perform, dispatch, sendable]
  dsimp only
  rw [after]
  refine ⟨?_, waits⟩
  simp only [release, Guard.release, settled]

/-- How often producers have found no free buffer. -/
def missed (past : List (Act β × Answer β)) : Nat :=
  past.countP fun
    | (_, .lent none) => true
    | _ => false

theorem misses_follow (start : Conveyor β (ObservedSink σ)) (acts : List (Act β)) :
    let session := Session.follow perform start acts
    session.state.pool.misses = start.pool.misses + missed session.past := by
  refine Session.follow_induction (motive := fun past (conveyor : Conveyor β (ObservedSink σ)) =>
    conveyor.pool.misses = start.pool.misses + missed past) perform rfl ?_ acts
  intro past conveyor act kept
  have counted (entry : Act β × Answer β) :
      missed (past ++ [entry]) = missed past + missed [entry] :=
    List.countP_append
  rw [counted]
  cases act with
  | lend =>
    cases queue : conveyor.pool.free <;>
      simp [perform, CirculatingPool.lend, queue, missed, kept, Nat.add_assoc]
  | turn =>
    rcases pool_turn conveyor with ⟨buffer, -, put⟩ | ⟨-, queued, hasReceiver, same⟩
    · simp only [perform, put, CirculatingPool.putBack]
      split <;> simpa [missed] using kept
    · simpa [perform, same, missed] using kept
  | send | stop =>
    simp only [perform, dispatch, CirculatingPool.enqueue]
    split
    · simpa [missed] using kept
    · split <;> simpa [missed] using kept
  | join =>
    simp only [perform]
    split <;> simpa [missed, CirculatingPool.dropSender] using kept
  | leave => simpa [perform, missed, CirculatingPool.dropSender] using kept

theorem answer_of_release {act : Act β} {answer : Answer β} {count : Nat}
    (released : act ∈ Act.stop :: List.replicate count .turn)
    (answers : ∃ state : Conveyor β (ObservedSink σ), answer = (perform act state).1) :
    answer = .refused ∨ (∃ result, answer = .sent .stop result) ∨
      ∃ returned?, answer = .turned returned? := by
  obtain ⟨state, rfl⟩ := answers
  rcases List.mem_cons.mp released with rfl | turns
  · simp only [perform, dispatch]
    split
    · exact .inl rfl
    · exact .inr (.inl ⟨_, rfl⟩)
  · rw [List.eq_of_mem_replicate turns]
    exact .inr (.inr ⟨_, rfl⟩)

/-- The request to stop and the steps of the consumer send no buffer and lend none. -/
theorem silent_of_release {later : List (Act β × Answer β)} {count : Nat}
    (answers : ∀ entry ∈ later, entry.1 ∈ Act.stop :: List.replicate count .turn ∧
      ∃ state : Conveyor β (ObservedSink σ), entry.2 = (perform entry.1 state).1) :
    buffersSent later = [] ∧ lent later = [] ∧ missed later = 0 := by
  induction later with
  | nil => exact ⟨rfl, rfl, rfl⟩
  | cons entry later ih =>
    obtain ⟨noSend, noLoan, noMiss⟩ :=
      ih fun other member => answers other (List.mem_cons_of_mem _ member)
    have own := answers entry List.mem_cons_self
    obtain ⟨act, answer⟩ := entry
    rcases answer_of_release own.1 own.2 with rfl | ⟨result, rfl⟩ | ⟨returned?, rfl⟩
    · exact ⟨noSend, noLoan, noMiss⟩
    · refine ⟨?_, noLoan, noMiss⟩
      rcases result with _ | _
      · exact noSend
      · simpa [buffersSent, sent, List.filterMap_cons] using noSend
    · exact ⟨noSend, noLoan, noMiss⟩

omit [PatientSink σ] in
/-- A consumer that has not been told to stop while somebody can send is at work. -/
theorem Works.hears_of_unsummoned {past : List (Act β × Answer β)}
    {conveyor : Conveyor β (ObservedSink σ)} {heard : List (Message β)}
    (works : Works fine past conveyor heard) (unsummoned : ¬ Summoned past conveyor) :
    conveyor.pool.hasReceiver = true := by
  cases working : conveyor.guard.consumer with
  | inl phase => exact works.hears phase working
  | inr outcome =>
    have stands := works.stands
    rw [working] at stands
    obtain ⟨-, -, told | ⟨-, alone⟩⟩ := stands
    · exact absurd (.inl (works.inOrder.subset told)) unsummoned
    · exact absurd (.inr alone) unsummoned

/-- The session in which the consumer is told to stop and then makes `count` steps. -/
theorem past_of_release (start : Conveyor β (ObservedSink σ)) (acts : List (Act β)) (count : Nat)
    (sendable : (Session.follow perform start acts).state.pool.senders ≠ 0)
    (hears : (Session.follow perform start acts).state.pool.hasReceiver = true) : ∃ later,
      (Session.follow perform start (acts ++ .stop :: List.replicate count .turn)).past =
        (Session.follow perform start acts).past ++ (.stop, .sent .stop (.ok ())) :: later ∧
      buffersSent ((.stop, .sent .stop (.ok ())) :: later) = [] ∧
      lent ((.stop, .sent .stop (.ok ())) :: later) = [] ∧
      missed ((.stop, .sent .stop (.ok ())) :: later) = 0 := by
  generalize before : Session.follow perform start acts = session at sendable hears
  have stopped : (perform .stop session.state).1 = .sent .stop (.ok ()) := by
    simp [perform, dispatch, sendable, CirculatingPool.enqueue, hears]
  obtain ⟨later, past, answers⟩ := Session.past_foldl perform (session.extend perform .stop)
    (List.replicate count .turn)
  have released : ∀ entry ∈ (Act.stop, Answer.sent .stop (.ok ())) :: later,
      entry.1 ∈ Act.stop :: List.replicate count .turn ∧
        ∃ state : Conveyor β (ObservedSink σ), entry.2 = (perform entry.1 state).1 := by
    intro entry member
    rcases List.mem_cons.mp member with rfl | turns
    · exact ⟨List.mem_cons_self, session.state, stopped.symm⟩
    · exact (answers entry turns).imp_left (List.mem_cons_of_mem _)
  refine ⟨later, ?_, silent_of_release released⟩
  rw [Session.follow_append, before, List.foldl_cons, past]
  simp [Session.extend, stopped]

omit [ByteBuffer β] in
/-- A bound on what has been sent beyond what has been lent holds on while nothing is sent. -/
theorem bounded_of_silent {past later : List (Act β × Answer β)} {free places : Nat}
    (silent : buffersSent later = [])
    (bounded : ∀ earlier, earlier <+: past →
      free + (buffersSent earlier).length ≤ places + (lent earlier).length)
    (earlier : List (Act β × Answer β)) (inside : earlier <+: past ++ later) :
    free + (buffersSent earlier).length ≤ places + (lent earlier).length := by
  rcases List.prefix_or_prefix_of_prefix inside (List.prefix_append _ _) with before | ⟨rest, rfl⟩
  · exact bounded earlier before
  · have nothing : buffersSent rest = [] := by
      have within := (List.prefix_append_right_inj _).mp inside
      exact List.prefix_nil.mp (silent ▸ (within.filterMap _).filterMap _)
    have atEnd := bounded past (List.prefix_refl _)
    rw [buffersSent_append, nothing, List.append_nil, lent, List.filterMap_append,
      List.length_append]
    exact Nat.le_trans atEnd (Nat.add_le_add_left (Nat.le_add_right _ _) _)

/-- If the guard is let go after a session in which the consumer was not told to stop, everything
that was sent in the session gets into the sink, and its buffers go back to the pool. -/
theorem release_complete (obliging : Obliging fine) {pool : CirculatingPool β} {sink : σ}
    (idle : pool.queued = []) (alive : pool.hasReceiver = true) (good : fine sink)
    (acts : List (Act β)) :
    let session := Session.follow perform
      ({ pool, guard := { sink := { sink } } } : Conveyor β (ObservedSink σ)) acts
    let final := session.state.release
    ¬ Summoned session.past session.state →
    (∀ earlier, earlier <+: session.past →
      pool.free.length + (buffersSent earlier).length ≤ pool.places + (lent earlier).length) →
    final.guard.consumer = .inr (.returned ()) ∧
      final.guard.sink.received = ByteBuffer.joined (buffersSent session.past) ∧
      lent session.past ++ final.pool.free =
        pool.free ++ (buffersSent session.past).map Clearable.clear ∧
      final.pool.misses = pool.misses + missed session.past := by
  intro session final unsummoned bounded
  obtain ⟨heard, works⟩ := works_follow obliging idle alive good acts
  have hears : session.state.pool.hasReceiver = true := works.hears_of_unsummoned unsummoned
  have sendable : session.state.pool.senders ≠ 0 := fun alone => unsummoned (.inr alone)
  let start : Conveyor β (ObservedSink σ) := { pool, guard := { sink := { sink } } }
  obtain ⟨count, released, waits⟩ := exists_release start acts sendable
  obtain ⟨later, split, noSend, noLoan, noMiss⟩ := past_of_release start acts count sendable hears
  let full := Session.follow perform start (acts ++ .stop :: List.replicate count .turn)
  change full.past = session.past ++ _ at split
  have sentAll : buffersSent full.past = buffersSent session.past := by
    rw [split, buffersSent_append, noSend, List.append_nil]
  have lentAll : lent full.past = lent session.past := by
    rw [split, lent, List.filterMap_append]
    simpa [lent] using noLoan
  have missedAll : missed full.past = missed session.past := by
    rw [split, missed, List.countP_append]
    simpa [missed] using noMiss
  obtain ⟨_, feedsAll⟩ : ∃ heardAll, Feeds full.past full.state heardAll :=
    feeds_follow idle alive sink _
  obtain ⟨heardAll, worksAll⟩ : ∃ heardAll, Works fine full.past full.state heardAll :=
    works_follow obliging idle alive good _
  have told : Summoned full.past full.state := .inl (by simp [split, sent])
  cases ended : full.state.guard.consumer with
  | inl phase => exact absurd (waits phase ended) (feedsAll.not_waits told ended)
  | inr outcome =>
    obtain ⟨handled, delivers⟩ := worksAll.delivers ended
    have covered := delivers.covers_earlier split fun stopped => unsummoned (.inl stopped)
    have ledger : lent full.past ++ full.state.pool.free =
        pool.free ++ (returned full.past).map Clearable.clear :=
      ledger_follow idle alive sink _ fun earlier inside =>
        bounded_of_silent noSend bounded earlier (split ▸ inside)
    have misses : full.state.pool.misses = pool.misses + missed full.past :=
      misses_follow start _
    have handledAll : (buffersSent full.past).take handled = buffersSent session.past := by
      rw [sentAll, List.take_of_length_le covered]
    have final_eq : final = { pool := full.state.pool.dropSender, guard := full.state.guard } :=
      released
    rw [final_eq]
    refine ⟨delivers.outcome ▸ ended, ?_, ?_, ?_⟩
    · rw [delivers.received, handledAll]
    · rw [← lentAll, ← handledAll, ← delivers.returned]
      exact ledger
    · rw [← missedAll]
      exact misses

end Conveyor

end TraceRelay
