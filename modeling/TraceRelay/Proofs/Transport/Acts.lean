import TraceRelay.Transport.Conveyor

/-! What an act does to a conveyor, whatever its sink does. -/

namespace TraceRelay.Conveyor

variable {β τ : Type}

section Histories

theorem sent_concat (past : List (Act β × Answer β)) (entry : Act β × Answer β) :
    sent (past ++ [entry]) = sent past ++ sent [entry] := by
  simp [sent]

theorem returned_concat (past : List (Act β × Answer β)) (entry : Act β × Answer β) :
    returned (past ++ [entry]) = returned past ++ returned [entry] := by
  simp [returned]

theorem buffersSent_append (past later : List (Act β × Answer β)) :
    buffersSent (past ++ later) = buffersSent past ++ buffersSent later := by
  simp [buffersSent, sent]

end Histories

variable [ByteBuffer β] [ByteSink τ] {past : List (Act β × Answer β)} {conveyor : Conveyor β τ}

/-- With a step the consumer puts a buffer back, or it touches nothing of the pool but the
channel. -/
theorem pool_turn (conveyor : Conveyor β τ) :
    (∃ buffer, conveyor.returning? = some buffer ∧
      conveyor.turn.pool = conveyor.pool.putBack buffer) ∨
    conveyor.returning? = none ∧ ∃ queued hasReceiver,
      conveyor.turn.pool = { conveyor.pool with queued, hasReceiver } := by
  obtain ⟨pool, consumer, sink, log⟩ := conveyor
  rcases consumer with (_ | ⟨stopping, handled⟩ | ⟨stopping, handled, buffer, left⟩ | _ | _) | _
  case inl.receiving =>
    refine .inr ⟨rfl, ?_⟩
    cases queued : pool.queued with
    | nil =>
      refine ⟨pool.queued, pool.hasReceiver, ?_⟩
      have next := CirculatingPool.receive_of_nil queued
      split at next <;> simp [turn, Guard.turn, Consumer.step, next]
    | cons message rest =>
      refine ⟨rest, pool.hasReceiver, ?_⟩
      have next := CirculatingPool.receive_of_cons queued
      cases message <;> simp [turn, Guard.turn, Consumer.step, next]
  case inl.writing =>
    cases left with
    | nil => exact .inl ⟨buffer, rfl, rfl⟩
    | cons first rest =>
      refine .inr ⟨rfl, pool.queued, pool.hasReceiver, ?_⟩
      simp only [turn, Guard.turn, Consumer.step]
      split <;> rfl
  all_goals exact .inr ⟨rfl, _, _, rfl⟩

/-- The queue of free buffers keeps its number of places. -/
theorem places_perform (act : Act β) (conveyor : Conveyor β τ) :
    (perform act conveyor).2.pool.places = conveyor.pool.places := by
  cases act with
  | turn =>
    rcases pool_turn conveyor with ⟨buffer, -, put⟩ | ⟨-, queued, hasReceiver, kept⟩
    · simp only [perform, put, CirculatingPool.putBack]
      split <;> rfl
    · simp only [perform, kept]
  | lend =>
    cases queue : conveyor.pool.free <;> simp [perform, CirculatingPool.lend, queue]
  | send | stop =>
    simp only [perform, dispatch, CirculatingPool.enqueue]
    split
    · rfl
    · split <;> rfl
  | join =>
    simp only [perform]
    split <;> rfl
  | leave => rfl

theorem senders_perform (act : Act β) (conveyor : Conveyor β τ)
    (alone : conveyor.pool.senders = 0) : (perform act conveyor).2.pool.senders = 0 := by
  cases act with
  | turn =>
    rcases pool_turn conveyor with ⟨buffer, -, put⟩ | ⟨-, queued, hasReceiver, kept⟩
    · simp only [perform, put, CirculatingPool.putBack]
      split <;> exact alone
    · simpa only [perform, kept] using alone
  | lend => cases queue : conveyor.pool.free <;> simp [perform, CirculatingPool.lend, queue, alone]
  | send | stop => simp [perform, dispatch, alone]
  | join =>
    simp only [perform]
    split <;> simp [CirculatingPool.dropSender, alone]
  | leave => simp [perform, CirculatingPool.dropSender, alone]

/-- An act that neither sends nor lets the consumer make a step leaves the channel and the consumer
as they are. -/
theorem quiet_perform {act : Act β} (conveyor : Conveyor β τ)
    (quiet : act ≠ .stop ∧ ∀ buffer, act ≠ .send buffer) (other : act ≠ .turn) :
    (perform act conveyor).2.guard = conveyor.guard ∧
      (perform act conveyor).2.pool.queued = conveyor.pool.queued := by
  cases act with
  | turn => exact absurd rfl other
  | stop => exact absurd rfl quiet.1
  | send buffer => exact absurd rfl (quiet.2 buffer)
  | lend =>
    cases queue : conveyor.pool.free <;> simp [perform, CirculatingPool.lend, queue]
  | join =>
    simp only [perform]
    split <;> exact ⟨rfl, rfl⟩
  | leave => exact ⟨rfl, rfl⟩

/-- A consumer that makes no step stays as it is. -/
theorem guard_of_ne_turn {act : Act β} (conveyor : Conveyor β τ) (other : act ≠ .turn) :
    (perform act conveyor).2.guard = conveyor.guard := by
  cases act with
  | turn => exact absurd rfl other
  | lend => cases queue : conveyor.pool.free <;> simp [perform, CirculatingPool.lend, queue]
  | send | stop =>
    simp only [perform, dispatch]
    split <;> rfl
  | join =>
    simp only [perform]
    split <;> rfl
  | leave => rfl

/-- A consumer that has ended stays as it is. -/
theorem guard_perform {outcome : Outcome IoFailure Unit}
    (ended : conveyor.guard.consumer = .inr outcome) (act : Act β) :
    (perform act conveyor).2.guard = conveyor.guard := by
  by_cases own : act = .turn
  · subst own
    simp [perform, turn, Guard.turn, ended]
  · exact guard_of_ne_turn conveyor own

/-- Whoever waits for the end of the consumer waits until it has ended. -/
theorem ended_of_joined (start : Conveyor β τ) (acts : List (Act β))
    {outcome : Outcome IoFailure Unit}
    (joined : (.join, .joined outcome) ∈ (Session.follow perform start acts).past) :
    (Session.follow perform start acts).state.guard.consumer = .inr outcome := by
  refine Session.follow_induction (motive := fun past (conveyor : Conveyor β τ) =>
    (.join, .joined outcome) ∈ past → conveyor.guard.consumer = .inr outcome)
    perform (fun member => (List.not_mem_nil member).elim) ?_ acts joined
  intro past conveyor act kept member
  rcases List.mem_append.mp member with old | new
  · have ended := kept old
    rw [guard_perform ended act]
    exact ended
  · obtain ⟨rfl, answered⟩ := Prod.mk.inj (List.mem_singleton.mp new)
    simp only [perform] at answered ⊢
    split at answered
    · cases answered
    · cases answered
      assumption

/-- Only a consumer that finds nothing to do waits, and only if it has not been told to stop. -/
theorem idle_of_waits {phase : Consumer β} {drain : Drain β τ}
    (waits : (phase.step drain).result = .waits) :
    (∃ handled, phase = .receiving false handled) ∧ drain.pool.queued = [] ∧
      drain.pool.senders ≠ 0 := by
  cases phase with
  | receiving stopping handled =>
    simp only [Consumer.step] at waits
    cases queued : drain.pool.queued with
    | cons message rest =>
      rw [CirculatingPool.receive_of_cons queued] at waits
      cases message <;> cases waits
    | nil =>
      rw [CirculatingPool.receive_of_nil queued] at waits
      by_cases alone : drain.pool.senders = 0
      · simp [alone] at waits
      · cases stopping
        · exact ⟨⟨handled, rfl⟩, rfl, alone⟩
        · simp [alone] at waits
  | writing stopping handled buffer left =>
    cases left with
    | nil => cases waits
    | cons first rest =>
      simp only [Consumer.step] at waits
      split at waits <;> cases waits
  | starting | flushing _ | closing _ => cases waits

/-- The buffers that were free at first and those that have come back, the latter emptied, have gone
through the queue of free buffers in this order. -/
def Ledger (free : List β) (past : List (Act β × Answer β)) (pool : CirculatingPool β) : Prop :=
  lent past ++ pool.free = free ++ (returned past).map Clearable.clear

/-- What an act does to the free buffers. -/
theorem Ledger.after_act {free : List β} (ledger : Ledger free past conveyor.pool)
    (room : conveyor.returning? ≠ none → conveyor.pool.free.length < conveyor.pool.places)
    (act : Act β) :
    Ledger free (past ++ [(act, (perform act conveyor).1)]) (perform act conveyor).2.pool := by
  unfold Ledger at ledger ⊢
  have entries (entry : Act β × Answer β) : lent (past ++ [entry]) = lent past ++ lent [entry] := by
    simp [lent]
  rw [entries, returned_concat]
  cases act with
  | turn =>
    rcases pool_turn conveyor with ⟨buffer, returning, put⟩ | ⟨returning, queued, hears, kept⟩
    · have placed := room (by simp [returning])
      simp only [perform, put, CirculatingPool.putBack, if_pos placed, returning]
      calc lent past ++ [] ++ (conveyor.pool.free ++ [Clearable.clear buffer])
          = lent past ++ conveyor.pool.free ++ [Clearable.clear buffer] := by simp
        _ = free ++ (returned past ++ [buffer]).map Clearable.clear := by simp [ledger]
    · simpa [perform, kept, returning, lent, returned] using ledger
  | lend =>
    cases queue : conveyor.pool.free <;> rw [queue] at ledger <;>
      simpa [perform, CirculatingPool.lend, queue, lent, returned] using ledger
  | send | stop =>
    simp only [perform, dispatch, CirculatingPool.enqueue]
    split
    · simpa [lent, returned] using ledger
    · split <;> simpa [lent, returned] using ledger
  | join =>
    simp only [perform]
    split <;> simpa [lent, returned, CirculatingPool.dropSender] using ledger
  | leave => simpa [perform, lent, returned, CirculatingPool.dropSender] using ledger

end TraceRelay.Conveyor
