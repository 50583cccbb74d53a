import Mathlib.Data.List.Forall2
import TraceRelay.Proofs.Interleaving.Accesses

/-! Runs from which jobs are deleted that leave alone what the others see. -/

namespace TraceRelay

variable {σ κ φ ρ : Type}

theorem exists_of_rel_some {α β : Type} {related : α → β → Prop} {item : α} {other? : Option β}
    (rel : Option.Rel related (some item) other?) :
    ∃ other, other? = some other ∧ related item other := by
  cases rel with
  | some alike => exact ⟨_, rfl, alike⟩

theorem eq_none_of_rel_none {α β : Type} {related : α → β → Prop} {other? : Option β}
    (rel : Option.Rel related none other?) : other? = none := by
  cases rel
  rfl

/-- Items that are related are both there or both absent. -/
theorem absent_or_some_of_rel {α β : Type} {related : α → β → Prop} {item? : Option α}
    {other? : Option β} (rel : Option.Rel related item? other?) :
    (item? = none ∧ other? = none) ∨
      ∃ item other, item? = some item ∧ other? = some other ∧ related item other := by
  cases rel with
  | none => exact .inl ⟨rfl, rfl⟩
  | some alike => exact .inr ⟨_, _, rfl, rfl, alike⟩

theorem rel_imp {α β : Type} {related weaker : α → β → Prop} {item? : Option α} {other? : Option β}
    (rel : Option.Rel related item? other?)
    (imp : ∀ item other, related item other → weaker item other) :
    Option.Rel weaker item? other? := by
  cases rel with
  | none => exact .none
  | some alike => exact .some (imp _ _ alike)

/-- Two moves that end a job with the same result, or lead it to phases that are alike. -/
inductive Progress.Alike (phases : φ → φ → Prop) : Progress φ ρ → Progress φ ρ → Prop where
  | continues {phase other : φ} (alike : phases phase other) :
    Progress.Alike phases (.continues phase) (.continues other)
  | finished (result : ρ) : Progress.Alike phases (.finished result) (.finished result)

theorem Progress.Alike.of_eq {moved other : Progress φ ρ} (same : moved = other) :
    moved.Alike Eq other := by
  subst same
  cases moved with
  | continues phase => exact .continues rfl
  | finished result => exact .finished result

theorem Progress.Alike.map {ψ τ : Type} {phases : φ → φ → Prop} {images : ψ → ψ → Prop}
    {moved other : Progress φ ρ} (alike : moved.Alike phases other) (image : φ → ψ) (result : ρ → τ)
    (kept : ∀ phase own, phases phase own → images (image phase) (image own)) :
    (moved.map image result).Alike images (other.map image result) := by
  cases alike with
  | continues alike => exact .continues (kept _ _ alike)
  | finished value => exact .finished (result value)

/-- The job that the next turn of the strand is about. -/
def Strand.due? (strand : Strand κ φ ρ) : Option κ :=
  match strand.going with
  | some (job, _) => some job
  | none => strand.jobs.head?

/-- A job that is due is in progress or still to do. -/
theorem Strand.mem_of_due {strand : Strand κ φ ρ} {job : κ} (due : strand.due? = some job) :
    job ∈ (strand.going.map Prod.fst).toList ++ strand.jobs := by
  cases going : strand.going with
  | some engaged =>
    obtain rfl : engaged.1 = job := by simpa [due?, going] using due
    simp
  | none =>
    obtain ⟨jobs, next⟩ : ∃ jobs, strand.jobs = job :: jobs := by
      rwa [due?, going, List.head?_eq_some_iff] at due
    simp [next]

namespace Interleaving

/-- The next turn of the strand with the given number is about a job that is kept. -/
def isKept (keeps : κ → Bool) (interleaving : Interleaving σ κ φ ρ) (number : Nat) : Bool :=
  (interleaving.strands[number]?.bind Strand.due?).any keeps

/-- The schedule without the turns that are about jobs that are not kept. -/
def thinned (procedure : Procedure σ κ φ ρ) (keeps : κ → Bool) :
    Interleaving σ κ φ ρ → List Nat → List Nat
  | _, [] => []
  | interleaving, number :: rest =>
    (if interleaving.isKept keeps number then [number] else []) ++
      thinned procedure keeps (interleaving.advance procedure number) rest

theorem thinned_append (procedure : Procedure σ κ φ ρ) (keeps : κ → Bool)
    (interleaving : Interleaving σ κ φ ρ) (first later : List Nat) :
    interleaving.thinned procedure keeps (first ++ later) =
      interleaving.thinned procedure keeps first ++
        (interleaving.run procedure first).thinned procedure keeps later := by
  induction first generalizing interleaving with
  | nil => rfl
  | cons number rest ih =>
    simp only [List.cons_append, thinned, ih, List.append_assoc]
    rfl

/-- The access of a turn is made on behalf of the job that is due on its strand. -/
theorem due_of_access {procedure : Procedure σ κ φ ρ} {interleaving : Interleaving σ κ φ ρ}
    {number : Nat} {access : Access σ κ φ ρ}
    (heard : interleaving.access? procedure number = some access) :
    access.turn.strand = number ∧
      interleaving.strands[number]?.bind Strand.due? = some access.job := by
  rw [access?, Option.map_eq_some_iff] at heard
  obtain ⟨engagement, engaged, rfl⟩ := heard
  obtain ⟨strand, found, own⟩ := Option.bind_eq_some_iff.mp engaged
  obtain ⟨current, going, rfl⟩ := Option.map_eq_some_iff.mp own
  simp [found, Strand.due?, going]

/-- A strand whose turn it is makes the access that its job makes next. -/
theorem advance_of_going (procedure : Procedure σ κ φ ρ) {interleaving : Interleaving σ κ φ ρ}
    {number : Nat} {strand : Strand κ φ ρ} {job : κ} {phase : φ}
    (found : interleaving.strands[number]? = some strand)
    (going : strand.going = some (job, phase)) :
    let made := procedure.step job phase interleaving.shared
    let access : Access σ κ φ ρ :=
      { turn := ⟨number, strand.ended.length⟩, job, phase, before := interleaving.shared
        moved := made.1, after := made.2 }
    interleaving.access? procedure number = some access ∧
      interleaving.advance procedure number = interleaving.afterAccess strand access := by
  constructor
  · simp [access?, found, Strand.engagement?, going]
  · simp only [advance, found, Strand.advance_of_going procedure strand _ going, afterAccess]

/-- A strand whose turn it is, and which has no job in progress, starts the next one. -/
theorem advance_of_idle (procedure : Procedure σ κ φ ρ) {interleaving : Interleaving σ κ φ ρ}
    {number : Nat} {strand : Strand κ φ ρ} {job : κ} {jobs : List κ}
    (found : interleaving.strands[number]? = some strand) (idle : strand.going = none)
    (next : strand.jobs = job :: jobs) :
    interleaving.access? procedure number = none ∧
      interleaving.advance procedure number =
        interleaving.afterStart procedure number strand job jobs := by
  constructor
  · simp [access?, found, Strand.engagement?, idle]
  · simp [advance, found, Strand.advance, idle, next, afterStart]

end Interleaving

/-- What is needed to delete the jobs that are not kept: states and phases that the kept jobs cannot
tell apart stay so, and a job that is deleted leaves a state that is like the old one. -/
structure Thinning (procedure : Procedure σ κ φ ρ) where
  keeps : κ → Bool
  /-- The jobs for which the following holds. -/
  allows : κ → Prop
  states : σ → σ → Prop
  phases : φ → φ → Prop
  start : ∀ {job}, allows job → keeps job = true →
    phases (procedure.start job) (procedure.start job)
  kept : ∀ {job phase other state state'}, allows job → keeps job = true → phases phase other →
    states state state' →
    (procedure.step job phase state).1.Alike phases (procedure.step job other state').1 ∧
      states (procedure.step job phase state).2 (procedure.step job other state').2
  deleted : ∀ {job state state'} (phase : φ), allows job → keeps job = false →
    states state state' →
    states (procedure.step job phase state).2 state'

namespace Thinning

variable {procedure : Procedure σ κ φ ρ} (thinning : Thinning procedure)

/-- The second strand is the first one without the jobs that are not kept. -/
structure Strands (strand other : Strand κ φ ρ) : Prop where
  jobs : other.jobs = strand.jobs.filter thinning.keeps
  ended : other.ended = strand.ended.filter fun entry => thinning.keeps entry.1
  going : Option.Rel (fun engaged engaged' =>
      engaged.1 = engaged'.1 ∧ thinning.phases engaged.2 engaged'.2)
    (strand.going.filter fun engaged => thinning.keeps engaged.1) other.going

/-- The second run has come as far as the first one without the jobs that are not kept. -/
structure Runs (full alone : Interleaving σ κ φ ρ) : Prop where
  states : thinning.states full.shared alone.shared
  strands : ∀ number : Nat,
    Option.Rel thinning.Strands full.strands[number]? alone.strands[number]?

/-- Two accesses on behalf of the same job that find it in phases that are alike, and lead it to
phases that are alike. -/
structure Accesses (access other : Access σ κ φ ρ) : Prop where
  strand : access.turn.strand = other.turn.strand
  job : access.job = other.job
  phases : thinning.phases access.phase other.phase
  moved : access.moved.Alike thinning.phases other.moved

variable {thinning}

/-- The strands of one number may be replaced by two of which the second one is the first one
without the jobs that are not kept. -/
theorem Runs.set {full alone : Interleaving σ κ φ ρ} {shared shared' : σ} {number : Nat}
    {strand other : Strand κ φ ρ} (runs : thinning.Runs full alone)
    (states : thinning.states shared shared') (strands : thinning.Strands strand other) :
    thinning.Runs { shared, strands := full.strands.set number strand }
      { shared := shared', strands := alone.strands.set number other } := by
  refine ⟨states, fun place => ?_⟩
  have there := runs.strands place
  by_cases same : number = place
  · subst same
    simp only [List.getElem?_set_self']
    rcases absent_or_some_of_rel there with ⟨absent, absentToo⟩ | ⟨old, own, found, foundToo, -⟩
    · rw [absent, absentToo]
      exact .none
    · rw [found, foundToo]
      exact .some strands
  · simp only [List.getElem?_set_ne same]
    exact there

/-- A strand of the first run may be replaced by another one that is the same without the jobs that
are not kept. -/
theorem Runs.set_left {full alone : Interleaving σ κ φ ρ} {shared : σ} {number : Nat}
    {old strand : Strand κ φ ρ} (runs : thinning.Runs full alone)
    (found : full.strands[number]? = some old) (states : thinning.states shared alone.shared)
    (strands : ∀ other, thinning.Strands old other → thinning.Strands strand other) :
    thinning.Runs { shared, strands := full.strands.set number strand } alone := by
  refine ⟨states, fun place => ?_⟩
  have there := runs.strands place
  by_cases same : number = place
  · subst same
    rw [found] at there
    obtain ⟨old', found', before⟩ := exists_of_rel_some there
    simp only [List.getElem?_set_self', found, found']
    exact .some (strands old' before)
  · simp only [List.getElem?_set_ne same]
    exact there

/-- The jobs that are kept have the same results. -/
theorem Runs.results {full alone : Interleaving σ κ φ ρ} (runs : thinning.Runs full alone) :
    alone.strands.map Strand.results = full.strands.map fun strand =>
      strand.results.filter fun entry => thinning.keeps entry.1 := by
  apply List.ext_getElem?
  intro number
  rw [List.getElem?_map, List.getElem?_map]
  rcases absent_or_some_of_rel (runs.strands number) with ⟨absent, absentToo⟩ |
    ⟨strand, other, found, foundToo, strands⟩
  · rw [absent, absentToo]
    rfl
  · rw [found, foundToo]
    simp [Strand.results, strands.ended]

/-- Moves that are alike do the same to both strands. -/
theorem Strands.after {strand other : Strand κ φ ρ} {job : κ} {moved moved' : Progress φ ρ}
    (strands : thinning.Strands strand other) (kept : thinning.keeps job = true)
    (alike : moved.Alike thinning.phases moved') :
    thinning.Strands (strand.after job moved) (other.after job moved') := by
  cases alike with
  | continues phases =>
    refine ⟨strands.jobs, strands.ended, ?_⟩
    simp only [Strand.after, Option.filter_some, kept, if_true]
    exact .some ⟨rfl, phases⟩
  | finished result =>
    refine ⟨strands.jobs, ?_, .none⟩
    simp [Strand.after, strands.ended, kept]

/-- A job that is deleted moves in the first run only. -/
theorem Strands.after_deleted {strand other : Strand κ φ ρ} {job : κ} {phase : φ}
    (going : strand.going = some (job, phase)) (deleted : thinning.keeps job = false)
    (moved : Progress φ ρ) (strands : thinning.Strands strand other) :
    thinning.Strands (strand.after job moved) other := by
  obtain ⟨jobs, ended, engaged⟩ := strands
  rw [going] at engaged
  cases moved with
  | continues next =>
    exact ⟨jobs, ended, by simpa [Strand.after, Option.filter, deleted] using engaged⟩
  | finished result =>
    exact ⟨jobs, by simpa [Strand.after, deleted] using ended,
      by simpa [Strand.after, Option.filter, deleted] using engaged⟩

/-- A job that is deleted starts in the first run only. -/
theorem Strands.start_deleted {strand other : Strand κ φ ρ} {job : κ} {jobs : List κ} (phase : φ)
    (idle : strand.going = none) (next : strand.jobs = job :: jobs)
    (deleted : thinning.keeps job = false) (strands : thinning.Strands strand other) :
    thinning.Strands { strand with going := some (job, phase), jobs } other := by
  obtain ⟨listed, ended, engaged⟩ := strands
  rw [idle] at engaged
  exact ⟨by simpa [next, deleted] using listed, ended,
    by simpa [Option.filter, deleted] using engaged⟩

/-- The first run has a turn about a job that is not kept, and the second run waits. -/
theorem Runs.skip {full alone : Interleaving σ κ φ ρ} (runs : thinning.Runs full alone)
    {number : Nat} (skipped : full.isKept thinning.keeps number = false)
    (allowed : ∀ strand job, full.strands[number]? = some strand → strand.due? = some job →
      thinning.allows job) :
    thinning.Runs (full.advance procedure number) alone ∧
      ∀ access ∈ full.access? procedure number, thinning.keeps access.job = false := by
  rcases Interleaving.advance_cases procedure full number with
    ⟨same, silent⟩ | ⟨strand, job, jobs, found, idle, next, started, silent⟩ |
    ⟨strand, access, makes, moved, heard⟩
  · rw [same, silent]
    exact ⟨runs, fun _ member => by cases member⟩
  · have deleted : thinning.keeps job = false := by
      simpa [Interleaving.isKept, found, Strand.due?, idle, next] using skipped
    rw [started, silent]
    refine ⟨runs.set_left found runs.states ?_, fun _ member => by cases member⟩
    exact fun other strands => strands.start_deleted _ idle next deleted
  · obtain rfl : access.turn.strand = number := (Interleaving.due_of_access heard).1
    have due : strand.due? = some access.job := by simp [Strand.due?, makes.going]
    have deleted : thinning.keeps access.job = false := by
      simpa [Interleaving.isKept, makes.found, due] using skipped
    have states := thinning.deleted access.phase
      (allowed strand access.job makes.found due) deleted runs.states
    rw [← makes.before, makes.made] at states
    rw [moved, heard]
    refine ⟨runs.set_left makes.found states ?_, ?_⟩
    · exact fun other strands => strands.after_deleted makes.going deleted access.moved
    · rintro other ⟨rfl⟩
      exact deleted

/-- Both runs have a turn about the same job. -/
theorem Runs.follow {full alone : Interleaving σ κ φ ρ} (runs : thinning.Runs full alone)
    {number : Nat} (followed : full.isKept thinning.keeps number = true)
    (allowed : ∀ strand job, full.strands[number]? = some strand → strand.due? = some job →
      thinning.allows job) :
    thinning.Runs (full.advance procedure number) (alone.advance procedure number) ∧
      Option.Rel thinning.Accesses (full.access? procedure number)
        (alone.access? procedure number) := by
  obtain ⟨job, isDue, kept⟩ := (Option.any_eq_true _ _).mp followed
  obtain ⟨strand, found, due⟩ := Option.bind_eq_some_iff.mp isDue
  have allowed := allowed strand job found due
  have there := runs.strands number
  rw [found] at there
  obtain ⟨other, foundToo, strands⟩ := exists_of_rel_some there
  have engaged := strands.going
  -- either the job is in progress on both strands, or both of them start it with this turn
  cases going : strand.going with
  | some current =>
    obtain ⟨own, phase⟩ := current
    obtain rfl : own = job := by simpa [Strand.due?, going] using due
    rw [going, Option.filter_some, if_pos kept] at engaged
    obtain ⟨⟨job, phase'⟩, goingToo, rfl, phases⟩ := exists_of_rel_some engaged
    obtain ⟨heard, moved⟩ := Interleaving.advance_of_going procedure found going
    obtain ⟨heardToo, movedToo⟩ := Interleaving.advance_of_going procedure foundToo goingToo
    obtain ⟨alike, states⟩ := thinning.kept allowed kept phases runs.states
    rw [heard, moved, heardToo, movedToo]
    exact ⟨runs.set states (strands.after kept alike), .some ⟨rfl, rfl, phases, alike⟩⟩
  | none =>
    rw [going, Option.filter_none] at engaged
    obtain ⟨jobs, next⟩ : ∃ jobs, strand.jobs = job :: jobs := by
      rw [Strand.due?, going, List.head?_eq_some_iff] at due
      exact due
    have nextToo : other.jobs = job :: jobs.filter thinning.keeps := by
      rw [strands.jobs, next, List.filter_cons_of_pos kept]
    obtain ⟨silent, started⟩ := Interleaving.advance_of_idle procedure found going next
    obtain ⟨silentToo, startedToo⟩ := Interleaving.advance_of_idle procedure foundToo
      (eq_none_of_rel_none engaged) nextToo
    rw [silent, started, silentToo, startedToo]
    refine ⟨runs.set runs.states ⟨rfl, strands.ended, ?_⟩, .none⟩
    rw [Option.filter_some, if_pos kept]
    exact .some ⟨rfl, thinning.start allowed kept⟩

/-- One turn of the first run, and the turn of the second run that is left of it. -/
theorem Runs.turn {full alone : Interleaving σ κ φ ρ} (runs : thinning.Runs full alone)
    (number : Nat) (allowed : ∀ strand job, full.strands[number]? = some strand →
      strand.due? = some job → thinning.allows job) :
    let turns := full.thinned procedure thinning.keeps [number]
    thinning.Runs (full.run procedure [number]) (alone.run procedure turns) ∧
      List.Forall₂ thinning.Accesses
        ((full.accesses procedure [number]).filter fun access => thinning.keeps access.job)
        (alone.accesses procedure turns) := by
  simp only [Interleaving.thinned, List.append_nil, Interleaving.run_singleton,
    Interleaving.accesses_singleton]
  cases kept : full.isKept thinning.keeps number with
  | false =>
    obtain ⟨stays, deleted⟩ := runs.skip kept allowed
    refine ⟨stays, ?_⟩
    have none_left : (full.access? procedure number).toList.filter
        (fun access => thinning.keeps access.job) = [] := by
      apply List.filter_eq_nil_iff.mpr
      intro access member
      rw [deleted access (Option.mem_toList.mp member)]
      exact Bool.false_ne_true
    rw [none_left]
    exact .nil
  | true =>
    obtain ⟨runs, accesses⟩ := runs.follow kept allowed
    refine ⟨runs, ?_⟩
    simp only [if_true, Interleaving.accesses_singleton]
    rcases absent_or_some_of_rel accesses with ⟨silent, silentToo⟩ |
      ⟨access, other, heard, heardToo, alike⟩
    · rw [silent, silentToo]
      exact .nil
    · have keeps : thinning.keeps access.job = true := by
        rwa [Interleaving.isKept, (Interleaving.due_of_access heard).2, Option.any_some] at kept
      rw [heard, heardToo]
      simpa [keeps] using alike

/-- The strands with the jobs that are kept are those with all jobs, without the others. -/
theorem runs_fresh {shared shared' : σ} (states : thinning.states shared shared')
    (work : List (List κ)) :
    thinning.Runs (Interleaving.fresh shared work)
      (Interleaving.fresh shared' (work.map fun jobs => jobs.filter thinning.keeps)) := by
  refine ⟨states, fun number => ?_⟩
  simp only [Interleaving.fresh, List.getElem?_map]
  cases work[number]? with
  | none => exact .none
  | some jobs => exact .some ⟨rfl, rfl, .none⟩

/-- The run without the deleted jobs, in the schedule without their turns, makes just the accesses
that the run with all jobs makes on behalf of the jobs that are kept. -/
theorem runs_thinned {shared shared' : σ} (states : thinning.states shared shared')
    (work : List (List κ)) (allowed : ∀ jobs ∈ work, ∀ job ∈ jobs, thinning.allows job)
    (schedule : List Nat) :
    let full := Interleaving.fresh shared work
    let alone := Interleaving.fresh shared' (work.map fun jobs => jobs.filter thinning.keeps)
    let turns := full.thinned procedure thinning.keeps schedule
    thinning.Runs (full.run procedure schedule) (alone.run procedure turns) ∧
      List.Forall₂ thinning.Accesses
        ((full.accesses procedure schedule).filter fun access => thinning.keeps access.job)
        (alone.accesses procedure turns) := by
  intro full alone turns
  induction schedule using List.reverseRecOn with
  | nil => exact ⟨runs_fresh states work, .nil⟩
  | append_singleton schedule number ih =>
    obtain ⟨runs, accesses⟩ := ih
    have turn := runs.turn number fun strand job found due => by
      have listed := Interleaving.work_of_strand procedure shared work schedule found
      exact allowed _ (List.mem_of_getElem? listed) job
        (List.mem_append_right _ (strand.mem_of_due due))
    subst turns
    rw [Interleaving.thinned_append, Interleaving.run_append, Interleaving.run_append,
      Interleaving.accesses_append, Interleaving.accesses_append, List.filter_append]
    exact ⟨turn.1, List.rel_append accesses turn.2⟩

end Thinning

end TraceRelay
