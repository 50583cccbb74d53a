import Mathlib.Algebra.GroupWithZero.Nat
import Mathlib.Data.List.Induction
import TraceRelay.Interleaving

/-! The accesses that a run makes, in order, and the jobs that it has in progress. -/

namespace TraceRelay

/-- A job has its turn on a strand after the strand has ended `number` other jobs. -/
structure Turn where
  strand : Nat
  number : Nat
deriving DecidableEq, Repr

/-- One access of the shared state on behalf of a job: what it found, and what it led to. -/
structure Access (σ κ φ ρ : Type) where
  turn : Turn
  job : κ
  phase : φ
  before : σ
  moved : Progress φ ρ
  after : σ
deriving Repr

/-- A job in progress, in the phase that it has reached. -/
structure Engagement (κ φ : Type) where
  turn : Turn
  job : κ
  phase : φ
deriving Repr

/-- The job on whose behalf an access is made, in the phase in which the access finds it. -/
def Access.engagement {σ κ φ ρ : Type} (access : Access σ κ φ ρ) : Engagement κ φ :=
  { turn := access.turn, job := access.job, phase := access.phase }

/-- The job of an access in the phase to which the access has led it, unless it has ended. -/
def Access.next? {σ κ φ ρ : Type} (access : Access σ κ φ ρ) : Option (Engagement κ φ) :=
  match access.moved with
  | .continues phase => some { turn := access.turn, job := access.job, phase }
  | .finished _ => none

/-- The job of an access with its result, if the access has ended it. -/
def Access.result? {σ κ φ ρ : Type} (access : Access σ κ φ ρ) : Option (κ × ρ) :=
  match access.moved with
  | .continues _ => none
  | .finished result => some (access.job, result)

theorem Access.turn_next {σ κ φ ρ : Type} {access : Access σ κ φ ρ} {next : Engagement κ φ}
    (goesOn : access.next? = some next) : next.turn = access.turn := by
  cases moved : access.moved with
  | finished result => simp [next?, moved] at goesOn
  | continues phase =>
    simp only [next?, moved, Option.some.injEq] at goesOn
    rw [← goesOn]

/-- The strand after an access that `moved` the job that it had in progress. -/
def Strand.after {κ φ ρ : Type} (strand : Strand κ φ ρ) (job : κ) : Progress φ ρ → Strand κ φ ρ
  | .continues phase => { strand with going := some (job, phase) }
  | .finished result => { strand with going := none, ended := (job, result) :: strand.ended }

theorem Strand.advance_of_going {σ κ φ ρ : Type} (procedure : Procedure σ κ φ ρ)
    (strand : Strand κ φ ρ) (shared : σ) {job : κ} {phase : φ}
    (going : strand.going = some (job, phase)) :
    strand.advance procedure shared =
      (strand.after job (procedure.step job phase shared).1,
        (procedure.step job phase shared).2) := by
  simp only [advance, going]
  split <;> rename_i made <;> rw [made] <;> rfl

/-- An access adds the result of its job to those of its strand, if it has ended the job. -/
theorem Strand.results_after {σ κ φ ρ : Type} (strand : Strand κ φ ρ) (access : Access σ κ φ ρ) :
    (strand.after access.job access.moved).results =
      strand.results ++ access.result?.toList := by
  cases moved : access.moved <;> simp [Strand.after, results, Access.result?, moved]

/-- The job that the strand with the given number has in progress. -/
def Strand.engagement? {κ φ ρ : Type} (number : Nat) (strand : Strand κ φ ρ) :
    Option (Engagement κ φ) :=
  strand.going.map fun (job, phase) => { turn := ⟨number, strand.ended.length⟩, job, phase }

theorem filterMap_singleton {α β : Type} (find : α → Option β) (item : α) :
    [item].filterMap find = (find item).toList := by
  cases found : find item <;> simp [found]

theorem filterMap_toList {α β : Type} (find : α → Option β) (item? : Option α) :
    item?.toList.filterMap find = (item?.bind find).toList := by
  cases item? with
  | none => rfl
  | some item => exact filterMap_singleton find item

theorem eraseDups_concat {α : Type} [DecidableEq α] (items : List α) (item : α) :
    (items ++ [item]).eraseDups =
      if item ∈ items then items.eraseDups else items.eraseDups ++ [item] := by
  rw [List.eraseDups_append]
  by_cases known : item ∈ items <;> simp [List.removeAll, known, List.eraseDups_cons]

theorem nodup_eraseDups {α : Type} [DecidableEq α] (items : List α) : items.eraseDups.Nodup := by
  induction items using List.reverseRecOn with
  | nil => exact List.nodup_nil
  | append_singleton items item ih =>
    rw [eraseDups_concat]
    split
    · exact ih
    · rename_i new
      exact (List.perm_append_singleton item _).nodup_iff.mpr
        (List.nodup_cons.mpr ⟨mt List.mem_eraseDups.mp new, ih⟩)

/-- If all that is found in a list is found once, what is found at one place is found nowhere
else. -/
theorem filterMap_once {α β : Type} {find : α → Option β} {earlier later : List α} {item : α}
    {value : β} (once : ((earlier ++ item :: later).filterMap find).Nodup)
    (own : find item = some value) : ∀ other ∈ earlier ++ later, find other ≠ some value := by
  intro other member found
  have moved : (value :: (earlier ++ later).filterMap find).Perm
      ((earlier ++ item :: later).filterMap find) := by
    rw [List.filterMap_append, List.filterMap_append, List.filterMap_cons_some own]
    exact List.perm_middle.symm
  have distinct := moved.nodup_iff.mpr once
  rw [List.nodup_cons] at distinct
  exact distinct.1 (List.mem_filterMap.mpr ⟨other, member, found⟩)

/-- If all that is found in a list is found once, it is found at one place. -/
theorem filterMap_unique {α β : Type} {find : α → Option β} {items : List α} {item other : α}
    {value : β} (once : (items.filterMap find).Nodup) (member : item ∈ items)
    (memberOther : other ∈ items) (own : find item = some value)
    (found : find other = some value) : other = item := by
  obtain ⟨earlier, later, rfl⟩ := List.append_of_mem member
  have apart := filterMap_once once own other
  rw [List.mem_append, List.mem_cons] at memberOther
  rcases memberOther with before | same | behind
  · exact absurd found (apart (List.mem_append_left _ before))
  · exact same
  · exact absurd found (apart (List.mem_append_right _ behind))

/-- The first access has been made before the second one. -/
def Precedes {σ κ φ ρ : Type} (past : List (Access σ κ φ ρ)) (first second : Access σ κ φ ρ) :
    Prop :=
  ∃ earlier later, past = earlier ++ second :: later ∧ first ∈ earlier

/-- What relates every access to those that it precedes relates all of them in order. -/
theorem pairwise_of_precedes {σ κ φ ρ : Type} {past : List (Access σ κ φ ρ)}
    {related : Access σ κ φ ρ → Access σ κ φ ρ → Prop}
    (ordered : ∀ first second, Precedes past first second → related first second) :
    past.Pairwise related := by
  apply List.pairwise_iff_forall_sublist.mpr
  intro first second both
  obtain ⟨start, rest, rfl, inside, behind⟩ := List.cons_sublist_iff.mp both
  obtain ⟨between, later, rfl⟩ := List.append_of_mem (List.singleton_sublist.mp behind)
  exact ordered first second
    ⟨start ++ between, later, by simp, List.mem_append_left _ inside⟩

namespace Interleaving

variable {σ κ φ ρ : Type}

/-- Strands with the given jobs, none of which has begun. -/
def fresh (shared : σ) (work : List (List κ)) : Interleaving σ κ φ ρ :=
  { shared, strands := work.map fun jobs => { jobs } }

/-- The jobs in progress, in the order of their strands. -/
def underway (interleaving : Interleaving σ κ φ ρ) : List (Engagement κ φ) :=
  interleaving.strands.zipIdx.filterMap fun (strand, number) => strand.engagement? number

/-- The access that a strand makes if it is scheduled next. A strand that starts a job or rests
makes none. -/
def access? (procedure : Procedure σ κ φ ρ) (interleaving : Interleaving σ κ φ ρ) (number : Nat) :
    Option (Access σ κ φ ρ) :=
  (interleaving.strands[number]?.bind (Strand.engagement? number)).map fun engagement =>
    let made := procedure.step engagement.job engagement.phase interleaving.shared
    { turn := engagement.turn, job := engagement.job, phase := engagement.phase
      before := interleaving.shared, moved := made.1, after := made.2 }

/-- The accesses that a run makes, in order. -/
def accesses (procedure : Procedure σ κ φ ρ) :
    Interleaving σ κ φ ρ → List Nat → List (Access σ κ φ ρ)
  | _, [] => []
  | interleaving, number :: rest =>
    (interleaving.access? procedure number).toList ++
      accesses procedure (interleaving.advance procedure number) rest

/-- The strand with `strand.ended.length` jobs behind it makes the access. -/
structure Makes (procedure : Procedure σ κ φ ρ) (interleaving : Interleaving σ κ φ ρ)
    (strand : Strand κ φ ρ) (access : Access σ κ φ ρ) : Prop where
  found : interleaving.strands[access.turn.strand]? = some strand
  going : strand.going = some (access.job, access.phase)
  number : access.turn.number = strand.ended.length
  before : access.before = interleaving.shared
  made : procedure.step access.job access.phase access.before = (access.moved, access.after)

/-- What an access leaves. -/
def afterAccess (interleaving : Interleaving σ κ φ ρ) (strand : Strand κ φ ρ)
    (access : Access σ κ φ ρ) : Interleaving σ κ φ ρ :=
  { shared := access.after
    strands := interleaving.strands.set access.turn.strand (strand.after access.job access.moved) }

/-- What the start of a job leaves. -/
def afterStart (procedure : Procedure σ κ φ ρ) (interleaving : Interleaving σ κ φ ρ)
    (number : Nat) (strand : Strand κ φ ρ) (job : κ) (jobs : List κ) : Interleaving σ κ φ ρ :=
  { interleaving with
    strands := interleaving.strands.set number
      { strand with going := some (job, procedure.start job), jobs } }

theorem run_append (procedure : Procedure σ κ φ ρ) (interleaving : Interleaving σ κ φ ρ)
    (first later : List Nat) :
    interleaving.run procedure (first ++ later) =
      (interleaving.run procedure first).run procedure later := by
  simp [run]

theorem accesses_append (procedure : Procedure σ κ φ ρ) (interleaving : Interleaving σ κ φ ρ)
    (first later : List Nat) :
    interleaving.accesses procedure (first ++ later) =
      interleaving.accesses procedure first ++
        (interleaving.run procedure first).accesses procedure later := by
  induction first generalizing interleaving with
  | nil => rfl
  | cons number rest ih =>
    simp only [List.cons_append, accesses, ih, List.append_assoc]
    rfl

theorem run_singleton (procedure : Procedure σ κ φ ρ) (interleaving : Interleaving σ κ φ ρ)
    (number : Nat) :
    interleaving.run procedure [number] = interleaving.advance procedure number := rfl

theorem accesses_singleton (procedure : Procedure σ κ φ ρ) (interleaving : Interleaving σ κ φ ρ)
    (number : Nat) :
    interleaving.accesses procedure [number] =
      (interleaving.access? procedure number).toList := by
  simp [accesses]

/-- One turn of a strand changes nothing, starts a job, or makes an access. -/
theorem advance_cases (procedure : Procedure σ κ φ ρ) (interleaving : Interleaving σ κ φ ρ)
    (number : Nat) :
    (interleaving.advance procedure number = interleaving ∧
      interleaving.access? procedure number = none) ∨
    (∃ strand job jobs, interleaving.strands[number]? = some strand ∧ strand.going = none ∧
      strand.jobs = job :: jobs ∧
      interleaving.advance procedure number =
        interleaving.afterStart procedure number strand job jobs ∧
      interleaving.access? procedure number = none) ∨
    ∃ strand access, interleaving.Makes procedure strand access ∧
      interleaving.advance procedure number = interleaving.afterAccess strand access ∧
      interleaving.access? procedure number = some access := by
  unfold advance access?
  cases found : interleaving.strands[number]? with
  | none => exact .inl ⟨rfl, rfl⟩
  | some strand =>
    obtain ⟨jobs, going, ended⟩ := strand
    cases going with
    | some engaged =>
      obtain ⟨job, phase⟩ := engaged
      refine .inr (.inr ⟨_, _, ⟨found, rfl, rfl, rfl, rfl⟩, ?_, rfl⟩)
      have stepped := Strand.advance_of_going procedure
        ⟨jobs, some (job, phase), ended⟩ interleaving.shared rfl
      simp only [stepped, afterAccess]
    | none =>
      cases jobs with
      | nil =>
        refine .inl ⟨?_, rfl⟩
        have kept : interleaving.strands.set number ⟨[], none, ended⟩ = interleaving.strands := by
          obtain ⟨inside, same⟩ := List.getElem?_eq_some_iff.mp found
          rw [← same, List.set_getElem_self]
        simp only [Strand.advance, kept]
      | cons job jobs => exact .inr (.inl ⟨_, job, jobs, rfl, rfl, rfl, rfl, rfl⟩)

/-- What holds at first, and is kept within runs of a kind by the start of every job and by every
access, holds of a run of this kind and the accesses that it has made. -/
theorem run_induction_within
    {within motive : Interleaving σ κ φ ρ → List (Access σ κ φ ρ) → Prop}
    (procedure : Procedure σ κ φ ρ) (initial : Interleaving σ κ φ ρ) (atFirst : motive initial [])
    (starts : ∀ interleaving past number strand job jobs, motive interleaving past →
      interleaving.strands[number]? = some strand → strand.going = none →
      strand.jobs = job :: jobs →
      motive (interleaving.afterStart procedure number strand job jobs) past)
    (accessed : ∀ interleaving past strand access, within interleaving past →
      within (interleaving.afterAccess strand access) (past ++ [access]) →
      motive interleaving past → interleaving.Makes procedure strand access →
      motive (interleaving.afterAccess strand access) (past ++ [access]))
    (schedule : List Nat) (always : ∀ earlier, earlier <+: schedule →
      within (initial.run procedure earlier) (initial.accesses procedure earlier)) :
    motive (initial.run procedure schedule) (initial.accesses procedure schedule) := by
  induction schedule using List.reverseRecOn with
  | nil => exact atFirst
  | append_singleton schedule number ih =>
    have before := always schedule (List.prefix_append _ _)
    have after := always (schedule ++ [number]) (List.prefix_refl _)
    have holds := ih fun earlier inside => always earlier (inside.trans (List.prefix_append _ _))
    rw [run_append, accesses_append, run_singleton, accesses_singleton] at after ⊢
    rcases advance_cases procedure (initial.run procedure schedule) number with
      ⟨same, silent⟩ | ⟨strand, job, jobs, found, idle, next, started, silent⟩ |
      ⟨strand, access, makes, moved, heard⟩
    · rw [silent, same]
      simpa using holds
    · rw [silent, started]
      simpa using starts _ _ number strand job jobs holds found idle next
    · rw [heard, moved] at after ⊢
      exact accessed _ _ strand access before after holds makes

/-- What holds at first, and is kept by the start of every job and by every access, holds of every
run and the accesses that it has made. -/
theorem run_induction {motive : Interleaving σ κ φ ρ → List (Access σ κ φ ρ) → Prop}
    (procedure : Procedure σ κ φ ρ) (initial : Interleaving σ κ φ ρ) (atFirst : motive initial [])
    (starts : ∀ interleaving past number strand job jobs, motive interleaving past →
      interleaving.strands[number]? = some strand → strand.going = none →
      strand.jobs = job :: jobs →
      motive (interleaving.afterStart procedure number strand job jobs) past)
    (accessed : ∀ interleaving past strand access, motive interleaving past →
      interleaving.Makes procedure strand access →
      motive (interleaving.afterAccess strand access) (past ++ [access]))
    (schedule : List Nat) :
    motive (initial.run procedure schedule) (initial.accesses procedure schedule) :=
  run_induction_within procedure initial atFirst starts
    (fun _ _ strand access (_ : True) (_ : True) holds => accessed _ _ strand access holds)
    schedule fun _ _ => trivial

/-- A run with fewer turns has made the first ones of the accesses. -/
theorem accesses_prefix (procedure : Procedure σ κ φ ρ) (initial : Interleaving σ κ φ ρ)
    {earlier schedule : List Nat} (inside : earlier <+: schedule) :
    initial.accesses procedure earlier <+: initial.accesses procedure schedule := by
  obtain ⟨later, rfl⟩ := inside
  rw [accesses_append]
  exact List.prefix_append _ _

/-- Every access of a run is made in the state to which the accesses before it have led. -/
theorem exists_makes (procedure : Procedure σ κ φ ρ) (initial : Interleaving σ κ φ ρ)
    (schedule : List Nat) (earlier later : List (Access σ κ φ ρ)) (access : Access σ κ φ ρ)
    (same : initial.accesses procedure schedule = earlier ++ access :: later) :
    ∃ first number rest strand, schedule = first ++ number :: rest ∧
      initial.accesses procedure first = earlier ∧
      (initial.run procedure first).Makes procedure strand access ∧
      initial.run procedure (first ++ [number]) =
        (initial.run procedure first).afterAccess strand access ∧
      (initial.run procedure (first ++ [number])).accesses procedure rest = later := by
  induction schedule generalizing initial earlier with
  | nil => simp [accesses] at same
  | cons number rest ih =>
    rw [accesses] at same
    cases heard : initial.access? procedure number with
    | none =>
      have split : (initial.advance procedure number).accesses procedure rest =
          earlier ++ access :: later := by
        simpa [heard] using same
      obtain ⟨first, next, behind, strand, rfl, before, facts⟩ := ih _ _ split
      refine ⟨number :: first, next, behind, strand, rfl, ?_, facts⟩
      rw [accesses, heard, before]
      rfl
    | some made =>
      rw [heard] at same
      cases earlier with
      | cons head tail =>
        obtain ⟨rfl, split⟩ := List.cons_eq_cons.mp same
        obtain ⟨first, next, behind, strand, rfl, before, facts⟩ := ih _ _ split
        refine ⟨number :: first, next, behind, strand, rfl, ?_, facts⟩
        rw [accesses, heard, before]
        rfl
      | nil =>
        obtain ⟨rfl, split⟩ := List.cons_eq_cons.mp same
        rcases advance_cases procedure initial number with
          ⟨-, silent⟩ | ⟨_, _, _, _, _, _, _, silent⟩ | ⟨strand, own, makes, moved, said⟩
        · rw [heard] at silent
          cases silent
        · rw [heard] at silent
          cases silent
        · rw [heard] at said
          cases said
          exact ⟨[], number, rest, strand, rfl, rfl, makes, moved, split⟩

/-- Every access of a run is what the procedure makes of the phase that it finds. -/
theorem made_of_accesses (procedure : Procedure σ κ φ ρ) (initial : Interleaving σ κ φ ρ)
    (schedule : List Nat) {earlier later : List (Access σ κ φ ρ)} {access : Access σ κ φ ρ}
    (same : initial.accesses procedure schedule = earlier ++ access :: later) :
    procedure.step access.job access.phase access.before = (access.moved, access.after) := by
  obtain ⟨_, _, _, _, -, -, makes, -, -⟩ :=
    exists_makes procedure initial schedule earlier later access same
  exact makes.made

/-- Every job that has ended has made an access that ended it. -/
theorem exists_access_of_mem_results (procedure : Procedure σ κ φ ρ) (shared : σ)
    (work : List (List κ)) (schedule : List Nat) {job : κ} {result : ρ}
    (member : (job, result) ∈ ((fresh shared work).run procedure schedule).results) :
    ∃ access ∈ (fresh shared work).accesses procedure schedule,
      access.job = job ∧ access.moved = .finished result := by
  have kept := run_induction (motive := fun interleaving past =>
    ∀ strand ∈ interleaving.strands, ∀ entry ∈ strand.ended,
      ∃ access ∈ past, access.job = entry.1 ∧ access.moved = .finished entry.2)
    procedure (fresh shared work) ?_ ?_ ?_ schedule
  · obtain ⟨strand, inside, ended⟩ := List.mem_flatMap.mp member
    exact kept strand inside (job, result) (List.mem_reverse.mp ended)
  · intro strand inside entry ended
    obtain ⟨jobs, -, rfl⟩ := List.mem_map.mp inside
    cases ended
  · intro interleaving past number strand job jobs ends found idle next own inside entry ended
    rcases List.mem_or_eq_of_mem_set inside with old | rfl
    · exact ends own old entry ended
    · exact ends strand (List.mem_of_getElem? found) entry ended
  · intro interleaving past strand access ends makes own inside entry ended
    have before : (∃ strand ∈ interleaving.strands, entry ∈ strand.ended) →
        ∃ other ∈ past ++ [access], other.job = entry.1 ∧ other.moved = .finished entry.2 := by
      rintro ⟨other, member, endedBefore⟩
      obtain ⟨made, heard, facts⟩ := ends other member entry endedBefore
      exact ⟨made, List.mem_append_left _ heard, facts⟩
    rcases List.mem_or_eq_of_mem_set inside with old | rfl
    · exact before ⟨own, old, ended⟩
    · have found := List.mem_of_getElem? makes.found
      cases moved : access.moved with
      | continues phase =>
        simp only [Strand.after, moved] at ended
        exact before ⟨strand, found, ended⟩
      | finished result =>
        simp only [Strand.after, moved, List.mem_cons] at ended
        rcases ended with rfl | ended
        · exact ⟨access, by simp, rfl, moved⟩
        · exact before ⟨strand, found, ended⟩

/-- The jobs of a strand that have ended, the one in progress and those still to do are, in this
order, the jobs that the strand had at first. -/
theorem work_of_strand (procedure : Procedure σ κ φ ρ) (shared : σ) (work : List (List κ))
    (schedule : List Nat) {number : Nat} {strand : Strand κ φ ρ}
    (found : ((fresh shared work).run procedure schedule).strands[number]? = some strand) :
    work[number]? = some (strand.results.map Prod.fst ++
      ((strand.going.map Prod.fst).toList ++ strand.jobs)) := by
  refine run_induction (motive := fun interleaving _ => ∀ number strand,
    interleaving.strands[number]? = some strand → work[number]? = some
      (strand.results.map Prod.fst ++ ((strand.going.map Prod.fst).toList ++ strand.jobs)))
    procedure (fresh shared work) ?_ ?_ ?_ schedule number strand found
  · intro number strand found
    rw [fresh, List.getElem?_map, Option.map_eq_some_iff] at found
    obtain ⟨jobs, listed, rfl⟩ := found
    exact listed
  · intro interleaving past turned strand job jobs kept found idle next number own foundOwn
    by_cases same : turned = number
    · subst same
      have before := kept turned strand found
      rw [afterStart, List.getElem?_set_self', found] at foundOwn
      cases foundOwn
      simpa [idle, next, Strand.results] using before
    · rw [afterStart, List.getElem?_set_ne same] at foundOwn
      exact kept number own foundOwn
  · intro interleaving past strand access kept makes number own foundOwn
    by_cases same : access.turn.strand = number
    · subst same
      have before := kept _ strand makes.found
      rw [afterAccess, List.getElem?_set_self', makes.found] at foundOwn
      cases foundOwn
      rw [makes.going] at before
      cases moved : access.moved <;>
        simpa [Strand.after, Strand.results] using before
    · rw [afterAccess, List.getElem?_set_ne same] at foundOwn
      exact kept number own foundOwn

/-- Every access of a run is made on behalf of one of the jobs that its strand had at first. -/
theorem mem_work_of_accesses (procedure : Procedure σ κ φ ρ) (shared : σ) (work : List (List κ))
    (schedule : List Nat) {access : Access σ κ φ ρ}
    (member : access ∈ (fresh shared work).accesses procedure schedule) :
    ∃ jobs, work[access.turn.strand]? = some jobs ∧ access.job ∈ jobs := by
  obtain ⟨earlier, later, same⟩ := List.append_of_mem member
  obtain ⟨first, -, -, strand, -, -, makes, -, -⟩ :=
    exists_makes procedure (fresh shared work) schedule earlier later access same
  refine ⟨_, work_of_strand procedure shared work first makes.found, ?_⟩
  simp [makes.going]

@[simp] theorem underway_fresh (shared : σ) (work : List (List κ)) :
    (fresh shared work : Interleaving σ κ φ ρ).underway = [] := by
  simp only [underway, fresh, List.filterMap_eq_nil_iff, Prod.forall]
  intro strand number member
  obtain ⟨jobs, -, rfl⟩ := List.mem_map.mp (List.fst_mem_of_mem_zipIdx member)
  rfl

/-- The jobs of the other strands stay in progress when one strand changes. -/
theorem exists_underway_set {interleaving : Interleaving σ κ φ ρ} {number : Nat}
    {strand : Strand κ φ ρ} (found : interleaving.strands[number]? = some strand) :
    ∃ earlier later : List (Engagement κ φ), ∀ (shared : σ) (next : Strand κ φ ρ),
      interleaving.underway = earlier ++ (strand.engagement? number).toList ++ later ∧
        ({ shared, strands := interleaving.strands.set number next } :
          Interleaving σ κ φ ρ).underway =
          earlier ++ (next.engagement? number).toList ++ later := by
  obtain ⟨inside, same⟩ := List.getElem?_eq_some_iff.mp found
  let view (entry : Strand κ φ ρ × Nat) : Option (Engagement κ φ) := entry.1.engagement? entry.2
  let before := interleaving.strands.take number
  let behind := interleaving.strands.drop (number + 1)
  have length : before.length = number := List.length_take_of_le (Nat.le_of_lt inside)
  have split (next : Strand κ φ ρ) : (interleaving.strands.set number next).zipIdx.filterMap view =
      before.zipIdx.filterMap view ++ (next.engagement? number).toList ++
        (behind.zipIdx (number + 1)).filterMap view := by
    rw [List.set_eq_take_append_cons_drop, if_pos inside, List.zipIdx_append, List.zipIdx_cons,
      List.filterMap_append, List.filterMap_cons, length, Nat.zero_add]
    cases seen : next.engagement? number <;> simp [view, seen, before, behind]
  refine ⟨_, _, fun shared next => ⟨?_, split next⟩⟩
  rw [← split strand, ← same, List.set_getElem_self]
  rfl

/-- An access replaces its own job among the jobs in progress, or removes it. -/
theorem Makes.underway {procedure : Procedure σ κ φ ρ} {interleaving : Interleaving σ κ φ ρ}
    {strand : Strand κ φ ρ} {access : Access σ κ φ ρ}
    (makes : interleaving.Makes procedure strand access) :
    ∃ earlier later, interleaving.underway = earlier ++ [access.engagement] ++ later ∧
      (interleaving.afterAccess strand access).underway =
        earlier ++ access.next?.toList ++ later := by
  obtain ⟨earlier, later, same⟩ := exists_underway_set makes.found
  refine ⟨earlier, later, ?_, ?_⟩
  · rw [(same interleaving.shared strand).1, Strand.engagement?, makes.going, ← makes.number]
    simp [Access.engagement]
  · rw [afterAccess, (same access.after _).2]
    cases moved : access.moved <;>
      simp [Strand.after, Strand.engagement?, Access.next?, moved, ← makes.number]

/-- A job that starts joins the jobs in progress. -/
theorem underway_afterStart (procedure : Procedure σ κ φ ρ) {interleaving : Interleaving σ κ φ ρ}
    {number : Nat} {strand : Strand κ φ ρ} (job : κ) (jobs : List κ)
    (found : interleaving.strands[number]? = some strand) (idle : strand.going = none) :
    ∃ earlier later, interleaving.underway = earlier ++ [] ++ later ∧
      (interleaving.afterStart procedure number strand job jobs).underway =
        earlier ++ [⟨⟨number, strand.ended.length⟩, job, procedure.start job⟩] ++ later := by
  obtain ⟨earlier, later, same⟩ := exists_underway_set found
  refine ⟨earlier, later, ?_, ?_⟩
  · rw [(same interleaving.shared strand).1, Strand.engagement?, idle]
    simp
  · rw [afterStart, (same interleaving.shared _).2]
    simp [Strand.engagement?]

theorem mem_underway {interleaving : Interleaving σ κ φ ρ} {engagement : Engagement κ φ} :
    engagement ∈ interleaving.underway ↔
      ∃ strand, interleaving.strands[engagement.turn.strand]? = some strand ∧
        strand.going = some (engagement.job, engagement.phase) ∧
        engagement.turn.number = strand.ended.length := by
  simp only [underway, List.mem_filterMap, Prod.exists, List.mem_zipIdx_iff_getElem?,
    Strand.engagement?, Option.map_eq_some_iff]
  constructor
  · rintro ⟨strand, number, found, job, phase, going, rfl⟩
    exact ⟨strand, found, going, rfl⟩
  · rintro ⟨strand, found, going, same⟩
    refine ⟨strand, _, found, _, _, going, ?_⟩
    rw [← same]

theorem Makes.mem_underway {procedure : Procedure σ κ φ ρ} {interleaving : Interleaving σ κ φ ρ}
    {strand : Strand κ φ ρ} {access : Access σ κ φ ρ}
    (makes : interleaving.Makes procedure strand access) :
    access.engagement ∈ interleaving.underway :=
  Interleaving.mem_underway.mpr ⟨strand, makes.found, makes.going, makes.number⟩

/-- After an access there is the job of the access, if it goes on, beside the jobs of the other
strands. -/
theorem mem_underway_afterAccess {procedure : Procedure σ κ φ ρ}
    {interleaving : Interleaving σ κ φ ρ} {strand : Strand κ φ ρ} {access : Access σ κ φ ρ}
    {engagement : Engagement κ φ} (makes : interleaving.Makes procedure strand access)
    (member : engagement ∈ (interleaving.afterAccess strand access).underway) :
    access.next? = some engagement ∨
      engagement ∈ interleaving.underway ∧ access.turn.strand ≠ engagement.turn.strand := by
  obtain ⟨own, found, going, number⟩ := Interleaving.mem_underway.mp member
  by_cases same : access.turn.strand = engagement.turn.strand
  · left
    have own_eq : own = strand.after access.job access.moved := by
      simpa [afterAccess, ← same, List.getElem?_set_self', makes.found] using found.symm
    subst own_eq
    cases moved : access.moved with
    | finished result => simp [Strand.after, moved] at going
    | continues phase =>
      simp only [Strand.after, moved, Option.some.injEq, Prod.mk.injEq] at going number
      obtain ⟨⟨strandNumber, number'⟩, job, phase'⟩ := engagement
      obtain ⟨rfl, rfl⟩ := going
      cases turn : access.turn
      have := makes.number
      simp_all [Access.next?]
  · right
    refine ⟨Interleaving.mem_underway.mpr ⟨own, ?_, going, number⟩, same⟩
    simpa [afterAccess, List.getElem?_set_ne same] using found

/-- After the start of a job there is this job beside those that were in progress before. -/
theorem mem_underway_afterStart {procedure : Procedure σ κ φ ρ}
    {interleaving : Interleaving σ κ φ ρ} {number : Nat} {strand : Strand κ φ ρ} {job : κ}
    {jobs : List κ} {engagement : Engagement κ φ}
    (found : interleaving.strands[number]? = some strand) (idle : strand.going = none)
    (member : engagement ∈ (interleaving.afterStart procedure number strand job jobs).underway) :
    engagement = ⟨⟨number, strand.ended.length⟩, job, procedure.start job⟩ ∨
      engagement ∈ interleaving.underway := by
  obtain ⟨earlier, later, before, after⟩ := underway_afterStart procedure job jobs found idle
  rw [after] at member
  rw [before]
  simp only [List.append_nil, List.mem_append, List.mem_singleton] at member ⊢
  tauto

/-- The start of a job leaves all jobs in progress that were so before. -/
theorem stays_afterStart {procedure : Procedure σ κ φ ρ} {interleaving : Interleaving σ κ φ ρ}
    {number : Nat} {strand : Strand κ φ ρ} {engagement : Engagement κ φ} (job : κ) (jobs : List κ)
    (found : interleaving.strands[number]? = some strand) (idle : strand.going = none)
    (member : engagement ∈ interleaving.underway) :
    engagement ∈ (interleaving.afterStart procedure number strand job jobs).underway := by
  obtain ⟨earlier, later, before, after⟩ := underway_afterStart procedure job jobs found idle
  rw [before] at member
  rw [after]
  simp only [List.append_nil, List.mem_append, List.mem_singleton] at member ⊢
  tauto

/-- A strand has one job in progress at a time. -/
theorem eq_of_turn {interleaving : Interleaving σ κ φ ρ} {first second : Engagement κ φ}
    (inFirst : first ∈ interleaving.underway) (inSecond : second ∈ interleaving.underway)
    (same : first.turn = second.turn) : first = second := by
  obtain ⟨strand, found, going, -⟩ := Interleaving.mem_underway.mp inFirst
  obtain ⟨other, foundOther, goingOther, -⟩ := Interleaving.mem_underway.mp inSecond
  rw [← same, found] at foundOther
  cases foundOther
  rw [going] at goingOther
  obtain ⟨turn, job, phase⟩ := first
  obtain ⟨other, otherJob, otherPhase⟩ := second
  cases goingOther
  cases same
  rfl

/-- A job in progress stays so, in its phase, while others make accesses. -/
theorem Makes.stays {procedure : Procedure σ κ φ ρ} {interleaving : Interleaving σ κ φ ρ}
    {strand : Strand κ φ ρ} {access : Access σ κ φ ρ} {engagement : Engagement κ φ}
    (makes : interleaving.Makes procedure strand access)
    (member : engagement ∈ interleaving.underway) (other : engagement ≠ access.engagement) :
    engagement ∈ (interleaving.afterAccess strand access).underway := by
  obtain ⟨earlier, later, before, after⟩ := makes.underway
  rw [before] at member
  rw [after]
  simp only [List.mem_append, List.mem_singleton] at member ⊢
  tauto

/-- The job of an access that has not ended it is in progress after the access. -/
theorem Makes.next_mem {procedure : Procedure σ κ φ ρ} {interleaving : Interleaving σ κ φ ρ}
    {strand : Strand κ φ ρ} {access : Access σ κ φ ρ} {next : Engagement κ φ}
    (makes : interleaving.Makes procedure strand access) (goesOn : access.next? = some next) :
    next ∈ (interleaving.afterAccess strand access).underway := by
  obtain ⟨earlier, later, -, after⟩ := makes.underway
  simp [after, goesOn]

/-- The turn has begun, and if it is the last one of its strand to have begun, its job has ended or
is in progress. -/
def HasBegun (interleaving : Interleaving σ κ φ ρ) (turn : Turn) : Prop :=
  ∃ strand, interleaving.strands[turn.strand]? = some strand ∧
    (turn.number < strand.ended.length ∨
      turn.number = strand.ended.length ∧ strand.going.isSome)

theorem HasBegun.afterStart {procedure : Procedure σ κ φ ρ} {interleaving : Interleaving σ κ φ ρ}
    {number : Nat} {strand : Strand κ φ ρ} {turn : Turn} (job : κ) (jobs : List κ)
    (found : interleaving.strands[number]? = some strand) (begun : interleaving.HasBegun turn) :
    (interleaving.afterStart procedure number strand job jobs).HasBegun turn := by
  obtain ⟨own, foundOwn, order⟩ := begun
  by_cases same : number = turn.strand
  · subst same
    have : own = strand := Option.some.inj (foundOwn.symm.trans found)
    subst this
    refine ⟨{ own with going := some (job, procedure.start job), jobs }, ?_, ?_⟩
    · simp [Interleaving.afterStart, List.getElem?_set_self', found]
    · exact order.imp_right fun last => ⟨last.1, rfl⟩
  · refine ⟨own, ?_, order⟩
    simpa [Interleaving.afterStart, List.getElem?_set_ne same] using foundOwn

theorem HasBegun.afterAccess {procedure : Procedure σ κ φ ρ} {interleaving : Interleaving σ κ φ ρ}
    {strand : Strand κ φ ρ} {access : Access σ κ φ ρ} {turn : Turn}
    (makes : interleaving.Makes procedure strand access) (begun : interleaving.HasBegun turn) :
    (interleaving.afterAccess strand access).HasBegun turn := by
  obtain ⟨own, foundOwn, order⟩ := begun
  by_cases same : access.turn.strand = turn.strand
  · have : own = strand := Option.some.inj (foundOwn.symm.trans (same ▸ makes.found))
    subst this
    refine ⟨own.after access.job access.moved, ?_, ?_⟩
    · simp [Interleaving.afterAccess, ← same, List.getElem?_set_self', makes.found]
    · cases access.moved with
      | continues phase => exact order.imp_right fun last => ⟨last.1, rfl⟩
      | finished result =>
        simp only [Strand.after, List.length_cons]
        omega
  · refine ⟨own, ?_, order⟩
    simpa [Interleaving.afterAccess, List.getElem?_set_ne same] using foundOwn

theorem Makes.hasBegun {procedure : Procedure σ κ φ ρ} {interleaving : Interleaving σ κ φ ρ}
    {strand : Strand κ φ ρ} {access : Access σ κ φ ρ}
    (makes : interleaving.Makes procedure strand access) :
    interleaving.HasBegun access.turn :=
  ⟨strand, makes.found, .inr ⟨makes.number, by simp [makes.going]⟩⟩

/-- A relation between the past and a job in progress holds at every access and of every job in
progress, if it holds of a job that has made no access yet, and is kept by the accesses of the job
itself and of all others. -/
theorem underway_induction {motive : List (Access σ κ φ ρ) → Engagement κ φ → Prop}
    (procedure : Procedure σ κ φ ρ) (shared : σ) (work : List (List κ))
    (starts : ∀ past turn job, (∀ access ∈ past, access.turn ≠ turn) →
      motive past ⟨turn, job, procedure.start job⟩)
    (others : ∀ past access engagement, access.turn ≠ engagement.turn → motive past engagement →
      motive (past ++ [access]) engagement)
    (continues : ∀ past access next,
      procedure.step access.job access.phase access.before = (access.moved, access.after) →
      access.next? = some next → motive past access.engagement → motive (past ++ [access]) next)
    (schedule : List Nat) :
    (∀ engagement ∈ ((fresh shared work).run procedure schedule).underway,
      motive ((fresh shared work).accesses procedure schedule) engagement) ∧
      ∀ earlier access later,
        (fresh shared work).accesses procedure schedule = earlier ++ access :: later →
        motive earlier access.engagement := by
  have kept := run_induction (motive := fun interleaving past =>
    (∀ access ∈ past, interleaving.HasBegun access.turn) ∧
      (∀ engagement ∈ interleaving.underway, motive past engagement) ∧
      ∀ earlier access later, past = earlier ++ access :: later →
        motive earlier access.engagement)
    procedure (fresh shared work) ?_ ?_ ?_ schedule
  · exact kept.2
  · refine ⟨fun access member => (List.not_mem_nil member).elim, ?_, ?_⟩
    · intro engagement member
      rw [underway_fresh] at member
      cases member
    · intro earlier access later same
      simp at same
  · rintro interleaving past number strand job jobs ⟨begun, during, atAccess⟩ found idle next
    refine ⟨fun access member => (begun access member).afterStart job jobs found, ?_, atAccess⟩
    intro engagement member
    rcases mem_underway_afterStart found idle member with rfl | old
    · -- an access of the same turn would have been made before the turn began
      refine starts past _ job fun access made same => ?_
      obtain ⟨own, foundOwn, order⟩ := begun access made
      rw [same, found] at foundOwn
      cases foundOwn
      rcases order with earlier | ⟨-, going⟩
      · rw [same] at earlier
        exact Nat.lt_irrefl _ earlier
      · simp [idle] at going
    · exact during engagement old
  · rintro interleaving past strand access ⟨begun, during, atAccess⟩ makes
    have own := during access.engagement makes.mem_underway
    refine ⟨?_, ?_, ?_⟩
    · intro other member
      rcases List.mem_append.mp member with old | new
      · exact (begun other old).afterAccess makes
      · cases List.mem_singleton.mp new
        exact makes.hasBegun.afterAccess makes
    · intro engagement member
      rcases mem_underway_afterAccess makes member with next | ⟨old, different⟩
      · exact continues past access engagement makes.made next own
      · exact others past access engagement (fun same => different (same ▸ rfl))
          (during engagement old)
    · intro earlier other later same
      rcases List.eq_nil_or_concat later with rfl | ⟨later, last, rfl⟩
      · obtain ⟨rfl, rfl⟩ := List.append_inj' same rfl |>.imp_right List.head_eq_of_cons_eq
        exact own
      · have split : past ++ [access] = (earlier ++ other :: later) ++ [last] := by
          simpa using same
        exact atAccess earlier other later (List.append_inj' split rfl).1

/-- No access is made for a job after the one that has ended it. -/
theorem goes_on_of_turn (procedure : Procedure σ κ φ ρ) (shared : σ) (work : List (List κ))
    (schedule : List Nat) {earlier later : List (Access σ κ φ ρ)} {access : Access σ κ φ ρ}
    (same : (fresh shared work).accesses procedure schedule = earlier ++ access :: later) :
    ∀ other ∈ earlier, other.turn = access.turn → other.next?.isSome := by
  refine (underway_induction (motive := fun past engagement =>
    ∀ other ∈ past, other.turn = engagement.turn → other.next?.isSome)
    procedure shared work ?_ ?_ ?_ schedule).2 earlier access later same
  · intro past turn job silent other member own
    exact absurd own (silent other member)
  · intro past access engagement different kept other member own
    obtain old | last := List.mem_append.mp member
    · exact kept other old own
    · cases List.mem_singleton.mp last
      exact absurd own different
  · intro past access next made goesOn kept other member own
    obtain old | last := List.mem_append.mp member
    · exact kept other old (own.trans (Access.turn_next goesOn))
    · cases List.mem_singleton.mp last
      exact Option.isSome_iff_exists.mpr ⟨next, goesOn⟩

section Ranks

variable (procedure : Procedure σ κ φ ρ) (shared : σ) (work : List (List κ)) (rank : φ → Nat)
  (falls : ∀ (access : Access σ κ φ ρ) next,
    procedure.step access.job access.phase access.before = (access.moved, access.after) →
    access.next? = some next → rank next.phase < rank access.phase) (schedule : List Nat)

include falls

/-- If every access lowers the rank of its job, all accesses that a job has made have had higher
ranks than the job has now. -/
theorem ranks_above :
    (∀ engagement ∈ ((fresh shared work).run procedure schedule).underway,
      ∀ other ∈ (fresh shared work).accesses procedure schedule,
        other.turn = engagement.turn → rank engagement.phase < rank other.phase) ∧
      ∀ earlier access later,
        (fresh shared work).accesses procedure schedule = earlier ++ access :: later →
        ∀ other ∈ earlier, other.turn = access.turn → rank access.phase < rank other.phase := by
  refine underway_induction (motive := fun past engagement =>
    ∀ other ∈ past, other.turn = engagement.turn → rank engagement.phase < rank other.phase)
    procedure shared work ?_ ?_ ?_ schedule
  · intro past turn job silent other member own
    exact absurd own (silent other member)
  · intro past access engagement different kept other member own
    rcases List.mem_append.mp member with old | new
    · exact kept other old own
    · rw [List.mem_singleton.mp new] at own
      exact absurd own different
  · intro past access next made goesOn kept other member own
    have lower := falls access next made goesOn
    rcases List.mem_append.mp member with old | new
    · have before := kept other old (own.trans (Access.turn_next goesOn))
      exact Nat.lt_trans lower before
    · rw [List.mem_singleton.mp new]
      exact lower

/-- If every access lowers the rank of its job, the accesses of one turn have falling ranks. -/
theorem ranks_fall :
    ((fresh shared work).accesses procedure schedule).Pairwise fun first second =>
      first.turn = second.turn → rank second.phase < rank first.phase := by
  apply pairwise_of_precedes
  rintro first second ⟨earlier, later, same, inside⟩
  exact (ranks_above procedure shared work rank falls schedule).2 earlier second later same first
    inside

end Ranks

end Interleaving

end TraceRelay
