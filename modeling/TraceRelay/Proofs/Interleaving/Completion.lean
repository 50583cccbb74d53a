import TraceRelay.Proofs.Interleaving.Accesses

/-! If every access lowers the rank of its job, a strand that has turns enough ends its jobs. -/

namespace TraceRelay

variable {σ κ φ ρ : Type} {procedure : Procedure σ κ φ ρ} {rank : φ → Nat} {bound : Nat}

/-- The turns that a strand still needs at most, if no job starts with a rank of `bound` or more. -/
def Strand.remaining (rank : φ → Nat) (bound : Nat) (strand : Strand κ φ ρ) : Nat :=
  (bound + 1) * strand.jobs.length + (strand.going.map fun entry => rank entry.2 + 1).getD 0

theorem Strand.isDone_of_remaining {strand : Strand κ φ ρ}
    (nothing : strand.remaining rank bound = 0) : strand.isDone = true := by
  obtain ⟨jobs, going, ended⟩ := strand
  cases jobs with
  | cons job jobs => simp [remaining] at nothing
  | nil =>
    cases going with
    | some entry => simp [remaining] at nothing
    | none => rfl

section Ranked

variable (starts : ∀ job, rank (procedure.start job) < bound)
  (falls : ∀ (access : Access σ κ φ ρ) next,
    procedure.step access.job access.phase access.before = (access.moved, access.after) →
    access.next? = some next → rank next.phase < rank access.phase)

include starts falls

/-- Every turn of a strand brings it nearer to its end. -/
theorem Strand.remaining_advance (strand : Strand κ φ ρ) (shared : σ) :
    (strand.advance procedure shared).1.remaining rank bound ≤
      strand.remaining rank bound - 1 := by
  obtain ⟨jobs, going, ended⟩ := strand
  cases going with
  | some entry =>
    obtain ⟨job, phase⟩ := entry
    simp only [advance]
    split
    · rename_i next after made
      have lower : rank next < rank phase :=
        falls ⟨⟨0, 0⟩, job, phase, shared, .continues next, after⟩ ⟨⟨0, 0⟩, job, next⟩ made rfl
      simp only [remaining, Option.map_some, Option.getD_some]
      omega
    · simp [remaining]
  | none =>
    cases jobs with
    | nil => simp [advance, remaining]
    | cons job jobs =>
      have room := starts job
      simp only [advance, remaining, List.length_cons, Nat.mul_add_one, Option.map_some,
        Option.getD_some, Option.map_none, Option.getD_none]
      omega

/-- A strand that has had as many turns as it needed at first has ended all its jobs. -/
theorem Interleaving.isDone_of_count (interleaving : Interleaving σ κ φ ρ) {number : Nat}
    {strand : Strand κ φ ρ} (found : interleaving.strands[number]? = some strand)
    (schedule : List Nat) (enough : strand.remaining rank bound ≤ schedule.count number) :
    ∃ done, (interleaving.run procedure schedule).strands[number]? = some done ∧
      done.isDone = true := by
  induction schedule generalizing interleaving strand with
  | nil => exact ⟨strand, found, Strand.isDone_of_remaining (Nat.le_zero.mp enough)⟩
  | cons turned rest ih =>
    by_cases own : turned = number
    · subst own
      have nearer := Strand.remaining_advance starts falls strand interleaving.shared
      rw [List.count_cons_self] at enough
      have moved : (interleaving.advance procedure turned).strands[turned]? =
          some (strand.advance procedure interleaving.shared).1 := by
        simp only [advance, found, List.getElem?_set_self']
        rfl
      exact ih _ moved (by omega)
    · rw [List.count_cons_of_ne own] at enough
      refine ih (interleaving.advance procedure turned) ?_ enough
      unfold advance
      split
      · exact found
      · simpa [List.getElem?_set_ne own] using found

variable (procedure rank) in
/-- A strand with turns enough ends each of its jobs, in their order. -/
theorem Interleaving.exists_done (shared : σ) (work : List (List κ)) {number : Nat}
    {jobs : List κ} (listed : work[number]? = some jobs) (schedule : List Nat)
    (enough : (bound + 1) * jobs.length ≤ schedule.count number) :
    ∃ done, ((fresh shared work).run procedure schedule).strands[number]? = some done ∧
      done.jobs = [] ∧ done.going = none ∧ done.results.map Prod.fst = jobs := by
  have found : (fresh shared work : Interleaving σ κ φ ρ).strands[number]? = some { jobs } := by
    simp [fresh, listed]
  obtain ⟨done, foundDone, isDone⟩ := isDone_of_count starts falls (fresh shared work) found
    schedule (by simpa [Strand.remaining] using enough)
  have accounted := work_of_strand procedure shared work schedule foundDone
  obtain ⟨left, going, ended⟩ := done
  simp only [Strand.isDone, Bool.and_eq_true, List.isEmpty_iff, Option.isNone_iff_eq_none] at isDone
  obtain ⟨rfl, rfl⟩ := isDone
  refine ⟨_, foundDone, rfl, rfl, ?_⟩
  simpa [listed] using accounted.symm

end Ranked

end TraceRelay
