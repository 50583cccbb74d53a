import TraceRelay.Proofs.Interleaving.Accesses

/-! Turns that do not overlap make their accesses one turn after the other. -/

namespace TraceRelay

variable {σ κ φ ρ : Type}

/-- No turn of the given kind makes an access between two accesses of another one. -/
def Unbroken (own : Turn → Prop) (past : List (Access σ κ φ ρ)) : Prop :=
  ∀ first between last, Precedes past first between → Precedes past between last →
    own first.turn → own between.turn → first.turn = last.turn → between.turn = first.turn

section Lists

variable {past : List (Access σ κ φ ρ)} {first second : Access σ κ φ ρ}

theorem precedes_total (inFirst : first ∈ past) (inSecond : second ∈ past) :
    first = second ∨ Precedes past first second ∨ Precedes past second first := by
  obtain ⟨earlier, later, same⟩ := List.append_of_mem inFirst
  rw [same, List.mem_append, List.mem_cons] at inSecond
  rcases inSecond with before | rfl | behind
  · exact .inr (.inr ⟨earlier, later, same, before⟩)
  · exact .inl rfl
  · obtain ⟨between, rest, rfl⟩ := List.append_of_mem behind
    refine .inr (.inl ⟨earlier ++ first :: between, rest, ?_, by simp⟩)
    simp [same]

theorem Precedes.mem_left (before : Precedes past first second) : first ∈ past := by
  obtain ⟨earlier, later, rfl, inside⟩ := before
  exact List.mem_append_left _ inside

theorem Precedes.mem_right (before : Precedes past first second) : second ∈ past := by
  obtain ⟨earlier, later, rfl, -⟩ := before
  simp

theorem Precedes.of_pairwise {related : Access σ κ φ ρ → Access σ κ φ ρ → Prop}
    (before : Precedes past first second) (pairwise : past.Pairwise related) :
    related first second := by
  obtain ⟨earlier, later, rfl, inside⟩ := before
  exact (List.pairwise_append.mp pairwise).2.2 first inside second List.mem_cons_self

/-- As soon as one access of a turn precedes one of another turn that it does not overlap with, all
its accesses do. -/
theorem Unbroken.precedes {own : Turn → Prop} {early late : Access σ κ φ ρ}
    (unbroken : Unbroken own past) (before : Precedes past first second)
    (ownFirst : own first.turn) (ownSecond : own second.turn)
    (differ : first.turn ≠ second.turn) (inEarly : early ∈ past) (inLate : late ∈ past)
    (turnEarly : early.turn = first.turn) (turnLate : late.turn = second.turn) :
    Precedes past early late := by
  rcases precedes_total inEarly inLate with same | fine | reversed
  · rw [← turnEarly, ← turnLate, same] at differ
    exact absurd rfl differ
  · exact fine
  · have ownLate : own late.turn := turnLate ▸ ownSecond
    exfalso
    rcases precedes_total before.mem_left inLate with same | ahead | behind
    · exact differ (same ▸ turnLate)
    · have met := unbroken first late early ahead reversed ownFirst ownLate turnEarly.symm
      exact differ (met.symm.trans turnLate)
    · have met := unbroken late first second behind before ownLate ownFirst turnLate
      exact differ (met.trans turnLate)

end Lists

namespace Interleaving

/-- The jobs of one strand have their turns in the order of their numbers. -/
theorem numbers_of_strand (procedure : Procedure σ κ φ ρ) (shared : σ) (work : List (List κ))
    (schedule : List Nat) :
    ((fresh shared work).accesses procedure schedule).Pairwise fun first second =>
      first.turn.strand = second.turn.strand → first.turn.number ≤ second.turn.number := by
  refine (run_induction (motive := fun interleaving past =>
    (∀ access ∈ past, interleaving.HasBegun access.turn) ∧ past.Pairwise fun first second =>
      first.turn.strand = second.turn.strand → first.turn.number ≤ second.turn.number)
    procedure (fresh shared work) ?_ ?_ ?_ schedule).2
  · exact ⟨by simp, List.Pairwise.nil⟩
  · rintro interleaving past number strand job jobs ⟨begun, ordered⟩ found idle next
    exact ⟨fun access member => (begun access member).afterStart job jobs found, ordered⟩
  · rintro interleaving past strand access ⟨begun, ordered⟩ makes
    refine ⟨fun other member => ?_, List.pairwise_append.mpr ⟨ordered, by simp, ?_⟩⟩
    · rcases List.mem_append.mp member with old | new
      · exact (begun other old).afterAccess makes
      · rw [List.mem_singleton.mp new]
        exact makes.hasBegun.afterAccess makes
    · intro other old own new sameStrand
      rw [List.mem_singleton.mp new] at sameStrand ⊢
      obtain ⟨found, foundOther, order⟩ := begun other old
      rw [sameStrand, makes.found] at foundOther
      cases foundOther
      rw [makes.number]
      omega

/-- Turns of one strand do not overlap. -/
theorem unbroken_of_strand (procedure : Procedure σ κ φ ρ) (shared : σ) (work : List (List κ))
    (schedule : List Nat) {own : Turn → Prop} {strand : Nat}
    (alone : ∀ turn, own turn → turn.strand = strand) :
    Unbroken own ((fresh shared work).accesses procedure schedule) := by
  intro first between last ahead behind ownFirst ownBetween same
  have ordered := numbers_of_strand procedure shared work schedule
  have sameStrand : first.turn.strand = between.turn.strand :=
    (alone _ ownFirst).trans (alone _ ownBetween).symm
  have before := ahead.of_pairwise ordered sameStrand
  have after := behind.of_pairwise ordered (sameStrand.symm.trans (congrArg Turn.strand same))
  rw [← same] at after
  have sameNumber : between.turn.number = first.turn.number := Nat.le_antisymm after before
  calc between.turn = ⟨between.turn.strand, between.turn.number⟩ := rfl
    _ = first.turn := by rw [← sameStrand, sameNumber]

end Interleaving

end TraceRelay
