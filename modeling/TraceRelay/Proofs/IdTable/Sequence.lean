import TraceRelay.Proofs.IdTable.Consistency

/-! When lookups come one after the other, the ids of the keys count up from one. -/

namespace TraceRelay.Inquiry

variable {κ : Type} [DecidableEq κ]

/-- The stored ids count up from one. -/
def CountsUp (stored : List (κ × UInt32)) : Prop :=
  stored.map Prod.snd = (List.range stored.length).map fun count => UInt32.ofNat (count + 1)

/-- The only lookup in progress, if there is one, is the only one with a claim on a key or an id. -/
def InTurn (table : IdTable κ) (stored : List (κ × UInt32)) (drawn : Nat) :
    Option (Inquiry κ) → Prop
  | some (key, .resolving .draw) =>
    table.ids.find? key = some IdTable.pending ∧ drawn = stored.length
  | some (key, .resolving (.replace id)) =>
    table.ids.find? key = some IdTable.pending ∧ drawn = stored.length + 1 ∧
      id = UInt32.ofNat drawn
  | _ => drawn = stored.length

variable {table after : IdTable κ} {own next : Option (Inquiry κ)} {stored : List (κ × UInt32)}
  {drawn : Nat}

omit [DecidableEq κ] in
theorem CountsUp.concat (counts : CountsUp stored) (key : κ) :
    CountsUp (stored ++ [(key, UInt32.ofNat (stored.length + 1))]) := by
  unfold CountsUp at counts ⊢
  simp only [List.map_append, List.map_cons, List.map_nil, List.length_append, List.length_cons,
    List.length_nil, Nat.zero_add, List.range_succ, counts]

omit [DecidableEq κ] in
theorem CountsUp.of_append {more : List (κ × UInt32)} (counts : CountsUp (stored ++ more)) :
    CountsUp stored := by
  unfold CountsUp at counts ⊢
  have front := congrArg (List.take stored.length) counts
  rw [List.map_append, List.take_left' (List.length_map _), ← List.map_take, List.take_range,
    List.length_append] at front
  rwa [Nat.min_eq_left (Nat.le_add_right _ _)] at front

/-- An access of the only lookup in progress that leads it on. -/
theorem inTurn_continues {key : κ} {phase next : Resolution}
    (resolved : phase.step key table = (.continues next, after))
    (consistent : table.Consistent [(key, .resolving phase)] stored drawn)
    (inTurn : InTurn table stored drawn (some (key, .resolving phase))) :
    InTurn after stored (drawn + phase.draws) (some (key, .resolving next)) := by
  cases phase with
  | lookup =>
    simp only [Resolution.step] at resolved
    split at resolved <;> cases resolved
    exact inTurn
  | claim =>
    simp only [Resolution.step] at resolved
    split at resolved
    · cases resolved
      have marked : (table.ids.insert key IdTable.pending).find? key = some IdTable.pending := by
        simp [Table.find?_insert]
      exact ⟨marked, inTurn⟩
    · rename_i id found
      split at resolved
      · rename_i pending
        rw [pending] at found
        obtain ⟨inquiry, member, -, claimant⟩ := consistent.claimed key found
        cases List.mem_singleton.mp member
        exact claimant.elim
      · cases resolved
        exact inTurn
  | draw =>
    obtain ⟨marked, count⟩ := inTurn
    cases resolved
    refine ⟨marked, congrArg (· + 1) count, consistent.upcoming⟩
  | replace id =>
    obtain ⟨marked, -, -⟩ := inTurn
    simp only [Resolution.step, if_pos marked] at resolved
    cases resolved
  | reuse | conclude => cases resolved

/-- Every access keeps the lookups in turn and the stored ids counting up. -/
theorem Uses.inTurn (uses : Uses table own next after)
    (consistent : table.Consistent own.toList stored drawn)
    (inTurn : InTurn table stored drawn own) (counts : CountsUp stored) :
    InTurn after (stored ++ (opens? own next).toList) (drawn + draws own) next ∧
      CountsUp (stored ++ (opens? own next).toList) := by
  cases uses with
  | nothing | begins | delivers | announced | fails =>
    simpa [opens?, draws, InTurn] using And.intro inTurn counts
  | continues resolved =>
    have kept := inTurn_continues resolved consistent inTurn
    simpa [opens?, draws] using And.intro kept counts
  | @announces key phase id after resolved =>
    obtain ⟨rfl, -, rfl⟩ := Resolution.announces_iff.mp resolved
    obtain ⟨-, count, rfl⟩ := inTurn
    subst count
    refine ⟨?_, counts.concat key⟩
    simp only [opens?, draws, Resolution.draws, Option.toList_some, InTurn, List.length_append,
      List.length_singleton, Nat.add_zero]
  | @returns key phase id after resolved =>
    have count : drawn = stored.length ∧ phase.draws = 0 := by
      cases phase with
      | lookup | reuse | conclude => exact ⟨inTurn, rfl⟩
      | claim | replace =>
        simp only [Resolution.step] at resolved
        repeat' split at resolved
        all_goals cases resolved
      | draw => cases resolved
    simp only [opens?, draws, InTurn, Option.toList_none, List.append_nil]
    exact ⟨by omega, counts⟩

end TraceRelay.Inquiry
