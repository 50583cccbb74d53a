import Mathlib.Data.List.Nodup
import TraceRelay.Proofs.Interleaving.Accesses
import TraceRelay.IdTable

/-! What holds of a table of ids and of all lookups in progress on it. -/

namespace TraceRelay

variable {κ ε : Type} [DecidableEq κ]

theorem IdTable.find?_eq_some {table : IdTable κ} {key : κ} {id : UInt32} :
    table.find? key = some id ↔ table.ids.find? key = some id ∧ id ≠ IdTable.pending := by
  simp [IdTable.find?, Option.filter_eq_some_iff]

/-- The later table has lost no key and no id of the earlier one. -/
structure IdTable.Extends (after before : IdTable κ) : Prop where
  keys : before.ids.keys ⊆ after.ids.keys
  finds : ∀ key id, before.find? key = some id → after.find? key = some id

namespace IdTable.Extends

theorem refl (table : IdTable κ) : table.Extends table where
  keys _ member := member
  finds _ _ found := found

theorem trans {first second third : IdTable κ} (later : third.Extends second)
    (earlier : second.Extends first) : third.Extends first where
  keys _ member := later.keys (earlier.keys member)
  finds key id found := later.finds key id (earlier.finds key id found)

/-- Nothing is lost when a key without an id is put into the table. -/
theorem insert {table : IdTable κ} {key : κ} (id : UInt32) (without : table.find? key = none) :
    ({ table with ids := table.ids.insert key id } : IdTable κ).Extends table where
  keys := by
    rw [Table.keys_insert]
    split
    · exact fun _ member => member
    · exact List.subset_append_left _ _
  finds other found old := by
    have different : other ≠ key := by
      rintro rfl
      rw [without] at old
      cases old
    simpa [IdTable.find?, Table.find?_insert, different] using old

end IdTable.Extends

theorem IdTable.find?_eq_none {table : IdTable κ} {key : κ} :
    table.find? key = none ↔
      table.ids.find? key = none ∨ table.ids.find? key = some IdTable.pending := by
  cases found : table.ids.find? key <;> simp [IdTable.find?, found]

/-- The mark of a pending registration is no id. -/
theorem IdTable.find?_insert_pending {table : IdTable κ} {key other : κ}
    (absent : table.ids.find? key = none) :
    ({ table with ids := table.ids.insert key IdTable.pending } : IdTable κ).find? other =
      table.find? other := by
  by_cases own : other = key
  · subst own
    simp [IdTable.find?, Table.find?_insert, absent]
  · simp [IdTable.find?, Table.find?_insert, own]

/-- An access of the table loses no key and no id. -/
theorem Resolution.extends_step (key : κ) (phase : Resolution) (table : IdTable κ) :
    (phase.step key table).2.Extends table := by
  cases phase with
  | lookup =>
    simp only [Resolution.step]
    split <;> exact .refl table
  | claim =>
    simp only [Resolution.step]
    split
    · rename_i absent
      exact .insert _ (IdTable.find?_eq_none.mpr (.inl absent))
    · split <;> exact .refl table
  | draw => exact ⟨fun _ member => member, fun _ _ found => found⟩
  | replace id =>
    simp only [Resolution.step]
    split
    · rename_i marked
      exact .insert _ (IdTable.find?_eq_none.mpr (.inr marked))
    · exact .refl table
  | reuse id => exact .refl table
  | conclude id => exact .refl table

/-- Only the replacement of the mark of a pending key has to be announced. -/
theorem Resolution.announces_iff {key : κ} {phase : Resolution} {before after : IdTable κ}
    {id : UInt32} : phase.step key before = (.announces id, after) ↔
      phase = .replace id ∧ before.ids.find? key = some IdTable.pending ∧
        after = { before with ids := before.ids.insert key id } := by
  constructor
  · intro resolved
    cases phase with
    | replace drawn =>
      simp only [step] at resolved
      split at resolved
      · rename_i marked
        simp only [Prod.mk.injEq, Lookup.announces.injEq] at resolved
        obtain ⟨rfl, rfl⟩ := resolved
        exact ⟨rfl, marked, rfl⟩
      · simp at resolved
    | lookup | claim =>
      simp only [step] at resolved
      repeat' split at resolved
      all_goals simp at resolved
    | draw | reuse | conclude => simp [step] at resolved
  · rintro ⟨rfl, marked, rfl⟩
    simp [step, marked]

/-- The number of ids that an access draws. -/
def Resolution.draws : Resolution → Nat
  | .draw => 1
  | _ => 0

/-- A lookup in progress: the key that it asks for, and the phase that it has reached. -/
abbrev Inquiry (κ : Type) := κ × Registration

namespace Inquiry

/-- The id that the lookup has drawn and still has to put into the table. -/
def candidate? : Inquiry κ → Option UInt32
  | (_, .resolving (.replace drawn)) => some drawn
  | _ => none

/-- The lookup has claimed its key and has not tried yet to put an id into the table. -/
def IsClaimant : Inquiry κ → Prop
  | (_, .resolving .draw) => True
  | (_, .resolving (.replace _)) => True
  | _ => False

/-- What the phase of a lookup promises about the table. -/
def Fits (table : IdTable κ) : Inquiry κ → Prop
  | (_, .resolving .lookup) => True
  | (_, .resolving .claim) => True
  | (key, .resolving .draw) => key ∈ table.ids.keys
  | (key, .resolving (.replace _)) => key ∈ table.ids.keys
  | (key, .resolving (.reuse _)) => (table.find? key).isSome
  | (key, .resolving (.conclude _)) => (table.find? key).isSome
  | (key, .announcing id) => table.find? key = some id

/-- A promise outlives every change that loses no key and no id. -/
theorem Fits.mono {table after : IdTable κ} {inquiry : Inquiry κ} (fits : inquiry.Fits table)
    (grown : after.Extends table) : inquiry.Fits after := by
  obtain ⟨key, phase⟩ := inquiry
  have found : (table.find? key).isSome → (after.find? key).isSome := by
    intro some
    obtain ⟨id, found⟩ := Option.isSome_iff_exists.mp some
    exact Option.isSome_iff_exists.mpr ⟨id, grown.finds key id found⟩
  cases phase with
  | announcing id => exact grown.finds key id fits
  | resolving phase =>
    cases phase with
    | lookup => trivial
    | claim => trivial
    | draw => exact grown.keys fits
    | replace drawn => exact grown.keys fits
    | reuse id => exact found fits
    | conclude drawn => exact found fits

end Inquiry

/-- The ids that are stored or still have to be put into the table. -/
def idsInUse (stored : List (κ × UInt32)) (inquiries : List (Inquiry κ)) : List UInt32 :=
  stored.map Prod.snd ++ inquiries.filterMap Inquiry.candidate?

omit [DecidableEq κ] in
theorem idsInUse_perm (stored : List (κ × UInt32)) (earlier later : List (Inquiry κ))
    (inquiry : Inquiry κ) :
    (idsInUse stored (earlier ++ [inquiry] ++ later)).Perm
      (inquiry.candidate?.toList ++ idsInUse stored (earlier ++ later)) := by
  have moved := List.perm_append_comm_assoc
    (stored.map Prod.snd ++ earlier.filterMap Inquiry.candidate?) inquiry.candidate?.toList
    (later.filterMap Inquiry.candidate?)
  simpa only [idsInUse, List.filterMap_append, filterMap_singleton, List.append_assoc] using moved

omit [DecidableEq κ] in
theorem idsInUse_concat (stored : List (κ × UInt32)) (key : κ) (id : UInt32)
    (inquiries : List (Inquiry κ)) :
    (idsInUse (stored ++ [(key, id)]) inquiries).Perm (id :: idsInUse stored inquiries) := by
  simp only [idsInUse, List.map_append, List.map_cons, List.map_nil, List.append_assoc,
    List.singleton_append]
  exact List.perm_middle

/-- The table and the lookups in progress fit each other, after `drawn` draws and after the given
ids have been put into the table. -/
structure IdTable.Consistent (table : IdTable κ) (inquiries : List (Inquiry κ))
    (stored : List (κ × UInt32)) (drawn : Nat) : Prop where
  upcoming : table.upcoming = UInt32.ofNat (drawn + 1)
  find?_iff : ∀ key id, table.find? key = some id ↔ (key, id) ∈ stored
  once : (stored.map Prod.fst).Nodup
  owned : (idsInUse stored inquiries).Nodup
  bounds : ∀ id ∈ idsInUse stored inquiries, 0 < id.toNat ∧ id.toNat ≤ drawn
  fits : ∀ inquiry ∈ inquiries, inquiry.Fits table
  claimed : ∀ key, table.ids.find? key = some IdTable.pending →
    ∃ inquiry ∈ inquiries, inquiry.1 = key ∧ inquiry.IsClaimant

namespace IdTable.Consistent

variable {table : IdTable κ} {earlier later : List (Inquiry κ)} {key : κ}
  {stored : List (κ × UInt32)} {drawn : Nat}

theorem empty : ({} : IdTable κ).Consistent [] [] 0 where
  upcoming := rfl
  find?_iff key id := by simp [IdTable.find?]
  once := List.nodup_nil
  owned := List.nodup_nil
  bounds id member := (List.not_mem_nil member).elim
  fits inquiry member := (List.not_mem_nil member).elim
  claimed key pending := by simp at pending

/-- No two keys of the table have the same id. -/
theorem key_unique {inquiries : List (Inquiry κ)} {other : κ} {id : UInt32}
    (consistent : table.Consistent inquiries stored drawn) (found : table.find? key = some id)
    (foundOther : table.find? other = some id) : key = other := by
  have ids : (stored.map Prod.snd).Nodup :=
    consistent.owned.sublist (List.sublist_append_left _ _)
  have one := (consistent.find?_iff key id).mp found
  have two := (consistent.find?_iff other id).mp foundOther
  exact congrArg Prod.fst (List.inj_on_of_nodup_map ids one two rfl)

/-- Lookups start, go on or end without a change of the table. They may give up ids that they have
drawn, but no key that is still pending. -/
theorem move {old next : List (Inquiry κ)}
    (consistent : table.Consistent (earlier ++ old ++ later) stored drawn)
    (fits : ∀ inquiry ∈ next, inquiry.Fits table)
    (without : next.filterMap Inquiry.candidate? = [])
    (claims : ∀ inquiry ∈ old, table.ids.find? inquiry.1 = some IdTable.pending →
      inquiry.IsClaimant → ∃ after ∈ next, after.1 = inquiry.1 ∧ after.IsClaimant) :
    table.Consistent (earlier ++ next ++ later) stored drawn := by
  have kept : List.Sublist (idsInUse stored (earlier ++ next ++ later))
      (idsInUse stored (earlier ++ old ++ later)) := by
    simp only [idsInUse, List.filterMap_append, without, List.append_nil]
    exact ((List.sublist_append_left _ _).append_right _).append_left _
  refine ⟨consistent.upcoming, consistent.find?_iff, consistent.once, consistent.owned.sublist kept,
    fun id member => consistent.bounds id (kept.subset member), ?_, ?_⟩
  · intro inquiry member
    simp only [List.mem_append] at member
    rcases member with (before | new) | behind
    · exact consistent.fits inquiry (by simp [before])
    · exact fits inquiry new
    · exact consistent.fits inquiry (by simp [behind])
  · intro key pending
    obtain ⟨inquiry, member, rfl, claimant⟩ := consistent.claimed key pending
    simp only [List.mem_append] at member ⊢
    rcases member with (before | own) | behind
    · exact ⟨inquiry, .inl (.inl before), rfl, claimant⟩
    · obtain ⟨after, new, facts⟩ := claims inquiry own pending claimant
      exact ⟨after, .inl (.inr new), facts⟩
    · exact ⟨inquiry, .inr behind, rfl, claimant⟩

/-- A lookup claims a key that the table does not hold. -/
theorem claim (consistent : table.Consistent (earlier ++ [(key, .resolving .claim)] ++ later)
      stored drawn) (absent : table.ids.find? key = none) :
    ({ table with ids := table.ids.insert key IdTable.pending } : IdTable κ).Consistent
      (earlier ++ [(key, .resolving .draw)] ++ later) stored drawn := by
  have without : table.find? key = none := IdTable.find?_eq_none.mpr (.inl absent)
  have grown := IdTable.Extends.insert IdTable.pending without
  refine ⟨consistent.upcoming, ?_, consistent.once, ?_, ?_, ?_, ?_⟩
  · intro other id
    rw [IdTable.find?_insert_pending absent]
    exact consistent.find?_iff other id
  · simpa [idsInUse, Inquiry.candidate?, List.filterMap_cons] using consistent.owned
  · simpa [idsInUse, Inquiry.candidate?, List.filterMap_cons] using consistent.bounds
  · intro inquiry member
    simp only [List.mem_append, List.mem_singleton] at member
    by_cases own : inquiry = (key, .resolving .draw)
    · subst own
      exact (Table.isSome_find? _ _).mp (by simp [Table.find?_insert])
    · have old := consistent.fits inquiry (by
        simp only [List.mem_append, List.mem_singleton]
        tauto)
      exact old.mono grown
  · intro other pending
    by_cases own : other = key
    · exact ⟨(key, .resolving .draw), by simp, own.symm, trivial⟩
    · rw [Table.find?_insert, if_neg own] at pending
      obtain ⟨inquiry, member, rfl, claimant⟩ := consistent.claimed other pending
      refine ⟨inquiry, ?_, rfl, claimant⟩
      simp only [List.mem_append, List.mem_singleton] at member ⊢
      rcases member with (before | rfl) | behind
      · exact .inl (.inl before)
      · exact claimant.elim
      · exact .inr behind

/-- A lookup draws the next id. -/
theorem draw (consistent : table.Consistent (earlier ++ [(key, .resolving .draw)] ++ later)
      stored drawn) (few : drawn + 1 < 2 ^ 32) :
    ({ table with upcoming := table.upcoming + 1 } : IdTable κ).Consistent
      (earlier ++ [(key, .resolving (.replace table.upcoming))] ++ later) stored (drawn + 1) := by
  have number : table.upcoming.toNat = drawn + 1 := by
    rw [consistent.upcoming]
    exact UInt32.toNat_ofNat_of_lt' few
  have before := idsInUse_perm stored earlier later (key, .resolving .draw)
  have after := idsInUse_perm stored earlier later (key, .resolving (.replace table.upcoming))
  refine ⟨?_, consistent.find?_iff, consistent.once, ?_, ?_, ?_, ?_⟩
  · rw [consistent.upcoming]
    exact (UInt32.ofNat_add (drawn + 1) 1).symm
  · refine after.nodup_iff.mpr (List.nodup_cons.mpr ⟨fun old => ?_, ?_⟩)
    · have bound := (consistent.bounds _ (before.mem_iff.mpr old)).2
      omega
    · exact before.nodup_iff.mp consistent.owned
  · intro id member
    rcases List.mem_cons.mp (after.mem_iff.mp member) with rfl | old
    · omega
    · have bounds := consistent.bounds id (before.mem_iff.mpr old)
      omega
  · intro inquiry member
    simp only [List.mem_append, List.mem_singleton] at member
    have grown := Resolution.extends_step key .draw table
    rcases member with (before | rfl) | behind
    · exact (consistent.fits inquiry (by simp [before])).mono grown
    · exact consistent.fits (key, .resolving .draw) (by simp)
    · exact (consistent.fits inquiry (by simp [behind])).mono grown
  · intro other pending
    obtain ⟨inquiry, member, rfl, claimant⟩ := consistent.claimed other pending
    simp only [List.mem_append, List.mem_singleton] at member ⊢
    rcases member with (before | rfl) | behind
    · exact ⟨inquiry, .inl (.inl before), rfl, claimant⟩
    · exact ⟨_, .inl (.inr rfl), rfl, trivial⟩
    · exact ⟨inquiry, .inr behind, rfl, claimant⟩

/-- A lookup puts its id in the place of the mark of its pending key. -/
theorem replace {id : UInt32}
    (consistent : table.Consistent (earlier ++ [(key, .resolving (.replace id))] ++ later)
      stored drawn) (pending : table.ids.find? key = some IdTable.pending) :
    ({ table with ids := table.ids.insert key id } : IdTable κ).Consistent
      (earlier ++ [(key, .announcing id)] ++ later) (stored ++ [(key, id)]) drawn := by
  have without : table.find? key = none := IdTable.find?_eq_none.mpr (.inr pending)
  have same : (idsInUse stored (earlier ++ [(key, .resolving (.replace id))] ++ later)).Perm
      (idsInUse (stored ++ [(key, id)]) (earlier ++ [(key, .announcing id)] ++ later)) := by
    refine (idsInUse_perm stored earlier later (key, .resolving (.replace id))).trans ?_
    refine (idsInUse_concat stored key id (earlier ++ later)).symm.trans ?_
    exact (idsInUse_perm (stored ++ [(key, id)]) earlier later (key, .announcing id)).symm
  have nonzero : id ≠ IdTable.pending := by
    have bounds := consistent.bounds id (by simp [idsInUse, Inquiry.candidate?])
    intro zero
    rw [zero] at bounds
    exact Nat.lt_irrefl 0 bounds.1
  have finds (other : κ) : ({ table with ids := table.ids.insert key id } : IdTable κ).find? other =
      if other = key then some id else table.find? other := by
    simp only [IdTable.find?, Table.find?_insert]
    split
    · simp [nonzero]
    · rfl
  refine ⟨consistent.upcoming, ?_, ?_, same.nodup_iff.mp consistent.owned, ?_, ?_, ?_⟩
  · intro other found
    rw [finds, List.mem_append, List.mem_singleton, Prod.mk.injEq, ← consistent.find?_iff]
    by_cases own : other = key
    · subst own
      simp [without, eq_comm]
    · simp [own]
  · rw [List.map_append, List.nodup_append]
    refine ⟨consistent.once, by simp, ?_⟩
    rintro other member own single rfl
    simp only [List.map_cons, List.map_nil, List.mem_singleton] at single
    subst single
    obtain ⟨⟨entry, found⟩, inside, rfl⟩ := List.mem_map.mp member
    rw [(consistent.find?_iff _ _).mpr inside] at without
    cases without
  · intro other member
    exact consistent.bounds other (same.mem_iff.mpr member)
  · intro inquiry member
    by_cases own : inquiry = (key, .announcing id)
    · subst own
      simp [Inquiry.Fits, finds]
    · have old := consistent.fits inquiry (by
        simp only [List.mem_append, List.mem_singleton] at member ⊢
        tauto)
      exact old.mono (.insert id without)
  · intro other stillPending
    have different : other ≠ key := by
      rintro rfl
      rw [Table.find?_insert, if_pos rfl] at stillPending
      exact nonzero (Option.some.inj stillPending)
    rw [Table.find?_insert, if_neg different] at stillPending
    obtain ⟨inquiry, member, rfl, claimant⟩ := consistent.claimed other stillPending
    refine ⟨inquiry, ?_, rfl, claimant⟩
    simp only [List.mem_append, List.mem_singleton] at member ⊢
    rcases member with (before | rfl) | behind
    · exact .inl (.inl before)
    · exact (different rfl).elim
    · exact .inr behind

/-- Each access of a lookup keeps the table and the lookups in progress fitting. -/
theorem resolve {phase : Resolution}
    (consistent : table.Consistent (earlier ++ [(key, .resolving phase)] ++ later) stored drawn)
    (few : drawn + phase.draws < 2 ^ 32) :
    match phase.step key table with
    | (.continues next, after) =>
      after.Consistent (earlier ++ [(key, .resolving next)] ++ later) stored
        (drawn + phase.draws)
    | (.announces id, after) =>
      after.Consistent (earlier ++ [(key, .announcing id)] ++ later) (stored ++ [(key, id)])
        (drawn + phase.draws)
    | (.returns id, after) =>
      after = table ∧ table.find? key = some id ∧
        table.Consistent (earlier ++ [] ++ later) stored (drawn + phase.draws) := by
  have own : Inquiry.Fits table (key, .resolving phase) := consistent.fits _ (by simp)
  cases phase with
  | lookup =>
    simp only [Resolution.step]
    cases found : table.find? key with
    | some id =>
      exact ⟨rfl, rfl, consistent.move (by simp) rfl (by simp [Inquiry.IsClaimant])⟩
    | none => exact consistent.move (by simp [Inquiry.Fits]) rfl (by simp [Inquiry.IsClaimant])
  | claim =>
    simp only [Resolution.step]
    cases found : table.ids.find? key with
    | none => exact consistent.claim found
    | some id =>
      by_cases pending : id = IdTable.pending
      · have member : key ∈ table.ids.keys := by simp [← Table.isSome_find?, found]
        simp only [pending, if_true]
        exact consistent.move (by simpa [Inquiry.Fits] using member) rfl
          (by simp [Inquiry.IsClaimant])
      · have registered : table.find? key = some id := IdTable.find?_eq_some.mpr ⟨found, pending⟩
        simp only [pending, if_false]
        exact consistent.move (by simp [Inquiry.Fits, registered]) rfl
          (by simp [Inquiry.IsClaimant])
  | draw => exact consistent.draw few
  | replace id =>
    simp only [Resolution.step]
    by_cases pending : table.ids.find? key = some IdTable.pending
    · rw [if_pos pending]
      exact consistent.replace pending
    · rw [if_neg pending]
      have registered : (table.find? key).isSome := by
        obtain ⟨id, found⟩ := Option.isSome_iff_exists.mp ((Table.isSome_find? _ _).mpr own)
        have nonzero : id ≠ IdTable.pending := fun zero => pending (zero ▸ found)
        rw [IdTable.find?_eq_some.mpr ⟨found, nonzero⟩]
        rfl
      exact consistent.move (by simpa [Inquiry.Fits] using registered) rfl (by simp [pending])
  | reuse id =>
    obtain ⟨stored, found⟩ := Option.isSome_iff_exists.mp own
    refine ⟨rfl, ?_, consistent.move (by simp) rfl (by simp [Inquiry.IsClaimant])⟩
    rw [(IdTable.find?_eq_some.mp found).1]
    exact found
  | conclude id =>
    obtain ⟨stored, found⟩ := Option.isSome_iff_exists.mp own
    refine ⟨rfl, ?_, consistent.move (by simp) rfl (by simp [Inquiry.IsClaimant])⟩
    rw [(IdTable.find?_eq_some.mp found).1]
    exact found

/-- An announcement that ends changes nothing in the table. Its lookup goes on to read the id, or
ends. -/
theorem announced {id : UInt32} {next : List (Inquiry κ)}
    (consistent : table.Consistent (earlier ++ [(key, .announcing id)] ++ later) stored drawn)
    (goesOn : next = [(key, .resolving (.conclude id))] ∨ next = []) :
    table.Consistent (earlier ++ next ++ later) stored drawn := by
  have own : Inquiry.Fits table (key, .announcing id) := consistent.fits _ (by simp)
  change table.find? key = some id at own
  rcases goesOn with rfl | rfl
  · exact consistent.move (by simp [Inquiry.Fits, own]) rfl (by simp [Inquiry.IsClaimant])
  · exact consistent.move (by simp) rfl (by simp [Inquiry.IsClaimant])

end IdTable.Consistent

namespace Inquiry

/-- How an access uses a table: it leads from the lookup that its maker was making before, if it was
making one, to the lookup that it is making after it, and changes the table as told. -/
inductive Uses (table : IdTable κ) :
    Option (Inquiry κ) → Option (Inquiry κ) → IdTable κ → Prop where
  | nothing : Uses table none none table
  | begins (key : κ) : Uses table none (some (key, .resolving .lookup)) table
  | continues {key : κ} {phase next : Resolution} {after : IdTable κ}
    (resolved : phase.step key table = (.continues next, after)) :
    Uses table (some (key, .resolving phase)) (some (key, .resolving next)) after
  | announces {key : κ} {phase : Resolution} {id : UInt32} {after : IdTable κ}
    (resolved : phase.step key table = (.announces id, after)) :
    Uses table (some (key, .resolving phase)) (some (key, .announcing id)) after
  | returns {key : κ} {phase : Resolution} {id : UInt32} {after : IdTable κ}
    (resolved : phase.step key table = (.returns id, after)) :
    Uses table (some (key, .resolving phase)) none after
  | delivers (key : κ) (id : UInt32) :
    Uses table (some (key, .announcing id)) (some (key, .announcing id)) table
  | announced (key : κ) (id : UInt32) :
    Uses table (some (key, .announcing id)) (some (key, .resolving (.conclude id))) table
  | fails (key : κ) (id : UInt32) : Uses table (some (key, .announcing id)) none table

/-- The number of ids that an access draws on behalf of a lookup. -/
def draws : Option (Inquiry κ) → Nat
  | some (_, .resolving phase) => phase.draws
  | _ => 0

/-- The announcement that an access starts when it leads from one lookup to another. -/
def opens? : Option (Inquiry κ) → Option (Inquiry κ) → Option (κ × UInt32)
  | some (_, .resolving _), some (key, .announcing id) => some (key, id)
  | _, _ => none

variable {table after : IdTable κ} {own next : Option (Inquiry κ)}
  {earlier later : List (Inquiry κ)} {stored : List (κ × UInt32)} {drawn : Nat}

/-- Each access keeps the table and the lookups in progress fitting. -/
theorem Uses.consistent (uses : Uses table own next after) (few : drawn + draws own < 2 ^ 32)
    (consistent : table.Consistent (earlier ++ own.toList ++ later) stored drawn) :
    after.Consistent (earlier ++ next.toList ++ later) (stored ++ (opens? own next).toList)
      (drawn + draws own) := by
  cases uses with
  | nothing | delivers => simpa [opens?, draws] using consistent
  | begins key =>
    have begun : table.Consistent (earlier ++ [(key, .resolving .lookup)] ++ later) stored drawn :=
      consistent.move (by simp [Fits]) rfl (by simp)
    simpa [opens?, draws] using begun
  | continues resolved =>
    have kept := consistent.resolve few
    rw [resolved] at kept
    simpa [opens?, draws] using kept
  | announces resolved =>
    have kept := consistent.resolve few
    rw [resolved] at kept
    exact kept
  | returns resolved =>
    have kept := consistent.resolve few
    rw [resolved] at kept
    obtain ⟨rfl, -, kept⟩ := kept
    simpa [opens?, draws] using kept
  | announced key id => simpa [opens?, draws] using consistent.announced (.inl rfl)
  | fails key id => simpa [opens?, draws] using consistent.announced (.inr rfl)

/-- No access loses a key or an id. -/
theorem Uses.extends (uses : Uses table own next after) : after.Extends table := by
  cases uses with
  | nothing | begins | delivers | announced | fails => exact .refl table
  | @continues key phase _ _ resolved | @announces key phase _ _ resolved
  | @returns key phase _ _ resolved =>
    have grown := phase.extends_step key table
    rwa [resolved] at grown

/-- A lookup that returns an id has found it in the table. -/
theorem found_of_returns {key : κ} {phase : Resolution} {id : UInt32}
    (resolved : phase.step key table = (.returns id, after))
    (few : drawn + phase.draws < 2 ^ 32)
    (consistent : table.Consistent (earlier ++ [(key, .resolving phase)] ++ later) stored drawn) :
    table.find? key = some id := by
  have kept := consistent.resolve few
  rw [resolved] at kept
  exact kept.2.1

end Inquiry

end TraceRelay
