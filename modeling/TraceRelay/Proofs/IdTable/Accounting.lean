import TraceRelay.Proofs.IdTable.Agreement

/-! What has become of the ids that have been drawn from a table. -/

namespace TraceRelay

variable {κ ε : Type} [DecidableEq κ]

/-- The keys that have an id, the oldest first. -/
def IdTable.registeredKeys (table : IdTable κ) : List κ :=
  table.ids.keys.filter fun key => (table.find? key).isSome

theorem IdTable.mem_registeredKeys {table : IdTable κ} {key : κ} :
    key ∈ table.registeredKeys ↔ (table.find? key).isSome := by
  refine ⟨fun member => (List.mem_filter.mp member).2, fun registered => ?_⟩
  obtain ⟨id, found⟩ := Option.isSome_iff_exists.mp registered
  have listed : (table.ids.find? key).isSome := by
    rw [(IdTable.find?_eq_some.mp found).1]
    rfl
  exact List.mem_filter.mpr ⟨(Table.isSome_find? _ _).mp listed, registered⟩

theorem IdTable.nodup_registeredKeys (table : IdTable κ) : table.registeredKeys.Nodup :=
  table.ids.keys_nodup.filter _

namespace Registration

/-- The id that an access gives up, because the key of its request has got another one. -/
def forgone? (access : TableAccess κ ε) : Option UInt32 :=
  match access.phase, access.moved with
  | .resolving (.replace drawn), .continues (.resolving _) => some drawn
  | _, _ => none

/-- The ids that have been given up, in order. -/
def forgone (past : List (TableAccess κ ε)) : List UInt32 := past.filterMap forgone?

/-- The ids that requests in progress have drawn and have not tried yet to put into the table. -/
def untried (requests : Requests κ ε) : List UInt32 :=
  requests.underway.filterMap fun engagement => (inquiry engagement).candidate?

/-- The phases of a request from the last ones up. -/
def rank : Registration → Nat
  | .resolving .lookup => 5
  | .resolving .claim => 4
  | .resolving .draw => 3
  | .resolving (.replace _) => 2
  | .announcing _ => 1
  | .resolving (.reuse _) => 0
  | .resolving (.conclude _) => 0

/-- The request has claimed its key and has not tried yet to put an id into the table. -/
structure Races (past : List (TableAccess κ ε))
    (engagement : Engagement (KeyRequest κ ε) Registration) : Prop where
  claimant : (inquiry engagement).IsClaimant
  claimed : ∃ claim ∈ past, claim.turn = engagement.turn ∧ claim.phase = .resolving .claim
  untried : ∀ other ∈ past, other.turn = engagement.turn →
    ∀ drawn, other.phase ≠ .resolving (.replace drawn)

omit [DecidableEq κ] in
theorem forgone_concat (past : List (TableAccess κ ε)) (access : TableAccess κ ε) :
    forgone (past ++ [access]) = forgone past ++ (forgone? access).toList := by
  rw [forgone, List.filterMap_append, filterMap_singleton]
  rfl

/-- The rank of a request falls with every access. -/
theorem rank_lt_of_step {request : KeyRequest κ ε} {phase next : Registration}
    {before after : IdTable κ} (made : step request phase before = (.continues next, after)) :
    rank next < rank phase := by
  cases phase with
  | announcing id =>
    simp only [step] at made
    split at made <;> cases made
    exact Nat.zero_lt_one
  | resolving phase =>
    have moved := congrArg Prod.fst made
    simp only [step] at moved
    cases phase <;> grind [Resolution.step, rank]

theorem rank_lt_of_next {access : TableAccess κ ε} {next : Engagement (KeyRequest κ ε) Registration}
    (made : procedure.step access.job access.phase access.before = (access.moved, access.after))
    (goesOn : access.next? = some next) : rank next.phase < rank access.phase := by
  obtain ⟨turn, request, phase, before, moved, after⟩ := access
  cases moved with
  | continues phase =>
    cases goesOn
    exact rank_lt_of_step made
  | finished outcome => cases goesOn

/-- An id that a request has in hand or draws goes into the table, is given up, or stays in hand. -/
theorem draws_balance {access : TableAccess κ ε}
    (made : step access.job access.phase access.before = (access.moved, access.after)) :
    (inquiry access.engagement).candidate?.toList.length + draws access =
      (opened? access).toList.length + (forgone? access).toList.length +
        (access.next?.bind fun next => (inquiry next).candidate?).toList.length := by
  obtain ⟨turn, request, phase, before, moved, after⟩ := access
  cases moves_of_step made with
  | @continues phase next after resolved =>
    have moved := congrArg Prod.fst resolved
    cases phase with
    | lookup | claim =>
      simp only [Resolution.step] at moved
      repeat' split at moved
      all_goals cases moved
      all_goals rfl
    | draw =>
      have tried : Resolution.replace before.upcoming = next := Lookup.continues.inj moved
      subst tried
      rfl
    | replace drawn =>
      simp only [Resolution.step] at moved
      split at moved <;> cases moved
      rfl
    | reuse | conclude => cases moved
  | announces resolved =>
    obtain ⟨rfl, -, -⟩ := Resolution.announces_iff.mp resolved
    rfl
  | @returns phase id after resolved =>
    have moved := congrArg Prod.fst resolved
    cases phase with
    | lookup | reuse | conclude => rfl
    | draw => cases moved
    | claim | replace =>
      simp only [Resolution.step] at moved
      repeat' split at moved
      all_goals cases moved
  | announced | fails | panics => rfl

omit [DecidableEq κ] in
theorem draws_eq (access : TableAccess κ ε) :
    draws access = if rank access.phase = 3 then 1 else 0 := by
  unfold draws
  split <;> rename_i phase same <;> rw [same]
  · cases phase <;> rfl
  · rfl

omit [DecidableEq κ] in
/-- Accesses of falling ranks draw one id at most. -/
theorem drawn_le_one {past : List (TableAccess κ ε)}
    (falls : past.Pairwise fun first second => rank second.phase < rank first.phase) :
    drawn past ≤ 1 := by
  induction falls with
  | nil => exact Nat.zero_le 1
  | @cons access rest lower falls ih =>
    change draws access + drawn rest ≤ 1
    rw [draws_eq]
    split
    · rename_i atDraw
      have silent : drawn rest = 0 := by
        refine List.sum_eq_zero_iff_forall_eq_nat.mpr fun count member => ?_
        obtain ⟨other, inside, rfl⟩ := List.mem_map.mp member
        have below := lower other inside
        rw [draws_eq, if_neg (by omega)]
      omega
    · omega

omit [DecidableEq κ] in
theorem two_le_rank {engagement : Engagement (KeyRequest κ ε) Registration}
    (claimant : (inquiry engagement).IsClaimant) : 2 ≤ rank engagement.phase := by
  obtain ⟨turn, request, phase⟩ := engagement
  cases phase with
  | announcing id => exact claimant.elim
  | resolving phase =>
    cases phase with
    | draw | replace => exact Nat.le_of_ble_eq_true rfl
    | lookup | claim | reuse | conclude => exact claimant.elim

section Runs

variable (work : List (List (KeyRequest κ ε))) (schedule : List Nat)

/-- Each id that has been drawn has been announced or given up, or is in the hands of a request. -/
theorem drawn_run :
    drawn ((Interleaving.fresh {} work).accesses procedure schedule) =
      (announcements ((Interleaving.fresh {} work).accesses procedure schedule)).length +
        (forgone ((Interleaving.fresh {} work).accesses procedure schedule)).length +
        (untried ((Interleaving.fresh {} work).run procedure schedule)).length := by
  refine Interleaving.run_induction (motive := fun requests past => drawn past =
    (announcements past).length + (forgone past).length + (untried requests).length)
    procedure (Interleaving.fresh {} work) ?_ ?_ ?_ schedule
  · rw [untried, Interleaving.underway_fresh]
    rfl
  · intro requests past number strand request rest kept found idle next
    obtain ⟨earlier, later, before, after⟩ :=
      Interleaving.underway_afterStart procedure request rest found idle
    rw [kept, untried, untried, before, after]
    simp [inquiry, procedure, Inquiry.candidate?]
  · intro requests past strand access kept makes
    obtain ⟨earlier, later, before, after⟩ := makes.underway
    have balance := draws_balance makes.made
    rw [untried, before, List.filterMap_append, List.filterMap_append, filterMap_singleton] at kept
    rw [drawn_concat, announcements_concat, forgone_concat, untried, after, List.filterMap_append,
      List.filterMap_append, filterMap_toList]
    simp only [List.length_append] at kept ⊢
    omega

/-- The keys that have ids are those that have been announced. -/
theorem length_registeredKeys
    (few : drawn ((Interleaving.fresh {} work).accesses procedure schedule) < 2 ^ 32) :
    ((Interleaving.fresh {} work).run procedure schedule).shared.registeredKeys.length =
      (announcements ((Interleaving.fresh {} work).accesses procedure schedule)).length := by
  have consistent := consistent_run work schedule few
  have same : ((Interleaving.fresh {} work).run procedure schedule).shared.registeredKeys.Perm
      ((announcements ((Interleaving.fresh {} work).accesses procedure schedule)).map
        Prod.fst) := by
    refine (List.perm_ext_iff_of_nodup (IdTable.nodup_registeredKeys _) consistent.once).mpr ?_
    intro key
    rw [IdTable.mem_registeredKeys, Option.isSome_iff_exists, List.mem_map]
    simp only [consistent.find?_iff, Prod.exists, exists_and_right, exists_eq_right]
  rw [same.length_eq, List.length_map]

/-- Every access that a request has made has had a higher rank than the request has now. -/
theorem ranks_run {engagement : Engagement (KeyRequest κ ε) Registration}
    (member : engagement ∈ ((Interleaving.fresh {} work).run procedure schedule).underway) :
    ∀ other ∈ (Interleaving.fresh {} work).accesses procedure schedule,
      other.turn = engagement.turn → rank engagement.phase < rank other.phase :=
  (Interleaving.ranks_above procedure {} work rank (fun _ _ => rank_lt_of_next) schedule).1
    engagement member

/-- A request that is about to draw an id or to try one has claimed its key. -/
theorem claimed_run {engagement : Engagement (KeyRequest κ ε) Registration}
    (member : engagement ∈ ((Interleaving.fresh {} work).run procedure schedule).underway)
    (claimant : (inquiry engagement).IsClaimant) :
    ∃ claim ∈ (Interleaving.fresh {} work).accesses procedure schedule,
      claim.turn = engagement.turn ∧ claim.phase = .resolving .claim := by
  refine (Interleaving.underway_induction (motive := fun past engagement =>
    (inquiry engagement).IsClaimant →
      ∃ claim ∈ past, claim.turn = engagement.turn ∧ claim.phase = .resolving .claim)
    procedure {} work ?_ ?_ ?_ schedule).1 engagement member claimant
  · intro past turn request silent claimant
    exact claimant.elim
  · intro past access engagement different kept claimant
    obtain ⟨claim, before, facts⟩ := kept claimant
    exact ⟨claim, List.mem_append_left _ before, facts⟩
  · rintro past ⟨turn, request, phase, before, moved, after⟩ next made goesOn kept claimant
    cases moves_of_step made with
    | @continues phase following after resolved =>
      cases goesOn
      have moved := congrArg Prod.fst resolved
      cases phase with
      | claim => exact ⟨_, List.mem_append_right _ (List.mem_singleton.mpr rfl), rfl, rfl⟩
      | draw =>
        obtain ⟨claim, earlier, facts⟩ := kept trivial
        exact ⟨claim, List.mem_append_left _ earlier, facts⟩
      | lookup | replace =>
        simp only [Resolution.step] at moved
        split at moved <;> cases moved
        exact claimant.elim
      | reuse | conclude => cases moved
    | announces | announced =>
      cases goesOn
      exact claimant.elim
    | returns | fails | panics => cases goesOn

/-- A request draws an id once at most. -/
theorem drawn_of_turn (turn : Turn) :
    drawn (((Interleaving.fresh {} work).accesses procedure schedule).filter
      fun access => access.turn = turn) ≤ 1 := by
  apply drawn_le_one
  have falls := (Interleaving.ranks_fall procedure {} work rank (fun _ _ => rank_lt_of_next)
    schedule).filter fun access => access.turn = turn
  refine falls.imp_of_mem fun inside insideToo lower => lower ?_
  have own := (List.mem_filter.mp inside).2
  have ownToo := (List.mem_filter.mp insideToo).2
  simp only [decide_eq_true_eq] at own ownToo
  exact own.trans ownToo.symm

end Runs

/-- A key is pending only while a request for it races, and the ids that have been drawn are those
of the keys, those that have been given up and those that requests have in hand. -/
theorem draws_accounted (work : List (List (KeyRequest κ ε))) (schedule : List Nat)
    (few : drawn ((Interleaving.fresh {} work).accesses procedure schedule) < 2 ^ 32 - 1) :
    let past := (Interleaving.fresh {} work).accesses procedure schedule
    let state := (Interleaving.fresh {} work).run procedure schedule
    (∀ key, state.shared.ids.find? key = some IdTable.pending →
      ∃ engagement ∈ state.underway, engagement.job.key = key ∧ Races past engagement) ∧
    (state.underway = [] →
      (∀ key ∈ state.shared.ids.keys, ∃ id, state.shared.ids.find? key = some id ∧
        id ≠ IdTable.pending) ∧
      state.shared.size = state.shared.registeredKeys.length) ∧
    state.shared.upcoming.toNat - 1 =
      state.shared.registeredKeys.length + (forgone past).length + (untried state).length ∧
    (∀ key id, state.shared.ids.find? key = some id → id < state.shared.upcoming) ∧
    ∀ turn, drawn (past.filter fun access => access.turn = turn) ≤ 1 := by
  intro past state
  have room : drawn past < 2 ^ 32 := Nat.lt_of_lt_of_le few (Nat.sub_le _ 1)
  have consistent := consistent_run work schedule room
  have upcoming : state.shared.upcoming.toNat = drawn past + 1 := by
    rw [consistent.upcoming]
    exact UInt32.toNat_ofNat_of_lt' (Nat.add_lt_of_lt_sub few)
  have races (key : κ) (pending : state.shared.ids.find? key = some IdTable.pending) :
      ∃ engagement ∈ state.underway, engagement.job.key = key ∧ Races past engagement := by
    obtain ⟨_, member, own, claimant⟩ := consistent.claimed key pending
    obtain ⟨engagement, underway, rfl⟩ := List.mem_map.mp member
    refine ⟨engagement, underway, own, claimant, claimed_run work schedule underway claimant, ?_⟩
    intro other before sameTurn drawn trying
    have lower := ranks_run work schedule underway other before sameTurn
    have bound := two_le_rank claimant
    rw [trying] at lower
    exact absurd lower (Nat.not_lt.mpr bound)
  have settled (idle : state.underway = []) (key : κ) (member : key ∈ state.shared.ids.keys) :
      ∃ id, state.shared.ids.find? key = some id ∧ id ≠ IdTable.pending := by
    obtain ⟨id, found⟩ := Option.isSome_iff_exists.mp ((Table.isSome_find? _ _).mpr member)
    refine ⟨id, found, ?_⟩
    rintro rfl
    obtain ⟨engagement, underway, -⟩ := races key found
    rw [idle] at underway
    cases underway
  refine ⟨races, fun idle => ⟨settled idle, ?_⟩, ?_, ?_, drawn_of_turn work schedule⟩
  · have all : state.shared.registeredKeys = state.shared.ids.keys := by
      refine List.filter_eq_self.mpr fun key member => ?_
      obtain ⟨id, found, registered⟩ := settled idle key member
      rw [IdTable.find?_eq_some.mpr ⟨found, registered⟩]
      rfl
    rw [all, Table.length_keys]
    rfl
  · rw [upcoming, Nat.add_sub_cancel, length_registeredKeys work schedule room]
    exact drawn_run work schedule
  · intro key id found
    rw [UInt32.lt_iff_toNat_lt, upcoming]
    by_cases pending : id = IdTable.pending
    · rw [pending]
      exact Nat.succ_pos _
    · have stored := (consistent.find?_iff key id).mp (IdTable.find?_eq_some.mpr ⟨found, pending⟩)
      have used : id ∈ idsInUse (announcements past) (state.underway.map inquiry) :=
        List.mem_append_left _ (List.mem_map_of_mem stored)
      exact Nat.lt_succ_of_le (consistent.bounds id used).2

/-- Three requests draw for one key: one of them has got it, one has lost, and one still has its id
in hand. Another key is still pending. -/
theorem draws_accounted_race :
    let work : List (List (KeyRequest Nat String)) :=
      [[⟨7, .returned ()⟩], [⟨7, .failed "refused"⟩], [⟨7, .returned ()⟩], [⟨8, .returned ()⟩]]
    let schedule := [0, 0, 0, 1, 1, 1, 2, 2, 2, 0, 1, 2, 1, 0, 3, 3, 3]
    drawn ((Interleaving.fresh {} work).accesses procedure schedule) < 2 ^ 32 - 1 ∧
      ((Interleaving.fresh {} work).run procedure schedule).shared.ids.find? 8 =
        some IdTable.pending ∧
      (∃ engagement ∈ ((Interleaving.fresh {} work).run procedure schedule).underway,
        engagement.job.key = 8 ∧
          Races ((Interleaving.fresh {} work).accesses procedure schedule) engagement) ∧
      forgone ((Interleaving.fresh {} work).accesses procedure schedule) = [1] ∧
      untried ((Interleaving.fresh {} work).run procedure schedule) = [3] := by
  intro work schedule
  have few : drawn ((Interleaving.fresh {} work).accesses procedure schedule) < 2 ^ 32 - 1 := by
    decide
  have pending : ((Interleaving.fresh {} work).run procedure schedule).shared.ids.find? 8 =
      some IdTable.pending := by
    decide
  have accounted := draws_accounted work schedule few
  exact ⟨few, pending, accounted.1 8 pending, by decide, by decide⟩

end Registration

end TraceRelay
