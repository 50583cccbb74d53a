import TraceRelay.Proofs.Reporting.Registers

/-! The keys that have an id are those that any call has ever looked up. -/

namespace TraceRelay

variable {κ : Type} [DecidableEq κ]

/-- The key for which an access begins a lookup. -/
def Inquiry.seeks? : Option (Inquiry κ) → Option κ
  | some (key, .resolving .lookup) => some key
  | _ => none

/-- The table, the lookups in progress and the keys for which lookups have begun fit each other. -/
structure IdTable.Searched (table : IdTable κ) (inquiries : List (Inquiry κ)) (sought : List κ) :
    Prop where
  keys : table.ids.keys ⊆ sought
  begun : ∀ inquiry ∈ inquiries, inquiry.2 = .resolving .lookup ∨ inquiry.1 ∈ sought
  held : ∀ key ∈ sought, key ∈ table.ids.keys ∨ (key, .resolving .claim) ∈ inquiries

namespace IdTable.Searched

variable {table after : IdTable κ} {earlier later : List (Inquiry κ)} {own : List (Inquiry κ)}
  {sought : List κ}

omit [DecidableEq κ] in
theorem empty : ({} : IdTable κ).Searched [] [] where
  keys _ member := (List.not_mem_nil member).elim
  begun _ member := (List.not_mem_nil member).elim
  held _ member := (List.not_mem_nil member).elim

omit [DecidableEq κ] in
/-- An access that leaves the other lookups as they are keeps all fitting, if what it puts into the
table is sought, and what is sought and not in the table is about to be claimed. -/
theorem move (next : List (Inquiry κ)) (more : List κ)
    (searched : table.Searched (earlier ++ own ++ later) sought)
    (grown : table.ids.keys ⊆ after.ids.keys) (keys : ∀ key ∈ after.ids.keys,
      key ∈ table.ids.keys ∨ key ∈ sought)
    (begun : ∀ inquiry ∈ next, inquiry.2 = .resolving .lookup ∨ inquiry.1 ∈ sought ++ more)
    (claims : ∀ key, (key, .resolving .claim) ∈ own → key ∈ after.ids.keys)
    (new : ∀ key ∈ more, key ∈ after.ids.keys ∨ (key, .resolving .claim) ∈ next) :
    after.Searched (earlier ++ next ++ later) (sought ++ more) where
  keys key member :=
    List.mem_append_left _ ((keys key member).elim (fun old => searched.keys old) id)
  begun inquiry member := by
    simp only [List.mem_append] at member
    rcases member with (before | inside) | behind
    · exact (searched.begun inquiry (by simp [before])).imp_right (List.mem_append_left _)
    · exact begun inquiry inside
    · exact (searched.begun inquiry (by simp [behind])).imp_right (List.mem_append_left _)
  held key member := by
    rcases List.mem_append.mp member with old | added
    · rcases searched.held key old with inside | claim
      · exact .inl (grown inside)
      · simp only [List.mem_append] at claim ⊢
        rcases claim with (before | inside) | behind
        · exact .inr (.inl (.inl before))
        · exact .inl (claims key inside)
        · exact .inr (.inr behind)
    · refine (new key added).imp_right fun inside => ?_
      simp [inside]

/-- A lookup makes an access of the table. Then it goes on with the same key, or ends. -/
theorem resolve {key : κ} {phase : Resolution} (next : List (Inquiry κ))
    (searched : table.Searched (earlier ++ [(key, .resolving phase)] ++ later) sought)
    (same : ∀ inquiry ∈ next, inquiry.1 = key)
    (goesOn : (phase.step key table).1 = .continues .claim → (key, .resolving .claim) ∈ next) :
    (phase.step key table).2.Searched (earlier ++ next ++ later)
      (sought ++ (Inquiry.seeks? (some (key, .resolving phase))).toList) := by
  have own : phase = .lookup ∨ key ∈ sought := by
    simpa using searched.begun (key, .resolving phase) (by simp)
  have seeks (first : phase = .lookup) :
      key ∈ (Inquiry.seeks? (some (key, Registration.resolving phase))).toList := by
    subst first
    simp [Inquiry.seeks?]
  apply searched.move next _ (phase.extends_step key table).keys
  · intro other member
    have put : other ∈ table.ids.keys ∨ (other = key ∧ phase ≠ .lookup) := by
      cases phase <;> grind [Resolution.step, Table.keys_insert]
    refine put.imp_right ?_
    rintro ⟨rfl, different⟩
    exact own.resolve_left different
  · intro inquiry member
    right
    rw [same inquiry member]
    exact List.mem_append.mpr (own.symm.imp_right seeks)
  · intro other claims
    obtain ⟨rfl, rfl⟩ : other = key ∧ Resolution.claim = phase := by simpa using claims
    have present := Table.isSome_find? table.ids other
    grind [Resolution.step, Table.keys_insert]
  · intro other member
    cases phase with
    | claim | draw | replace | reuse | conclude => simp [Inquiry.seeks?] at member
    | lookup =>
      obtain rfl : other = key := by simpa [Inquiry.seeks?] using member
      cases found : table.find? other with
      | none => exact .inr (goesOn (by rw [Resolution.step, found]))
      | some id =>
        left
        rw [Resolution.step, found]
        exact (Table.isSome_find? _ _).mp (by rw [(IdTable.find?_eq_some.mp found).1]; rfl)

end IdTable.Searched

/-- Each access keeps the table and the lookups that have begun fitting. -/
theorem Inquiry.Uses.searched {table after : IdTable κ} {own next : Option (Inquiry κ)}
    {earlier later : List (Inquiry κ)} {sought : List κ} (uses : Uses table own next after)
    (searched : table.Searched (earlier ++ own.toList ++ later) sought) :
    after.Searched (earlier ++ next.toList ++ later) (sought ++ (seeks? own).toList) := by
  cases uses with
  | nothing | delivers => simpa [seeks?] using searched
  | begins key =>
    exact searched.move [(key, .resolving .lookup)] [] (fun _ member => member) (fun _ => .inl)
      (by simp) (by simp) (by simp)
  | @continues key phase next _ resolved =>
    have kept := searched.resolve [(key, .resolving next)] (by simp) (by simp [resolved, eq_comm])
    rwa [resolved] at kept
  | @announces key phase id _ resolved =>
    have kept := searched.resolve [(key, .announcing id)] (by simp) (by simp [resolved])
    rwa [resolved] at kept
  | @returns key phase id _ resolved =>
    have kept := searched.resolve [] (by simp) (by simp [resolved])
    rwa [resolved] at kept
  | announced key id =>
    have own := searched.begun (key, .announcing id) (by simp)
    exact searched.move [(key, .resolving (.conclude id))] [] (fun _ member => member)
      (fun _ => .inl) (by simpa using own) (by simp) (by simp)
  | fails key id =>
    exact searched.move [] [] (fun _ member => member) (fun _ => .inl) (by simp) (by simp)
      (by simp)

namespace OpenSite

variable {π ε β δ : Type}

/-- The keys for which accesses have begun lookups in a table, in order. -/
def sought (register : Register) (past : List (SiteAccess π ε β δ)) : List String :=
  past.filterMap fun access => Inquiry.seeks? (access.phase.inquiry? register)

theorem sought_concat (register : Register) (past : List (SiteAccess π ε β δ))
    (access : SiteAccess π ε β δ) : sought register (past ++ [access]) =
      sought register past ++ (Inquiry.seeks? (access.phase.inquiry? register)).toList := by
  rw [sought, List.filterMap_append, filterMap_singleton]
  rfl

/-- No call is in progress. -/
def Rests (traffic : Traffic π ε β δ) : Prop :=
  ∀ engagement ∈ traffic.underway, engagement.phase.call? = none

variable [Clearable β] [BufferSupply π β] [EventEncoder ε β]

/-- The tables of an open site fit the lookups that have begun, in every run. -/
theorem searched_run (register : Register) (obeys : δ → π × ε → π × ε) (site : Site π ε)
    (new : register.table site.reporter = {}) (work : List (List (Job δ))) (schedule : List Nat) :
    (register.table ((Interleaving.fresh site work).run (procedure obeys)
      schedule).shared.reporter).Searched
      (((Interleaving.fresh site work).run (procedure obeys) schedule).underway.filterMap
        fun engagement => engagement.phase.inquiry? register)
      (sought register ((Interleaving.fresh site work).accesses (procedure obeys) schedule)) := by
  refine Interleaving.run_induction (motive := fun traffic past =>
    (register.table traffic.shared.reporter).Searched (traffic.underway.filterMap
      fun engagement => engagement.phase.inquiry? register) (sought register past))
    (procedure obeys) _ ?_ ?_ ?_ schedule
  · rw [Interleaving.underway_fresh]
    change (register.table site.reporter).Searched [] []
    rw [new]
    exact IdTable.Searched.empty
  · intro traffic past number strand job jobs searched found idle next
    obtain ⟨earlier, later, before, after⟩ :=
      Interleaving.underway_afterStart (procedure obeys) job jobs found idle
    have start : ((procedure obeys : Procedure (Site π ε) _ (Phase β δ) _).start job).inquiry?
        register = none := inquiry?_start register job
    rw [before] at searched
    rw [after]
    simp only [List.append_nil, List.filterMap_append, List.filterMap_cons, List.filterMap_nil,
      start] at searched ⊢
    exact searched
  · intro traffic past strand access searched makes
    obtain ⟨earlier, later, before, after⟩ := makes.underway
    have uses := uses_of_step register makes.made
    rw [before, ← makes.before] at searched
    rw [after, sought_concat]
    simp only [List.filterMap_append, filterMap_singleton, filterMap_toList] at searched ⊢
    exact uses.searched searched

/-- While no call is in progress a key has an id just if a lookup of it has ever begun, and no key
is marked as pending. -/
theorem settled_of_rests (register : Register) (obeys : δ → π × ε → π × ε) (site : Site π ε)
    (new : register.table site.reporter = {}) (work : List (List (Job δ))) (schedule : List Nat)
    (few : drawn register ((Interleaving.fresh site work).accesses (procedure obeys) schedule)
      < 2 ^ 32)
    (rests : Rests ((Interleaving.fresh site work).run (procedure obeys) schedule :
      Traffic π ε β δ)) (key : String) :
    let table := register.table ((Interleaving.fresh site work : Traffic π ε β δ).run
      (procedure obeys) schedule).shared.reporter
    ((table.find? key).isSome ↔ key ∈ sought register
      ((Interleaving.fresh site work).accesses (procedure obeys) schedule)) ∧
      table.ids.find? key ≠ some IdTable.pending := by
  intro table
  have searched := searched_run register obeys site new work schedule
  have consistent := consistent_run register site new work schedule few
  have nothing : ((Interleaving.fresh site work).run (procedure obeys) schedule).underway.filterMap
      (fun engagement => engagement.phase.inquiry? register) = [] := by
    apply List.filterMap_eq_nil_iff.mpr
    intro engagement member
    rw [Phase.inquiry?, rests engagement member]
    rfl
  rw [nothing] at searched consistent
  have unmarked : table.ids.find? key ≠ some IdTable.pending := by
    intro marked
    obtain ⟨inquiry, member, -⟩ := consistent.claimed key marked
    cases member
  refine ⟨⟨fun found => ?_, fun member => ?_⟩, unmarked⟩
  · obtain ⟨id, stored⟩ := Option.isSome_iff_exists.mp found
    refine searched.keys ((Table.isSome_find? _ _).mp ?_)
    change (table.ids.find? key).isSome
    rw [(IdTable.find?_eq_some.mp stored).1]
    rfl
  · have inside := (searched.held key member).resolve_right List.not_mem_nil
    obtain ⟨id, stored⟩ := Option.isSome_iff_exists.mp ((Table.isSome_find? _ _).mpr inside)
    have nonzero : id ≠ IdTable.pending := fun zero => unmarked (zero ▸ stored)
    rw [IdTable.find?_eq_some.mpr ⟨stored, nonzero⟩]
    rfl

end OpenSite

end TraceRelay
