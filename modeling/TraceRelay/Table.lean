/-! Finite tables with distinct keys, in the order in which the keys were first inserted. -/

namespace TraceRelay

/-- The table lists each of its keys once, oldest key first. -/
@[ext] structure Table (κ α : Type) where
  entries : List (κ × α) := []
  distinct : (entries.map Prod.fst).Nodup := by exact List.nodup_nil
deriving Repr

namespace Table

variable {κ α : Type}

instance : Inhabited (Table κ α) := ⟨{}⟩

instance [DecidableEq κ] [DecidableEq α] : DecidableEq (Table κ α) := fun first second =>
  decidable_of_iff (first.entries = second.entries) Table.ext_iff.symm

/-- The keys of the table, oldest first. -/
def keys (table : Table κ α) : List κ := table.entries.map Prod.fst

/-- The number of keys. -/
def size (table : Table κ α) : Nat := table.entries.length

theorem keys_nodup (table : Table κ α) : table.keys.Nodup := table.distinct

theorem length_keys (table : Table κ α) : table.keys.length = table.size := by
  simp [keys, size]

@[simp] theorem size_empty : ({} : Table κ α).size = 0 := rfl

@[simp] theorem keys_empty : ({} : Table κ α).keys = [] := rfl

variable [DecidableEq κ]

/-- The first value listed under `key`. -/
def findIn (key : κ) : List (κ × α) → Option α
  | [] => none
  | (other, value) :: rest => if other = key then some value else findIn key rest

/-- The list with `value` under `key`: in the place of the old value, or at the end. -/
def insertIn (key : κ) (value : α) : List (κ × α) → List (κ × α)
  | [] => [(key, value)]
  | (other, old) :: rest =>
    if other = key then (key, value) :: rest else (other, old) :: insertIn key value rest

theorem keys_insertIn (key : κ) (value : α) (entries : List (κ × α)) :
    (insertIn key value entries).map Prod.fst =
      if key ∈ entries.map Prod.fst then entries.map Prod.fst
      else entries.map Prod.fst ++ [key] := by
  induction entries with
  | nil => simp [insertIn]
  | cons entry rest ih =>
    obtain ⟨other, old⟩ := entry
    by_cases same : other = key
    · simp [insertIn, same]
    · have different : key ≠ other := Ne.symm same
      simp only [insertIn, same, if_false, List.map_cons, ih, List.mem_cons, different, false_or]
      split <;> simp

theorem findIn_insertIn (key other : κ) (value : α) (entries : List (κ × α)) :
    findIn other (insertIn key value entries) =
      if other = key then some value else findIn other entries := by
  induction entries with
  | nil => by_cases same : other = key <;> simp [insertIn, findIn, same, Ne.symm (a := other)]
  | cons entry rest ih =>
    obtain ⟨first, old⟩ := entry
    by_cases atFirst : first = key
    · subst atFirst
      by_cases same : other = first
      · simp [insertIn, findIn, same]
      · simp [insertIn, findIn, same, Ne.symm same]
    · by_cases same : other = key
      · subst same
        simp [insertIn, findIn, atFirst, ih]
      · simp [insertIn, findIn, atFirst, ih, same]

theorem insertIn_of_findIn {key : κ} {value : α} {entries : List (κ × α)}
    (found : findIn key entries = some value) : insertIn key value entries = entries := by
  induction entries with
  | nil => cases found
  | cons entry rest ih =>
    obtain ⟨other, old⟩ := entry
    by_cases same : other = key
    · simp only [findIn, same, if_true, Option.some.injEq] at found
      simp [insertIn, same, found]
    · simp only [findIn, same, if_false] at found
      simp [insertIn, same, ih found]

theorem findIn_filter (test : κ → Bool) (key : κ) (entries : List (κ × α)) :
    findIn key (entries.filter fun entry => test entry.1) =
      if test key then findIn key entries else none := by
  induction entries with
  | nil => simp [findIn]
  | cons entry rest ih =>
    obtain ⟨other, value⟩ := entry
    by_cases same : other = key
    · subst same
      by_cases kept : test other <;> simp [findIn, kept, ih]
    · by_cases kept : test other <;> simp [findIn, kept, ih, same]

theorem findIn_isSome (key : κ) (entries : List (κ × α)) :
    (findIn key entries).isSome ↔ key ∈ entries.map Prod.fst := by
  induction entries with
  | nil => simp [findIn]
  | cons entry rest ih =>
    obtain ⟨other, value⟩ := entry
    by_cases same : other = key
    · simp [findIn, same]
    · simpa [findIn, same, Ne.symm same] using ih

/-- The value under `key`. -/
def find? (table : Table κ α) (key : κ) : Option α := findIn key table.entries

/-- The table with `value` under `key`. A new key goes to the end, an old one keeps its place. -/
def insert (table : Table κ α) (key : κ) (value : α) : Table κ α where
  entries := insertIn key value table.entries
  distinct := by
    rw [keys_insertIn]
    split
    · exact table.distinct
    · rename_i absent
      exact List.nodup_append.2 ⟨table.distinct, by simp, by
        intro first inOld second isKey same
        have isKey := List.mem_singleton.1 isKey
        exact absent (isKey ▸ same ▸ inOld)⟩

/-- The table without the keys that fail `test`. -/
def keep (table : Table κ α) (test : κ → Bool) : Table κ α where
  entries := table.entries.filter fun entry => test entry.1
  distinct := List.Nodup.sublist (List.filter_sublist.map Prod.fst) table.distinct

/-- The table without `key`. -/
def erase (table : Table κ α) (key : κ) : Table κ α := table.keep (· ≠ key)

@[simp] theorem find?_empty (key : κ) : (({} : Table κ α).find? key) = none := rfl

theorem find?_insert (table : Table κ α) (key other : κ) (value : α) :
    (table.insert key value).find? other =
      if other = key then some value else table.find? other :=
  findIn_insertIn key other value table.entries

/-- Putting a value under a key that has it already changes nothing. -/
theorem insert_of_found {table : Table κ α} {key : κ} {value : α}
    (found : table.find? key = some value) : table.insert key value = table :=
  Table.ext (insertIn_of_findIn found)

theorem find?_keep (table : Table κ α) (test : κ → Bool) (key : κ) :
    (table.keep test).find? key = if test key then table.find? key else none :=
  findIn_filter test key table.entries

theorem find?_erase (table : Table κ α) (key other : κ) :
    (table.erase key).find? other = if other = key then none else table.find? other := by
  simp only [erase, find?_keep]
  by_cases same : other = key <;> simp [same]

theorem isSome_find? (table : Table κ α) (key : κ) :
    (table.find? key).isSome ↔ key ∈ table.keys :=
  findIn_isSome key table.entries

theorem keys_insert (table : Table κ α) (key : κ) (value : α) :
    (table.insert key value).keys =
      if key ∈ table.keys then table.keys else table.keys ++ [key] :=
  keys_insertIn key value table.entries

end Table

end TraceRelay
