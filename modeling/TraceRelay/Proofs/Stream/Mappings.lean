import Mathlib.Data.List.Nodup
import TraceRelay.Proofs.Reporting.Registers
import TraceRelay.Reporting.Legend

/-! What a stream of events teaches about the ids of methods and exceptions. -/

namespace TraceRelay

/-- The text that an event maps in a table, and its id. -/
def Register.mapping? : Register → Event → Option (String × UInt32)
  | .methods, .methodMapping id signature => some (signature, id)
  | .exceptions, .exceptionMapping id exception => some (exception, id)
  | _, _ => none

/-- The text of an activity that has its id in a table. -/
def Register.names? (register : Register) (activity : Activity String String) : Option String :=
  match register with
  | .methods => some activity.method
  | .exceptions => activity.raised?

/-- The texts that a stream maps in a table, with their ids, in order. -/
def Register.mappings (register : Register) (stream : List Event) : List (String × UInt32) :=
  stream.filterMap register.mapping?

/-- What a legend knows about the ids of a table. -/
def Legend.known (legend : Legend) : Register → Table UInt32 String
  | .methods => legend.methods
  | .exceptions => legend.exceptions

theorem Register.mappings_concat (register : Register) (stream : List Event) (event : Event) :
    register.mappings (stream ++ [event]) =
      register.mappings stream ++ (register.mapping? event).toList := by
  rw [mappings, List.filterMap_append, filterMap_singleton]
  rfl

namespace Legend

theorem ofEvents_concat (stream : List Event) (event : Event) :
    ofEvents (stream ++ [event]) = (ofEvents stream).learn event := by
  simp [ofEvents]

theorem readStream_append (legend : Legend) (stream more : List Event) :
    legend.readStream (stream ++ more) =
      legend.readStream stream ++ (stream.foldl learn legend).readStream more := by
  induction stream generalizing legend with
  | nil => rfl
  | cons event rest ih =>
    simp only [List.cons_append, readStream, List.foldl_cons]
    split
    · rw [ih, List.cons_append]
    · rw [ih]

/-- A sequenced event at the end of a stream is read by what the stream has taught. -/
theorem readStream_concat (stream : List Event) (event : Event) :
    ({} : Legend).readStream (stream ++ [event]) = ({} : Legend).readStream stream ++
      if event.stamp?.isSome then [(ofEvents stream).read? event] else [] := by
  rw [readStream_append]
  cases stamped : event.stamp? <;> simp [readStream, stamped, ofEvents]

/-- What a legend knows of a table changes with the mappings of the table only. -/
theorem known_learn (legend : Legend) (event : Event) (register : Register) :
    (legend.learn event).known register =
      match register.mapping? event with
      | some (text, id) => (legend.known register).insert id text
      | none => legend.known register := by
  cases register <;> cases event <;> rfl

/-- All that a legend knows of a table has been mapped. -/
theorem mem_mappings_of_known {register : Register} {stream : List Event} {text : String}
    {id : UInt32} (known : ((ofEvents stream).known register).find? id = some text) :
    (text, id) ∈ register.mappings stream := by
  induction stream using List.reverseRecOn with
  | nil => cases register <;> simp [ofEvents, Legend.known] at known
  | append_singleton stream event ih =>
    rw [ofEvents_concat, known_learn] at known
    rw [Register.mappings_concat]
    cases maps : register.mapping? event with
    | none =>
      rw [maps] at known
      exact List.mem_append_left _ (ih known)
    | some mapping =>
      obtain ⟨newText, newId⟩ := mapping
      rw [maps] at known
      simp only [Table.find?_insert] at known
      split at known
      · rename_i same
        cases known
        rw [same]
        exact List.mem_append_right _ (List.mem_singleton.mpr rfl)
      · exact List.mem_append_left _ (ih known)

/-- If no id is mapped twice, the legend of a stream knows all mappings of the stream. -/
theorem known_of_mem_mappings {register : Register} {stream : List Event} {text : String}
    {id : UInt32} (once : ((register.mappings stream).map Prod.snd).Nodup)
    (mapped : (text, id) ∈ register.mappings stream) :
    ((ofEvents stream).known register).find? id = some text := by
  induction stream using List.reverseRecOn with
  | nil => cases mapped
  | append_singleton stream event ih =>
    rw [ofEvents_concat, known_learn]
    rw [Register.mappings_concat] at once mapped
    cases maps : register.mapping? event with
    | none =>
      simp only [maps, Option.toList_none, List.append_nil] at once mapped
      exact ih once mapped
    | some mapping =>
      obtain ⟨newText, newId⟩ := mapping
      simp only [maps, Option.toList_some, List.map_append, List.map_cons, List.map_nil] at once
      rw [maps, Option.toList_some, List.mem_append, List.mem_singleton] at mapped
      obtain ⟨onceBefore, -, apart⟩ := List.nodup_append.mp once
      simp only [Table.find?_insert]
      rcases mapped with old | new
      · have different : id ≠ newId :=
          apart id (List.mem_map_of_mem old) newId (List.mem_singleton.mpr rfl)
        rw [if_neg different]
        exact ih onceBefore old
      · cases new
        rw [if_pos rfl]

end Legend

end TraceRelay
