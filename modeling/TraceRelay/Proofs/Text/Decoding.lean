import TraceRelay.Proofs.Relay.Lines
import TraceRelay.Proofs.Text.Numerals

/-! Lines of text are decoded, so no two lists of legible events leave the same bytes. -/

namespace TraceRelay

/-- None of the texts breaks the line that they stand in. -/
def Text.Unbroken (texts : List String) : Prop := ∀ text ∈ texts, '\n' ∉ text.toList

/-- The texts that an event bears. -/
def Event.texts : Event → List String
  | .methodMapping _ signature => [signature]
  | .exceptionMapping _ exception => [exception]
  | .threadMapping _ _ name => [name]
  | .activity _ _ _ => []
  | .marker _ key value => [key, value]

/-- The key of a marker. -/
def Event.key? : Event → Option String
  | .marker _ key _ => some key
  | _ => none

/-- No text of the event breaks its line, and the key of a marker ends where its value begins. -/
def Event.Legible (event : Event) : Prop :=
  Text.Unbroken event.texts ∧ ∀ key ∈ event.key?, '=' ∉ key.toList

instance : DecidablePred Text.Unbroken := fun _ => inferInstanceAs (Decidable (∀ _ ∈ _, _))

instance : DecidablePred Event.Legible := fun _ => inferInstanceAs (Decidable (_ ∧ _))

/-- The characters of the event's line, without its end. -/
def Event.characters (event : Event) : List Char := event.pieces.flatMap String.toList

theorem Event.toList_line (event : Event) : event.line.toList = event.characters ++ ['\n'] := by
  rw [line, String.toList_join, List.flatMap_append]
  rfl

theorem bytesText?_textBytes (text : String) : bytesText? (textBytes text) = some text := by
  have valid : text.toByteArray.IsValidUTF8 := text.isValidUTF8
  rw [bytesText?, textBytes, Array.toArray_toList]
  exact dif_pos valid

namespace Text

namespace Reader

theorem skip_append (text rest : List Char) : skip text (text ++ rest) = some rest := by
  induction text with
  | nil => rfl
  | cons first text ih => simp [skip, ih]

theorem after_append {α : Type} (text : String) (part : Reader α) (rest : List Char) :
    after text part (text.toList ++ rest) = part rest := by
  rw [after, skip_append, Option.bind_some]

end Reader

open Reader

/-- No digits come first in a text that starts with another character. -/
theorem undigited_append {text : String} (rest : List Char)
    (starts : ∃ first ∈ text.toList.head?, first.isDigit = false) :
    Undigited (text.toList ++ rest) := by
  obtain ⟨first, found, other⟩ := starts
  intro character member
  rw [List.head?_append, Option.mem_def.mp found, Option.some_or, Option.mem_some_iff] at member
  exact member ▸ other

theorem undigited_nil : Undigited [] := fun _ member => absurd member (Option.not_mem_none _)

theorem after_word (text : String) (number : UInt32) {rest : List Char} (stops : Undigited rest) :
    after text word (text.toList ++ (Decimal.digits number.toNat ++ rest)) =
      some (number, rest) := by
  rw [after_append, word_digits number stops]

theorem after_signed (text : String) (number : Int32) {rest : List Char} (stops : Undigited rest) :
    after text signed (text.toList ++ (Decimal.numeral number.toInt ++ rest)) =
      some (number, rest) := by
  rw [after_append, signed_numeral number stops]

/-- Every part of a line after the first number starts with a space, where no number goes on. -/
theorem stops_thread (rest : List Char) : Undigited (" thread=".toList ++ rest) :=
  undigited_append rest ⟨' ', rfl, rfl⟩

theorem stops_exception (rest : List Char) : Undigited (" exception=".toList ++ rest) :=
  undigited_append rest ⟨' ', rfl, rfl⟩

theorem stops_line (rest : List Char) : Undigited (" line=".toList ++ rest) :=
  undigited_append rest ⟨' ', rfl, rfl⟩

/-- What follows the stamp of an activity is read back. The first word tells the four kinds apart,
so the readings that are tried before the right one all refuse. -/
theorem readSequenced_activity (stamp : Stamp) (thread : ThreadId)
    (act : Activity MethodId ExceptionId) :
    readSequenced stamp ((act.pieces thread).flatMap String.toList) =
      some (.activity stamp thread act) := by
  cases act with
  | entry method =>
    simp only [Activity.pieces, List.flatMap_cons, List.flatMap_nil, Decimal.toList_ofNat]
    simp only [readSequenced, after_word, stops_thread, undigited_nil, Option.bind_eq_bind,
      Option.bind_some]
    rfl
  | exit method line =>
    simp only [Activity.pieces, List.flatMap_append, List.flatMap_cons, List.flatMap_nil,
      Decimal.toList_ofNat, Decimal.flatMap_pieces, List.append_assoc, List.nil_append]
    have entry (rest : List Char) :
        after " entry method=" word (" exit method=".toList ++ rest) = none := rfl
    simp only [readSequenced, entry, after_word, after_signed, stops_thread, stops_line,
      undigited_nil, Option.bind_eq_bind, Option.bind_some, Option.bind_none]
    rfl
  | exception raised method line =>
    simp only [Activity.pieces, List.flatMap_append, List.flatMap_cons, List.flatMap_nil,
      Decimal.toList_ofNat, Decimal.flatMap_pieces, List.append_assoc, List.nil_append]
    have entry (rest : List Char) :
        after " entry method=" word (" exception method=".toList ++ rest) = none := rfl
    have exit (rest : List Char) :
        after " exit method=" word (" exception method=".toList ++ rest) = none := rfl
    simp only [readSequenced, entry, exit, after_word, after_signed, stops_thread,
      stops_exception, stops_line, undigited_nil, Option.bind_eq_bind, Option.bind_some,
      Option.bind_none]
    rfl
  | bubble raised method =>
    simp only [Activity.pieces, List.flatMap_cons, List.flatMap_nil, Decimal.toList_ofNat]
    have entry (rest : List Char) :
        after " entry method=" word (" bubble method=".toList ++ rest) = none := rfl
    have exit (rest : List Char) :
        after " exit method=" word (" bubble method=".toList ++ rest) = none := rfl
    have exception (rest : List Char) :
        after " exception method=" word (" bubble method=".toList ++ rest) = none := rfl
    simp only [readSequenced, entry, exit, exception, after_word, stops_thread, stops_exception,
      undigited_nil, Option.bind_eq_bind, Option.bind_some, Option.bind_none]
    rfl

/-- What follows the stamp of a marker is read back. The key ends at the first equals sign. -/
theorem readSequenced_marker (stamp : Stamp) {key : String} (value : String)
    (plain : '=' ∉ key.toList) :
    readSequenced stamp ([" marker ", key, "=", value].flatMap String.toList) =
      some (.marker stamp key value) := by
  simp only [List.flatMap_cons, List.flatMap_nil, List.append_nil]
  have inside : ∀ character ∈ key.toList, decide (character ≠ '=') = true :=
    fun character member => decide_eq_true fun same => plain (same ▸ member)
  have stops : ∀ character ∈ ("=".toList ++ value.toList).head?,
      decide (character ≠ '=') = false := by
    rintro character ⟨⟩
    rfl
  obtain ⟨before, behind⟩ := span_of_stop inside stops
  have entry (rest : List Char) :
      after " entry method=" word (" marker ".toList ++ rest) = none := rfl
  have exit (rest : List Char) :
      after " exit method=" word (" marker ".toList ++ rest) = none := rfl
  have exception (rest : List Char) :
      after " exception method=" word (" marker ".toList ++ rest) = none := rfl
  have bubble (rest : List Char) :
      after " bubble method=" word (" marker ".toList ++ rest) = none := rfl
  simp only [readSequenced, entry, exit, exception, bubble, skip_append, before, behind,
    Option.bind_eq_bind, Option.bind_some, Option.bind_none, String.ofList_toList]
  exact congrArg (fun text => some (Event.marker stamp key text)) (String.ofList_toList)

/-- A stamp is read back in front of what does not go on with a digit, and so is what follows it. -/
theorem readLine_stamp (stamp : Stamp) {rest : List Char} (stops : Undigited rest) :
    readLine (stamp.pieces.flatMap String.toList ++ rest) = readSequenced stamp rest := by
  have method (rest : List Char) : after "map-method " word ("#".toList ++ rest) = none := rfl
  have exception (rest : List Char) : after "map-exception " word ("#".toList ++ rest) = none := rfl
  have thread (rest : List Char) : after "map-thread " word ("#".toList ++ rest) = none := rfl
  have time (rest : List Char) : Undigited (" @".toList ++ rest) :=
    undigited_append rest ⟨' ', rfl, rfl⟩
  simp only [Stamp.pieces, List.flatMap_append, List.flatMap_cons, List.flatMap_nil,
    Decimal.toList_ofNat, Decimal.flatMap_pieces, List.append_assoc, List.nil_append]
  simp only [readLine, method, exception, thread, time, after_word, after_signed, stops,
    Option.bind_eq_bind, Option.bind_some, Option.bind_none]
  rfl

/-- The line of an event is read back. -/
theorem readLine_characters {event : Event} (legible : event.Legible) :
    readLine event.characters = some event := by
  have space (rest : List Char) : Undigited (" ".toList ++ rest) :=
    undigited_append rest ⟨' ', rfl, rfl⟩
  have time (rest : List Char) : Undigited (" @".toList ++ rest) :=
    undigited_append rest ⟨' ', rfl, rfl⟩
  cases event with
  | methodMapping id signature =>
    simp only [Event.characters, Event.pieces, List.flatMap_cons, List.flatMap_nil,
      Decimal.toList_ofNat, List.append_nil]
    simp only [readLine, after_word, space, skip_append, Option.bind_eq_bind, Option.bind_some,
      String.ofList_toList]
    rfl
  | exceptionMapping id exception =>
    simp only [Event.characters, Event.pieces, List.flatMap_cons, List.flatMap_nil,
      Decimal.toList_ofNat, List.append_nil]
    have method (rest : List Char) :
        after "map-method " word ("map-exception ".toList ++ rest) = none := rfl
    simp only [readLine, method, after_word, space, skip_append, Option.bind_eq_bind,
      Option.bind_some, Option.bind_none, String.ofList_toList]
    rfl
  | threadMapping id timestamp name =>
    simp only [Event.characters, Event.pieces, List.flatMap_append, List.flatMap_cons,
      List.flatMap_nil, Decimal.toList_ofNat, Decimal.flatMap_pieces, List.append_assoc,
      List.append_nil]
    have method (rest : List Char) :
        after "map-method " word ("map-thread ".toList ++ rest) = none := rfl
    have exception (rest : List Char) :
        after "map-exception " word ("map-thread ".toList ++ rest) = none := rfl
    simp only [readLine, method, exception, after_word, after_signed, space, time, skip_append,
      Option.bind_eq_bind, Option.bind_some, Option.bind_none, String.ofList_toList]
    rfl
  | activity stamp thread act =>
    have stops : Undigited ((act.pieces thread).flatMap String.toList) := by
      cases act <;> exact undigited_append _ ⟨' ', rfl, rfl⟩
    rw [Event.characters, Event.pieces, List.flatMap_append, readLine_stamp stamp stops,
      readSequenced_activity]
  | marker stamp key value =>
    have stops : Undigited ([" marker ", key, "=", value].flatMap String.toList) :=
      undigited_append _ ⟨' ', rfl, rfl⟩
    rw [Event.characters, Event.pieces, List.flatMap_append, readLine_stamp stamp stops,
      readSequenced_marker stamp value (legible.2 key rfl)]

@[simp] theorem unbroken_nil : Unbroken [] := fun _ member => absurd member (List.not_mem_nil)

@[simp] theorem unbroken_cons {text : String} {texts : List String} :
    Unbroken (text :: texts) ↔ '\n' ∉ text.toList ∧ Unbroken texts :=
  List.forall_mem_cons

@[simp] theorem unbroken_append {texts more : List String} :
    Unbroken (texts ++ more) ↔ Unbroken texts ∧ Unbroken more :=
  List.forall_mem_append

@[simp] theorem unbroken_ofNat (number : Nat) : '\n' ∉ (Decimal.ofNat number).toList :=
  fun broken => by
    rw [Decimal.toList_ofNat] at broken
    cases Decimal.isDigit_of_mem_digits broken

@[simp] theorem unbroken_pieces (number : Int) : Unbroken (Decimal.pieces number) :=
  fun piece member broken => by
    have within := List.mem_flatMap.mpr ⟨piece, member, broken⟩
    rw [Decimal.flatMap_pieces] at within
    rcases Decimal.mem_numeral within with sign | digit
    · cases sign
    · cases digit

/-- Only the texts that an event bears can break its line. -/
theorem unbroken_event {event : Event} (texts : Unbroken event.texts) : Unbroken event.pieces := by
  cases event with
  | methodMapping id signature => simpa [Event.pieces, Event.texts] using texts
  | exceptionMapping id exception => simpa [Event.pieces, Event.texts] using texts
  | threadMapping id timestamp name => simpa [Event.pieces, Event.texts] using texts
  | activity stamp thread act =>
    cases act <;> simp [Event.pieces, Stamp.pieces, Activity.pieces]
  | marker stamp key value => simpa [Event.pieces, Stamp.pieces, Event.texts] using texts

theorem newline_notMem_characters {event : Event} (legible : event.Legible) :
    '\n' ∉ event.characters := fun broken =>
  have ⟨piece, member, broken⟩ := List.mem_flatMap.mp broken
  unbroken_event legible.1 piece member broken

/-- A line ends at the first end of a line. -/
theorem lines_append (line : List Char) {characters : List Char} (unbroken : '\n' ∉ characters)
    (rest : List Char) :
    lines line (characters ++ '\n' :: rest) = (line.reverse ++ characters) :: lines [] rest := by
  induction characters generalizing line with
  | nil => simp [lines]
  | cons character characters ih =>
    rw [List.mem_cons, not_or] at unbroken
    rw [List.cons_append, lines, if_neg (Ne.symm unbroken.1), ih _ unbroken.2, List.reverse_cons,
      List.append_assoc, List.singleton_append]

/-- The lines of events are read back as the events. -/
theorem readText_lines {events : List Event} (legible : ∀ event ∈ events, event.Legible) :
    readText (String.join (events.map Event.line)) = some events := by
  induction events with
  | nil => rfl
  | cons event events ih =>
    obtain ⟨first, others⟩ := List.forall_mem_cons.mp legible
    have later := ih others
    rw [readText] at later ⊢
    rw [List.map_cons, String.join_cons, String.toList_append, Event.toList_line,
      List.append_assoc, List.singleton_append,
      lines_append [] (newline_notMem_characters first), List.reverse_nil, List.nil_append,
      List.mapM_cons, readLine_characters first, later]
    rfl

end Text

/-- The events whose lines the bytes spell, if they spell lines of events. -/
def Text.readBytes (bytes : List UInt8) : Option (List Event) :=
  (bytesText? bytes).bind Text.readText

variable {β : Type} [ByteBuffer β] [PatientSink β]

/-- The events are written into the buffer one after the other, up to the first that fails. -/
def writeEvents : List Event → β → Outcome IoFailure Unit × β
  | [], buffer => (.returned (), buffer)
  | event :: events, buffer =>
    match EventEncoder.encode event ({} : LineEncoder) buffer with
    | { outcome := .returned (), buffer, .. } => writeEvents events buffer
    | { outcome, buffer, .. } => (outcome, buffer)

/-- Events written into a growing buffer leave their lines behind what it held. -/
theorem Growing.writeEvents (growing : Growing β) (events : List Event) (buffer : β) :
    (TraceRelay.writeEvents events buffer).1 = .returned () ∧
      ByteBuffer.contents (TraceRelay.writeEvents events buffer).2 =
        ByteBuffer.contents buffer ++ textBytes (String.join (events.map Event.line)) := by
  induction events generalizing buffer with
  | nil => exact ⟨rfl, (List.append_nil _).symm⟩
  | cons event events ih =>
    have written := growing.encode event {} buffer
    rw [TraceRelay.writeEvents]
    generalize EventEncoder.encode event ({} : LineEncoder) buffer = attempt at written
    obtain ⟨outcome, encoder, after⟩ := attempt
    obtain ⟨rfl, contents⟩ := written
    obtain ⟨returned, last⟩ := ih after
    refine ⟨returned, last.trans ?_⟩
    rw [contents, List.map_cons, String.join_cons, textBytes_append, List.append_assoc]

/-- The bytes of events in a growing buffer are those that each of them leaves in an empty one. -/
theorem Growing.flatMap_encode (growing : Growing β) (events : List Event) {blank : β}
    (blanks : ByteBuffer.contents blank = []) :
    (events.flatMap fun event => ByteBuffer.contents
      (EventEncoder.encode event ({} : LineEncoder) blank).buffer) =
      textBytes (String.join (events.map Event.line)) := by
  rw [textBytes_join, List.map_map, List.flatMap_def]
  refine congrArg List.flatten (List.map_congr_left fun event _ => ?_)
  rw [(growing.encode event {} blank).2, blanks, List.nil_append]
  rfl

/-- All events that are written into an empty growing buffer, each with its line unbroken, are
decoded from its bytes, so only the same events leave the same bytes. -/
theorem writeEvents_decodes (growing : Growing β) {events others : List Event}
    (legible : ∀ event ∈ events, event.Legible) (alike : ∀ event ∈ others, event.Legible)
    {blank empty : β} (blanks : ByteBuffer.contents blank = [])
    (empties : ByteBuffer.contents empty = []) :
    ((writeEvents events blank).1 = .returned () ∧
      ByteBuffer.contents (writeEvents events blank).2 =
        (events.flatMap fun event => ByteBuffer.contents
          (EventEncoder.encode event ({} : LineEncoder) blank).buffer) ∧
      Text.readBytes (ByteBuffer.contents (writeEvents events blank).2) = some events) ∧
    (ByteBuffer.contents (writeEvents events blank).2 =
      ByteBuffer.contents (writeEvents others empty).2 → events = others) := by
  have spelt (list : List Event) {buffer : β} (blanks : ByteBuffer.contents buffer = []) :
      ByteBuffer.contents (writeEvents list buffer).2 =
        textBytes (String.join (list.map Event.line)) := by
    rw [(growing.writeEvents list buffer).2, blanks, List.nil_append]
  have decodes {list : List Event} (legible : ∀ event ∈ list, event.Legible) {buffer : β}
      (blanks : ByteBuffer.contents buffer = []) :
      Text.readBytes (ByteBuffer.contents (writeEvents list buffer).2) = some list := by
    rw [spelt list blanks, Text.readBytes, bytesText?_textBytes, Option.bind_some,
      Text.readText_lines legible]
  refine ⟨⟨(growing.writeEvents events blank).1, ?_, decodes legible blanks⟩, fun same => ?_⟩
  · rw [spelt events blanks, growing.flatMap_encode events blanks]
  · have both := decodes legible blanks
    rw [same, decodes alike empties] at both
    exact (Option.some.inj both).symm

/-- Events whose texts imitate other parts of lines. -/
def misleadingEvents : List Event :=
  [.threadMapping 0 (-7) "", .methodMapping 1 "exit method=1 line=-3 thread=0",
    .marker { timestamp := -1, sequence := 4294967295 } "" "=0 @5 marker key=value",
    .exceptionMapping 1 " ", .activity { timestamp := 0, sequence := 0 } 0 (.exit 1 (-3)),
    .marker { timestamp := 0, sequence := 1 } " bubble method" "1 exception=1 thread=0"]

/-- Even they are told apart, and from the events that they imitate. -/
theorem writeEvents_decodes_misleading :
    Text.readBytes (writeEvents misleadingEvents ({} : GrowingBuffer)).2.bytes =
        some misleadingEvents ∧
      (writeEvents misleadingEvents ({} : GrowingBuffer)).2.bytes ≠
        (writeEvents misleadingEvents.reverse ({} : GrowingBuffer)).2.bytes := by
  have legible : ∀ event ∈ misleadingEvents, event.Legible := by decide +kernel
  have reversed : ∀ event ∈ misleadingEvents.reverse, event.Legible := by decide +kernel
  have blanks : ByteBuffer.contents ({} : GrowingBuffer) = [] := rfl
  obtain ⟨⟨-, -, decoded⟩, alike⟩ :=
    writeEvents_decodes growing_growingBuffer legible reversed blanks blanks
  exact ⟨decoded, fun same => absurd (alike same) (by decide +kernel)⟩

end TraceRelay
