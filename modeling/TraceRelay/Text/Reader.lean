import TraceRelay.Event

/-! How lines of text are read back as events. -/

namespace TraceRelay.Text

/-- A reader gives what it has read and the characters that are left, or refuses. -/
abbrev Reader (α : Type) := List Char → Option (α × List Char)

namespace Reader

/-- The characters after the given ones, which have to stand in front. -/
def skip : List Char → List Char → Option (List Char)
  | [], rest => some rest
  | _ :: _, [] => none
  | expected :: more, found :: rest => if expected = found then skip more rest else none

/-- The value of decimal digits, the highest first. -/
def value (digits : List Char) : Nat :=
  digits.foldl (fun sum digit => 10 * sum + (digit.toNat - 48)) 0

/-- A natural number, which has at least one digit. -/
def natural : Reader Nat := fun characters =>
  match characters.takeWhile Char.isDigit with
  | [] => none
  | digits => some (value digits, characters.dropWhile Char.isDigit)

/-- An integer, with a minus sign if it is negative. -/
def integer : Reader Int
  | '-' :: rest => (natural rest).map fun (number, rest) => (-(number : Int), rest)
  | characters => (natural characters).map fun (number, rest) => ((number : Int), rest)

/-- A natural number as a 32-bit word. -/
def word : Reader UInt32 := fun characters =>
  (natural characters).map fun (number, rest) => (UInt32.ofNat number, rest)

/-- An integer as a signed 32-bit number. -/
def signed : Reader Int32 := fun characters =>
  (integer characters).map fun (number, rest) => (Int32.ofInt number, rest)

/-- The given text and then what `part` reads. -/
def after {α : Type} (text : String) (part : Reader α) : Reader α := fun characters =>
  (skip text.toList characters).bind part

end Reader

open Reader

/-- What follows a stamp: an activity of a thread, or a marker. -/
def readSequenced (stamp : Stamp) (characters : List Char) : Option Event :=
  (do
    let (method, rest) ← after " entry method=" word characters
    let (thread, []) ← after " thread=" word rest | none
    return .activity stamp thread (.entry method)) <|>
  (do
    let (method, rest) ← after " exit method=" word characters
    let (line, rest) ← after " line=" signed rest
    let (thread, []) ← after " thread=" word rest | none
    return .activity stamp thread (.exit method line)) <|>
  (do
    let (method, rest) ← after " exception method=" word characters
    let (raised, rest) ← after " exception=" word rest
    let (line, rest) ← after " line=" signed rest
    let (thread, []) ← after " thread=" word rest | none
    return .activity stamp thread (.exception raised method line)) <|>
  (do
    let (method, rest) ← after " bubble method=" word characters
    let (raised, rest) ← after " exception=" word rest
    let (thread, []) ← after " thread=" word rest | none
    return .activity stamp thread (.bubble raised method)) <|>
  (do
    let rest ← skip " marker ".toList characters
    let '=' :: value := rest.dropWhile (· ≠ '=') | none
    return .marker stamp (String.ofList (rest.takeWhile (· ≠ '='))) (String.ofList value))

/-- The event that a line without its end shows. -/
def readLine (characters : List Char) : Option Event :=
  (do
    let (id, rest) ← after "map-method " word characters
    let signature ← skip " ".toList rest
    return .methodMapping id (String.ofList signature)) <|>
  (do
    let (id, rest) ← after "map-exception " word characters
    let exception ← skip " ".toList rest
    return .exceptionMapping id (String.ofList exception)) <|>
  (do
    let (id, rest) ← after "map-thread " word characters
    let (timestamp, rest) ← after " @" signed rest
    let name ← skip " ".toList rest
    return .threadMapping id timestamp (String.ofList name)) <|>
  (do
    let (sequence, rest) ← after "#" word characters
    let (timestamp, rest) ← after " @" signed rest
    readSequenced { timestamp, sequence } rest)

/-- The lines of a text, each without its end. What stands after the last end of a line forms no
line. -/
def lines : List Char → List Char → List (List Char)
  | _, [] => []
  | line, character :: rest =>
    if character = '\n' then line.reverse :: lines [] rest else lines (character :: line) rest

/-- The events that the lines of a text show, if every line shows one. -/
def readText (text : String) : Option (List Event) := (lines [] text.toList).mapM readLine

/-- The line without a carriage return at its end. -/
def withoutReturn (line : List Char) : List Char :=
  if line.getLast? = some '\r' then line.dropLast else line

/-- What follows `start` in the lines that start with it, where a carriage return counts as a part
of the end of its line. A signature or a name can hold ends of lines itself, so not every line of a
text need show an event. -/
def linesAfter (start text : String) : List (List Char) :=
  (lines [] text.toList).filterMap fun line => skip start.toList (withoutReturn line)

/-- The number that the first word spells, if it is a 32-bit word. It may have a plus sign and
leading zeros, and a space ends it. -/
def leadingNumber? (characters : List Char) : Option UInt32 :=
  let digits := match characters.takeWhile (· ≠ ' ') with
    | '+' :: digits => digits
    | digits => digits
  match natural digits with
  | some (number, []) => if number < UInt32.size then some (UInt32.ofNat number) else none
  | _ => none

end TraceRelay.Text
