import NetIntent.Data.Blank
import NetIntent.Time.Timestamp

namespace NetIntent.Timestamp

/-!
# Reading timestamps

A timestamp is a date, a separator, a time and an offset from UTC. Blanks may stand around each
part and inside the offset; the offset may do without its colon, and the second may be 60.

* `Timestamp.Reader` — the parts of the grammar, each as a step that leaves the rest;
* `Timestamp.ofText?` — the point in time that a text names.
-/

namespace Reader

/-- The digits at the start, at most so many, and the rest. -/
def digits (most : Nat) (cs : List Char) : List Char × List Char :=
  let taken := (cs.take most).takeWhile Char.isDigit
  (taken, cs.drop taken.length)

/-- The value of a list of digits. -/
def value (ds : List Char) : Nat := ds.foldl (fun n c => n * 10 + (c.toNat - '0'.toNat)) 0

/-- A number of one to so many digits, after blanks. -/
def number? (most : Nat) (cs : List Char) : Option (Nat × List Char) :=
  match digits most (Text.trimStart cs) with
  | ([], _) => none
  | (ds, rest) => some (value ds, rest)

/-- A year, after blanks: up to four digits, or a sign and any number of them. -/
def year? (cs : List Char) : Option (Int × List Char) :=
  match Text.trimStart cs with
  | '-' :: rest =>
    match digits rest.length rest with
    | ([], _) => none
    | (ds, rest) => some (-(value ds : Int), rest)
  | '+' :: rest =>
    match digits rest.length rest with
    | ([], _) => none
    | (ds, rest) => some ((value ds : Int), rest)
  | rest =>
    match digits 4 rest with
    | ([], _) => none
    | (ds, rest) => some ((value ds : Int), rest)

/-- A given character, after blanks. -/
def mark? (c : Char) (cs : List Char) : Option (List Char) :=
  match Text.trimStart cs with
  | d :: rest => if d = c then some rest else none
  | [] => none

/-- The separator between date and time: a letter or a blank. -/
def separator? : List Char → Option (List Char)
  | c :: rest => if c = 'T' ∨ c = 't' ∨ c = ' ' then some rest else none
  | [] => none

/-- The nanoseconds after the point of a second, if there is one. Digits beyond the ninth are
    passed over. -/
def fraction? : List Char → Option (Nat × List Char)
  | '.' :: rest =>
    match digits 9 rest with
    | ([], _) => none
    | (ds, rest) => some (value ds * Nat.pow 10 (9 - ds.length), rest.dropWhile Char.isDigit)
  | rest => some (0, rest)

/-- Two digits. -/
def twoDigits? : List Char → Option (Nat × List Char)
  | a :: b :: rest => if a.isDigit && b.isDigit then some (value [a, b], rest) else none
  | _ => none

/-- An offset from UTC in seconds: a letter, or a sign, two digits of hours and two of minutes,
    with colons and blanks between them. -/
def offset? (cs : List Char) : Option (Int × List Char) :=
  let signed (negative : Bool) (cs : List Char) : Option (Int × List Char) := do
    let (hours, rest) ← twoDigits? cs
    let rest := rest.dropWhile fun c => c = ':' || Text.isBlank c
    let (minutes, rest) ← twoDigits? rest
    if minutes < 60 then
      let seconds : Int := hours * 3600 + minutes * 60
      some (if negative then -seconds else seconds, rest)
    else none
  match cs with
  | '+' :: rest => signed false rest
  | '-' :: rest | '\u2212' :: rest => signed true rest
  | c :: rest =>
    if c = 'Z' ∨ c = 'z' then some (0, rest)
    else
      match rest with
      | d :: e :: rest =>
        if c.toUpper = 'U' ∧ d.toUpper = 'T' ∧ e.toUpper = 'C' then some (0, rest) else none
      | _ => none
  | [] => none

end Reader

/-- The least year of the calendar. -/
def minYear : Int := -262143

/-- The greatest year of the calendar. -/
def maxYear : Int := 262142

/-- The point in time with these parts, if there is one. -/
def ofParts? (date : CivilDate) (hour minute second nanos : Nat) (offset : Int) :
    Option Timestamp :=
  if !date.isValid || date.year < minYear || maxYear < date.year then none
  else if 24 ≤ hour ∨ 60 ≤ minute ∨ 61 ≤ second ∨ 86400 ≤ offset.natAbs then none
  else
    let leap := second = 60
    let second := if leap then 59 else second
    let wall : Int := date.toDays * 86400 + (hour * 3600 + minute * 60 + second : Nat)
    let t : Timestamp := ⟨wall - offset, if leap then nanos + nanosPerSecond else nanos⟩
    let year := (CivilDate.ofDays (Int.fdiv t.seconds 86400)).year
    if year < minYear ∨ maxYear < year then none else some t

/-- The point in time that a text names. -/
def ofText? (text : String) : Option Timestamp := do
  let (year, cs) ← Reader.year? text.toList
  let cs ← Reader.mark? '-' cs
  let (month, cs) ← Reader.number? 2 cs
  let cs ← Reader.mark? '-' cs
  let (day, cs) ← Reader.number? 2 cs
  let cs ← Reader.separator? cs
  let (hour, cs) ← Reader.number? 2 cs
  let cs ← Reader.mark? ':' cs
  let (minute, cs) ← Reader.number? 2 cs
  let cs ← Reader.mark? ':' cs
  let (second, cs) ← Reader.number? 2 cs
  let (nanos, cs) ← Reader.fraction? cs
  let (offset, cs) ← Reader.offset? (Text.trimStart cs)
  if (Text.trimStart cs).isEmpty then
    ofParts? ⟨year, month, day⟩ hour minute second nanos offset
  else none

end NetIntent.Timestamp
