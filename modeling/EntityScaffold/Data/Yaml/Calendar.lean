import EntityScaffold.Data.Value
import EntityScaffold.Data.Yaml.Line

/-!
# Written stamps

A plain scalar can be a date, `2024-01-31`, or a date with a time and perhaps a distance from
world time, `2024-01-31 08:30:00.5 +02:00`. `stamp?` reads one, whether the calendar has it or not.
-/

namespace EntityScaffold.Yaml

/-- Reads up to `most` digits, and `least` at least: their number and what follows. -/
def digits? (least most : Nat) (s : List Char) : Option (Nat × List Char) :=
  let ds := (s.take most).takeWhile Char.isDigit
  if ds.length < least then none else some (decimalNumber ds, s.drop ds.length)

/-- What follows a character that has to come next. -/
def after? (c : Char) (s : List Char) : Option (List Char) :=
  match s with
  | d :: rest => if d = c then some rest else none
  | [] => none

/-- Reads a date whose month and day have at least `least` digits. -/
def civilDate? (least : Nat) (s : List Char) : Option (CivilDate × List Char) := do
  let (year, s) ← digits? 4 4 s
  let (month, s) ← digits? least 2 (← after? '-' s)
  let (day, s) ← digits? least 2 (← after? '-' s)
  return (⟨year, month, day⟩, s)

/-- The millionths of a second that digits after a point write. -/
def microsOf (ds : List Char) : Nat :=
  let ds := ds.take 6
  decimalNumber (ds ++ List.replicate (6 - ds.length) '0')

/-- Reads a distance from world time, which ends the text. -/
def distance? (s : List Char) : Option (Option Int) := do
  match s.dropWhile isGap with
  | [] => if s.isEmpty then some none else none
  | ['Z'] => some (some 0)
  | sign :: rest =>
    if sign ≠ '+' ∧ sign ≠ '-' then none
    else
      let (hours, rest) ← digits? 1 2 rest
      let (minutes, rest) ←
        match rest with
        | ':' :: rest => digits? 2 2 rest
        | _ => some (0, rest)
      if rest.isEmpty then
        let n : Int := hours * 60 + minutes
        some (some (if sign = '-' then -n else n))
      else none

/-- Reads a time of day, which ends the text. -/
def civilTime? (s : List Char) : Option CivilTime := do
  let (hour, s) ← digits? 1 2 s
  let (minute, s) ← digits? 2 2 (← after? ':' s)
  let (second, s) ← digits? 2 2 (← after? ':' s)
  let fraction := if s.head? = some '.' then (s.drop 1).takeWhile Char.isDigit else []
  let s := if s.head? = some '.' then s.drop (fraction.length + 1) else s
  return ⟨hour, minute, second, microsOf fraction, ← distance? s⟩

/-- Reads a stamp: a date of full width, or a date and a time with white space or the letter `T`
between them. -/
def stamp? (s : List Char) : Option Stamp :=
  match civilDate? 2 s with
  | some (date, []) => some { date }
  | _ => do
    let (date, rest) ← civilDate? 1 s
    let time ←
      match rest with
      | c :: rest =>
        if c = 'T' ∨ c = 't' then some rest
        else if isGap c then some (rest.dropWhile isGap)
        else none
      | [] => none
    return { date, time := some (← civilTime? time) }

/-- A stamp as a scalar, if the calendar has it. -/
def stampScalar (s : Stamp) : Except Error Scalar :=
  match s.problem? with
  | some reason => .error (.impossible reason)
  | none => .ok (.stamp s)

end EntityScaffold.Yaml
