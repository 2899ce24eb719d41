import EntityScaffold.Number.Notation

/-!
# Calendar stamps

A stamp is a date, or a date with a time of day and perhaps the distance of its clock from world
time. `Stamp.display` is the text that messages show for one, `Stamp.problem?` says why numbers
make up none, and `Stamp.instant?` is the moment of a stamp whose distance is known: such stamps
stand for the same moment whenever their instants are equal.
-/

namespace EntityScaffold

/-- A date. -/
structure CivilDate where
  year : Nat
  month : Nat
  day : Nat
  deriving DecidableEq, Inhabited

/-- A time of day, with millionths of a second and minutes from world time. -/
structure CivilTime where
  hour : Nat
  minute : Nat
  second : Nat
  micros : Nat := 0
  distance : Option Int := none
  deriving DecidableEq

/-- A date, or a date and a time. -/
structure Stamp where
  date : CivilDate
  time : Option CivilTime := none
  deriving DecidableEq

/-- A year with a day more than others. -/
def isLeapYear (y : Nat) : Bool := y % 4 = 0 && (y % 100 ≠ 0 || y % 400 = 0)

/-- The number of days of a month. -/
def daysOfMonth (y m : Nat) : Nat :=
  if m = 2 then if isLeapYear y then 29 else 28
  else if [4, 6, 9, 11].contains m then 30
  else 31

/-- The minutes of a day. -/
def dayMinutes : Int := 1440

/-! ## What is no stamp -/

/-- Why a date is none of the calendar. -/
def CivilDate.problem? (d : CivilDate) : Option String :=
  if d.year = 0 then some "year 0 is out of range"
  else if d.month = 0 ∨ 12 < d.month then some "month must be in 1..12"
  else if d.day = 0 ∨ daysOfMonth d.year d.month < d.day then
    some "day is out of range for month"
  else none

/-- Why a time is none of the day. -/
def CivilTime.problem? (t : CivilTime) : Option String :=
  if 23 < t.hour then some "hour must be in 0..23"
  else if 59 < t.minute then some "minute must be in 0..59"
  else if 59 < t.second then some "second must be in 0..59"
  else none

/-- A span of minutes as messages show it: whole days, which may be negative, and seconds. -/
def spanText (minutes : Int) : String :=
  let days := minutes.fdiv dayMinutes
  let seconds := minutes.fmod dayMinutes * 60
  let parts := (if days = 0 then [] else ["days=" ++ intText days]) ++
    (if seconds = 0 then [] else ["seconds=" ++ intText seconds])
  "datetime.timedelta(" ++ (if parts.isEmpty then "0" else ", ".intercalate parts) ++ ")"

/-- Why a distance from world time is none. -/
def distanceProblem? (minutes : Int) : Option String :=
  if minutes.natAbs < dayMinutes.natAbs then none
  else some <| "offset must be a timedelta strictly between -timedelta(hours=24) and " ++
    s!"timedelta(hours=24), not {spanText minutes}."

/-- Why the numbers of a stamp make up none. The distance from world time goes first. -/
def Stamp.problem? (s : Stamp) : Option String :=
  ((s.time.bind (·.distance)).bind distanceProblem?).or
    (s.date.problem?.or (s.time.bind CivilTime.problem?))

/-! ## Moments -/

/-- The days from the first of the calendar to a date. -/
def CivilDate.dayNumber (d : CivilDate) : Nat :=
  let years := d.year - 1
  let months := (List.range (d.month - 1)).map (· + 1)
  365 * years + years / 4 - years / 100 + years / 400 + totalOf (daysOfMonth d.year) months +
    (d.day - 1)

/-- The millionths of a second from the first moment of the calendar, in world time. A stamp
without a distance from world time has no place in it. -/
def Stamp.instant? (s : Stamp) : Option Int := do
  let t ← s.time
  let distance ← t.distance
  let minutes : Int := s.date.dayNumber * dayMinutes + t.hour * 60 + t.minute - distance
  return (minutes * 60 + t.second) * 1000000 + t.micros

/-! ## Texts -/

/-- Numbers, parted by commas. -/
def numbersText (ns : List Nat) : String := ", ".intercalate (ns.map fun n : Nat => intText n)

/-- The zone of a distance from world time as messages show it. -/
def zoneText (minutes : Int) : String :=
  if minutes = 0 then "datetime.timezone.utc"
  else "datetime.timezone(" ++ spanText minutes ++ ")"

/-- A stamp as messages show it. Seconds and their millionths are left out when they and all
smaller parts are zero. -/
def Stamp.display (s : Stamp) : String :=
  let d := s.date
  match s.time with
  | none => "datetime.date(" ++ numbersText [d.year, d.month, d.day] ++ ")"
  | some t =>
    let fine :=
      if t.micros ≠ 0 then [t.second, t.micros] else if t.second ≠ 0 then [t.second] else []
    "datetime.datetime(" ++ numbersText ([d.year, d.month, d.day, t.hour, t.minute] ++ fine) ++
      (t.distance.map fun n => ", tzinfo=" ++ zoneText n).getD "" ++ ")"

/-- The name of a stamp's kind. -/
def Stamp.kindName (s : Stamp) : String := if s.time.isSome then "datetime" else "date"

end EntityScaffold
