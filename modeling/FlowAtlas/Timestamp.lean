namespace FlowAtlas

structure Timestamp where
  year : Nat
  month : Nat
  day : Nat
  hour : Nat := 0
  minute : Nat := 0
  second : Nat := 0
  microsecond : Nat := 0
  offset : Option Int := some 0
  deriving DecidableEq, Repr

namespace Timestamp

def padded (width n : Nat) : String :=
  String.ofList (List.replicate (width - (toString n).length) '0') ++ toString n

def offsetText (minutes : Int) : String :=
  let sign := if minutes < 0 then "-" else "+"
  s!"{sign}{padded 2 (minutes.natAbs / 60)}:{padded 2 (minutes.natAbs % 60)}"

def written (moment : Timestamp) : String :=
  let date := s!"{padded 4 moment.year}-{padded 2 moment.month}-{padded 2 moment.day}"
  let time := s!"{padded 2 moment.hour}:{padded 2 moment.minute}:{padded 2 moment.second}"
  let fraction := if moment.microsecond = 0 then "" else s!".{padded 6 moment.microsecond}"
  s!"{date}T{time}{fraction}" ++ (moment.offset.map offsetText).getD ""

/-- The universal time a number of seconds after the beginning of 1970. Days are counted in years that begin in
March, so that the leap day is the last of its year. -/
def ofUnixTime (seconds microsecond : Nat) : Timestamp :=
  let days := seconds / 86400 + 719468
  let dayOfEra := days % 146097
  let yearOfEra := (dayOfEra - dayOfEra / 1460 + dayOfEra / 36524 - dayOfEra / 146096) / 365
  let dayOfYear := dayOfEra - (365 * yearOfEra + yearOfEra / 4 - yearOfEra / 100)
  let monthFromMarch := (5 * dayOfYear + 2) / 153
  let month := if monthFromMarch < 10 then monthFromMarch + 3 else monthFromMarch - 9
  { year := days / 146097 * 400 + yearOfEra + (if month ≤ 2 then 1 else 0)
    month
    day := dayOfYear - (153 * monthFromMarch + 2) / 5 + 1
    hour := seconds / 3600 % 24
    minute := seconds / 60 % 60
    second := seconds % 60
    microsecond }

end Timestamp

end FlowAtlas
