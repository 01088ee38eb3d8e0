import Reckoner.Text.Numeral
/-!
# Dates and times

The calendar values of a configuration file, as they are checked and as messages show them.
-/

namespace Reckoner.Toml

structure Date where
  year : Nat
  month : Nat
  day : Nat
deriving DecidableEq

def isLeapYear (year : Nat) : Bool :=
  year % 4 == 0 && (year % 100 != 0 || year % 400 == 0)

def daysInMonth (year month : Nat) : Nat :=
  if month = 2 then if isLeapYear year then 29 else 28
  else if month ∈ [4, 6, 9, 11] then 30
  else 31

/-- Whether the calendar has the day. There is no year zero. -/
def Date.isValid (date : Date) : Bool :=
  1 ≤ date.year && 1 ≤ date.month && date.month ≤ 12 && 1 ≤ date.day
    && date.day ≤ daysInMonth date.year date.month

structure Time where
  hour : Nat
  minute : Nat
  second : Nat
  microsecond : Nat
deriving DecidableEq

/-- The parts of a time that are shown: seconds and fractions only if they, or what follows, are not
zero. -/
def Time.shownParts (time : Time) : List Nat :=
  if time.microsecond ≠ 0 then [time.hour, time.minute, time.second, time.microsecond]
  else if time.second ≠ 0 then [time.hour, time.minute, time.second]
  else [time.hour, time.minute]

/-- Minutes ahead of universal time. -/
abbrev Offset := Int

/-- A call that builds the value, which is how messages show it. -/
def builderText (name : String) (args : List Text) : Text :=
  ("datetime." ++ name).toList ++ '(' :: Text.commaSeparated args ++ [')']

def Date.shownParts (date : Date) : List Nat := [date.year, date.month, date.day]

def Date.text (date : Date) : Text := builderText "date" (date.shownParts.map Text.ofNat)

def Time.text (time : Time) : Text := builderText "time" (time.shownParts.map Text.ofNat)

/-- An offset as days and seconds, of which only the days can be negative. -/
def offsetText (offset : Offset) : Text :=
  if offset = 0 then "datetime.timezone.utc".toList
  else
    let seconds := offset * 60
    let days := Int.fdiv seconds 86400
    let field := fun (name : String) (n : Int) =>
      name.toList ++ (if n < 0 then ['-'] else []) ++ Text.ofNat n.natAbs
    let dayField := if days = 0 then [] else [field "days=" days]
    builderText "timezone"
      [builderText "timedelta" (dayField ++ [field "seconds=" (Int.fmod seconds 86400)])]

def dateTimeText (date : Date) (time : Time) (offset : Option Offset) : Text :=
  let zone := offset.toList.map fun o => "tzinfo=".toList ++ offsetText o
  builderText "datetime" ((date.shownParts ++ time.shownParts).map Text.ofNat ++ zone)

end Reckoner.Toml
