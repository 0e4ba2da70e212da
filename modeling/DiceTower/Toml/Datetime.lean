/-
# Dates and times in settings files

A date and time is a day, a time of the day, both, or both with the offset of
a time zone. A fraction of a second is counted in nanoseconds and written
without the zeros at its end.

Key definitions: `Toml.Datetime`, `Toml.Datetime.render`.
-/
import DiceTower.Text.Digits

namespace DiceTower
namespace Toml

open Text

/-- The digits of a number, with zeros in front up to a width. -/
def atWidth (width n : Nat) : Text := (ofNat n).leftpad width '0'

/-- A day of the calendar. -/
structure Day where
  year : Nat
  month : Nat
  day : Nat
deriving DecidableEq

/-- A time of the day. -/
structure Clock where
  hour : Nat
  minute : Nat
  second : Nat
  nanosecond : Nat
deriving DecidableEq

/-- How far the clocks of a time zone are ahead. -/
inductive Offset where
  /-- They show universal time. -/
  | zulu
  /-- They are ahead by hours, which may be negative, and minutes of the same sign. -/
  | ahead (hours : Int) (minutes : Nat)
deriving DecidableEq

/-- A date, a time, or both. -/
inductive Datetime where
  | day (day : Day)
  | clock (clock : Clock)
  | both (day : Day) (clock : Clock)
  | zoned (day : Day) (clock : Clock) (offset : Offset)
deriving DecidableEq

/-- Year, month and day with hyphens between them. -/
def Day.render (d : Day) : Text :=
  atWidth 4 d.year ++ '-' :: atWidth 2 d.month ++ '-' :: atWidth 2 d.day

/-- The fraction of a second behind its point, if there is one. -/
def renderFraction (nanosecond : Nat) : Text :=
  if nanosecond = 0 then []
  else '.' :: ((atWidth 9 nanosecond).reverse.dropWhile (· == '0')).reverse

/-- Hours, minutes and seconds with colons between them, and the fraction. -/
def Clock.render (c : Clock) : Text :=
  atWidth 2 c.hour ++ ':' :: atWidth 2 c.minute ++ ':' :: atWidth 2 c.second ++
    renderFraction c.nanosecond

/-- A letter for universal time, or hours with their sign, and minutes. -/
def Offset.render : Offset → Text
  | zulu => ['Z']
  | ahead hours minutes =>
    (if hours < 0 then '-' else '+') :: atWidth 2 hours.natAbs ++ ':' :: atWidth 2 minutes

/-- The text of a date and time. -/
def Datetime.render : Datetime → Text
  | day d => d.render
  | clock c => c.render
  | both d c => d.render ++ 'T' :: c.render
  | zoned d c offset => d.render ++ 'T' :: c.render ++ offset.render

/-- A time in a zone that is behind, with a fraction of a second. -/
example : (Datetime.zoned ⟨1979, 5, 27⟩ ⟨0, 32, 0, 999990000⟩ (.ahead (-7) 0)).render =
    "1979-05-27T00:32:00.99999-07:00".toList := by decide

end Toml
end DiceTower
