import MeshConsole.Numeral.Scientific

/-!
# Points in time

A plain scalar may be a date, or a date with a time of day. With a `T` before it the time of day
says how far east of Greenwich it counts; with blanks before it, it counts at Greenwich. A moment
is shown on the clock it was written for.
-/

namespace MeshConsole.Yaml

structure Moment where
  year : Nat
  month : Nat
  day : Nat
  hour : Nat := 0
  minute : Nat := 0
  second : Nat := 0
  nanosecond : Nat := 0
  /-- Minutes east of Greenwich. -/
  offset : Int := 0
  deriving Repr, DecidableEq

def daysOf (year month : Nat) : Nat :=
  let leap := year % 4 = 0 ∧ (year % 100 ≠ 0 ∨ year % 400 = 0)
  if month = 2 then (if leap then 29 else 28)
  else if month = 4 ∨ month = 6 ∨ month = 9 ∨ month = 11 then 30
  else 31

namespace Moment

/-- A number of one or two digits, and what follows it. -/
def number? : Text → Option (Nat × Text)
  | a :: rest =>
    if !Ascii.isDigit a then none
    else
      match rest with
      | b :: after =>
        if Ascii.isDigit b then some (Scientific.digitsValue [a, b], after)
        else some (Scientific.digitsValue [a], rest)
      | [] => some (Scientific.digitsValue [a], [])
  | [] => none

/-- A number behind the byte `mark`. -/
def numberAfter? (mark : UInt8) : Text → Option (Nat × Text)
  | [] => none
  | b :: rest => if b == mark then number? rest else none

/-- Four digits, month and day. Days are counted out by the calendar. -/
def date? (t : Text) : Option (Moment × Text) := do
  let (digits, rest) := t.span Ascii.isDigit
  if digits.length ≠ 4 then none
  else
    let year := Scientific.digitsValue digits
    let (month, rest) ← numberAfter? Ascii.minus rest
    let (day, rest) ← numberAfter? Ascii.minus rest
    if 1 ≤ month ∧ month ≤ 12 ∧ 1 ≤ day ∧ day ≤ daysOf year month then
      some ({ year, month, day }, rest)
    else none

/-- The nanoseconds that digits behind a point or a comma stand for, those beyond the ninth left
out. -/
def fraction (t : Text) : Nat × Text :=
  match t with
  | mark :: rest =>
    let (digits, after) := rest.span Ascii.isDigit
    if (mark == Ascii.dot || mark == Ascii.comma) && !digits.isEmpty then
      let kept := digits.take 9
      (Scientific.digitsValue kept * Nat.pow 10 (9 - kept.length), after)
    else (0, t)
  | [] => (0, [])

/-- Hour, minute and second, with or without a fraction. -/
def clock? (date : Moment) (t : Text) : Option (Moment × Text) := do
  let (hour, rest) ← number? t
  let (minute, rest) ← numberAfter? Ascii.colon rest
  let (second, rest) ← numberAfter? Ascii.colon rest
  let (nanosecond, rest) := fraction rest
  if hour < 24 ∧ minute < 60 ∧ second < 60 then
    some ({ date with hour, minute, second, nanosecond }, rest)
  else none

/-- The minutes east of Greenwich: none for `Z`, else a sign, two digits, a colon and two
digits. -/
def offset? : Text → Option Int
  | [0x5A] => some 0
  | [sign, a, b, Ascii.colon, c, d] =>
    let hours := Scientific.digitsValue [a, b]
    let minutes := Scientific.digitsValue [c, d]
    if [a, b, c, d].any (!Ascii.isDigit ·) || 24 < hours || 60 < minutes then none
    else if sign == Ascii.plus then some (hours * 60 + minutes : Nat)
    else if sign == Ascii.minus then some (-(hours * 60 + minutes : Nat))
    else none
  | _ => none

/-- Reads a moment. -/
def read? (t : Text) : Option Moment := do
  let (date, rest) ← date? t
  match rest with
  | [] => some date
  | mark :: rest =>
    if mark == Ascii.blank then
      let (moment, rest) ← clock? date (Text.trimLeft Ascii.blank rest)
      if rest.isEmpty then some moment else none
    else if mark == 0x54 || mark == 0x74 then
      let (moment, rest) ← clock? date rest
      let offset ← offset? rest
      some { moment with offset }
    else none

/-- Hours and minutes east of Greenwich, as `+0530`. -/
def offsetText (offset : Int) : Text :=
  (if offset < 0 then Ascii.minus else Ascii.plus) ::
    (Text.twoDigits (offset.natAbs / 60) ++ Text.twoDigits (offset.natAbs % 60))

/-- A point and the digits of a fraction of a second; nothing for a whole one. -/
def fractionText (nanosecond : Nat) : Text :=
  if nanosecond = 0 then []
  else
    let digits := Text.ofNat nanosecond
    let padded := List.replicate (9 - digits.length) Ascii.zero ++ digits
    Ascii.dot :: Text.trimRight Ascii.zero padded

/-- The text of a moment, as `2001-12-14 21:59:43.1 -0500 -0500`. -/
def text (m : Moment) : Text :=
  let year := Text.ofNat m.year
  let date := List.replicate (4 - year.length) Ascii.zero ++ year ++ "-" ++
    Text.twoDigits m.month ++ "-" ++ Text.twoDigits m.day
  let clock := Text.twoDigits m.hour ++ ":" ++ Text.twoDigits m.minute ++ ":" ++
    Text.twoDigits m.second ++ fractionText m.nanosecond
  let offset := offsetText m.offset
  date ++ " " ++ clock ++ " " ++ offset ++ " " ++ (if m.offset = 0 then ("UTC" : Text) else offset)

end Moment

end MeshConsole.Yaml
