import HornQuery.Toml.Text

namespace HornQuery.Toml

structure CalendarDate where
  year : Nat
  month : Nat
  day : Nat
deriving DecidableEq, Inhabited

structure ClockTime where
  hour : Nat
  minute : Nat
  second : Nat
  nanosecond : Nat
deriving DecidableEq, Inhabited

inductive Zone where
  | universal
  | ahead (minutes : Int)
deriving DecidableEq, Inhabited

structure Moment where
  date? : Option CalendarDate
  time? : Option ClockTime
  zone? : Option Zone
deriving DecidableEq, Inhabited

/-! Writing -/

def padded (width n : Nat) : List Char :=
  let digits := Nat.toDigits 10 n
  List.replicate (width - digits.length) '0' ++ digits

def CalendarDate.write (date : CalendarDate) : List Char :=
  padded 4 date.year ++ '-' :: padded 2 date.month ++ '-' :: padded 2 date.day

def ClockTime.write (time : ClockTime) : List Char :=
  let fraction := ((padded 9 time.nanosecond).reverse.dropWhile (· = '0')).reverse
  padded 2 time.hour ++ ':' :: padded 2 time.minute ++ ':' :: padded 2 time.second
    ++ (if fraction.isEmpty then [] else '.' :: fraction)

def Zone.write : Zone → List Char
  | .universal => ['Z']
  | .ahead minutes =>
      (if minutes < 0 then '-' else '+') :: padded 2 (minutes.natAbs / 60)
        ++ ':' :: padded 2 (minutes.natAbs % 60)

def Moment.write (moment : Moment) : List Char :=
  ((moment.date?.map CalendarDate.write).getD [])
    ++ (if moment.date?.isSome && moment.time?.isSome then ['T'] else [])
    ++ ((moment.time?.map ClockTime.write).getD [])
    ++ ((moment.zone?.map Zone.write).getD [])

/-! Reading -/

def bounded? (digits low high : Nat) (text : List Char) : Option Nat :=
  let window := text.take digits
  let number := Number.ofDigits window
  if window.length = digits && window.all Number.isDigit && low ≤ number && number ≤ high then
    some number
  else none

def isLeapYear (year : Nat) : Bool :=
  year % 4 = 0 && (year % 100 ≠ 0 || year % 400 = 0)

def monthLength (year month : Nat) : Nat :=
  if month = 2 then if isLeapYear year then 29 else 28
  else if month = 4 || month = 6 || month = 9 || month = 11 then 30
  else 31

def startsDate (text : List Char) : Bool :=
  (bounded? 4 0 9999 text).isSome && text[4]? = some '-'

def startsTime (text : List Char) : Bool :=
  (bounded? 2 0 23 text).isSome && text[2]? = some ':'

def date? (text : List Char) : Option (CalendarDate × Nat) := do
  let year ← bounded? 4 0 9999 text
  let month ← bounded? 2 1 12 (text.drop 5)
  let day ← bounded? 2 1 (monthLength year month) (text.drop 8)
  guard (text[4]? = some '-' && text[7]? = some '-')
  pure (⟨year, month, day⟩, 10)

def fraction (text : List Char) : List Char :=
  match text with
  | '.' :: rest => rest.takeWhile Number.isDigit
  | _ => []

def billionths (digits : List Char) : Nat :=
  Number.ofDigits ((digits ++ List.replicate 9 '0').take 9)

def time? (text : List Char) : Option (ClockTime × Nat) := do
  let hour ← bounded? 2 0 23 text
  let minute ← bounded? 2 0 59 (text.drop 3)
  let second ← bounded? 2 0 60 (text.drop 6)
  guard (text[2]? = some ':' && text[5]? = some ':')
  let digits := fraction (text.drop 8)
  let width := if digits.isEmpty then 8 else 9 + digits.length
  pure (⟨hour, minute, second, billionths digits⟩, width)

/-- The zone at the front of a text, if there is one; after a sign there has to be one. -/
def zone? (text : List Char) : Option (Option Zone × Nat) :=
  match text with
  | [] => some (none, 0)
  | mark :: rest =>
      if mark = 'Z' || mark = 'z' then some (some .universal, 1)
      else if mark = '+' || mark = '-' then do
        let hours ← bounded? 2 0 23 rest
        let minutes ← bounded? 2 0 59 (rest.drop 3)
        guard (rest[2]? = some ':')
        let apart : Int := hours * 60 + minutes
        pure (some (.ahead (if mark = '-' then -apart else apart)), 6)
      else some (none, 0)

/-- What follows a date: after a T or a blank, a time if one starts there, and its zone. -/
def timeAfterDate? (text : List Char) : Option ((Option ClockTime × Option Zone) × Nat) :=
  match text with
  | [] => some ((none, none), 0)
  | mark :: rest =>
      if (mark = 'T' || mark = 't' || mark = ' ') && startsTime rest then do
        let (time, width) ← time? rest
        let (zone?, more) ← zone? (rest.drop width)
        pure ((some time, zone?), 1 + width + more)
      else some ((none, none), 0)

def moment? (text : List Char) : Option (Moment × Nat) :=
  if startsDate text then do
    let (date, width) ← date? text
    let ((time?, zone?), more) ← timeAfterDate? (text.drop width)
    pure (⟨some date, time?, zone?⟩, width + more)
  else
    (time? text).map fun (time, width) => (⟨none, some time, none⟩, width)

end HornQuery.Toml
