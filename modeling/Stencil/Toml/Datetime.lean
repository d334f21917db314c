import Stencil.Toml.Numeral

/-!
Dates and times of TOML, of which only the form matters.
-/
namespace Stencil.Toml.Datetime

def fixed? (width : Nat) (s : List Char) : Option Nat :=
  if s.length = width ∧ s.all Char.isDigit then some (digitsValue 10 s) else none

def daysOf (year month : Nat) : Nat :=
  if month = 2 then if year % 4 = 0 ∧ (year % 100 ≠ 0 ∨ year % 400 = 0) then 29 else 28
  else if month ∈ [4, 6, 9, 11] then 30 else 31

def isDate (s : List Char) : Bool :=
  match s.splitOn '-' with
  | [y, m, d] =>
    match fixed? 4 y, fixed? 2 m, fixed? 2 d with
    | some y, some m, some d => 1 ≤ m && m ≤ 12 && 1 ≤ d && d ≤ daysOf y m
    | _, _, _ => false
  | _ => false

def isClock (s : List Char) : Bool :=
  match s.splitOn ':' with
  | [h, m] => (fixed? 2 h).any (· ≤ 23) && (fixed? 2 m).any (· ≤ 59)
  | _ => false

def isSeconds (s : List Char) : Bool :=
  (fixed? 2 (s.take 2)).any (· ≤ 60) &&
    match s.drop 2 with
    | [] => true
    | '.' :: fraction => !fraction.isEmpty && fraction.all Char.isDigit
    | _ => false

def isTime (s : List Char) : Bool :=
  isClock (s.take 5) &&
    match s.drop 5 with
    | [] => true
    | ':' :: seconds => isSeconds seconds
    | _ => false

def isOffsetTime (s : List Char) : Bool :=
  match s.reverse with
  | 'Z' :: t => isTime t.reverse
  | 'z' :: t => isTime t.reverse
  | _ =>
    isTime s ||
      ((s.reverse.drop 5).head?.any (fun c => c == '+' || c == '-') &&
        isClock (s.reverse.take 5).reverse && isTime (s.reverse.drop 6).reverse)

def isDatetime (s : List Char) : Bool :=
  isDate s || isTime s ||
    (isDate (s.take 10) && (s[10]?.any fun c => c == 'T' || c == 't' || c == ' ') &&
      isOffsetTime (s.drop 11))

end Stencil.Toml.Datetime
