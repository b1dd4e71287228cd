import Wayfinder.Js.Text
import Mathlib

/-! Instants and their ISO texts.

An instant is the milliseconds since 1970 that `Date.now()` returns. `toISOString`
prints it with the proleptic Gregorian calendar, and `parseISO` reads such a text
back; the calendar counts years from March, so that the leap day is the last one. The
round trip (`parseISO_toISOString`) is over the years of four digits. -/
namespace Wayfinder.Js.Date

def msPerDay : Nat := 86400000

/-- `9999-12-31T23:59:59.999Z` -/
def lastInstant : Nat := 253402300799999

/-! ### The calendar -/

/-- Days from 0000-03-01 to 1970-01-01. -/
def epochShift : Nat := 719468

structure Civil where
  year : Nat
  month : Nat
  day : Nat

/-- The first day of a year of a 400-year cycle, from March. -/
def cycleDay (year : Nat) : Nat := 365 * year + year / 4 - year / 100

/-- The year of a 400-year cycle that a day of the cycle lies in: its century, the four
years of the century, and the year among these. The last day of the cycle, and of four
years, is a leap day. -/
def cycleYear (day : Nat) : Nat :=
  let century := min (day / 36524) 3
  let rest := day - 36524 * century
  100 * century + 4 * (rest / 1461) + min (rest % 1461 / 365) 3

/-- The month of a day of the year, from March: 0 to 11. -/
def marchMonth (doy : Nat) : Nat := (5 * doy + 2) / 153

/-- The first day of a month. -/
def monthStart (mp : Nat) : Nat := (153 * mp + 2) / 5

/-- The calendar's number of a month counted from March. -/
def toMonth (mp : Nat) : Nat := if mp < 10 then mp + 3 else mp - 9

def fromMonth (m : Nat) : Nat := if m ≤ 2 then m + 9 else m - 3

/-- January and February belong to the next calendar year. -/
def carry (m : Nat) : Nat := if m ≤ 2 then 1 else 0

/-- The date of a day counted from 1970-01-01. -/
def civil (days : Nat) : Civil :=
  let z := days + epochShift
  let year := cycleYear (z % 146097)
  let doy := z % 146097 - cycleDay year
  let month := toMonth (marchMonth doy)
  ⟨year + 400 * (z / 146097) + carry month, month, doy - monthStart (marchMonth doy) + 1⟩

/-- The day of a date. -/
def dayOf (c : Civil) : Nat :=
  let year := c.year - carry c.month
  let doy := monthStart (fromMonth c.month) + (c.day - 1)
  146097 * (year / 400) + (cycleDay (year % 400) + doy) - epochShift

theorem cycleYear_spec {day : Nat} (h : day < 146097) :
    cycleYear day < 400 ∧ cycleDay (cycleYear day) ≤ day ∧
      day - cycleDay (cycleYear day) < 366 := by
  have hc : min (day / 36524) 3 ≤ 3 := Nat.min_le_right ..
  have hr : day - 36524 * min (day / 36524) 3 ≤ 36524 := by omega
  generalize hrest : day - 36524 * min (day / 36524) 3 = rest at hr
  generalize hcentury : min (day / 36524) 3 = century at hrest hc
  have hq : rest / 1461 ≤ 24 := by omega
  have hy : min (rest % 1461 / 365) 3 ≤ 3 := Nat.min_le_right ..
  generalize hyear : min (rest % 1461 / 365) 3 = y at hy
  generalize hquad : rest / 1461 = q at hq
  have hcy : cycleYear day = 100 * century + 4 * q + y := by
    simp only [cycleYear, hcentury, hrest, hquad, hyear]
  have hcd : cycleDay (cycleYear day) = 36524 * century + 1461 * q + 365 * y := by
    rw [hcy]
    unfold cycleDay
    omega
  rw [hcd, hcy]
  omega

theorem marchMonth_spec {doy : Nat} (h : doy < 366) :
    marchMonth doy ≤ 11 ∧ monthStart (marchMonth doy) ≤ doy ∧
      doy < monthStart (marchMonth doy) + 31 := by
  unfold monthStart marchMonth
  omega

theorem toMonth_spec {mp : Nat} (h : mp ≤ 11) :
    1 ≤ toMonth mp ∧ toMonth mp ≤ 12 ∧ fromMonth (toMonth mp) = mp := by
  unfold fromMonth toMonth
  split <;> split <;> omega

theorem carry_toMonth {mp : Nat} (h : mp ≤ 9) : carry (toMonth mp) = 0 := by
  rw [toMonth, if_pos (by omega), carry, if_neg (by omega)]

/-- A day is read back from its date. -/
theorem dayOf_civil (days : Nat) : dayOf (civil days) = days := by
  obtain ⟨h400, hle, h366⟩ :=
    cycleYear_spec (Nat.mod_lt (days + epochShift) (show 0 < 146097 by decide))
  obtain ⟨h11, hstart, _⟩ := marchMonth_spec h366
  obtain ⟨_, _, hback⟩ := toMonth_spec h11
  have hz : epochShift ≤ days + epochShift := Nat.le_add_left ..
  simp only [dayOf, civil, hback, Nat.add_sub_cancel,
    Nat.add_mul_div_left _ _ (show 0 < 400 by decide),
    Nat.add_mul_mod_self_left, Nat.div_eq_of_lt h400, Nat.mod_eq_of_lt h400]
  omega

/-- The parts of a date have the digits that ISO texts give them. -/
theorem civil_parts {days : Nat} (h : days ≤ lastInstant / msPerDay) :
    (civil days).year < 10000 ∧ (civil days).month < 100 ∧ (civil days).day < 100 := by
  obtain ⟨h400, hle, h366⟩ :=
    cycleYear_spec (Nat.mod_lt (days + epochShift) (show 0 < 146097 by decide))
  obtain ⟨h11, hstart, hday⟩ := marchMonth_spec h366
  obtain ⟨_, h12, _⟩ := toMonth_spec h11
  refine ⟨?_, Nat.lt_of_le_of_lt h12 (by decide), ?_⟩
  · have hlast : lastInstant / msPerDay + epochShift = 3652364 := by decide
    have hz : days + epochShift ≤ 3652364 := by omega
    show cycleYear ((days + epochShift) % 146097) + 400 * ((days + epochShift) / 146097) +
      carry (toMonth (marchMonth ((days + epochShift) % 146097 -
        cycleDay (cycleYear ((days + epochShift) % 146097))))) < 10000
    generalize days + epochShift = z at *
    have hcarry : ∀ m, carry m ≤ 1 := fun m => by unfold carry; split <;> decide
    have hc := hcarry (toMonth (marchMonth (z % 146097 - cycleDay (cycleYear (z % 146097)))))
    rcases Nat.lt_or_ge (cycleYear (z % 146097)) 399 with hlt | hge
    · omega
    · -- the year 9999 ends before January of the year from March
      have hyear : cycleYear (z % 146097) = 399 := by omega
      have h399 : cycleDay 399 = 145731 := by decide
      rw [hyear, h399] at hle ⊢
      by_cases hera : z / 146097 = 24
      · have hdoy : z % 146097 - 145731 ≤ 305 := by omega
        have hmonth : marchMonth (z % 146097 - 145731) ≤ 9 := by
          unfold marchMonth
          omega
        rw [carry_toMonth hmonth]
        omega
      · have := hcarry (toMonth (marchMonth (z % 146097 - 145731)))
        omega
  · show (days + epochShift) % 146097 - cycleDay _ - monthStart _ + 1 < 100
    omega

/-! ### ISO texts -/

def digit (n : Nat) : UInt16 := (48 + n % 10).toUInt16

def pad2 (n : Nat) : Str := [digit (n / 10), digit n]

def pad3 (n : Nat) : Str := [digit (n / 100), digit (n / 10), digit n]

def pad4 (n : Nat) : Str := [digit (n / 1000), digit (n / 100), digit (n / 10), digit n]

/-- `new Date(t).toISOString()`, up to `lastInstant`. -/
def toISOString (t : Nat) : Str :=
  let c := civil (t / msPerDay)
  pad4 c.year ++ 45 :: pad2 c.month ++ 45 :: pad2 c.day ++ 84 :: pad2 (t / 3600000 % 24) ++
    58 :: pad2 (t / 60000 % 60) ++ 58 :: pad2 (t / 1000 % 60) ++ 46 :: pad3 (t % 1000) ++ [90]

/-- The number that stands in a text at a position. -/
def numberAt (s : Str) (start length : Nat) : Nat :=
  ((s.drop start).take length).foldl (fun acc u => 10 * acc + (u.toNat - 48)) 0

/-- The instant that a text of the form `2025-01-31T23:59:59.999Z` denotes. -/
def instantOf (s : Str) : Nat :=
  msPerDay * dayOf ⟨numberAt s 0 4, numberAt s 5 2, numberAt s 8 2⟩ + 3600000 * numberAt s 11 2 +
    60000 * numberAt s 14 2 + 1000 * numberAt s 17 2 + numberAt s 20 3

/-- Reads an ISO text; what is not one is refused. -/
def parseISO (s : Str) : Option Nat :=
  if instantOf s ≤ lastInstant ∧ toISOString (instantOf s) = s then some (instantOf s) else none

theorem digit_value (n : Nat) : (digit n).toNat - 48 = n % 10 := by
  rw [digit, Nat.toUInt16, UInt16.toNat_ofNat_of_lt' (show 48 + n % 10 < 65536 by omega)]
  omega

/-- Each part of a text stands where it is read. -/
theorem instantOf_parts {y mo d h mi sec ms : Nat} (hy : y < 10000) (hmo : mo < 100) (hd : d < 100)
    (hh : h < 100) (hmi : mi < 100) (hsec : sec < 100) (hms : ms < 1000) :
    instantOf (pad4 y ++ 45 :: pad2 mo ++ 45 :: pad2 d ++ 84 :: pad2 h ++
      58 :: pad2 mi ++ 58 :: pad2 sec ++ 46 :: pad3 ms ++ [90]) =
      msPerDay * dayOf ⟨y, mo, d⟩ + 3600000 * h + 60000 * mi + 1000 * sec + ms := by
  have h4 : ∀ {n : Nat}, n < 10000 →
      (pad4 n).foldl (fun acc u => 10 * acc + (u.toNat - 48)) 0 = n := by
    intro n hn
    simp only [pad4, List.foldl_cons, List.foldl_nil, digit_value]
    omega
  have h3 : ∀ {n : Nat}, n < 1000 →
      (pad3 n).foldl (fun acc u => 10 * acc + (u.toNat - 48)) 0 = n := by
    intro n hn
    simp only [pad3, List.foldl_cons, List.foldl_nil, digit_value]
    omega
  have h2 : ∀ {n : Nat}, n < 100 →
      (pad2 n).foldl (fun acc u => 10 * acc + (u.toNat - 48)) 0 = n := by
    intro n hn
    simp only [pad2, List.foldl_cons, List.foldl_nil, digit_value]
    omega
  show msPerDay * dayOf ⟨(pad4 y).foldl _ 0, (pad2 mo).foldl _ 0, (pad2 d).foldl _ 0⟩ +
    3600000 * (pad2 h).foldl _ 0 + 60000 * (pad2 mi).foldl _ 0 + 1000 * (pad2 sec).foldl _ 0 +
      (pad3 ms).foldl _ 0 = _
  rw [h4 hy, h2 hmo, h2 hd, h2 hh, h2 hmi, h2 hsec, h3 hms]

theorem instantOf_toISOString {t : Nat} (h : t ≤ lastInstant) : instantOf (toISOString t) = t := by
  have hday : t / msPerDay ≤ lastInstant / msPerDay := Nat.div_le_div_right h
  obtain ⟨hy, hm, hd⟩ := civil_parts hday
  rw [toISOString, instantOf_parts hy hm hd (by omega) (by omega) (by omega) (by omega),
    dayOf_civil]
  unfold msPerDay
  omega

/-- **An instant is read back from its text.** -/
theorem parseISO_toISOString {t : Nat} (h : t ≤ lastInstant) :
    parseISO (toISOString t) = some t := by
  rw [parseISO, instantOf_toISOString h, if_pos ⟨h, rfl⟩]

example : toISOString 1735689600000 = lit "2025-01-01T00:00:00.000Z" := by decide

end Wayfinder.Js.Date
