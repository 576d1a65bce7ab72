import Mathlib.Data.Int.Notation
import Mathlib.Algebra.Group.Nat.Defs
import Mathlib.Tactic.Common

/-!
# Calendar dates of UTC instants

Proleptic Gregorian dates of day counts, and the RFC 3339 text of an instant given in nanoseconds
since 1970-01-01T00:00:00Z. The fraction of a second is written with its trailing zeros trimmed
and left out when it is zero, so texts of one second have different lengths.

A text determines its instant (`rfc3339_injective`), for instants whose year has four digits. The
date part rests on `daysOfDate_dateOfDays`, which inverts the computation of the date, the fraction
on `fraction_injective`: the zeros that were trimmed are known from the length.
-/

namespace Calendar

/-! ### Dates -/

/-- A civil date. -/
structure Date where
  year : ℤ
  month : ℤ
  day : ℤ
deriving DecidableEq, Repr

/-- The year within its 400-year era, of a day of the era. Years are counted from March. -/
def yearOfEra (doe : ℤ) : ℤ := (doe - doe / 1460 + doe / 36524 - doe / 146096) / 365

/-- The day within its year, of a day of the era. -/
def dayOfYear (doe : ℤ) : ℤ :=
  doe - (365 * yearOfEra doe + yearOfEra doe / 4 - yearOfEra doe / 100)

/-- The date a number of days after 1970-01-01. Years are counted from March, in 400-year eras of
146097 days, so that a leap day is the last day of its year. -/
def dateOfDays (days : ℤ) : Date :=
  let z := days + 719468
  let era := z / 146097
  let doe := z % 146097
  let doy := dayOfYear doe
  let mp := (5 * doy + 2) / 153
  let month := if mp < 10 then mp + 3 else mp - 9
  { year := yearOfEra doe + era * 400 + (if month ≤ 2 then 1 else 0)
    month := month
    day := doy - (153 * mp + 2) / 5 + 1 }

example : dateOfDays 0 = ⟨1970, 1, 1⟩ := by decide
example : dateOfDays 11016 = ⟨2000, 2, 29⟩ := by decide
example : dateOfDays (-719528) = ⟨0, 1, 1⟩ := by decide

theorem yearOfEra_range {doe : ℤ} (h : 0 ≤ doe ∧ doe < 146097) :
    0 ≤ yearOfEra doe ∧ yearOfEra doe < 400 := by
  unfold yearOfEra
  omega

/-- The leap days before a year of the era are those its number of days accounts for. -/
theorem dayOfYear_range {doe : ℤ} (h : 0 ≤ doe ∧ doe < 146097) :
    0 ≤ dayOfYear doe ∧ dayOfYear doe < 366 := by
  have h_year : yearOfEra doe = (doe - doe / 1460 + doe / 36524 - doe / 146096) / 365 := rfl
  unfold dayOfYear
  generalize h_fours : doe / 1460 = fours at h_year
  generalize h_centuries : doe / 36524 = centuries at h_year
  generalize h_last : doe / 146096 = last at h_year
  generalize yearOfEra doe = year at h_year ⊢
  -- a quarter of the years counts the four-year cycles, but for one that may be running
  have h_leap : year / 4 ≤ fours ∧ fours ≤ year / 4 + 1 := by omega
  have h_century : centuries = 0 ∨ centuries = 1 ∨ centuries = 2 ∨ centuries = 3 ∨ centuries = 4 :=
    by omega
  -- the last day of the era still belongs to its fourth century
  have h_drop : year / 100 = centuries - last := by
    rcases h_century with rfl | rfl | rfl | rfl | rfl <;> omega
  omega

/-- The number of days from 1970-01-01 to a date. -/
def daysOfDate (date : Date) : ℤ :=
  let year := if date.month ≤ 2 then date.year - 1 else date.year
  let mp := if 2 < date.month then date.month - 3 else date.month + 9
  let yoe := year % 400
  let doy := (153 * mp + 2) / 5 + date.day - 1
  year / 400 * 146097 + (yoe * 365 + yoe / 4 - yoe / 100 + doy) - 719468

example : daysOfDate ⟨2000, 2, 29⟩ = 11016 := by decide

/-- Inside a month dates are counted by their days, and beyond it they go on. -/
theorem daysOfDate_eq (year month day : ℤ) :
    daysOfDate ⟨year, month, day⟩ = daysOfDate ⟨year, month, 1⟩ + day - 1 := by
  simp only [daysOfDate]
  omega

/-- **The days of a date** are those it is the date of. -/
theorem daysOfDate_dateOfDays (days : ℤ) : daysOfDate (dateOfDays days) = days := by
  have h_doe : 0 ≤ (days + 719468) % 146097 ∧ (days + 719468) % 146097 < 146097 := by omega
  have h_year := yearOfEra_range h_doe
  have h_day := dayOfYear_range h_doe
  have h_def : dayOfYear ((days + 719468) % 146097)
      = (days + 719468) % 146097 - (365 * yearOfEra ((days + 719468) % 146097)
        + yearOfEra ((days + 719468) % 146097) / 4
        - yearOfEra ((days + 719468) % 146097) / 100) := rfl
  -- a year is split into its era and the year of the era
  have h_split : ∀ era : ℤ,
      (yearOfEra ((days + 719468) % 146097) + era * 400) / 400 = era ∧
        (yearOfEra ((days + 719468) % 146097) + era * 400) % 400
          = yearOfEra ((days + 719468) % 146097) := by
    intro era
    omega
  -- March to February are the months 0 to 11, so the month index is known from the month
  by_cases h_early : (5 * dayOfYear ((days + 719468) % 146097) + 2) / 153 < 10
  · have h_march : ¬ (5 * dayOfYear ((days + 719468) % 146097) + 2) / 153 + 3 ≤ 2 := by omega
    have h_march' : 2 < (5 * dayOfYear ((days + 719468) % 146097) + 2) / 153 + 3 := by omega
    simp only [dateOfDays, daysOfDate, h_early, h_march, h_march', if_true, if_false, Int.add_zero,
      Int.add_sub_cancel]
    rw [(h_split _).1, (h_split _).2]
    omega
  · have h_winter : (5 * dayOfYear ((days + 719468) % 146097) + 2) / 153 - 9 ≤ 2 := by omega
    have h_winter' : ¬ 2 < (5 * dayOfYear ((days + 719468) % 146097) + 2) / 153 - 9 := by omega
    simp only [dateOfDays, daysOfDate, h_early, h_winter, h_winter', if_true, if_false,
      Int.add_sub_cancel, Int.sub_add_cancel]
    rw [(h_split _).1, (h_split _).2]
    omega

/-- A date determines its day count. -/
theorem dateOfDays_injective {a b : ℤ} (h : dateOfDays a = dateOfDays b) : a = b := by
  calc a = daysOfDate (dateOfDays a) := (daysOfDate_dateOfDays a).symm
    _ = daysOfDate (dateOfDays b) := by rw [h]
    _ = b := daysOfDate_dateOfDays b

/-- Between 0000-01-01 and 9999-12-31 every part of a date is a number of its usual width. -/
theorem dateOfDays_range {days : ℤ} (h : -719528 ≤ days ∧ days < 2932897) :
    (0 ≤ (dateOfDays days).year ∧ (dateOfDays days).year < 10000) ∧
      (0 ≤ (dateOfDays days).month ∧ (dateOfDays days).month < 100) ∧
      0 ≤ (dateOfDays days).day ∧ (dateOfDays days).day < 100 := by
  have h_doe : 0 ≤ (days + 719468) % 146097 ∧ (days + 719468) % 146097 < 146097 := by omega
  have h_year := yearOfEra_range h_doe
  have h_day := dayOfYear_range h_doe
  have h_def : dayOfYear ((days + 719468) % 146097)
      = (days + 719468) % 146097 - (365 * yearOfEra ((days + 719468) % 146097)
        + yearOfEra ((days + 719468) % 146097) / 4
        - yearOfEra ((days + 719468) % 146097) / 100) := rfl
  -- year 0 begins in the era before the one that starts on its first of March
  have h_era : (days + 719468) / 146097 = -1 ∨ 0 ≤ (days + 719468) / 146097 := by omega
  simp only [dateOfDays]
  generalize yearOfEra ((days + 719468) % 146097) = year at h_year h_def ⊢
  generalize dayOfYear ((days + 719468) % 146097) = day at h_day h_def ⊢
  refine ⟨?_, ?_, ?_⟩
  · rcases h_era with h_era | h_era
    · -- the last sixty days of the era before year 0 are January and February of that year
      have h_late : 146037 ≤ (days + 719468) % 146097 := by omega
      have h_last : year = 399 := by omega
      have h_winter : 306 ≤ day := by omega
      have h_mp : ¬ (5 * day + 2) / 153 < 10 := by omega
      simp only [h_mp, if_false]
      split <;> omega
    · split <;> split <;> omega
  · split <;> omega
  · omega

/-! ### Decimal texts -/

/-- The last `width` decimal digits of `n`, most significant first. -/
def digits : ℕ → ℕ → List Char
  | 0, _ => []
  | width + 1, n => digits width (n / 10) ++ [Nat.digitChar (n % 10)]

@[simp] theorem length_digits (width n : ℕ) : (digits width n).length = width := by
  induction width generalizing n with
  | zero => rfl
  | succ width ih => rw [digits, List.length_append, ih, List.length_singleton]

theorem digitChar_injective : ∀ a < 10, ∀ b < 10, Nat.digitChar a = Nat.digitChar b → a = b := by
  decide

/-- The digits of a number that fits the width determine it. -/
theorem digits_injective {width a b : ℕ} (ha : a < 10 ^ width) (hb : b < 10 ^ width)
    (h : digits width a = digits width b) : a = b := by
  induction width generalizing a b with
  | zero => omega
  | succ width ih =>
    rw [digits, digits] at h
    -- the front parts have the same width, so fronts and last digits are equal
    obtain ⟨h_front, h_last⟩ := List.append_inj h (by rw [length_digits, length_digits])
    rw [Nat.pow_succ] at ha hb
    have h_div : a / 10 = b / 10 := ih (by omega) (by omega) h_front
    have h_mod : a % 10 = b % 10 :=
      digitChar_injective _ (Nat.mod_lt _ (by omega)) _ (Nat.mod_lt _ (by omega))
        (List.singleton_inj.mp h_last)
    omega

/-- The fraction of a second: nine digits without their trailing zeros, after a point, and nothing
at all for a whole second. -/
def fraction (nanos : ℕ) : List Char :=
  if nanos = 0 then []
  else '.' :: ((digits 9 nanos).reverse.dropWhile (· == '0')).reverse

/-- Lists of one length that differ in no element after their leading `c`s are equal. -/
theorem eq_of_dropWhile_eq {c : Char} {xs ys : List Char} (h_len : xs.length = ys.length)
    (h : xs.dropWhile (· == c) = ys.dropWhile (· == c)) : xs = ys := by
  -- a list is its leading `c`s and the rest
  have h_lead : ∀ zs : List Char, ∃ n, zs = List.replicate n c ++ zs.dropWhile (· == c) := by
    intro zs
    induction zs with
    | nil => exact ⟨0, rfl⟩
    | cons z zs ih =>
      by_cases hz : z = c
      · obtain ⟨n, hn⟩ := ih
        refine ⟨n + 1, ?_⟩
        rw [List.dropWhile_cons_of_pos (by simpa using hz), List.replicate_succ, List.cons_append,
          ← hn, hz]
      · exact ⟨0, by rw [List.dropWhile_cons_of_neg (by simpa using hz)]; rfl⟩
  obtain ⟨m, hm⟩ := h_lead xs
  obtain ⟨n, hn⟩ := h_lead ys
  -- the rests are equal, so the lengths leave the same number of leading `c`s
  rw [hm, hn, List.length_append, List.length_append, h, List.length_replicate,
    List.length_replicate] at h_len
  rw [hm, hn, h, Nat.add_right_cancel h_len]

/-- A fraction determines its nanoseconds. -/
theorem fraction_injective {a b : ℕ} (ha : a < 10 ^ 9) (hb : b < 10 ^ 9)
    (h : fraction a = fraction b) : a = b := by
  unfold fraction at h
  split at h
  next h_a =>
    split at h
    next h_b => rw [h_a, h_b]
    · exact absurd h (by simp)
  · split at h
    · exact absurd h (by simp)
    · -- the trimmed digits, read backwards, have lost leading zeros only
      have h_drop := List.reverse_inj.mp (List.cons.inj h).2
      have h_len : (digits 9 a).reverse.length = (digits 9 b).reverse.length := by simp
      exact digits_injective ha hb (List.reverse_inj.mp (eq_of_dropWhile_eq h_len h_drop))

/-- Nanoseconds in a second. -/
def nanosPerSecond : ℕ := 1000000000

/-- The text of a date and a time of day, to the second. -/
def stamp (seconds : ℤ) : List Char :=
  let date := dateOfDays (seconds / 86400)
  let secondOfDay := (seconds % 86400).toNat
  digits 4 date.year.toNat ++ '-' :: (digits 2 date.month.toNat ++ '-' :: (digits 2 date.day.toNat
    ++ 'T' :: (digits 2 (secondOfDay / 3600) ++ ':' :: (digits 2 (secondOfDay / 60 % 60)
      ++ ':' :: digits 2 (secondOfDay % 60)))))

/-- The same without separators: the basic format. -/
def basicStamp (seconds : ℤ) : List Char :=
  let date := dateOfDays (seconds / 86400)
  let secondOfDay := (seconds % 86400).toNat
  digits 4 date.year.toNat ++ digits 2 date.month.toNat ++ digits 2 date.day.toNat ++ 'T' ::
    (digits 2 (secondOfDay / 3600) ++ digits 2 (secondOfDay / 60 % 60) ++ digits 2 (secondOfDay % 60))

example : basicStamp 1776953132 = "20260423T140532".toList := by decide +kernel

/-- The RFC 3339 text of the instant `nanos` after 1970-01-01T00:00:00Z, in UTC. -/
def rfc3339 (nanos : ℤ) : List Char :=
  stamp (nanos / nanosPerSecond) ++ (fraction (nanos % nanosPerSecond).toNat ++ ['Z'])

example : rfc3339 951827696007000000 = "2000-02-29T12:34:56.007Z".toList := by decide +kernel

theorem length_stamp (seconds : ℤ) : (stamp seconds).length = 19 := by
  simp [stamp]

/-- The text of a second determines it. -/
theorem stamp_injective {a b : ℤ} (ha : -719528 * 86400 ≤ a ∧ a < 2932897 * 86400)
    (hb : -719528 * 86400 ≤ b ∧ b < 2932897 * 86400) (h : stamp a = stamp b) : a = b := by
  simp only [stamp] at h
  -- every field has a fixed width, so the texts agree field by field
  obtain ⟨h_year, h⟩ := List.append_inj h (by simp)
  obtain ⟨h_month, h⟩ := List.append_inj (List.cons.inj h).2 (by simp)
  obtain ⟨h_day, h⟩ := List.append_inj (List.cons.inj h).2 (by simp)
  obtain ⟨h_hour, h⟩ := List.append_inj (List.cons.inj h).2 (by simp)
  obtain ⟨h_minute, h⟩ := List.append_inj (List.cons.inj h).2 (by simp)
  have h_second := (List.cons.inj h).2
  obtain ⟨h_year_a, h_month_a, h_day_a⟩ :=
    @dateOfDays_range (a / 86400) ⟨by omega, by omega⟩
  obtain ⟨h_year_b, h_month_b, h_day_b⟩ :=
    @dateOfDays_range (b / 86400) ⟨by omega, by omega⟩
  -- the date gives the day, and the three clock fields the second of the day
  have h_days : a / 86400 = b / 86400 := by
    have h_y := digits_injective (by omega) (by omega) h_year
    have h_m := digits_injective (by omega) (by omega) h_month
    have h_d := digits_injective (by omega) (by omega) h_day
    refine dateOfDays_injective ?_
    cases h_date_a : dateOfDays (a / 86400)
    cases h_date_b : dateOfDays (b / 86400)
    rw [h_date_a, h_date_b] at h_y h_m h_d
    rw [h_date_a] at h_year_a h_month_a h_day_a
    rw [h_date_b] at h_year_b h_month_b h_day_b
    simp only at *
    rw [Date.mk.injEq]
    omega
  have h_h := digits_injective (by omega) (by omega) h_hour
  have h_min := digits_injective (by omega) (by omega) h_minute
  have h_s := digits_injective (by omega) (by omega) h_second
  omega

/-- First instant of year 0. -/
def firstNanos : ℤ := -719528 * 86400 * nanosPerSecond

/-- First instant of year 10000, the first one whose year does not fit four digits. -/
def endNanos : ℤ := 2932897 * 86400 * nanosPerSecond

/-- **A text determines its instant**, from year 0 to year 9999. -/
theorem rfc3339_injective {a b : ℤ} (ha : firstNanos ≤ a ∧ a < endNanos)
    (hb : firstNanos ≤ b ∧ b < endNanos) (h : rfc3339 a = rfc3339 b) : a = b := by
  -- the stamps have the same length, so the texts split at the same place
  obtain ⟨h_stamp, h⟩ := List.append_inj h (by rw [length_stamp, length_stamp])
  have h_fraction := List.append_cancel_right h
  unfold firstNanos endNanos nanosPerSecond at ha hb
  unfold nanosPerSecond at h_stamp h_fraction
  have h_seconds := stamp_injective ⟨by omega, by omega⟩ ⟨by omega, by omega⟩ h_stamp
  have h_nanos := fraction_injective (by omega) (by omega) h_fraction
  omega

end Calendar
