import Mathlib.Algebra.Order.Group.Int
import Mathlib.Data.List.DropRight
import Mathlib.Tactic.IntervalCases
import Ludex.Lib.Calendar

/-!
# The order of RFC 3339 texts

Texts are compared character by character. Date and time of day are fields of a fixed width, so
texts of different seconds are in chronological order (`stamp_lt`). Inside one second the order is
that of the fractions, whose trailing zeros are trimmed: a text that ends where another one goes on
has its `Z` at the place of a point or a digit, and `Z` is above both. So the earlier of two such
instants has the greater text (`CutShort`), and all other pairs are in chronological order
(`rfc3339_lt_iff`).

`CutShort` is about instants, not about texts: the first one is a whole number of units of some
power of ten of nanoseconds, and the second one lies in that unit. Two units are disjoint or nested
(`CutShort.trans`, `CutShort.nested`).
-/

namespace Calendar

/-! ### Comparing texts -/

section Texts

variable {xs ys s t : List Char}

/-- Parts of one length are compared first. -/
theorem append_lt_append_iff (h : xs.length = ys.length) :
    xs ++ s < ys ++ t ↔ xs < ys ∨ xs = ys ∧ s < t := by
  induction xs generalizing ys with
  | nil =>
    obtain rfl := List.length_eq_zero_iff.mp h.symm
    simp
  | cons x xs ih =>
    cases ys with
    | nil => exact absurd h (by simp)
    | cons y ys =>
      rw [List.cons_append, List.cons_append, List.cons_lt_cons_iff, List.cons_lt_cons_iff,
        ih (Nat.succ.inj h), List.cons.injEq]
      tauto

/-- Where neither text begins with the other one, what follows them does not matter. -/
theorem append_lt_append_of_not_isPrefix (h₁ : ¬ xs <+: ys) (h₂ : ¬ ys <+: xs) :
    xs ++ s < ys ++ t ↔ xs < ys := by
  induction xs generalizing ys with
  | nil => exact absurd List.nil_prefix h₁
  | cons x xs ih =>
    cases ys with
    | nil => exact absurd List.nil_prefix h₂
    | cons y ys =>
      rw [List.cons_append, List.cons_append, List.cons_lt_cons_iff, List.cons_lt_cons_iff]
      rw [List.cons_prefix_cons] at h₁ h₂
      by_cases h_eq : x = y
      · rw [ih (fun h => h₁ ⟨h_eq, h⟩) fun h => h₂ ⟨h_eq.symm, h⟩]
      · simp [h_eq]

/-- **A terminator above all other characters** puts a text after those that begin with it. -/
theorem terminated_lt_iff {z : Char} (hx : ∀ c ∈ xs, c < z) (hy : ∀ c ∈ ys, c < z) :
    xs ++ [z] < ys ++ [z] ↔ ys <+: xs ∧ ys ≠ xs ∨ xs < ys ∧ ¬ xs <+: ys := by
  -- a longer list that continues the other one is less, as the terminator is above its letters
  by_cases h_yx : ys <+: xs
  · obtain ⟨r, rfl⟩ := h_yx
    cases r with
    | nil => simp
    | cons c r =>
      have h_c : c < z := hx c (by simp)
      have h_lt : c :: (r ++ [z]) < [z] := List.cons_lt_cons_iff.mpr (Or.inl h_c)
      rw [List.append_assoc, append_lt_append_iff rfl, List.cons_append]
      simp [h_lt]
  · -- in the other direction it is greater
    by_cases h_xy : xs <+: ys
    · obtain ⟨r, rfl⟩ := h_xy
      cases r with
      | nil => exact absurd (by simp) h_yx
      | cons c r =>
        have h_c : c < z := hy c (by simp)
        have h_not : ¬ [z] < c :: (r ++ [z]) :=
          List.lt_asymm (List.cons_lt_cons_iff.mpr (Or.inl h_c))
        rw [List.append_assoc, append_lt_append_iff rfl, List.cons_append]
        simp [h_not, h_yx]
    · -- otherwise the lists differ at a place both have
      rw [append_lt_append_of_not_isPrefix h_xy h_yx]
      simp [h_xy, h_yx]

/-- A list without its last zeros is the beginning of another such list exactly when it is the
beginning of the whole of it. -/
theorem rdropWhile_isPrefix_iff {β : Type} {p : β → Bool} {xs ys : List β} :
    xs.rdropWhile p <+: ys.rdropWhile p ↔ xs.rdropWhile p <+: ys := by
  refine ⟨fun h => h.trans (List.rdropWhile_prefix p ys), ?_⟩
  rintro ⟨r, rfl⟩
  induction r using List.reverseRecOn with
  | nil =>
    exact ⟨[], by rw [List.append_nil, List.rdropWhile_idempotent]⟩
  | append_singleton r c ih =>
    rw [← List.append_assoc, List.rdropWhile_concat]
    split
    · exact ih
    · rw [List.append_assoc]
      exact List.prefix_append _ _

end Texts

/-! ### Digits -/

theorem digitChar_lt_iff : ∀ a < 10, ∀ b < 10, (Nat.digitChar a < Nat.digitChar b ↔ a < b) := by
  decide

theorem digitChar_eq_zero_iff : ∀ a < 10, (Nat.digitChar a = '0' ↔ a = 0) := by
  decide

theorem digitChar_lt_terminator : ∀ a < 10, Nat.digitChar a < 'Z' := by
  decide

theorem lt_terminator_of_mem_digits {width n : ℕ} {c : Char} (h : c ∈ digits width n) : c < 'Z' := by
  induction width generalizing n with
  | zero => exact absurd h List.not_mem_nil
  | succ width ih =>
    rw [digits, List.mem_append, List.mem_singleton] at h
    rcases h with h | rfl
    · exact ih h
    · exact digitChar_lt_terminator _ (Nat.mod_lt _ (by omega))

/-- Numbers of a fixed width are compared like their digits. -/
theorem digits_lt_iff {width a b : ℕ} (ha : a < 10 ^ width) (hb : b < 10 ^ width) :
    digits width a < digits width b ↔ a < b := by
  -- induction on the width: the digits in front decide, and the last one if they are equal
  induction width generalizing a b with
  | zero =>
    rw [Nat.pow_zero] at ha hb
    simp only [digits, List.not_lt_nil, false_iff]
    omega
  | succ width ih =>
    rw [Nat.pow_succ] at ha hb
    have h_front : digits width (a / 10) = digits width (b / 10) ↔ a / 10 = b / 10 :=
      ⟨digits_injective (by omega) (by omega), fun h => by rw [h]⟩
    have h_last := digitChar_lt_iff (a % 10) (Nat.mod_lt _ (by omega)) (b % 10)
      (Nat.mod_lt _ (by omega))
    rw [digits, digits, append_lt_append_iff (by simp), ih (by omega) (by omega), h_front,
      List.cons_lt_cons_iff, h_last]
    simp only [List.not_lt_nil, and_false, or_false]
    omega

/-- **The digits left of a number** after its last zeros are trimmed begin the digits of the
numbers in the unit that they count. -/
theorem trimmed_isPrefix_digits_iff {width a b : ℕ} (ha : a < 10 ^ width) (hb : b < 10 ^ width) :
    (digits width a).rdropWhile (· == '0') <+: digits width b ↔
      ∃ k ≤ width, 10 ^ k ∣ a ∧ a / 10 ^ k = b / 10 ^ k := by
  -- on the number of digits, from the last one to the first
  induction width generalizing a b with
  | zero =>
    rw [Nat.pow_zero, Nat.lt_one_iff] at ha hb
    obtain rfl := ha
    obtain rfl := hb
    exact iff_of_true List.nil_prefix ⟨0, le_rfl, one_dvd 0, rfl⟩
  | succ width ih =>
    have h_eq : digits (width + 1) a = digits (width + 1) b ↔ a = b :=
      ⟨digits_injective ha hb, fun h => by rw [h]⟩
    rw [Nat.pow_succ] at ha hb
    have h_zero := digitChar_eq_zero_iff (a % 10) (Nat.mod_lt _ (by omega))
    have h_digits : digits (width + 1) a = digits width (a / 10) ++ [Nat.digitChar (a % 10)] := rfl
    by_cases h_last : a % 10 = 0
    · -- the last zero goes, and one more of the others
      have h_short : ¬ (digits width (a / 10)).rdropWhile (· == '0')
          = digits width (b / 10) ++ [Nat.digitChar (b % 10)] := by
        intro h
        have h_len := (List.rdropWhile_prefix (· == '0') (digits width (a / 10))).length_le
        rw [h, List.length_append, length_digits, length_digits, List.length_singleton] at h_len
        omega
      rw [h_digits, List.rdropWhile_concat_pos (· == '0') _ _ (by simpa using h_zero.mpr h_last), digits,
        List.prefix_concat_iff, or_iff_right h_short, ih (by omega) (by omega)]
      -- a unit of the shorter number is ten times as large in the longer one
      refine ⟨?_, ?_⟩
      · rintro ⟨k, hk, h_dvd, h_div⟩
        refine ⟨k + 1, Nat.succ_le_succ hk, ?_, ?_⟩
        · rw [Nat.pow_succ, Nat.mul_comm]
          exact Nat.mul_dvd_of_dvd_div (Nat.dvd_of_mod_eq_zero h_last) h_dvd
        · rw [Nat.pow_succ, Nat.mul_comm, ← Nat.div_div_eq_div_mul, ← Nat.div_div_eq_div_mul, h_div]
      · rintro ⟨k, hk, h_dvd, h_div⟩
        cases k with
        | zero =>
          rw [Nat.pow_zero, Nat.div_one, Nat.div_one] at h_div
          exact ⟨0, Nat.zero_le _, one_dvd _, by rw [h_div]⟩
        | succ k =>
          rw [Nat.pow_succ, Nat.mul_comm] at h_dvd h_div
          rw [← Nat.div_div_eq_div_mul, ← Nat.div_div_eq_div_mul] at h_div
          exact ⟨k, Nat.le_of_succ_le_succ hk, Nat.dvd_div_of_mul_dvd h_dvd, h_div⟩
    · -- no zero to trim: all digits are there
      have h_keep : ¬ (Nat.digitChar (a % 10) == '0') = true := by
        rw [beq_iff_eq, h_zero]
        exact h_last
      rw [h_digits, List.rdropWhile_concat_neg (· == '0') _ _ h_keep, ← h_digits]
      have h_len : (digits (width + 1) a).length = (digits (width + 1) b).length := by simp
      refine ⟨?_, ?_⟩
      · intro h
        have h_ab := h_eq.mp (h.eq_of_length h_len)
        exact ⟨0, Nat.zero_le _, one_dvd _, by rw [h_ab]⟩
      · rintro ⟨k, -, h_dvd, h_div⟩
        cases k with
        | zero =>
          rw [Nat.pow_zero, Nat.div_one, Nat.div_one] at h_div
          exact h_eq.mpr h_div ▸ List.prefix_rfl
        | succ k =>
          have h_ten : 10 ∣ a := (Dvd.intro_left (10 ^ k) (Nat.pow_succ 10 k).symm).trans h_dvd
          exact absurd (Nat.mod_eq_zero_of_dvd h_ten) h_last

/-! ### Fractions of a second -/

theorem fraction_zero : fraction 0 = [] := if_pos rfl

theorem fraction_of_ne_zero {nanos : ℕ} (h : nanos ≠ 0) :
    fraction nanos = '.' :: (digits 9 nanos).rdropWhile (· == '0') := if_neg h

theorem lt_terminator_of_mem_fraction {nanos : ℕ} {c : Char} (h : c ∈ fraction nanos) : c < 'Z' := by
  unfold fraction at h
  split at h
  · exact absurd h List.not_mem_nil
  · rcases List.mem_cons.mp h with rfl | h
    · decide
    · exact lt_terminator_of_mem_digits ((List.rdropWhile_prefix (· == '0') _).mem h)

/-- A fraction that another one begins with, in terms of the numbers. A whole second begins them
all. -/
theorem fraction_isPrefix_iff {a b : ℕ} (ha : a < 10 ^ 9) (hb : b < 10 ^ 9) :
    fraction a <+: fraction b ↔ ∃ k ≤ 9, 10 ^ k ∣ a ∧ a / 10 ^ k = b / 10 ^ k := by
  by_cases h_a : a = 0
  · subst h_a
    refine iff_of_true ?_ ⟨9, le_rfl, dvd_zero _, ?_⟩
    · rw [fraction_zero]
      exact List.nil_prefix
    · rw [Nat.zero_div, Nat.div_eq_of_lt hb]
  · by_cases h_b : b = 0
    · subst h_b
      refine iff_of_false ?_ ?_
      · rw [fraction_of_ne_zero h_a, fraction_zero, List.prefix_nil]
        exact List.cons_ne_nil _ _
      · rintro ⟨k, -, h_dvd, h_div⟩
        -- a unit that `a` counts is not above `a`
        rw [Nat.zero_div, Nat.div_eq_zero_iff] at h_div
        have h_le := Nat.le_of_dvd (Nat.pos_of_ne_zero h_a) h_dvd
        have h_pos := Nat.pow_pos (n := k) (show 0 < 10 by omega)
        omega
    · rw [fraction_of_ne_zero h_a, fraction_of_ne_zero h_b, List.cons_prefix_cons]
      simp only [true_and]
      exact rdropWhile_isPrefix_iff.trans (trimmed_isPrefix_digits_iff ha hb)

/-- Fractions neither of which begins with the other one are in the order of the numbers. -/
theorem fraction_lt_iff {a b : ℕ} (ha : a < 10 ^ 9) (hb : b < 10 ^ 9)
    (h_ab : ¬ fraction a <+: fraction b) (h_ba : ¬ fraction b <+: fraction a) :
    fraction a < fraction b ↔ a < b := by
  have h_a : a ≠ 0 := by
    rintro rfl
    rw [fraction_zero] at h_ab
    exact h_ab List.nil_prefix
  have h_b : b ≠ 0 := by
    rintro rfl
    rw [fraction_zero] at h_ba
    exact h_ba List.nil_prefix
  rw [fraction_of_ne_zero h_a, fraction_of_ne_zero h_b, List.cons_prefix_cons] at h_ab h_ba
  simp only [true_and] at h_ab h_ba
  rw [fraction_of_ne_zero h_a, fraction_of_ne_zero h_b, ← digits_lt_iff ha hb,
    List.cons_lt_cons_iff]
  -- the digits are those of the fraction and the zeros that were trimmed
  obtain ⟨r, hr⟩ := List.rdropWhile_prefix (· == '0') (digits 9 a)
  obtain ⟨s, hs⟩ := List.rdropWhile_prefix (· == '0') (digits 9 b)
  conv_rhs => rw [← hr, ← hs]
  rw [append_lt_append_of_not_isPrefix h_ab h_ba]
  simp

/-! ### Instants whose texts continue one another -/

/-- The text of `b` goes on where the one of `a` ends: `a` counts whole units of `10 ^ k`
nanoseconds, one second at most, and `b` comes after it in the unit it begins. -/
def CutShort (a b : ℤ) : Prop := ∃ k < 10, (10 : ℤ) ^ k ∣ a ∧ a < b ∧ b < a + 10 ^ k

instance (a b : ℤ) : Decidable (CutShort a b) :=
  inferInstanceAs (Decidable (∃ k < 10, (10 : ℤ) ^ k ∣ a ∧ a < b ∧ b < a + 10 ^ k))

theorem CutShort.lt {a b : ℤ} (h : CutShort a b) : a < b := by
  obtain ⟨-, -, -, h_lt, -⟩ := h
  exact h_lt

theorem CutShort.asymm {a b : ℤ} (h : CutShort a b) : ¬ CutShort b a :=
  fun h' => lt_asymm h.lt h'.lt

/-- Multiples of one unit are that unit apart. -/
theorem add_le_of_dvd {d a b : ℤ} (ha : d ∣ a) (hb : d ∣ b) (h : a < b) : a + d ≤ b := by
  have h_le := Int.le_of_dvd (by omega) (Int.dvd_sub hb ha)
  omega

theorem pow_dvd_pow_ten {j k : ℕ} (h : j ≤ k) : (10 : ℤ) ^ j ∣ 10 ^ k := pow_dvd_pow 10 h

theorem CutShort.trans {a b c : ℤ} (h : CutShort a b) (h' : CutShort b c) : CutShort a c := by
  obtain ⟨k, hk, h_dvd, h_lt, h_end⟩ := h
  obtain ⟨j, hj, h_dvd', h_lt', h_end'⟩ := h'
  rcases le_total j k with h_le | h_le
  · -- the smaller unit ends where the larger one does, or before
    have h_in := add_le_of_dvd h_dvd'
      ((pow_dvd_pow_ten h_le).trans (Int.dvd_add h_dvd (dvd_refl _))) h_end
    exact ⟨k, hk, h_dvd, by omega, by omega⟩
  · have h_out := add_le_of_dvd h_dvd ((pow_dvd_pow_ten h_le).trans h_dvd') h_lt
    omega

/-- **Units are disjoint or nested.** Of two instants that one text continues, the later one has
the smaller unit: what is after the unit of the earlier one is after that of the later one. -/
theorem CutShort.nested {a b c x : ℤ} (ha : CutShort a c) (hb : CutShort b c) (h_le : a ≤ b)
    (h_lt : a < x) (h_out : ¬ CutShort a x) : b < x ∧ ¬ CutShort b x := by
  have h_b : a = b ∨ CutShort a b := by
    obtain ⟨k, hk, h_dvd, -, h_end⟩ := ha
    rcases h_le.eq_or_lt with rfl | h_ab
    · exact Or.inl rfl
    · exact Or.inr ⟨k, hk, h_dvd, h_ab, hb.lt.trans h_end⟩
  rcases h_b with rfl | h_b
  · exact ⟨h_lt, h_out⟩
  · refine ⟨?_, fun h => h_out (h_b.trans h)⟩
    obtain ⟨k, hk, h_dvd, -, h_end⟩ := h_b
    by_contra h_not
    exact h_out ⟨k, hk, h_dvd, h_lt, by omega⟩

/-- Inside one second, that is a matter of the fractions. -/
theorem cutShort_iff {a b : ℤ} (h_second : a / nanosPerSecond = b / nanosPerSecond) :
    CutShort a b ↔ a ≠ b ∧
      fraction (a % nanosPerSecond).toNat <+: fraction (b % nanosPerSecond).toNat := by
  unfold nanosPerSecond at *
  rw [fraction_isPrefix_iff (by omega) (by omega)]
  refine ⟨?_, ?_⟩
  · rintro ⟨k, hk, h_dvd, h_lt, h_end⟩
    refine ⟨h_lt.ne, k, Nat.lt_succ_iff.mp hk, ?_⟩
    interval_cases k <;> simp only [Nat.reducePow, Int.reducePow] at * <;> omega
  · rintro ⟨h_ne, k, hk, h_dvd, h_div⟩
    refine ⟨k, Nat.lt_succ_iff.mpr hk, ?_⟩
    interval_cases k <;> simp only [Nat.reducePow, Int.reducePow] at * <;> omega

/-- A unit does not reach into the next second. -/
theorem CutShort.second_eq {a b : ℤ} (h : CutShort a b) :
    a / nanosPerSecond = b / nanosPerSecond := by
  obtain ⟨k, hk, h_dvd, h_lt, h_end⟩ := h
  unfold nanosPerSecond
  have h_unit : (10 : ℤ) ^ k ∣ 1000000000 := pow_dvd_pow_ten (Nat.lt_succ_iff.mp hk)
  have h_next := add_le_of_dvd h_dvd (h_unit.trans (Dvd.intro (a / 1000000000 + 1) rfl)) (by omega)
  omega

/-! ### Dates and times of day -/

/-- From one day to the next the year of the era stays or goes up by one. -/
theorem yearOfEra_succ (doe : ℤ) :
    yearOfEra (doe + 1) = yearOfEra doe ∨ yearOfEra (doe + 1) = yearOfEra doe + 1 := by
  have h_four : (doe + 1) / 1460 = doe / 1460 ∨ (doe + 1) / 1460 = doe / 1460 + 1 := by omega
  have h_century : (doe + 1) / 36524 = doe / 36524 ∨ (doe + 1) / 36524 = doe / 36524 + 1 := by omega
  have h_era : (doe + 1) / 146096 = doe / 146096 ∨ (doe + 1) / 146096 = doe / 146096 + 1 ∧
      (doe + 1) / 36524 = doe / 36524 + 1 := by omega
  unfold yearOfEra
  generalize (doe + 1) / 1460 = fours' at *
  generalize (doe + 1) / 36524 = centuries' at *
  generalize (doe + 1) / 146096 = eras' at *
  generalize doe / 1460 = fours at *
  generalize doe / 36524 = centuries at *
  generalize doe / 146096 = eras at *
  omega

/-- The parts of a date as digits of one number. -/
def Date.code (date : Date) : ℤ := (date.year * 13 + date.month) * 32 + date.day

/-- The date of a day of a year that begins in March. -/
def dateOfYearDay (year doy : ℤ) : Date :=
  let mp := (5 * doy + 2) / 153
  let month := if mp < 10 then mp + 3 else mp - 9
  { year := year + (if month ≤ 2 then 1 else 0)
    month := month
    day := doy - (153 * mp + 2) / 5 + 1 }

theorem dateOfDays_eq (days : ℤ) :
    dateOfDays days = dateOfYearDay
      (yearOfEra ((days + 719468) % 146097) + (days + 719468) / 146097 * 400)
      (dayOfYear ((days + 719468) % 146097)) := rfl

theorem dateOfYearDay_range (year : ℤ) {doy : ℤ} (h : 0 ≤ doy ∧ doy < 366) :
    (1 ≤ (dateOfYearDay year doy).month ∧ (dateOfYearDay year doy).month ≤ 12) ∧
      1 ≤ (dateOfYearDay year doy).day ∧ (dateOfYearDay year doy).day ≤ 31 := by
  simp only [dateOfYearDay]
  refine ⟨?_, ?_⟩
  · split <;> omega
  · omega

/-- January and February are the months 13 and 14 of the year before. -/
theorem code_dateOfYearDay (year : ℤ) {doy : ℤ} (h : 0 ≤ doy ∧ doy < 366) :
    (dateOfYearDay year doy).code
      = (year * 13 + (5 * doy + 2) / 153 + if (5 * doy + 2) / 153 < 10 then 3 else 4) * 32
        + (doy - (153 * ((5 * doy + 2) / 153) + 2) / 5 + 1) := by
  simp only [dateOfYearDay, Date.code]
  by_cases h_early : (5 * doy + 2) / 153 < 10
  · have h_march : ¬ (5 * doy + 2) / 153 + 3 ≤ 2 := by omega
    simp only [h_early, h_march, if_true, if_false]
    omega
  · have h_winter : (5 * doy + 2) / 153 - 9 ≤ 2 := by omega
    simp only [h_early, h_winter, if_true, if_false]
    omega

theorem dateOfYearDay_lt_next_day (year : ℤ) {doy : ℤ} (h : 0 ≤ doy) (h' : doy + 1 < 366) :
    (dateOfYearDay year doy).code < (dateOfYearDay year (doy + 1)).code := by
  have h_month : (5 * (doy + 1) + 2) / 153 = (5 * doy + 2) / 153
      ∨ (5 * (doy + 1) + 2) / 153 = (5 * doy + 2) / 153 + 1 := by omega
  rw [code_dateOfYearDay year ⟨h, by omega⟩, code_dateOfYearDay year ⟨by omega, h'⟩]
  rcases h_month with h_month | h_month
  · rw [h_month]
    omega
  · rw [h_month]
    have h_last : doy - (153 * ((5 * doy + 2) / 153) + 2) / 5 < 31 := by omega
    have h_first : 0 ≤ doy + 1 - (153 * ((5 * doy + 2) / 153 + 1) + 2) / 5 := by omega
    split <;> split <;> omega

theorem dateOfYearDay_lt_next_year (year : ℤ) {doy doy' : ℤ} (h : 0 ≤ doy ∧ doy < 366)
    (h' : 0 ≤ doy' ∧ doy' < 366) :
    (dateOfYearDay year doy).code < (dateOfYearDay (year + 1) doy').code := by
  rw [code_dateOfYearDay year h, code_dateOfYearDay (year + 1) h']
  have h_month : (5 * doy + 2) / 153 < 12 ∧ 0 ≤ (5 * doy' + 2) / 153 := by omega
  have h_last : doy - (153 * ((5 * doy + 2) / 153) + 2) / 5 < 31 := by omega
  have h_first : 0 ≤ doy' - (153 * ((5 * doy' + 2) / 153) + 2) / 5 := by omega
  generalize (5 * doy + 2) / 153 = month at *
  generalize (5 * doy' + 2) / 153 = month' at *
  generalize doy - (153 * month + 2) / 5 = day at *
  generalize doy' - (153 * month' + 2) / 5 = day' at *
  split <;> split <;> omega

theorem dateOfDays_lt_succ (days : ℤ) : (dateOfDays days).code < (dateOfDays (days + 1)).code := by
  have h_doe : 0 ≤ (days + 719468) % 146097 ∧ (days + 719468) % 146097 < 146097 := by omega
  have h_doe' : 0 ≤ (days + 1 + 719468) % 146097 ∧ (days + 1 + 719468) % 146097 < 146097 := by omega
  have h_doy := dayOfYear_range h_doe
  have h_doy' := dayOfYear_range h_doe'
  rw [dateOfDays_eq, dateOfDays_eq]
  by_cases h_end : (days + 719468) % 146097 = 146096
  · -- the last day of an era is one of its year 399
    have h_next : (days + 1 + 719468) % 146097 = 0 := by omega
    have h_era : (days + 1 + 719468) / 146097 = (days + 719468) / 146097 + 1 := by omega
    rw [h_end] at h_doy ⊢
    rw [h_next] at h_doy' ⊢
    have h_last : yearOfEra 146096 = 399 := by decide
    have h_first : yearOfEra 0 = 0 := by decide
    have h_year : yearOfEra 0 + (days + 1 + 719468) / 146097 * 400
        = yearOfEra 146096 + (days + 719468) / 146097 * 400 + 1 := by omega
    rw [h_year]
    exact dateOfYearDay_lt_next_year _ h_doy h_doy'
  · have h_next : (days + 1 + 719468) % 146097 = (days + 719468) % 146097 + 1 := by omega
    have h_era : (days + 1 + 719468) / 146097 = (days + 719468) / 146097 := by omega
    rw [h_next] at h_doy' ⊢
    rw [h_era]
    rcases yearOfEra_succ ((days + 719468) % 146097) with h_year | h_year
    · have h_day : dayOfYear ((days + 719468) % 146097 + 1)
          = dayOfYear ((days + 719468) % 146097) + 1 := by
        unfold dayOfYear
        rw [h_year]
        omega
      rw [h_day] at h_doy' ⊢
      rw [h_year]
      exact dateOfYearDay_lt_next_day _ h_doy.1 h_doy'.2
    · have h_year' : yearOfEra ((days + 719468) % 146097 + 1) + (days + 719468) / 146097 * 400
          = yearOfEra ((days + 719468) % 146097) + (days + 719468) / 146097 * 400 + 1 := by omega
      rw [h_year']
      exact dateOfYearDay_lt_next_year _ h_doy h_doy'

/-- **Dates are in the order of their days**, compared by year, month and day. -/
theorem dateOfDays_lt {a b : ℤ} (h : a < b) :
    (dateOfDays a).year < (dateOfDays b).year ∨ (dateOfDays a).year = (dateOfDays b).year ∧
      ((dateOfDays a).month < (dateOfDays b).month ∨ (dateOfDays a).month = (dateOfDays b).month ∧
        (dateOfDays a).day < (dateOfDays b).day) := by
  have h_code : (dateOfDays a).code < (dateOfDays b).code :=
    strictMono_int_of_lt_succ dateOfDays_lt_succ h
  -- a day is within its era
  have h_era : ∀ days : ℤ, 0 ≤ days % 146097 ∧ days % 146097 < 146097 := fun days =>
    ⟨Int.emod_nonneg days (by decide), Int.emod_lt_of_pos days (by decide)⟩
  have h_a := dateOfYearDay_range
    (yearOfEra ((a + 719468) % 146097) + (a + 719468) / 146097 * 400)
    (dayOfYear_range (h_era (a + 719468)))
  have h_b := dateOfYearDay_range
    (yearOfEra ((b + 719468) % 146097) + (b + 719468) / 146097 * 400)
    (dayOfYear_range (h_era (b + 719468)))
  rw [← dateOfDays_eq] at h_a h_b
  unfold Date.code at h_code
  omega

/-- Seconds of a day are compared by hour, minute and second. -/
theorem timeOfDay_lt {a b : ℕ} (h : a < b) :
    a / 3600 < b / 3600 ∨ a / 3600 = b / 3600 ∧ (a / 60 % 60 < b / 60 % 60 ∨
      a / 60 % 60 = b / 60 % 60 ∧ a % 60 < b % 60) := by
  have h_a : a / 3600 = a / 60 / 60 := by omega
  have h_b : b / 3600 = b / 60 / 60 := by omega
  rw [h_a, h_b]
  omega

/-- A field of digits is compared before what follows it. -/
theorem digits_append_lt_iff {width a b : ℕ} (ha : a < 10 ^ width) (hb : b < 10 ^ width)
    {s t : List Char} : digits width a ++ s < digits width b ++ t ↔ a < b ∨ a = b ∧ s < t := by
  have h_eq : digits width a = digits width b ↔ a = b :=
    ⟨digits_injective ha hb, fun h => by rw [h]⟩
  rw [append_lt_append_iff (by simp), digits_lt_iff ha hb, h_eq]

/-- The same before what follows its separator. -/
theorem field_lt_iff {width a b : ℕ} (ha : a < 10 ^ width) (hb : b < 10 ^ width) {c : Char}
    {s t : List Char} :
    digits width a ++ c :: s < digits width b ++ c :: t ↔ a < b ∨ a = b ∧ s < t := by
  rw [digits_append_lt_iff ha hb, List.cons_lt_cons_iff]
  simp

/-- The fields of the text of a second are numbers of their widths. -/
theorem fields_range {seconds : ℤ} (h : -719528 * 86400 ≤ seconds ∧ seconds < 2932897 * 86400) :
    (dateOfDays (seconds / 86400)).year.toNat < 10 ^ 4 ∧
      (dateOfDays (seconds / 86400)).month.toNat < 10 ^ 2 ∧
      (dateOfDays (seconds / 86400)).day.toNat < 10 ^ 2 ∧
      (seconds % 86400).toNat / 3600 < 10 ^ 2 ∧ (seconds % 86400).toNat / 60 % 60 < 10 ^ 2 ∧
      (seconds % 86400).toNat % 60 < 10 ^ 2 := by
  obtain ⟨h_year, h_month, h_day⟩ := @dateOfDays_range (seconds / 86400) ⟨by omega, by omega⟩
  omega

/-- The fields of an earlier second come first. -/
theorem fields_lt {a b : ℤ} (ha : -719528 * 86400 ≤ a) (hb : b < 2932897 * 86400) (h : a < b) :
    (dateOfDays (a / 86400)).year.toNat < (dateOfDays (b / 86400)).year.toNat ∨
      (dateOfDays (a / 86400)).year.toNat = (dateOfDays (b / 86400)).year.toNat ∧
        ((dateOfDays (a / 86400)).month.toNat < (dateOfDays (b / 86400)).month.toNat ∨
          (dateOfDays (a / 86400)).month.toNat = (dateOfDays (b / 86400)).month.toNat ∧
            ((dateOfDays (a / 86400)).day.toNat < (dateOfDays (b / 86400)).day.toNat ∨
              (dateOfDays (a / 86400)).day.toNat = (dateOfDays (b / 86400)).day.toNat ∧
                ((a % 86400).toNat / 3600 < (b % 86400).toNat / 3600 ∨
                  (a % 86400).toNat / 3600 = (b % 86400).toNat / 3600 ∧
                    ((a % 86400).toNat / 60 % 60 < (b % 86400).toNat / 60 % 60 ∨
                      (a % 86400).toNat / 60 % 60 = (b % 86400).toNat / 60 % 60 ∧
                        (a % 86400).toNat % 60 < (b % 86400).toNat % 60)))) := by
  obtain ⟨h_year_a, h_month_a, h_day_a⟩ := @dateOfDays_range (a / 86400) ⟨by omega, by omega⟩
  obtain ⟨h_year_b, h_month_b, h_day_b⟩ := @dateOfDays_range (b / 86400) ⟨by omega, by omega⟩
  by_cases h_day : a / 86400 = b / 86400
  · -- on one day the times of day decide
    have h_time : (a % 86400).toNat < (b % 86400).toNat := by omega
    rw [h_day]
    exact Or.inr ⟨rfl, Or.inr ⟨rfl, Or.inr ⟨rfl, timeOfDay_lt h_time⟩⟩⟩
  · rcases dateOfDays_lt (show a / 86400 < b / 86400 by omega) with
      h_year | ⟨h_year, h_month | ⟨h_month, h_date⟩⟩
    · exact Or.inl (by omega)
    · exact Or.inr ⟨by rw [h_year], Or.inl (by omega)⟩
    · exact Or.inr ⟨by rw [h_year], Or.inr ⟨by rw [h_month], Or.inl (by omega)⟩⟩

/-- **Texts of different seconds are in chronological order.** -/
theorem stamp_lt {a b : ℤ} (ha : -719528 * 86400 ≤ a) (hb : b < 2932897 * 86400) (h : a < b) :
    stamp a < stamp b := by
  obtain ⟨h_year_a, h_month_a, h_day_a, h_hour_a, h_minute_a, h_second_a⟩ :=
    fields_range ⟨ha, h.trans hb⟩
  obtain ⟨h_year_b, h_month_b, h_day_b, h_hour_b, h_minute_b, h_second_b⟩ :=
    fields_range ⟨ha.trans h.le, hb⟩
  simp only [stamp]
  rw [field_lt_iff h_year_a h_year_b, field_lt_iff h_month_a h_month_b,
    field_lt_iff h_day_a h_day_b, field_lt_iff h_hour_a h_hour_b,
    field_lt_iff h_minute_a h_minute_b, digits_lt_iff h_second_a h_second_b]
  exact fields_lt ha hb h

/-- **The order of the texts** is chronological except for instants whose texts continue one
another, which it exchanges. -/
theorem rfc3339_lt_iff {a b : ℤ} (ha : firstNanos ≤ a ∧ a < endNanos)
    (hb : firstNanos ≤ b ∧ b < endNanos) :
    rfc3339 a < rfc3339 b ↔ CutShort b a ∨ a < b ∧ ¬ CutShort a b := by
  have h_range : -719528 * 86400 ≤ a / nanosPerSecond ∧ a / nanosPerSecond < 2932897 * 86400 ∧
      -719528 * 86400 ≤ b / nanosPerSecond ∧ b / nanosPerSecond < 2932897 * 86400 := by
    unfold firstNanos endNanos nanosPerSecond at *
    omega
  obtain ⟨h_a, h_a', h_b, h_b'⟩ := h_range
  unfold rfc3339
  -- the stamps have one length, so they decide unless they are equal
  rw [append_lt_append_iff (by rw [length_stamp, length_stamp])]
  rcases lt_trichotomy (a / nanosPerSecond) (b / nanosPerSecond) with h_lt | h_eq | h_gt
  · have h_cut : ¬ CutShort b a := fun h => h_lt.ne' h.second_eq
    have h_cut' : ¬ CutShort a b := fun h => h_lt.ne h.second_eq
    have h_ab : a < b := by
      unfold nanosPerSecond at h_lt
      omega
    exact iff_of_true (Or.inl (stamp_lt h_a h_b' h_lt)) (Or.inr ⟨h_ab, h_cut'⟩)
  · -- the same second: the fractions decide, with the terminator after them
    have h_irrefl : ¬ stamp (b / nanosPerSecond) < stamp (b / nanosPerSecond) := List.lt_irrefl _
    rw [h_eq]
    simp only [h_irrefl, true_and, false_or]
    rw [terminated_lt_iff (fun _ h => lt_terminator_of_mem_fraction h)
      fun _ h => lt_terminator_of_mem_fraction h, cutShort_iff h_eq, cutShort_iff h_eq.symm]
    have h_inj : a ≠ b → fraction (a % nanosPerSecond).toNat
        ≠ fraction (b % nanosPerSecond).toNat := by
      intro h_ne h
      unfold nanosPerSecond at *
      have h_nanos := fraction_injective (by omega) (by omega) h
      omega
    -- one fraction begins the other, and then comes after it, or their first difference decides
    by_cases h_ba : fraction (b % nanosPerSecond).toNat <+: fraction (a % nanosPerSecond).toNat
    · by_cases h_ne : a = b
      · subst h_ne
        simp
      · exact iff_of_true (Or.inl ⟨h_ba, (h_inj h_ne).symm⟩) (Or.inl ⟨Ne.symm h_ne, h_ba⟩)
    · by_cases h_ab : fraction (a % nanosPerSecond).toNat <+: fraction (b % nanosPerSecond).toNat
      · have h_ne : a ≠ b := by
          rintro rfl
          exact h_ba h_ab
        simp [h_ba, h_ab, h_ne]
      · simp only [h_ba, h_ab, false_and, and_false, not_false_eq_true, and_true, false_or]
        unfold nanosPerSecond at *
        rw [fraction_lt_iff (by omega) (by omega) h_ab h_ba]
        omega
  · have h_cut : ¬ CutShort b a := fun h => h_gt.ne h.second_eq
    have h_ba : ¬ a < b := by
      unfold nanosPerSecond at h_gt
      omega
    have h_stamp := stamp_lt h_b h_a' h_gt
    refine iff_of_false ?_ (by simp [h_cut, h_ba])
    rintro (h | ⟨h, -⟩)
    · exact List.lt_asymm h h_stamp
    · rw [h] at h_stamp
      exact List.lt_irrefl _ h_stamp

end Calendar
