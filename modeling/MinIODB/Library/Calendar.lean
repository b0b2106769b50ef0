import Mathlib.Tactic

/-!
# Dates of the Gregorian calendar

Days are counted from 1970-01-01 and may be negative. The date of a day is found in the cycle
of 400 years that it falls in, with years that start in March, so that a leap day is the last
day of its year. A date is written as year, month and day with dashes, and read back only if it
is the date of some day.
-/
namespace Calendar
open List Nat

structure Date where
  year : ℤ
  month : ℕ
  day : ℕ
  deriving DecidableEq

/-- The year of a cycle, counted from March, that a day of the cycle falls in. The last century
of a cycle and the last year of four may be a day longer than the others. -/
def yearOfEra (doe : ℤ) : ℤ :=
  let century := min (doe / 36524) 3
  let doc := doe - 36524 * century
  100 * century + 4 * (doc / 1461) + min (doc % 1461 / 365) 3

/-- The first day of a year of a cycle. -/
def startOfYear (yoe : ℤ) : ℤ := 365 * yoe + yoe / 4 - yoe / 100

/-- The first day of a month in its year, where March is the month 0. -/
def startOfMonth (mp : ℤ) : ℤ := (153 * mp + 2) / 5

/-- The date of a day. -/
def dateOf (z : ℤ) : Date :=
  let doe := (z + 719468) % 146097
  let yoe := yearOfEra doe
  let doy := doe - startOfYear yoe
  let mp := (5 * doy + 2) / 153
  { year := 400 * ((z + 719468) / 146097) + yoe + if mp < 10 then 0 else 1
    month := (if mp < 10 then mp + 3 else mp - 9).toNat
    day := (doy - startOfMonth mp + 1).toNat }

/-- The day of a date. -/
def daysOf (date : Date) : ℤ :=
  let y := if date.month ≤ 2 then date.year - 1 else date.year
  let mp : ℤ := if date.month ≤ 2 then date.month + 9 else date.month - 3
  146097 * (y / 400) + startOfYear (y % 400) + startOfMonth mp + date.day - 1 - 719468

/-- The year of a day lies in the cycle, and the day in the year. -/
lemma yearOfEra_spec {doe : ℤ} (h0 : 0 ≤ doe) (h1 : doe < 146097) :
    0 ≤ yearOfEra doe ∧ yearOfEra doe < 400 ∧
      0 ≤ doe - startOfYear (yearOfEra doe) ∧ doe - startOfYear (yearOfEra doe) < 366 := by
  obtain ⟨century, hcentury⟩ : ∃ c, c = min (doe / 36524) 3 := ⟨_, rfl⟩
  obtain ⟨doc, hdoc⟩ : ∃ d, d = doe - 36524 * century := ⟨_, rfl⟩
  obtain ⟨year, hyear⟩ : ∃ y, y = min (doc % 1461 / 365) 3 := ⟨_, rfl⟩
  have heq : yearOfEra doe = 100 * century + 4 * (doc / 1461) + year := by
    rw [hyear, hdoc, hcentury, yearOfEra]
  have hc : 0 ≤ century ∧ century ≤ 3 ∧ 0 ≤ doc ∧ doc ≤ 36524 := by omega
  have hy : 0 ≤ year ∧ year ≤ 3 ∧ 0 ≤ doc % 1461 - 365 * year ∧ doc % 1461 - 365 * year < 366 := by
    omega
  have hquarter : (100 * century + 4 * (doc / 1461) + year) / 4 = 25 * century + doc / 1461 := by
    omega
  have hhundred : (100 * century + 4 * (doc / 1461) + year) / 100 = century := by omega
  rw [heq, startOfYear, hquarter, hhundred]
  omega

/-- A day of a year falls in the month that is computed for it. -/
lemma month_spec {doy : ℤ} (h0 : 0 ≤ doy) (h1 : doy < 366) :
    0 ≤ (5 * doy + 2) / 153 ∧ (5 * doy + 2) / 153 < 12 ∧
      1 ≤ doy - startOfMonth ((5 * doy + 2) / 153) + 1 ∧
      doy - startOfMonth ((5 * doy + 2) / 153) + 1 ≤ 31 := by
  unfold startOfMonth
  omega

/-- What the date of a day is made of: a year of the cycle, and a month and a day of it. -/
lemma dateOf_spec (z : ℤ) :
    ∃ era yoe mp d : ℤ, 0 ≤ yoe ∧ yoe < 400 ∧ 0 ≤ mp ∧ mp < 12 ∧ 1 ≤ d ∧ d ≤ 31 ∧
      z + 719468 = 146097 * era + startOfYear yoe + startOfMonth mp + d - 1 ∧
      dateOf z = ⟨400 * era + yoe + if mp < 10 then 0 else 1,
        (if mp < 10 then mp + 3 else mp - 9).toNat, d.toNat⟩ := by
  have h0 : 0 ≤ (z + 719468) % 146097 := by omega
  have h1 : (z + 719468) % 146097 < 146097 := by omega
  obtain ⟨hy0, hy1, hd0, hd1⟩ := yearOfEra_spec h0 h1
  obtain ⟨hm0, hm1, hday0, hday1⟩ := month_spec hd0 hd1
  have hdiv := Int.mul_ediv_add_emod (z + 719468) 146097
  exact ⟨(z + 719468) / 146097, yearOfEra ((z + 719468) % 146097), _, _, hy0, hy1, hm0, hm1, hday0,
    hday1, by omega, rfl⟩

lemma dateOf_bounds (z : ℤ) : (dateOf z).month < 100 ∧ (dateOf z).day < 100 := by
  obtain ⟨era, yoe, mp, d, hy0, hy1, hm0, hm1, hd0, hd1, hz, heq⟩ := dateOf_spec z
  rw [heq]
  dsimp only
  constructor
  · split <;> omega
  · omega

/-- The day of the date of a day is the day. -/
lemma daysOf_dateOf (z : ℤ) : daysOf (dateOf z) = z := by
  obtain ⟨era, yoe, mp, d, hy0, hy1, hm0, hm1, hd0, hd1, hz, heq⟩ := dateOf_spec z
  rw [heq]
  unfold daysOf
  dsimp only
  have hday : ((d.toNat : ℕ) : ℤ) = d := by omega
  rw [hday]
  by_cases hmp : mp < 10
  · have hmonth : ¬ (mp + 3).toNat ≤ 2 := by omega
    have hcast : (((mp + 3).toNat : ℕ) : ℤ) - 3 = mp := by omega
    have hera : (400 * era + yoe + 0) / 400 = era := by omega
    have hyoe : (400 * era + yoe + 0) % 400 = yoe := by omega
    rw [if_pos hmp, if_pos hmp, if_neg hmonth, if_neg hmonth, hcast, hera, hyoe]
    omega
  · have hmonth : (mp - 9).toNat ≤ 2 := by omega
    have hcast : (((mp - 9).toNat : ℕ) : ℤ) + 9 = mp := by omega
    have hera : (400 * era + yoe + 1 - 1) / 400 = era := by omega
    have hyoe : (400 * era + yoe + 1 - 1) % 400 = yoe := by omega
    rw [if_neg hmp, if_neg hmp, if_pos hmonth, if_pos hmonth, hcast, hera, hyoe]
    omega

example : dateOf 19723 = ⟨2024, 1, 1⟩ ∧ dateOf 19782 = ⟨2024, 2, 29⟩ := by decide

/-- A number in a fixed width, with zeros in front. -/
def digits : ℕ → ℕ → List Char
  | 0, _ => []
  | w + 1, n => digits w (n / 10) ++ [Nat.digitChar (n % 10)]

lemma ofDigitChars_digits (w n : ℕ) : ofDigitChars 10 (digits w n) 0 = n % 10 ^ w := by
  induction w generalizing n with
  | zero => simp [digits, mod_one]
  | succ w ih =>
    have hdigit : (digitChar (n % 10)).toNat = 48 + n % 10 :=
      toNat_digitChar_of_lt_ten (mod_lt _ (by decide))
    have hzero : '0'.toNat = 48 := rfl
    have hmod : n % 10 ^ (w + 1) = n % 10 + 10 * (n / 10 % 10 ^ w) := by
      rw [pow_succ', mod_mul]
    rw [digits, ofDigitChars_append, ih, ofDigitChars_cons, ofDigitChars_nil, hdigit,
      hzero, hmod]
    omega

lemma isDigit_of_mem_digits {w n : ℕ} {c : Char} (h : c ∈ digits w n) : c.isDigit := by
  induction w generalizing n with
  | zero => cases h
  | succ w ih =>
    rw [digits, mem_append, mem_singleton] at h
    obtain h | rfl := h
    · exact ih h
    · rw [isDigit_digitChar, decide_eq_true_iff]
      exact mod_lt _ (by decide)

/-- A year in four places at least. -/
def padYear (n : ℕ) : List Char := if n < 10000 then digits 4 n else Nat.toDigits 10 n

def formatYear (y : ℤ) : List Char :=
  if y < 0 then '-' :: padYear (-y).toNat else padYear y.toNat

/-- The date of a day in the layout `2006-01-02`. -/
def format (z : ℤ) : List Char :=
  formatYear (dateOf z).year ++ '-' :: digits 2 (dateOf z).month ++ '-' :: digits 2 (dateOf z).day

/-- The day that a text in the layout `2006-01-02` stands for, if it is a date. -/
def parse : List Char → Option ℤ
  | [a, b, c, d, h, e, f, h', g, i] =>
    let date : Date := ⟨Nat.ofDigitChars 10 [a, b, c, d] 0, Nat.ofDigitChars 10 [e, f] 0,
      Nat.ofDigitChars 10 [g, i] 0⟩
    if [a, b, c, d, e, f, g, i].all Char.isDigit && h == '-' && h' == '-' &&
        decide (dateOf (daysOf date) = date) then some (daysOf date)
    else none
  | _ => none

/-- A year that is written with four digits. -/
def ShortYear (z : ℤ) : Prop := 0 ≤ (dateOf z).year ∧ (dateOf z).year < 10000

instance (z : ℤ) : Decidable (ShortYear z) := inferInstanceAs (Decidable (_ ∧ _))

lemma format_of_shortYear {z : ℤ} (h : ShortYear z) :
    format z = digits 4 (dateOf z).year.toNat ++ '-' :: digits 2 (dateOf z).month ++
      '-' :: digits 2 (dateOf z).day := by
  have hnonneg : ¬ (dateOf z).year < 0 := by
    have := h.1
    omega
  have hshort : (dateOf z).year.toNat < 10000 := by
    have := h.2
    omega
  rw [format, formatYear, if_neg hnonneg, padYear, if_pos hshort]

/-- A date with a year of four digits is read back as the day it was written for. -/
lemma parse_format {z : ℤ} (h : ShortYear z) : parse (format z) = some z := by
  obtain ⟨hmonth, hday⟩ := dateOf_bounds z
  have hyear := ofDigitChars_digits 4 (dateOf z).year.toNat
  have hm := ofDigitChars_digits 2 (dateOf z).month
  have hd := ofDigitChars_digits 2 (dateOf z).day
  rw [mod_eq_of_lt (by have := h.2; omega)] at hyear
  rw [mod_eq_of_lt (by omega)] at hm hd
  have hcast : (((dateOf z).year.toNat : ℕ) : ℤ) = (dateOf z).year := Int.toNat_of_nonneg h.1
  rw [format_of_shortYear h]
  simp only [digits, nil_append, cons_append] at hyear hm hd ⊢
  have hdate : (⟨(dateOf z).year, (dateOf z).month, (dateOf z).day⟩ : Date) = dateOf z := rfl
  simp only [parse, hyear, hm, hd, hcast, hdate, daysOf_dateOf, isDigit_digitChar, all_cons,
    all_nil]
  simp [mod_lt]

lemma le_length_padYear (n : ℕ) :
    4 ≤ (padYear n).length ∧ (10000 ≤ n → 5 ≤ (padYear n).length) := by
  unfold padYear
  split
  · exact ⟨le_refl 4, by omega⟩
  · have hlength := (@length_toDigits_le_iff 10 n 4 (by decide) (by decide)).not.mpr (by omega)
    omega

lemma length_format (z : ℤ) : (format z).length = (formatYear (dateOf z).year).length + 6 := by
  simp [format, digits]

lemma le_length_format (z : ℤ) : 10 ≤ (format z).length := by
  have hyear : 4 ≤ (formatYear (dateOf z).year).length := by
    unfold formatYear
    split
    · exact (le_length_padYear _).1.trans (le_succ _)
    · exact (le_length_padYear _).1
  rw [length_format]
  omega

/-- Years that are not written with four digits take five characters or more. -/
lemma length_format_of_not_shortYear {z : ℤ} (h : ¬ ShortYear z) : 11 ≤ (format z).length := by
  have hyear : 5 ≤ (formatYear (dateOf z).year).length := by
    unfold formatYear
    split
    · exact succ_le_succ (le_length_padYear _).1
    · have hlong : 10000 ≤ (dateOf z).year.toNat := by
        unfold ShortYear at h
        omega
      exact (le_length_padYear _).2 hlong
  rw [length_format]
  omega

lemma mem_format {z : ℤ} {c : Char} (h : c ∈ format z) : c.isDigit ∨ c = '-' := by
  have hpad : ∀ n, ∀ c ∈ padYear n, c.isDigit := by
    intro n c hc
    unfold padYear at hc
    split at hc
    · exact isDigit_of_mem_digits hc
    · exact isDigit_of_mem_toDigits (by decide) (by decide) hc
  have hyear : c ∈ formatYear (dateOf z).year → c.isDigit = true ∨ c = '-' := by
    intro hc
    unfold formatYear at hc
    split at hc
    · exact (mem_cons.mp hc).symm.imp_left (hpad _ c)
    · exact .inl (hpad _ c hc)
  rw [format, append_assoc, mem_append, cons_append, mem_cons, mem_append, mem_cons] at h
  obtain h | h | h | h | h := h
  · exact hyear h
  · exact .inr h
  · exact .inl (isDigit_of_mem_digits h)
  · exact .inr h
  · exact .inl (isDigit_of_mem_digits h)

end Calendar
