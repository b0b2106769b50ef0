import MinIODB.Library.Calendar

/-!
# Timestamps in a layout

A layout is a sequence of fields of a time and of fixed characters. Every time whose year has
four digits is read back from any layout that writes all its fields.
-/
namespace Timestamp
open List Calendar

inductive Slot
  | year
  | month
  | day
  | hour
  | minute
  | second
  deriving DecidableEq

inductive Field
  | slot (s : Slot)
  | lit (c : Char)
  deriving DecidableEq

abbrev Layout := List Field

/-- The fields of a time in seconds since 1970-01-01. -/
def value (t : ℤ) : Slot → ℤ
  | .year => (Calendar.dateOf (t / 86400)).year
  | .month => (Calendar.dateOf (t / 86400)).month
  | .day => (Calendar.dateOf (t / 86400)).day
  | .hour => t % 86400 / 3600
  | .minute => t % 3600 / 60
  | .second => t % 60

/-- The characters of a field. -/
def write (t : ℤ) : Field → List Char
  | .slot .year => Calendar.formatYear (value t .year)
  | .slot s => Calendar.digits 2 (value t s).toNat
  | .lit c => [c]

/-- A time in a layout. -/
def format (layout : Layout) (t : ℤ) : List Char := layout.flatMap (write t)

/-- The number of digits that a field is read from. -/
def width : Slot → ℕ
  | .year => 4
  | _ => 2

/-- The number at the start of a text. -/
def readDigits (w : ℕ) (l : List Char) : Option ℕ :=
  if (l.take w).length = w ∧ (l.take w).all Char.isDigit then
    some (Nat.ofDigitChars 10 (l.take w) 0)
  else none

/-- The fields that a text has in a layout. -/
def read : Layout → List Char → (Slot → ℤ) → Option (Slot → ℤ)
  | [], l, acc => if l.isEmpty then some acc else none
  | .lit c :: layout, l, acc => if l.head? = some c then read layout l.tail acc else none
  | .slot s :: layout, l, acc =>
    (readDigits (width s) l).bind
      (fun n => read layout (l.drop (width s)) (Function.update acc s n))

/-- The time with the given fields, if they are in their ranges. -/
def assemble (fields : Slot → ℤ) : Option ℤ :=
  let date : Calendar.Date := ⟨fields .year, (fields .month).toNat, (fields .day).toNat⟩
  if Calendar.dateOf (Calendar.daysOf date) = date ∧
      fields .hour < 24 ∧ fields .minute < 60 ∧ fields .second < 60 then
    some (Calendar.daysOf date * 86400 + fields .hour * 3600 + fields .minute * 60 + fields .second)
  else none

/-- The time that a text stands for. -/
def parse (layout : Layout) (l : List Char) : Option ℤ :=
  (read layout l (fun _ => 0)).bind assemble

/-! ## Reading back -/

variable {t : ℤ} {layout : Layout}

lemma length_digits (w n : ℕ) : (digits w n).length = w := by
  induction w generalizing n with
  | zero => rfl
  | succ w ih => rw [digits, length_append, ih, length_singleton]

lemma readDigits_digits {w n : ℕ} (hn : n < 10 ^ w) (rest : List Char) :
    readDigits w (digits w n ++ rest) = some n := by
  have htake : (digits w n ++ rest).take w = digits w n :=
    take_left' (length_digits w n)
  have hall : (digits w n).all Char.isDigit :=
    all_eq_true.mpr (fun _ h => isDigit_of_mem_digits h)
  rw [readDigits, htake, if_pos ⟨length_digits w n, hall⟩, ofDigitChars_digits,
    Nat.mod_eq_of_lt hn]

section
variable (h : Calendar.ShortYear (t / 86400))
include h

/-- The fields of a time with a short year fit their widths. -/
lemma value_bounds (s : Slot) :
    0 ≤ value t s ∧ value t s < 10 ^ width s := by
  obtain ⟨hmonth, hday⟩ := dateOf_bounds (t / 86400)
  obtain ⟨hyear0, hyear1⟩ := h
  cases s <;> simp only [value, width] <;> omega

lemma write_slot (s : Slot) :
    write t (.slot s) = digits (width s) (value t s).toNat := by
  cases s with
  | year =>
    obtain ⟨h0, h1⟩ := value_bounds h .year
    rw [write, formatYear, if_neg (by omega), padYear,
      if_pos (by simp only [width] at h1; omega)]
    rfl
  | _ => rfl

lemma read_format (layout : Layout) (acc : Slot → ℤ) :
    read layout (format layout t) acc =
      some (fun s => if .slot s ∈ layout then value t s else acc s) := by
  induction layout generalizing acc with
  | nil => simp [read, format]
  | cons f layout ih =>
    cases f with
    | lit c =>
      have hcons : format (.lit c :: layout) t = c :: format layout t := rfl
      rw [hcons, read, head?_cons, if_pos rfl, tail_cons, ih]
      simp
    | slot s =>
      obtain ⟨h0, h1⟩ := value_bounds h s
      have hcons : format (.slot s :: layout) t =
          digits (width s) (value t s).toNat ++ format layout t := by
        rw [format, flatMap_cons, write_slot h, ← format]
      have hfit : (value t s).toNat < 10 ^ width s := by
        zify
        omega
      have hcast : (((value t s).toNat : ℕ) : ℤ) = value t s := Int.toNat_of_nonneg h0
      rw [hcons, read, readDigits_digits hfit, Option.bind_some,
        drop_left' (length_digits _ _), ih, hcast]
      congr 1
      funext u
      by_cases hu : u = s
      · simp [hu]
      · simp [hu]

end

lemma assemble_value (t : ℤ) : assemble (value t) = some t := by
  have hdate : (⟨value t .year, (value t .month).toNat, (value t .day).toNat⟩ : Calendar.Date) =
      dateOf (t / 86400) := rfl
  rw [assemble, hdate, daysOf_dateOf, if_pos]
  · simp only [value, Option.some.injEq]
    omega
  · refine ⟨rfl, ?_⟩
    simp only [value]
    omega

/-- A time with a year of four digits is read back. -/
lemma parse_format (hlayout : ∀ s, Field.slot s ∈ layout)
    (h : Calendar.ShortYear (t / 86400)) : parse layout (format layout t) = some t := by
  rw [parse, read_format h, Option.bind_some]
  simp only [hlayout, if_true]
  exact assemble_value t

end Timestamp
