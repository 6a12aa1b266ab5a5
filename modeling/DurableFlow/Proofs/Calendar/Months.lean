import DurableFlow.Proofs.Calendar.Bodies
import Mathlib.Algebra.GroupWithZero.Nat

/-!
# Leap years and the lengths of months

A year or a month may lie far outside the years that have dates, yet what is said of it is found through
dates. Within these years the rule of the calendar comes out, also for the last December, which has no
day after it. Elsewhere no year is a leap year and every month has 31 days, so the answers for the shorter
months are wrong there.
-/

namespace DurableFlow

namespace Gregorian

variable {year : Int}

theorem isLeap_iff : isLeap year = true ↔ 4 ∣ year ∧ ¬ 100 ∣ year ∨ 400 ∣ year := by
  simp only [isLeap, Bool.and_eq_true, Bool.or_eq_true, decide_eq_true_eq]
  omega

theorem sum_daysInMonth (year : Int) :
    ((List.range' 1 12).map (daysInMonth year)).sum = if isLeap year then 366 else 365 := by
  have months : (List.range' 1 12).map (daysInMonth year) =
      [31, if isLeap year then 29 else 28, 31, 30, 31, 30, 31, 31, 30, 31, 30, 31] := rfl
  rw [months]
  split_ifs <;> rfl

theorem daysBefore_add_one (year : Int) :
    daysBefore (year + 1) = daysBefore year + ((List.range' 1 12).map (daysInMonth year)).sum := by
  have rule : isLeap year = true ↔ 4 ∣ year ∧ ¬ 100 ∣ year ∨ 400 ∣ year := isLeap_iff
  rw [sum_daysInMonth, daysBefore, daysBefore]
  by_cases leap : isLeap year = true
  · rw [if_pos leap]
    have multiple := rule.1 leap
    omega
  · rw [if_neg leap]
    have other := mt rule.2 leap
    omega

end Gregorian

namespace LocalDate

/-- The year has dates. -/
def HasDates (year : Int) : Prop := firstYear ≤ year ∧ year ≤ lastYear

instance (year : Int) : Decidable (HasDates year) := inferInstanceAs (Decidable (_ ∧ _))

variable {year : Int} {month day : Nat}

theorem of?_isSome_iff : (of? year month day).isSome = true ↔ HasDates year ∧
    1 ≤ month ∧ month ≤ 12 ∧ 1 ≤ day ∧ day ≤ Gregorian.daysInMonth year month := by
  rw [of?, HasDates, and_assoc]
  split_ifs with h <;> simp [h]

theorem of?_first (hmonth : 1 ≤ month ∧ month ≤ 12) :
    of? year month 1 = if HasDates year then some ⟨year, month, 1⟩ else none := by
  have days : 1 ≤ Gregorian.daysInMonth year month := by
    rw [Gregorian.daysInMonth]
    split_ifs <;> decide
  rw [of?]
  refine if_congr ⟨fun h => ⟨h.1, h.2.1⟩, fun h => ?_⟩ rfl rfl
  exact ⟨h.1, h.2, hmonth.1, hmonth.2, Nat.le_refl 1, days⟩

theorem pred?_first (hmonth : 1 ≤ month) :
    pred? ⟨year, month + 1, 1⟩ = some ⟨year, month, Gregorian.daysInMonth year month⟩ := by
  have later : month + 1 ≠ 1 := by omega
  rw [pred?, if_neg (by simp), if_pos later, Nat.add_sub_cancel]

theorem pred?_newYear :
    pred? ⟨year + 1, 1, 1⟩ = if year + 1 ≠ firstYear then some ⟨year, 12, 31⟩ else none := by
  rw [pred?, if_neg (by simp), if_neg (by simp), Int.add_sub_cancel]

end LocalDate

open LocalDate

theorem isLeapYear_iff (year : Int) :
    isLeapYear year = true ↔ HasDates year ∧ (4 ∣ year ∧ ¬ 100 ∣ year ∨ 400 ∣ year) := by
  have february : 29 ≤ Gregorian.daysInMonth year 2 ↔ Gregorian.isLeap year = true := by
    rw [Gregorian.daysInMonth, if_pos rfl]
    split_ifs with leap <;> simp [leap]
  rw [isLeapYear, of?_isSome_iff, february, Gregorian.isLeap_iff]
  simp

namespace YearMonth

variable {m : YearMonth}

theorem length_december (h : m.month = 12) : m.length = 31 := by
  rw [length, nextFirst?, if_pos h, of?_first (by decide)]
  by_cases dates : HasDates (m.year + 1)
  · rw [if_pos dates, Option.bind_some, pred?_newYear]
    split_ifs <;> rfl
  · rw [if_neg dates]
    rfl

theorem length_before_december (h : 1 ≤ m.month ∧ m.month < 12) :
    m.length = if HasDates m.year then Gregorian.daysInMonth m.year m.month else 31 := by
  have later : 1 ≤ m.month + 1 ∧ m.month + 1 ≤ 12 := by omega
  rw [length, nextFirst?, if_neg (by omega), of?_first later]
  by_cases dates : HasDates m.year
  · rw [if_pos dates, if_pos dates, Option.bind_some, pred?_first h.1]
  · rw [if_neg dates, if_neg dates]
    rfl

theorem length_eq (h : 1 ≤ m.month ∧ m.month ≤ 12) :
    m.length = if HasDates m.year then Gregorian.daysInMonth m.year m.month else 31 := by
  -- December looks at the year after its own, but its answer is the same either way.
  by_cases last : m.month = 12
  · have december : Gregorian.daysInMonth m.year 12 = 31 := rfl
    rw [length_december last, last, december, ite_self]
  · exact length_before_december (by omega)

/-- The days of the month that are dates are those up to its length. -/
theorem of?_isSome_iff_le_length (h : 1 ≤ m.month ∧ m.month ≤ 12) (dates : HasDates m.year)
    (day : Nat) : (LocalDate.of? m.year m.month day).isSome = true ↔ 1 ≤ day ∧ day ≤ m.length := by
  rw [of?_isSome_iff, length_eq h, if_pos dates]
  tauto

/-- The calendar decides what is a leap year and how long a month is for the years that have dates. Any
other year is taken for a common one and any of its months for a long one, which is wrong for its leap
years and its shorter months. -/
theorem calendar_rule_of_hasDates {year : Int} {month : Nat} (h : of year month = .ok m) :
    (isLeapYear year = true ↔ HasDates year ∧ (4 ∣ year ∧ ¬ 100 ∣ year ∨ 400 ∣ year)) ∧
      (m.length = if HasDates year then Gregorian.daysInMonth year month else 31) ∧
      (m.length = Gregorian.daysInMonth year month ↔
        HasDates year ∨ Gregorian.daysInMonth year month = 31) := by
  obtain ⟨rfl, bounds⟩ := of_eq h
  have length := length_eq (m := ⟨year, month⟩) bounds
  refine ⟨isLeapYear_iff year, length, ?_⟩
  rw [length]
  by_cases dates : HasDates year
  · simp [dates]
  · simp [dates, eq_comm]

theorem calendar_rule_of_hasDates_far :
    of 300000 2 = .ok ⟨300000, 2⟩ ∧ isLeapYear 300000 = false ∧
      (⟨300000, 2⟩ : YearMonth).length = 31 ∧ Gregorian.daysInMonth 300000 2 = 29 := by
  have built : of 300000 2 = .ok ⟨300000, 2⟩ := rfl
  have past : ¬ HasDates 300000 := by decide
  obtain ⟨leap, length, -⟩ := calendar_rule_of_hasDates built
  refine ⟨built, ?_, ?_, by decide⟩
  · rw [← Bool.not_eq_true, leap]
    exact fun dates => past dates.1
  · rw [length, if_neg past]

end YearMonth

end DurableFlow
