import ReplicaController.Instant.Calendar
import Mathlib.Tactic.IntervalCases

/-!
# Days and dates

Every day has a date that exists, and the date leads back to the day. An era of four hundred years
is cut into centuries, groups of four years and years, each counted from March; only the last of
four parts can have the odd day, which is the leap day.
-/

namespace ReplicaController.Date

/-- A day of an era: the century, the group of four years, the year and the day of it. -/
structure EraParts (n a b c k : Int) : Prop where
  eq : n = 36524 * a + 1461 * b + 365 * c + k
  century : 0 ≤ a ∧ a ≤ 3
  group : 0 ≤ b ∧ b ≤ 24
  year : 0 ≤ c ∧ c ≤ 3
  day : 0 ≤ k ∧ k ≤ 365
  leap : k = 365 → c = 3 ∧ (b = 24 → a = 3)

theorem exists_eraParts {n : Int} (h0 : 0 ≤ n) (h1 : n < 146097) :
    ∃ a b c k, EraParts n a b c k := by
  obtain ⟨a, ha⟩ : ∃ a, a = min (n / 36524) 3 := ⟨_, rfl⟩
  obtain ⟨r, hr⟩ : ∃ r, r = n - 36524 * a := ⟨_, rfl⟩
  obtain ⟨c, hc⟩ : ∃ c, c = min (r % 1461 / 365) 3 := ⟨_, rfl⟩
  refine ⟨a, r / 1461, c, r % 1461 - 365 * c, ?_, ?_, ?_, ?_, ?_, ?_⟩
  all_goals omega

def daysBefore (yearOfEra : Int) : Int := 365 * yearOfEra + yearOfEra / 4 - yearOfEra / 100

section EraParts

variable {n a b c k : Int}

theorem EraParts.yearOfEra_eq (h : EraParts n a b c k) :
    (n - n / 1460 + n / 36524 - n / 146096) / 365 = 100 * a + 4 * b + c := by
  obtain ⟨hn, ha, hb, hc, hk, hleap⟩ := h
  have hquad : n / 1460 = 25 * a + b + (24 * a + b + 365 * c + k) / 1460 := by omega
  have hover : (24 * a + b + 365 * c + k) / 1460 = 0 ∨
      (24 * a + b + 365 * c + k) / 1460 = 1 ∧ 1 ≤ k := by omega
  by_cases hlast : n = 146096
  · have : a = 3 ∧ b = 24 ∧ c = 3 := by omega
    subst hlast
    omega
  · have hcentury : n / 36524 = a := by omega
    have hera : n / 146096 = 0 := by omega
    rw [hcentury, hera, hquad]
    generalize (24 * a + b + 365 * c + k) / 1460 = d at *
    omega

theorem EraParts.daysBefore_eq (h : EraParts n a b c k) :
    n - daysBefore (100 * a + 4 * b + c) = k := by
  obtain ⟨hn, ha, hb, hc, -, -⟩ := h
  unfold daysBefore
  omega

theorem EraParts.isLeapYear_succ (h : EraParts n a b c k) (era : Int) (hk : k = 365) :
    isLeapYear (era * 400 + (100 * a + 4 * b + c) + 1) = true := by
  obtain ⟨-, ha, hb, -, -, hleap⟩ := h
  obtain ⟨rfl, hlast⟩ := hleap hk
  simp only [isLeapYear, Bool.and_eq_true, Bool.or_eq_true, beq_iff_eq, bne_iff_ne]
  omega

end EraParts

/-- The day of that number, from zero on, in a year that begins in March. -/
def ofMarch (year dayOfYear : Int) : Date :=
  let monthFromMarch := (5 * dayOfYear + 2) / 153
  let month := (monthFromMarch.toNat + 2) % 12 + 1
  let day := (dayOfYear - (153 * monthFromMarch + 2) / 5 + 1).toNat
  ⟨if month ≤ 2 then year + 1 else year, month, day⟩

theorem month_le_two_iff {m : Nat} (h : m ≤ 11) : (m + 2) % 12 + 1 ≤ 2 ↔ 10 ≤ m := by omega

theorem toDay_ofMarch (year : Int) {k : Int} (h0 : 0 ≤ k) (h1 : k ≤ 365) :
    toDay (ofMarch year k) = year / 400 * 146097 + daysBefore (year % 400) + k - 719468 := by
  obtain ⟨m, hm⟩ := Int.eq_ofNat_of_zero_le (a := (5 * k + 2) / 153) (by omega)
  have hfrom : ((((m + 2) % 12 + 1 : Nat) : Int) + 9) % 12 = m := by omega
  have hday : (((k - (153 * (m : Int) + 2) / 5 + 1).toNat : Nat) : Int) =
      k - (153 * (m : Int) + 2) / 5 + 1 := by omega
  have hyear : (if (m + 2) % 12 + 1 ≤ 2 then
      (if (m + 2) % 12 + 1 ≤ 2 then year + 1 else year) - 1
      else if (m + 2) % 12 + 1 ≤ 2 then year + 1 else year) = year := by
    split <;> omega
  simp only [toDay, ofMarch, hm, Int.toNat_natCast, hyear, hfrom, hday]
  unfold daysBefore
  omega

theorem monthLength_le (year : Int) (month : Nat) : monthLength year month ≤ 31 := by
  unfold monthLength
  split
  · split <;> decide
  all_goals decide

theorem month_ofMarch (year k : Int) :
    1 ≤ (ofMarch year k).month ∧ (ofMarch year k).month ≤ 12 := by
  simp only [ofMarch]
  omega

theorem day_ofMarch {year k : Int} (h0 : 0 ≤ k) (h1 : k ≤ 365)
    (hleap : k = 365 → isLeapYear (year + 1) = true) :
    1 ≤ (ofMarch year k).day ∧
      (ofMarch year k).day ≤ monthLength (ofMarch year k).year (ofMarch year k).month := by
  obtain ⟨m, hm⟩ := Int.eq_ofNat_of_zero_le (a := (5 * k + 2) / 153) (by omega)
  have hm11 : m ≤ 11 := by omega
  simp only [ofMarch, hm, Int.toNat_natCast]
  refine ⟨by omega, ?_⟩
  by_cases hfeb : m = 11
  · subst hfeb
    by_cases hl : isLeapYear (year + 1) = true
    · simp [monthLength, hl]
      omega
    · have : k ≠ 365 := fun h => hl (hleap h)
      simp [monthLength, hl]
      omega
  · clear hleap
    interval_cases m <;> simp [monthLength] <;> omega

theorem exists_ofMarch (day : Int) : ∃ year k, (0 ≤ k ∧ k ≤ 365) ∧
    (k = 365 → isLeapYear (year + 1) = true) ∧
    day + 719468 = year / 400 * 146097 + daysBefore (year % 400) + k ∧
    ofDay day = ofMarch year k := by
  obtain ⟨z, hz⟩ : ∃ z, z = day + 719468 := ⟨_, rfl⟩
  obtain ⟨a, b, c, k, h⟩ := exists_eraParts (n := z % 146097) (by omega) (by omega)
  have hlt : 0 ≤ 100 * a + 4 * b + c ∧ 100 * a + 4 * b + c < 400 := by
    have := h.century
    have := h.group
    have := h.year
    omega
  have hdays := h.daysBefore_eq
  refine ⟨z / 146097 * 400 + (100 * a + 4 * b + c), k, h.day, h.isLeapYear_succ _, ?_, ?_⟩
  · have hera : (z / 146097 * 400 + (100 * a + 4 * b + c)) / 400 = z / 146097 := by omega
    have hmod : (z / 146097 * 400 + (100 * a + 4 * b + c)) % 400 = 100 * a + 4 * b + c := by omega
    rw [hera, hmod]
    omega
  · rw [daysBefore] at hdays
    simp only [ofDay, ofMarch, ← hz, h.yearOfEra_eq, hdays, Int.add_comm (z / 146097 * 400)]

theorem toDay_ofDay (day : Int) : toDay (ofDay day) = day := by
  obtain ⟨year, k, ⟨h0, h1⟩, -, hday, he⟩ := exists_ofMarch day
  rw [he, toDay_ofMarch year h0 h1]
  omega

theorem firstDay_eq : firstDay = -96465292 := by decide

theorem lastDay_eq : lastDay = 95026236 := by decide

theorem year_ofDay {day : Int} (hfirst : firstDay ≤ day) (hlast : day ≤ lastDay) :
    minYear ≤ (ofDay day).year ∧ (ofDay day).year ≤ maxYear := by
  obtain ⟨year, k, ⟨h0, h1⟩, -, hday, he⟩ := exists_ofMarch day
  rw [firstDay_eq] at hfirst
  rw [lastDay_eq] at hlast
  unfold daysBefore at hday
  have hera : -656 ≤ year / 400 ∧ year / 400 ≤ 655 := by omega
  -- of years that begin in March the first has only its last two months in the calendar, and the
  -- last only its first ten
  have hlow : -262144 ≤ year ∧ (year = -262144 → 306 ≤ k) := by
    rcases hera.1.eq_or_lt with h | h <;> omega
  have hhigh : year ≤ 262142 ∧ (year = 262142 → k ≤ 305) := by
    rcases hera.2.eq_or_lt with h | h <;> omega
  obtain ⟨m, hm⟩ := Int.eq_ofNat_of_zero_le (a := (5 * k + 2) / 153) (by omega)
  have hm11 : m ≤ 11 := by omega
  have hlow' : year = -262144 → 10 ≤ m := by omega
  have hhigh' : year = 262142 → m ≤ 9 := by omega
  simp only [he, ofMarch, minYear, maxYear, hm, Int.toNat_natCast, month_le_two_iff hm11]
  split <;> omega

theorem isValid_ofDay {day : Int} (hfirst : firstDay ≤ day) (hlast : day ≤ lastDay) :
    (ofDay day).isValid = true := by
  obtain ⟨hyear0, hyear1⟩ := year_ofDay hfirst hlast
  obtain ⟨year, k, ⟨h0, h1⟩, hleap, -, he⟩ := exists_ofMarch day
  obtain ⟨hmonth0, hmonth1⟩ := month_ofMarch year k
  obtain ⟨hday0, hday1⟩ := day_ofMarch h0 h1 hleap
  rw [he] at hyear0 hyear1 ⊢
  simp [isValid, *]

end ReplicaController.Date
