import PropertyList.Calendar.Day
import Mathlib.Data.Nat.Notation

/-! Day numbers and calendar days. The day found for a number has this number, and every number
below that of the first day of year 10000 belongs to a day of the calendar. -/
namespace PropertyList

/-- The day found lies in the month found, and the months in front of it make up the rest. -/
theorem monthAndDay_spec {lengths : List ℕ} {n : ℕ} (h : n < daysIn lengths) (month : ℕ) :
    ∃ i day, monthAndDay lengths month n = (month + i, day + 1) ∧ i < lengths.length ∧
      day < lengths.getD i 0 ∧ daysIn (lengths.take i) + day = n := by
  induction lengths generalizing month n with
  | nil => simp [daysIn] at h
  | cons length rest ih =>
    rw [monthAndDay]
    split
    · rename_i hn
      exact ⟨0, n, rfl, by simp, by simpa using hn, by simp [daysIn]⟩
    · rename_i hn
      rw [daysIn] at h
      obtain ⟨i, day, hfound, hi, hday, hsum⟩ := ih (n := n - length) (by omega) (month + 1)
      refine ⟨i + 1, day, ?_, by simpa using hi, by simpa using hday, ?_⟩
      · rw [hfound, Nat.add_assoc, Nat.add_comm 1]
      · rw [List.take_succ_cons, daysIn]
        omega

/-- The month found is the one that the day lies in. -/
theorem monthAndDay_daysIn_take {lengths : List ℕ} {i day : ℕ} (h : day < lengths.getD i 0)
    (month : ℕ) :
    monthAndDay lengths month (daysIn (lengths.take i) + day) = (month + i, day + 1) := by
  induction lengths generalizing i month with
  | nil => simp at h
  | cons length rest ih =>
    rw [monthAndDay]
    cases i with
    | zero =>
      have hday : day < length := by simpa using h
      simp [daysIn, hday]
    | succ i =>
      rw [List.take_succ_cons, daysIn, if_neg (by omega), Nat.add_assoc,
        Nat.add_sub_cancel_left, ih (by simpa using h) (month + 1)]
      simp only [Prod.mk.injEq, and_true]
      omega

theorem daysIn_take_add_getD_le (lengths : List ℕ) (i : ℕ) :
    daysIn (lengths.take i) + lengths.getD i 0 ≤ daysIn lengths := by
  induction lengths generalizing i with
  | nil => simp
  | cons length rest ih =>
    cases i with
    | zero => simp [daysIn]
    | succ i =>
      have hrest := ih i
      simp only [List.take_succ_cons, daysIn, List.getD_cons_succ]
      omega

theorem daysIn_monthLengths (leap : Bool) :
    daysIn (monthLengths leap) = if leap then 366 else 365 := by
  cases leap <;> decide

theorem monthLengths_length (leap : Bool) : (monthLengths leap).length = 12 := rfl

theorem daysInMonth_le (year month : ℕ) : daysInMonth year month ≤ 31 := by
  have hall : ∀ leap, ∀ length ∈ monthLengths leap, length ≤ 31 := by decide
  rw [daysInMonth, List.getD_eq_getElem?_getD]
  rcases hget : (monthLengths (isLeap year))[month - 1]? with _ | length
  · exact Nat.zero_le 31
  · exact hall _ length (List.mem_of_getElem? hget)

/-- A cycle of 400 years has a leap year in every fourth year but three. -/
theorem isLeap_eq {a b c d : ℕ} (hb : b ≤ 3) (hc : c ≤ 24) (hd : d ≤ 3) :
    isLeap (400 * a + 100 * b + 4 * c + d + 1) =
      (decide (d = 3) && (decide (c < 24) || decide (b = 3))) := by
  have h4 : (400 * a + 100 * b + 4 * c + d + 1) % 4 = 0 ↔ d = 3 := by omega
  have h100 : (400 * a + 100 * b + 4 * c + d + 1) % 100 = 0 ↔ c = 24 ∧ d = 3 := by omega
  have h400 : (400 * a + 100 * b + 4 * c + d + 1) % 400 = 0 ↔ b = 3 ∧ c = 24 ∧ d = 3 := by omega
  rw [Bool.eq_iff_iff]
  simp only [isLeap, Bool.and_eq_true, Bool.or_eq_true, beq_iff_eq, bne_iff_ne, ne_eq, h4, h100,
    h400, decide_eq_true_eq]
  omega

theorem daysBeforeYear_eq {a b c d : ℕ} (hb : b ≤ 3) (hc : c ≤ 24) (hd : d ≤ 3) :
    daysBeforeYear (400 * a + 100 * b + 4 * c + d + 1) =
      146097 * a + 36524 * b + 1461 * c + 365 * d := by
  rw [daysBeforeYear]
  omega

/-- Every number is a number of years in cycles, and a number of days that the next year has. -/
theorem exists_year (n : ℕ) :
    ∃ year day, 1 ≤ year ∧ daysBeforeYear year + day = n ∧
      day < daysIn (monthLengths (isLeap year)) ∧
      Day.ofNumber n = ⟨year, (monthAndDay (monthLengths (isLeap year)) 1 day).1,
        (monthAndDay (monthLengths (isLeap year)) 1 day).2⟩ := by
  obtain ⟨a, ha⟩ : ∃ a, a = n / 146097 := ⟨_, rfl⟩
  obtain ⟨b, hb⟩ : ∃ b, b = min 3 (n % 146097 / 36524) := ⟨_, rfl⟩
  obtain ⟨c, hc⟩ : ∃ c, c = (n % 146097 - 36524 * b) / 1461 := ⟨_, rfl⟩
  obtain ⟨d, hd⟩ : ∃ d, d = min 3 ((n % 146097 - 36524 * b) % 1461 / 365) := ⟨_, rfl⟩
  have hb3 : b ≤ 3 := by omega
  have hc24 : c ≤ 24 := by omega
  have hd3 : d ≤ 3 := by omega
  refine ⟨400 * a + 100 * b + 4 * c + d + 1, (n % 146097 - 36524 * b) % 1461 - 365 * d, by omega,
    ?_, ?_, ?_⟩
  · rw [daysBeforeYear_eq hb3 hc24 hd3]
    omega
  · rw [daysIn_monthLengths, isLeap_eq hb3 hc24 hd3]
    by_cases hlast : d = 3 ∧ (c < 24 ∨ b = 3)
    · simp only [hlast, decide_true, Bool.true_and]
      have hleap : (decide (c < 24) || decide (b = 3)) = true := by simpa using hlast.2
      rw [hleap, if_pos rfl]
      omega
    · have hplain : (decide (d = 3) && (decide (c < 24) || decide (b = 3))) = false := by
        simpa using hlast
      rw [hplain, if_neg (by simp)]
      omega
  · rw [ha, hd, hc, hb]
    rfl

theorem daysBeforeYear_succ (n : ℕ) :
    daysBeforeYear (n + 2) = daysBeforeYear (n + 1) + daysIn (monthLengths (isLeap (n + 1))) := by
  have hless : n / 100 ≤ n := Nat.div_le_self n 100
  have h4 : (n + 1) / 4 = n / 4 + if (n + 1) % 4 = 0 then 1 else 0 := by split <;> omega
  have h100 : (n + 1) / 100 = n / 100 + if (n + 1) % 100 = 0 then 1 else 0 := by split <;> omega
  have h400 : (n + 1) / 400 = n / 400 + if (n + 1) % 400 = 0 then 1 else 0 := by split <;> omega
  have hleap : isLeap (n + 1) = true ↔
      (n + 1) % 4 = 0 ∧ ((n + 1) % 100 ≠ 0 ∨ (n + 1) % 400 = 0) := by
    simp [isLeap]
  rw [daysIn_monthLengths, daysBeforeYear, daysBeforeYear, Nat.add_sub_cancel,
    show n + 2 - 1 = n + 1 from rfl, h4, h100, h400]
  simp only [hleap]
  clear h4 h100 h400 hleap
  split <;> split <;> split <;> split <;> omega

theorem daysBeforeYear_mono {year later : ℕ} (hyear : 1 ≤ year) (h : year ≤ later) :
    daysBeforeYear year ≤ daysBeforeYear later := by
  induction h with
  | refl => exact Nat.le_refl _
  | @step later hlater ih =>
    obtain ⟨n, rfl⟩ : ∃ n, later = n + 1 := ⟨later - 1, by rw [Nat.le_eq] at hlater; omega⟩
    have hnext := daysBeforeYear_succ n
    change _ ≤ daysBeforeYear (n + 2)
    omega

/-- Years do not overlap. -/
theorem le_of_daysBeforeYear {year later day : ℕ} (hyear : 1 ≤ year)
    (hday : day < daysIn (monthLengths (isLeap year)))
    (h : daysBeforeYear later ≤ daysBeforeYear year + day) : later ≤ year := by
  obtain ⟨n, rfl⟩ : ∃ n, year = n + 1 := ⟨year - 1, by omega⟩
  rcases Nat.lt_or_ge (n + 1) later with hlater | hlater
  · have hnext := daysBeforeYear_mono (by omega) hlater
    rw [daysBeforeYear_succ] at hnext
    omega
  · exact hlater

namespace Day

theorem exists?_iff {d : Day} : d.exists? = true ↔
    1 ≤ d.year ∧ d.year ≤ 9999 ∧ 1 ≤ d.month ∧ d.month ≤ 12 ∧ 1 ≤ d.day ∧
      d.day ≤ daysInMonth d.year d.month := by
  simp only [exists?, Bool.and_eq_true, decide_eq_true_eq, and_assoc]

/-- The days of a year in front of one of them are fewer than all days of the year. -/
theorem daysBeforeMonth_add_lt {d : Day} (h : d.exists? = true) :
    daysBeforeMonth d.year d.month + (d.day - 1) < daysIn (monthLengths (isLeap d.year)) := by
  obtain ⟨-, -, -, -, hday, hlast⟩ := exists?_iff.mp h
  have hsum := daysIn_take_add_getD_le (monthLengths (isLeap d.year)) (d.month - 1)
  rw [daysInMonth] at hlast
  rw [daysBeforeMonth]
  omega

/-- A day of the calendar is found by its number. -/
theorem ofNumber_number {d : Day} (h : d.exists? = true) : ofNumber d.number = d := by
  have hrest := daysBeforeMonth_add_lt h
  obtain ⟨hfirst, -, hmonth, -, hday, hlast⟩ := exists?_iff.mp h
  have hwithin : d.day - 1 < (monthLengths (isLeap d.year)).getD (d.month - 1) 0 := by
    rw [daysInMonth] at hlast
    omega
  obtain ⟨year, day, hyear, hn, hlt, heq⟩ := exists_year d.number
  rw [number] at hn
  have hsame : year = d.year := by
    apply Nat.le_antisymm
    · exact le_of_daysBeforeYear hfirst hrest (by omega)
    · exact le_of_daysBeforeYear hyear hlt (by omega)
  subst hsame
  have hdays : day = daysIn ((monthLengths (isLeap d.year)).take (d.month - 1)) + (d.day - 1) := by
    rw [daysBeforeMonth] at hn
    omega
  have hmonths : 1 + (d.month - 1) = d.month := by omega
  have hfound : d.day - 1 + 1 = d.day := by omega
  rw [heq, hdays, monthAndDay_daysIn_take hwithin, hmonths, hfound]

theorem number_ofNumber (n : ℕ) : (ofNumber n).number = n := by
  obtain ⟨year, day, -, hn, hlt, heq⟩ := exists_year n
  obtain ⟨i, d, hfound, -, -, hsum⟩ := monthAndDay_spec hlt 1
  rw [heq, hfound, number, daysBeforeMonth]
  simp only [Nat.add_sub_cancel_left, Nat.add_sub_cancel]
  omega

/-- The number of the first day behind the calendar. -/
def afterLast : ℕ := 3652059

theorem afterLast_le {year : ℕ} (h : 9999 < year) : afterLast ≤ daysBeforeYear year := by
  rw [daysBeforeYear, afterLast]
  rcases Nat.eq_or_lt_of_le h with rfl | hlater
  · decide
  · omega

theorem number_lt_afterLast {d : Day} (h : d.exists? = true) : d.number < afterLast := by
  have hrest := daysBeforeMonth_add_lt h
  obtain ⟨hfirst, hyear, -⟩ := exists?_iff.mp h
  obtain ⟨n, hn⟩ : ∃ n, d.year = n + 1 := ⟨d.year - 1, by omega⟩
  have hnext := daysBeforeYear_succ n
  have hmono : daysBeforeYear (n + 2) ≤ daysBeforeYear 10000 :=
    daysBeforeYear_mono (by omega) (by omega)
  have hafter : daysBeforeYear 10000 = afterLast := by decide
  rw [number]
  rw [hn] at hrest ⊢
  omega

theorem exists?_ofNumber {n : ℕ} (h : n < afterLast) : (ofNumber n).exists? = true := by
  obtain ⟨year, day, hyear, hn, hlt, heq⟩ := exists_year n
  obtain ⟨i, d, hfound, hi, hd, -⟩ := monthAndDay_spec hlt 1
  have hlast : year ≤ 9999 := by
    rcases Nat.lt_or_ge 9999 year with hgt | hle
    · have hlate := afterLast_le hgt
      omega
    · exact hle
  rw [monthLengths_length] at hi
  have hmonth : d + 1 ≤ daysInMonth year (1 + i) := by
    rw [daysInMonth, Nat.add_sub_cancel_left]
    exact hd
  simp only [heq, hfound, exists?_iff]
  omega

end Day

end PropertyList
