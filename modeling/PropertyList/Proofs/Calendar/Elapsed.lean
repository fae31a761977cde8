import Mathlib.Data.Set.Card
import Mathlib.Order.Interval.Finset.Nat
import PropertyList.Calendar.Moment
import PropertyList.Proofs.Calendar.Day

/-! Time that has passed. The number of a day is the count of the days of the calendar in front of
it, so that instants are what a clock counts that runs from the first day on. -/
namespace PropertyList

theorem daysIn_take_add_getD_le_take (lengths : List ℕ) {i j : ℕ} (h : i < j) :
    daysIn (lengths.take i) + lengths.getD i 0 ≤ daysIn (lengths.take j) := by
  have hle := daysIn_take_add_getD_le (lengths.take j) i
  rwa [List.take_take, Nat.min_eq_left h.le, List.getD_eq_getElem?_getD,
    List.getElem?_take_of_lt h, ← List.getD_eq_getElem?_getD] at hle

namespace Day

/-- Whether a day comes in front of another one: by year, then by month, then by day. -/
def IsBefore (d e : Day) : Prop :=
  d.year < e.year ∨ d.year = e.year ∧ (d.month < e.month ∨ d.month = e.month ∧ d.day < e.day)

theorem isBefore_total (d e : Day) : d.IsBefore e ∨ d = e ∨ e.IsBefore d := by
  obtain ⟨year, month, day⟩ := d
  obtain ⟨year', month', day'⟩ := e
  simp only [IsBefore, mk.injEq]
  omega

/-- Later days have greater numbers. -/
theorem number_lt_number {d e : Day} (hd : d.exists? = true) (he : e.exists? = true)
    (h : d.IsBefore e) : d.number < e.number := by
  have hyear := daysBeforeMonth_add_lt hd
  obtain ⟨hfirst, -, hmonth, -, hday, hlast⟩ := exists?_iff.mp hd
  obtain ⟨-, -, -, -, hday', -⟩ := exists?_iff.mp he
  rw [number, number]
  rcases h with hyears | ⟨heq, hmonths | ⟨hsame, hdays⟩⟩
  · obtain ⟨n, hn⟩ : ∃ n, d.year = n + 1 := ⟨d.year - 1, by omega⟩
    have hnext := daysBeforeYear_succ n
    have hmono : daysBeforeYear (n + 2) ≤ daysBeforeYear e.year :=
      daysBeforeYear_mono (by omega) (by omega)
    rw [hn] at hyear ⊢
    omega
  · rw [daysInMonth] at hlast
    have hmonths := daysIn_take_add_getD_le_take (monthLengths (isLeap d.year))
      (show d.month - 1 < e.month - 1 by omega)
    rw [daysBeforeMonth, daysBeforeMonth, ← heq]
    omega
  · rw [heq, hsame]
    omega

theorem isBefore_of_number_lt {d e : Day} (hd : d.exists? = true) (he : e.exists? = true)
    (h : d.number < e.number) : d.IsBefore e := by
  rcases isBefore_total d e with hbefore | rfl | hbehind
  · exact hbefore
  · exact absurd h (Nat.lt_irrefl _)
  · exact absurd (number_lt_number he hd hbehind) (Nat.not_lt.mpr h.le)

/-- How many days of the calendar come in front of a day. -/
noncomputable def daysBefore (d : Day) : ℕ := Set.ncard {e : Day | e.exists? = true ∧ e.IsBefore d}

/-- The number of a day counts the days of the calendar in front of it. -/
theorem daysBefore_eq {d : Day} (h : d.exists? = true) : d.daysBefore = d.number := by
  have hlast := number_lt_afterLast h
  have himage : {e : Day | e.exists? = true ∧ e.IsBefore d} = ofNumber '' Set.Iio d.number := by
    ext e
    constructor
    · rintro ⟨hexists, hbefore⟩
      exact ⟨e.number, number_lt_number hexists h hbefore, ofNumber_number hexists⟩
    · rintro ⟨n, hn, rfl⟩
      have hexists := exists?_ofNumber (Nat.lt_trans hn hlast)
      refine ⟨hexists, isBefore_of_number_lt hexists h ?_⟩
      rwa [number_ofNumber]
  have hinjective : Function.Injective ofNumber := Function.LeftInverse.injective number_ofNumber
  rw [daysBefore, himage, Set.ncard_image_of_injective _ hinjective, ← Finset.coe_Iio,
    Set.ncard_coe_finset, Nat.card_Iio]

/-- The days from the first of January 1970 on; negative for earlier days. -/
noncomputable def sinceEpoch (d : Day) : ℤ := d.daysBefore - daysBefore ⟨1970, 1, 1⟩

theorem sinceEpoch_eq {d : Day} (h : d.exists? = true) :
    d.sinceEpoch = d.number - Moment.epochDay := by
  have hepoch : Moment.epochDay = number ⟨1970, 1, 1⟩ := by decide
  rw [sinceEpoch, daysBefore_eq h, daysBefore_eq (by decide), hepoch]

end Day

/-- The exact time of a moment since the start of 1970 in universal time, in microseconds: days of
24 hours and the time of day, less the offset. -/
noncomputable def Moment.elapsed (m : Moment) : ℤ :=
  (((m.day.sinceEpoch * 24 + m.clock.hour) * 60 + m.clock.minute) * 60 + m.clock.second) * 10 ^ 6 +
    m.clock.microsecond - m.offset.getD 0

/-- The instant of a moment is the time elapsed. -/
theorem Moment.elapsed_eq {m : Moment} (h : m.day.exists? = true) : m.elapsed = m.instant := by
  rw [elapsed, Day.sinceEpoch_eq h, instant, Clock.seconds, microsPerSecond]
  push_cast
  omega

end PropertyList
