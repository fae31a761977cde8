import Mathlib.Data.Rat.Floor
import PropertyList.Proofs.Calendar.Elapsed
import PropertyList.Proofs.Leaf.Moment

/-! Dates are exact. A moment has a date where its instant lies in the years 1 to 9999 of universal
time; the date holds the time elapsed, in whole seconds and microseconds on top, and turns back into
the same instant. -/
namespace PropertyList

/-- A moment of the calendar in universal time. -/
def Moment.IsUniversal (m : Moment) : Prop :=
  m.day.exists? = true ∧ m.clock.exists? = true ∧ m.offset = some 0

theorem Moment.elapsed_first : first.elapsed = -62135596800000000 := by
  rw [elapsed_eq (by decide)]
  decide

theorem Moment.elapsed_last : last.elapsed = 253402300799999999 := by
  rw [elapsed_eq (by decide)]
  decide

theorem Moment.inCalendar_iff_elapsed {m : Moment} (h : m.day.exists? = true) :
    m.inCalendar = true ↔ first.elapsed ≤ m.elapsed ∧ m.elapsed ≤ last.elapsed := by
  have hfirst : first.elapsed = first.instant := elapsed_eq (by decide)
  have hlast : last.elapsed = last.instant := elapsed_eq (by decide)
  rw [hfirst, hlast, elapsed_eq h, inCalendar, Bool.and_eq_true, decide_eq_true_eq,
    decide_eq_true_eq]

namespace Timestamp

theorem isUniversal_toMoment {t : Timestamp} (h : t.Valid) : t.toMoment.IsUniversal :=
  ⟨(exists?_toMoment h).1, (exists?_toMoment h).2, rfl⟩

/-- A date fails in its seconds, whatever the microseconds of the moment are. -/
theorem titled_ofMoment_of_not_inCalendar {m : Moment} (h : ¬m.inCalendar = true) :
    ∃ problem, titled Kind.date.title (ofMoment m) =
      .error (.invalid Kind.date.title [Issue.ofField "seconds" problem]) := by
  have hmicro : rangeProblem? 0 maxMicroseconds (m.instant.fmod microsPerSecond) = none :=
    rangeProblem?_eq_none.mpr (fmod_microsPerSecond_bounds _)
  have hfailed (problem : Problem) (hnamed : (problem == .unnamedEntry) = false)
      (hseconds : rangeProblem? minSeconds maxSeconds (m.instant.fdiv microsPerSecond) =
        some problem) :
      titled Kind.date.title (ofMoment m) =
        .error (.invalid Kind.date.title [Issue.ofField "seconds" problem]) := by
    rw [ofMoment, Leaf.ofDate, hseconds, hmicro]
    simp [Leaf.checked, titled, Issue.ofField, hnamed]
  rw [Moment.inCalendar_iff] at h
  by_cases hearly : m.instant.fdiv microsPerSecond < minSeconds
  · exact ⟨_, hfailed (.belowMinimum minSeconds) rfl (by rw [rangeProblem?, if_pos hearly])⟩
  · have hlate : maxSeconds < m.instant.fdiv microsPerSecond := by omega
    exact ⟨_, hfailed (.aboveMaximum maxSeconds) rfl
      (by rw [rangeProblem?, if_neg hearly, if_pos hlate])⟩

theorem titled_ofMoment_of_inCalendar {m : Moment} (h : m.inCalendar = true) :
    ∃ t : Timestamp, titled Kind.date.title (ofMoment m) = .ok (.date t) ∧
      t.seconds = m.instant / 10 ^ 6 ∧ (t.microseconds : ℤ) = m.instant % 10 ^ 6 ∧
      t.toMoment.IsUniversal ∧ t.toMoment.instant = m.instant := by
  obtain ⟨leaf, hleaf⟩ := exists_ofMoment_iff.mpr h
  obtain ⟨hinstant, -, -⟩ := instant_universal hleaf
  obtain ⟨t, rfl, hvalid, htime⟩ := ofMoment_eq_ok hleaf
  obtain ⟨-, ⟨hzero, -⟩, hdate⟩ := Leaf.ofDate_eq_ok.mp hleaf
  obtain ⟨hseconds, hmicro⟩ := Timestamp.mk.inj (Leaf.date.inj hdate)
  have hunit : (0 : ℤ) ≤ microsPerSecond := by decide
  refine ⟨t, titled_eq_ok.mpr hleaf, ?_, ?_, isUniversal_toMoment hvalid, htime ▸ hinstant⟩
  · rw [← hseconds, Int.fdiv_eq_ediv_of_nonneg _ hunit]
    rfl
  · rw [← hmicro, Int.toNat_of_nonneg hzero, Int.fmod_eq_emod_of_nonneg _ hunit]
    rfl

/-- A moment of the calendar, whatever its offset is, has no date just if its instant lies outside
the years 1 to 9999. Otherwise its date counts the whole seconds elapsed, rounded down, and the
microseconds that remain, and turns back into the same instant. Every date turns into the moment of
the calendar at its time, and this moment into the date. -/
theorem ofMoment_exact :
    (∀ m : Moment, m.day.exists? = true →
      ((∃ issues, titled Kind.date.title (ofMoment m) =
          .error (.invalid Kind.date.title issues)) ↔
        m.elapsed < Moment.first.elapsed ∨ Moment.last.elapsed < m.elapsed) ∧
      (Moment.first.elapsed ≤ m.elapsed → m.elapsed ≤ Moment.last.elapsed →
        ∃ t : Timestamp, titled Kind.date.title (ofMoment m) = .ok (.date t) ∧
          t.seconds = ⌊(m.elapsed : ℚ) / 10 ^ 6⌋ ∧ (t.microseconds : ℤ) = m.elapsed % 10 ^ 6 ∧
          t.toMoment.IsUniversal ∧ t.toMoment.elapsed = m.elapsed)) ∧
    ∀ t : Timestamp, t.Valid →
      t.toMoment.IsUniversal ∧ t.toMoment.elapsed = t.seconds * 10 ^ 6 + t.microseconds ∧
        titled Kind.date.title (ofMoment t.toMoment) = .ok (.date t) := by
  refine ⟨fun m hday => ⟨⟨?_, ?_⟩, ?_⟩, fun t ht => ⟨isUniversal_toMoment ht, ?_, ?_⟩⟩
  · rintro ⟨issues, hissues⟩
    by_contra hinside
    rw [not_or, Int.not_lt, Int.not_lt, ← Moment.inCalendar_iff_elapsed hday] at hinside
    obtain ⟨t, hok, -⟩ := titled_ofMoment_of_inCalendar hinside
    rw [hok] at hissues
    cases hissues
  · intro houtside
    have hnot : ¬m.inCalendar = true := by
      rw [Moment.inCalendar_iff_elapsed hday]
      omega
    obtain ⟨problem, hproblem⟩ := titled_ofMoment_of_not_inCalendar hnot
    exact ⟨_, hproblem⟩
  · intro hfirst hlast
    have hinside := (Moment.inCalendar_iff_elapsed hday).mpr ⟨hfirst, hlast⟩
    obtain ⟨t, hok, hseconds, hmicro, huniversal, hinstant⟩ := titled_ofMoment_of_inCalendar hinside
    rw [← Moment.elapsed_eq hday] at hseconds hmicro hinstant
    rw [← Moment.elapsed_eq huniversal.1] at hinstant
    refine ⟨t, hok, ?_, hmicro, huniversal, hinstant⟩
    have hfloor := Rat.floor_intCast_div_natCast m.elapsed (10 ^ 6)
    rw [Nat.cast_pow, Nat.cast_pow, Nat.cast_ofNat, Nat.cast_ofNat] at hfloor
    rw [hseconds, hfloor]
  · rw [Moment.elapsed_eq (isUniversal_toMoment ht).1, instant_toMoment ht]
    rfl
  · exact titled_eq_ok.mpr (ofMoment_toMoment ht)

/-- A moment an hour and a microsecond before 1970, one that an offset puts before year 1, and the
first second of year 1. -/
theorem ofMoment_exact_early :
    (∃ t : Timestamp, titled Kind.date.title (ofMoment
        ⟨⟨1969, 12, 31⟩, ⟨23, 59, 59, 999999⟩, some 3600000000⟩) = .ok (.date t) ∧
      t.seconds = ⌊(-3600000001 : ℚ) / 10 ^ 6⌋ ∧ (t.microseconds : ℤ) = -3600000001 % 10 ^ 6 ∧
      t.toMoment.elapsed = -3600000001) ∧
    (∃ issues, titled Kind.date.title (ofMoment ⟨⟨1, 1, 1⟩, .midnight, some 60000000⟩) =
      .error (.invalid Kind.date.title issues)) ∧
    Valid ⟨minSeconds, 0⟩ ∧ titled Kind.date.title (ofMoment (toMoment ⟨minSeconds, 0⟩)) =
      .ok (.date ⟨minSeconds, 0⟩) := by
  have hmoment : Moment.elapsed ⟨⟨1969, 12, 31⟩, ⟨23, 59, 59, 999999⟩, some 3600000000⟩ =
      -3600000001 := by
    rw [Moment.elapsed_eq (by decide)]
    decide
  have hearly : Moment.elapsed ⟨⟨1, 1, 1⟩, .midnight, some 60000000⟩ = -62135596860000000 := by
    rw [Moment.elapsed_eq (by decide)]
    decide
  refine ⟨?_, ?_, by decide, (ofMoment_exact.2 ⟨minSeconds, 0⟩ (by decide)).2.2⟩
  · obtain ⟨t, hok, hseconds, hmicro, -, hback⟩ := (ofMoment_exact.1
      ⟨⟨1969, 12, 31⟩, ⟨23, 59, 59, 999999⟩, some 3600000000⟩ (by decide)).2
      (by rw [Moment.elapsed_first, hmoment]; decide)
      (by rw [Moment.elapsed_last, hmoment]; decide)
    rw [hmoment] at hseconds hmicro hback
    exact ⟨t, hok, by exact_mod_cast hseconds, hmicro, hback⟩
  · refine (ofMoment_exact.1 ⟨⟨1, 1, 1⟩, .midnight, some 60000000⟩ (by decide)).1.mpr (.inl ?_)
    rw [Moment.elapsed_first, hearly]
    decide

end Timestamp

end PropertyList
