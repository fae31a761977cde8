import PropertyList.Proofs.Leaf.Valid

/-! Moments in universal time. The date of a moment is the same instant, and a moment that is in
universal time already stays what it is. -/
namespace PropertyList

/-- The time of day is found by its seconds. -/
theorem Clock.seconds_spec {c : Clock} (h : c.exists? = true) :
    c.seconds < 86400 ∧ c.seconds / 3600 = c.hour ∧ c.seconds / 60 % 60 = c.minute ∧
      c.seconds % 60 = c.second ∧ c.microsecond ≤ 999999 := by
  have hclock := exists?_iff.mp h
  rw [seconds]
  omega

namespace Moment

/-- The moment in universal time at the instant of a moment. -/
def universal (m : Moment) : Moment :=
  .ofSeconds (m.instant.fdiv microsPerSecond) (m.instant.fmod microsPerSecond).toNat

theorem offset_universal (m : Moment) : m.universal.offset = some 0 := rfl

/-- A moment of the calendar without an offset of its own is in universal time. -/
theorem universal_of_offset {m : Moment} (hday : m.day.exists? = true)
    (hclock : m.clock.exists? = true) (hoffset : m.offset.getD 0 = 0) :
    m.universal = ⟨m.day, m.clock, some 0⟩ := by
  obtain ⟨hless, hhour, hminute, hsecond, hmicro⟩ := Clock.seconds_spec hclock
  obtain ⟨hdiv, hmod⟩ := Timestamp.fdiv_microsPerSecond
    (((m.day.number : ℤ) - epochDay) * 86400 + (m.clock.seconds : ℤ)) hmicro
  have htotal : (((m.day.number : ℤ) - epochDay) * 86400 + (m.clock.seconds : ℤ) +
      epochDay * 86400).toNat = m.day.number * 86400 + m.clock.seconds := by
    omega
  have hnumber : (m.day.number * 86400 + m.clock.seconds) / 86400 = m.day.number := by omega
  have hrest : (m.day.number * 86400 + m.clock.seconds) % 86400 = m.clock.seconds := by omega
  rw [universal, instant, hoffset, Int.sub_zero, hdiv, hmod, ofSeconds, htotal, hnumber, hrest,
    hhour, hminute, hsecond, Day.ofNumber_number hday, Int.toNat_natCast]

/-- The first moment of year 1, in universal time. -/
def first : Moment := ⟨⟨1, 1, 1⟩, .midnight, some 0⟩

/-- The last microsecond of year 9999, in universal time. -/
def last : Moment := ⟨⟨9999, 12, 31⟩, ⟨23, 59, 59, 999999⟩, some 0⟩

/-- Whether the instant of a moment lies in the years 1 to 9999 of universal time. -/
def inCalendar (m : Moment) : Bool := first.instant ≤ m.instant && m.instant ≤ last.instant

theorem inCalendar_iff {m : Moment} :
    m.inCalendar = true ↔ minSeconds ≤ m.instant.fdiv microsPerSecond ∧
      m.instant.fdiv microsPerSecond ≤ maxSeconds := by
  have hfirst : first.instant = minSeconds * 1000000 := by decide
  have hlast : last.instant = maxSeconds * 1000000 + 999999 := by decide
  have hunit : microsPerSecond = 1000000 := rfl
  rw [inCalendar, Bool.and_eq_true, decide_eq_true_eq, decide_eq_true_eq, hfirst, hlast, hunit,
    Int.fdiv_eq_ediv_of_nonneg _ (by omega)]
  omega

/-- The first moment of a day of the calendar lies in these years. -/
theorem inCalendar_midnight {d : Day} (h : d.exists? = true) :
    inCalendar ⟨d, .midnight, some 0⟩ = true := by
  have hnumber := Day.number_lt_afterLast h
  have hafter : Day.afterLast = 3652059 := rfl
  have hfirst : first.instant = -719162 * 86400 * 1000000 := by decide
  have hlast : last.instant = (3652059 - 719162) * 86400 * 1000000 - 1 := by decide
  have hinstant : instant ⟨d, .midnight, some 0⟩ =
      ((d.number : ℤ) - 719162) * 86400 * 1000000 := by
    simp [instant, Clock.midnight, Clock.seconds, epochDay, microsPerSecond]
  rw [inCalendar, Bool.and_eq_true, decide_eq_true_eq, decide_eq_true_eq, hfirst, hlast, hinstant]
  omega

end Moment

namespace Timestamp

/-- The date of a moment is the moment in universal time. -/
theorem ofMoment_eq_ok {m : Moment} {leaf : Leaf} (h : ofMoment m = .ok leaf) :
    ∃ t : Timestamp, leaf = .date t ∧ t.Valid ∧ t.toMoment = m.universal := by
  have hvalid := Leaf.valid_of_ofDate h
  obtain ⟨-, -, rfl⟩ := Leaf.ofDate_eq_ok.mp h
  exact ⟨_, rfl, hvalid, rfl⟩

/-- The microseconds on top of whole seconds are those of a date. -/
theorem fmod_microsPerSecond_bounds (n : ℤ) :
    0 ≤ n.fmod microsPerSecond ∧ n.fmod microsPerSecond ≤ maxMicroseconds := by
  have hless : n.fmod microsPerSecond < microsPerSecond := Int.fmod_lt_of_pos _ (by decide)
  have hunit : microsPerSecond = 1000000 := rfl
  have hmax : (maxMicroseconds : ℤ) = 999999 := rfl
  exact ⟨Int.fmod_nonneg_of_pos _ (by decide), by omega⟩

/-- The moments of the years 1 to 9999 of universal time have dates. -/
theorem exists_ofMoment_iff {m : Moment} :
    (∃ leaf, ofMoment m = .ok leaf) ↔ m.inCalendar = true := by
  rw [Moment.inCalendar_iff]
  constructor
  · rintro ⟨leaf, hleaf⟩
    exact (Leaf.ofDate_eq_ok.mp hleaf).1
  · intro hseconds
    exact ⟨_, Leaf.ofDate_eq_ok.mpr ⟨hseconds, fmod_microsPerSecond_bounds _, rfl⟩⟩

/-- Where a moment has a date, the moment in universal time exists and is the same instant. -/
theorem instant_universal {m : Moment} {leaf : Leaf} (h : ofMoment m = .ok leaf) :
    m.universal.instant = m.instant ∧ m.universal.day.exists? = true ∧
      m.universal.clock.exists? = true := by
  obtain ⟨t, rfl, hvalid, htime⟩ := ofMoment_eq_ok h
  refine ⟨?_, ?_⟩
  · obtain ⟨-, ⟨hzero, -⟩, htimestamp⟩ := Leaf.ofDate_eq_ok.mp h
    obtain ⟨hseconds, hmicro⟩ := Timestamp.mk.inj (Leaf.date.inj htimestamp)
    have hsplit := Int.mul_fdiv_add_fmod m.instant microsPerSecond
    rw [← htime, instant_toMoment hvalid, ← hseconds, ← hmicro, Int.toNat_of_nonneg hzero]
    linarith
  · rw [← htime]
    exact exists?_toMoment hvalid

end Timestamp

end PropertyList
