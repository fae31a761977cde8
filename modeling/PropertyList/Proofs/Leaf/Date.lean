import PropertyList.Leaf.Date
import PropertyList.Proofs.Calendar.IsoText
import PropertyList.Proofs.Leaf.Checked
import PropertyList.Proofs.Run

/-! Dates read back. A moment of the years 1 to 9999 is split into day and time of day, written, and
counted in seconds since the epoch again. -/
namespace PropertyList

namespace Timestamp

/-- The seconds of a moment since the first of January of year 1. -/
theorem exists_seconds {t : Timestamp} (h : t.Valid) :
    ∃ n : ℕ, n < Day.afterLast * 86400 ∧ t.seconds = n - 62135596800 ∧
      t.toMoment = ⟨Day.ofNumber (n / 86400),
        ⟨n % 86400 / 3600, n % 86400 / 60 % 60, n % 86400 % 60, t.microseconds⟩, some 0⟩ := by
  obtain ⟨hfirst, hlast, -⟩ := h
  change -62135596800 ≤ t.seconds at hfirst
  change t.seconds ≤ 253402300799 at hlast
  have hstart : Moment.epochDay * 86400 = 62135596800 := by decide
  refine ⟨(t.seconds + Moment.epochDay * 86400).toNat, ?_, ?_, rfl⟩
  · change _ < 3652059 * 86400
    omega
  · omega

theorem exists?_toMoment {t : Timestamp} (h : t.Valid) :
    t.toMoment.day.exists? = true ∧ t.toMoment.clock.exists? = true := by
  obtain ⟨n, hn, -, hmoment⟩ := exists_seconds h
  have hmicro : t.microseconds ≤ 999999 := h.2.2
  rw [hmoment]
  refine ⟨Day.exists?_ofNumber ?_, ?_⟩
  · rw [Nat.div_lt_iff_lt_mul (by omega)]
    exact hn
  · simp only [Clock.exists?_iff]
    omega

theorem instant_toMoment {t : Timestamp} (h : t.Valid) :
    t.toMoment.instant = t.seconds * microsPerSecond + t.microseconds := by
  obtain ⟨n, -, hseconds, hmoment⟩ := exists_seconds h
  have hepoch : Moment.epochDay = 719162 := rfl
  rw [hmoment, Moment.instant, Day.number_ofNumber, Clock.seconds, hseconds, hepoch]
  have hsplit : ((n / 86400 : ℕ) - 719162 : ℤ) * 86400 +
      ((n % 86400 / 3600 * 3600 + n % 86400 / 60 % 60 * 60 + n % 86400 % 60 : ℕ) : ℤ) =
        n - 62135596800 := by
    omega
  rw [hsplit]
  simp

theorem fdiv_microsPerSecond (seconds : ℤ) {micro : ℕ} (h : micro ≤ 999999) :
    (seconds * microsPerSecond + micro).fdiv microsPerSecond = seconds ∧
      (seconds * microsPerSecond + micro).fmod microsPerSecond = micro := by
  have hunit : microsPerSecond = 1000000 := rfl
  rw [hunit, Int.fdiv_eq_ediv_of_nonneg _ (by omega), Int.fmod_eq_emod_of_nonneg _ (by omega)]
  omega

/-- The seconds and microseconds of a moment are the ones that it was made from. -/
theorem ofMoment_toMoment {t : Timestamp} (h : t.Valid) : ofMoment t.toMoment = .ok (.date t) := by
  obtain ⟨hdiv, hmod⟩ := fdiv_microsPerSecond t.seconds h.2.2
  rw [ofMoment, instant_toMoment h, hdiv, hmod, Leaf.ofDate_eq_ok]
  exact ⟨⟨h.1, h.2.1⟩, ⟨Int.natCast_nonneg _, Int.ofNat_le.mpr h.2.2⟩, rfl⟩

end Timestamp

theorem encodeDate_isGraphic (t : Timestamp) : (encodeDate t).IsGraphic :=
  Moment.isoText_isGraphic _

theorem dateOf?_encodeDate {t : Timestamp} (h : t.Valid) :
    dateOf? (encodeDate t) = some (.date t) := by
  obtain ⟨hday, hclock⟩ := Timestamp.exists?_toMoment h
  have hblank := (encodeDate_isGraphic t).isBlank_eq_false
  have hread : Moment.ofIsoText? (encodeDate t) = some t.toMoment :=
    Moment.ofIsoText?_isoText hday hclock rfl
  rw [dateOf?, Text.trim_of_not_blank hblank, hread]
  simp only [Option.bind_eq_bind, Option.bind_some, Timestamp.ofMoment_toMoment h]

/-- Every date is read back from its text, whoever reads it. -/
theorem decodeDate_encodeDate (strict : Bool) {t : Timestamp} (h : t.Valid) :
    decodeDate strict (encodeDate t) = pure (.date t) := by
  rw [decodeDate, dateOf?_encodeDate h]

end PropertyList
