import PropertyList.Proofs.Leaf.Instant
import PropertyList.Proofs.Leaf.Signed

/-! Text dates honour their offset. A local time with blanks around it is read as the instant that
it is in universal time, if this lies in the years 1 to 9999, and counts as no date otherwise. -/
namespace PropertyList

namespace Text

/-- Blanks around a text are trimmed off, and nothing else is. -/
theorem trim_of_blanks {front back s : Text} (hfront : front.IsBlank) (hback : back.IsBlank)
    (hs : ∀ c ∈ s, isBlank c = false) : (front ++ s ++ back).trim = s := by
  cases s with
  | nil =>
    rw [List.append_nil, trim, trimLeft, List.dropWhile_append_of_pos hfront,
      dropWhile_of_all hback]
    rfl
  | cons c rest =>
    have hleft : (front ++ c :: rest ++ back).trimLeft = c :: rest ++ back := by
      rw [List.append_assoc, List.cons_append]
      exact trimLeft_blanks hfront (hs c List.mem_cons_self) (rest ++ back)
    have hreverse : ∀ d ∈ back.reverse, isBlank d = true := fun d hd =>
      hback d (List.mem_reverse.mp hd)
    have hlast : ∀ d ∈ (c :: rest).reverse, isBlank d = false := fun d hd =>
      hs d (List.mem_reverse.mp hd)
    rw [trim, hleft, trimRight, List.reverse_append, List.dropWhile_append_of_pos hreverse,
      dropWhile_of_none hlast, List.reverse_reverse]

end Text

namespace LocalTime

/-- The seconds from the start of 1970 to a local time that is read as universal time, less its
offset. -/
noncomputable def seconds (t : LocalTime) : ℤ :=
  t.day.sinceEpoch * 86400 + t.hour * 3600 + t.minute * 60 + t.second - t.mark.seconds

/-- Whether the instant of a local time lies in the years 1 to 9999 of universal time. -/
def InCalendar (t : LocalTime) : Prop :=
  Moment.first.elapsed ≤ t.moment.elapsed ∧ t.moment.elapsed ≤ Moment.last.elapsed

theorem elapsed_moment (t : LocalTime) :
    t.moment.elapsed = t.seconds * 10 ^ 6 + (t.fraction.getD 0 : ℕ) := by
  have hoffset : t.mark.offset?.getD 0 = t.mark.seconds * 10 ^ 6 := by
    cases t.mark <;> rfl
  rw [Moment.elapsed, seconds]
  simp only [moment, clock, hoffset]
  omega

/-- The date of a local time has the fraction as its microseconds. -/
theorem ofMoment_moment {t : LocalTime} (h : t.Valid) (hinside : t.InCalendar) :
    Timestamp.ofMoment t.moment = .ok (.date ⟨t.seconds, t.fraction.getD 0⟩) := by
  have hfraction : t.fraction.getD 0 ≤ 999999 := (Clock.exists?_iff.mp h.clock).2.2.2
  obtain ⟨⟨seconds, microseconds⟩, hok, hseconds, hmicro, -⟩ :=
    Timestamp.titled_ofMoment_of_inCalendar ((Moment.inCalendar_iff_elapsed h.day).mpr hinside)
  rw [← Moment.elapsed_eq (m := t.moment) h.day, elapsed_moment] at hseconds hmicro
  obtain rfl : seconds = t.seconds := by
    simp only at hseconds
    omega
  obtain rfl : microseconds = t.fraction.getD 0 := by
    simp only at hmicro
    omega
  exact titled_eq_ok.mp hok

theorem dateOf?_text {t : LocalTime} (h : t.Valid) {front back : Text} (hfront : front.IsBlank)
    (hback : back.IsBlank) :
    dateOf? (front ++ t.text ++ back) =
      match Timestamp.ofMoment t.moment with
      | .ok leaf => some leaf
      | .error _ => none := by
  have hblank := (Moment.localText_isGraphic t).isBlank_eq_false
  rw [dateOf?, Text.trim_of_blanks hfront hback hblank, Moment.ofIsoText?_text h]
  rfl

end LocalTime

/-- A local time with blanks around it is read as the date with the seconds of the local time less
its offset and the fraction as microseconds, whoever reads it. Where no year from 1 to 9999 has that
instant, a lenient reader takes the epoch and a strict one fails. Every date is read back from its
own text. -/
theorem decodeDate_localTime :
    (∀ t : LocalTime, t.Valid → ∀ front back : Text, front.IsBlank → back.IsBlank →
      (t.InCalendar → ∀ strict, decodeDate strict (front ++ t.text ++ back) =
        pure (.date ⟨t.seconds, t.fraction.getD 0⟩)) ∧
      (¬t.InCalendar →
        decodeDate false (front ++ t.text ++ back) =
          Run.noting (.notDate (front ++ t.text ++ back)) (.date ⟨0, 0⟩) ∧
        decodeDate true (front ++ t.text ++ back) =
          Run.fault (.notDate (front ++ t.text ++ back)))) ∧
    ∀ strict, ∀ d : Timestamp, d.Valid → decodeDate strict (encodeDate d) = pure (.date d) := by
  refine ⟨fun t ht front back hfront hback => ⟨fun hinside strict => ?_, fun houtside => ?_⟩,
    fun strict d hd => decodeDate_encodeDate strict hd⟩
  · rw [decodeDate, LocalTime.dateOf?_text ht hfront hback, LocalTime.ofMoment_moment ht hinside]
  · have hnone : dateOf? (front ++ t.text ++ back) = none := by
      rw [LocalTime.dateOf?_text ht hfront hback]
      cases hmoment : Timestamp.ofMoment t.moment with
      | error issues => rfl
      | ok leaf =>
        have hinside := Timestamp.exists_ofMoment_iff.mp ⟨leaf, hmoment⟩
        exact absurd ((Moment.inCalendar_iff_elapsed ht.day).mp hinside) houtside
    constructor <;> rw [decodeDate, hnone] <;> rfl

/-- An evening of February that is a morning of March in universal time, a first minute of year 1
that its offset puts before this year, and a date before 1970. -/
theorem decodeDate_localTime_leapDay :
    decodeDate true (text "\n2024-02-29T23:30:00.250000-05:30 ") =
      pure (.date ⟨1709269200, 250000⟩) ∧
    (decodeDate false (text "0001-01-01T00:00:00+00:01") =
        Run.noting (.notDate (text "0001-01-01T00:00:00+00:01")) (.date ⟨0, 0⟩) ∧
      decodeDate true (text "0001-01-01T00:00:00+00:01") =
        Run.fault (.notDate (text "0001-01-01T00:00:00+00:01"))) ∧
    decodeDate true (encodeDate ⟨-1, 5⟩) = pure (.date ⟨-1, 5⟩) := by
  refine ⟨?_, ?_, decodeDate_localTime.2 true ⟨-1, 5⟩ (by decide)⟩
  · let evening : LocalTime := ⟨⟨2024, 2, 29⟩, 23, 30, 0, some 250000, .apart true 5 30⟩
    have hseconds : evening.seconds = 1709269200 := by
      rw [LocalTime.seconds, Day.sinceEpoch_eq (by decide)]
      decide
    have hinside : evening.InCalendar := by
      rw [LocalTime.InCalendar, LocalTime.elapsed_moment, hseconds, Moment.elapsed_first,
        Moment.elapsed_last]
      decide
    have hread := (decodeDate_localTime.1 evening ⟨by decide, by decide, by decide, by decide⟩
      (text "\n") (text " ") (by decide) (by decide)).1 hinside true
    have htext : text "\n2024-02-29T23:30:00.250000-05:30 " =
        text "\n" ++ evening.text ++ text " " := by decide
    rw [hseconds, ← htext] at hread
    exact hread
  · let minute : LocalTime := ⟨⟨1, 1, 1⟩, 0, 0, 0, none, .apart false 0 1⟩
    have hseconds : minute.seconds = -62135596860 := by
      rw [LocalTime.seconds, Day.sinceEpoch_eq (by decide)]
      decide
    have houtside : ¬minute.InCalendar := by
      rw [LocalTime.InCalendar, LocalTime.elapsed_moment, hseconds, Moment.elapsed_first]
      decide
    have htext : text "0001-01-01T00:00:00+00:01" = [] ++ minute.text ++ [] := by decide
    rw [htext]
    exact (decodeDate_localTime.1 minute ⟨by decide, by decide, by decide, by decide⟩ [] []
      (by decide) (by decide)).2 houtside

end PropertyList
