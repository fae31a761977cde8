import PropertyList.Calendar.IsoText
import PropertyList.Proofs.Calendar.Day
import PropertyList.Proofs.Number.Positional
import PropertyList.Proofs.Text.Utf8

/-! ISO texts read back. The text of a local time has its date in the first ten characters, a time
behind the separator, perhaps with six places of a second, and at the end its offset; the text of a
moment in universal time is such a text. -/
namespace PropertyList

theorem Clock.exists?_iff {c : Clock} : c.exists? = true ↔
    c.hour ≤ 23 ∧ c.minute ≤ 59 ∧ c.second ≤ 59 ∧ c.microsecond ≤ 999999 := by
  simp only [exists?, Bool.and_eq_true, decide_eq_true_eq, and_assoc]

/-- What stands behind a local time: nothing, the mark of universal time, or hours and minutes to
the east or to the west of it. -/
inductive OffsetMark where
  | absent
  | universal
  | apart (west : Bool) (hours minutes : ℕ)

namespace OffsetMark

/-- An offset stays below a day. -/
def Valid : OffsetMark → Prop
  | .absent => True
  | .universal => True
  | .apart _ hours minutes => hours ≤ 23 ∧ minutes ≤ 59

/-- Seconds east of universal time; a time without an offset is universal time. -/
def seconds : OffsetMark → ℤ
  | .absent => 0
  | .universal => 0
  | .apart west hours minutes => (if west then -1 else 1) * (hours * 3600 + minutes * 60)

/-- The offset of a moment that is written with the mark. -/
def offset? : OffsetMark → Option ℤ
  | .absent => none
  | mark => some (mark.seconds * microsPerSecond)

def text : OffsetMark → Text
  | .absent => []
  | .universal => [ch 'Z']
  | .apart west hours minutes =>
    (if west then ch '-' else ch '+') ::
      (paddedDecimal 2 hours ++ (ch ':' :: paddedDecimal 2 minutes))

end OffsetMark

/-- A local time as it is written. -/
structure LocalTime where
  day : Day
  hour : ℕ
  minute : ℕ
  second : ℕ
  fraction : Option ℕ
  mark : OffsetMark

namespace LocalTime

def clock (t : LocalTime) : Clock := ⟨t.hour, t.minute, t.second, t.fraction.getD 0⟩

def moment (t : LocalTime) : Moment := ⟨t.day, t.clock, t.mark.offset?⟩

/-- A time that the calendar and the clock have. -/
structure Valid (t : LocalTime) : Prop where
  day : t.day.exists? = true
  clock : t.clock.exists? = true
  mark : t.mark.Valid

/-- The day of a text: `YYYY-MM-DD`. -/
def dayText (d : Day) : Text :=
  paddedDecimal 4 d.year ++ (ch '-' :: (paddedDecimal 2 d.month ++
    (ch '-' :: paddedDecimal 2 d.day)))

/-- The places of a second, behind their point, if they are written. -/
def fractionText : Option ℕ → Text
  | none => []
  | some microsecond => ch '.' :: paddedDecimal 6 microsecond

/-- The time of day of a text: `HH:MM:SS`, perhaps with six places. -/
def clockText (t : LocalTime) : Text :=
  paddedDecimal 2 t.hour ++ (ch ':' :: (paddedDecimal 2 t.minute ++
    (ch ':' :: (paddedDecimal 2 t.second ++ fractionText t.fraction))))

def text (t : LocalTime) : Text := dayText t.day ++ (ch 'T' :: (t.clockText ++ t.mark.text))

/-- How a moment in universal time is written: the places of a whole second are left out. -/
def ofMoment (m : Moment) : LocalTime :=
  ⟨m.day, m.clock.hour, m.clock.minute, m.clock.second,
    if m.clock.microsecond = 0 then none else some m.clock.microsecond, .universal⟩

theorem clock_ofMoment (m : Moment) : (ofMoment m).clock = m.clock := by
  obtain ⟨day, ⟨hour, minute, second, microsecond⟩, offset⟩ := m
  by_cases hzero : microsecond = 0 <;> simp [ofMoment, clock, hzero]

end LocalTime

namespace Moment

open LocalTime

theorem readDigits?_paddedDecimal (width n : ℕ) (rest : List ℕ) :
    readDigits? width (paddedDecimal width n ++ rest) = some (n % 10 ^ width, rest) := by
  have hlen := paddedDecimal_length width n
  have htake : (paddedDecimal width n ++ rest).take width = paddedDecimal width n :=
    List.take_left' hlen
  have hdigits : (paddedDecimal width n).all isDigit = true :=
    List.all_eq_true.mpr fun c => isDigit_of_mem_paddedDecimal
  rw [readDigits?, htake, List.drop_left' hlen, ofDigits_paddedDecimal]
  simp [hlen, hdigits]

/-- The text of a moment is that of a local time in universal time. -/
theorem isoText_eq (m : Moment) : m.isoText = (LocalTime.ofMoment m).text := by
  unfold isoText LocalTime.text clockText LocalTime.ofMoment dayText
  split <;> simp only [fractionText, OffsetMark.text, List.append_assoc, List.cons_append]

theorem isGraphic_paddedDecimal (width n : ℕ) : (paddedDecimal width n).IsGraphic :=
  Text.isGraphic_of_isDigit fun _ => isDigit_of_mem_paddedDecimal

theorem dayText_isGraphic (d : Day) : (dayText d).IsGraphic :=
  (isGraphic_paddedDecimal 4 _).append <| .cons (by decide) <|
    (isGraphic_paddedDecimal 2 _).append <| .cons (by decide) (isGraphic_paddedDecimal 2 _)

theorem fractionText_isGraphic (fraction : Option ℕ) : (fractionText fraction).IsGraphic := by
  cases fraction with
  | none => decide
  | some n => exact .cons (by decide) (isGraphic_paddedDecimal 6 n)

theorem clockText_isGraphic (t : LocalTime) : t.clockText.IsGraphic :=
  (isGraphic_paddedDecimal 2 _).append <| .cons (by decide) <|
    (isGraphic_paddedDecimal 2 _).append <| .cons (by decide) <|
      (isGraphic_paddedDecimal 2 _).append (fractionText_isGraphic _)

theorem markText_isGraphic (mark : OffsetMark) : mark.text.IsGraphic := by
  cases mark with
  | absent => decide
  | universal => decide
  | apart west hours minutes =>
    refine .cons (by cases west <;> decide) ?_
    exact (isGraphic_paddedDecimal 2 _).append <| .cons (by decide) (isGraphic_paddedDecimal 2 _)

theorem localText_isGraphic (t : LocalTime) : t.text.IsGraphic :=
  (dayText_isGraphic _).append <| .cons (by decide) <|
    (clockText_isGraphic _).append (markText_isGraphic _)

theorem isoText_isGraphic (m : Moment) : m.isoText.IsGraphic := by
  rw [isoText_eq]
  exact localText_isGraphic _

theorem dayText_length (d : Day) : (dayText d).length = 10 := by
  simp [dayText]

theorem digit_ne {c : ℕ} (hc : isDigit c = false) (n : ℕ) : ch '0' + n % 10 ≠ c := by
  intro heq
  rw [← heq, isDigit_add (Nat.mod_lt n (by omega))] at hc
  cases hc

/-- The date of a text with hyphens ends behind ten characters. -/
theorem dateLength?_dayText (d : Day) (c : ℕ) (rest : List ℕ) :
    dateLength? (dayText d ++ c :: rest) = some 10 := by
  have hlen : (dayText d ++ c :: rest).length = 11 + rest.length := by
    rw [List.length_append, dayText_length, List.length_cons]
    omega
  have hfour : (dayText d ++ c :: rest).getD 4 0 = ch '-' := by
    simp [dayText, paddedDecimal]
  have hfive : (dayText d ++ c :: rest).getD 5 0 ≠ ch 'W' := by
    have hdigit : (dayText d ++ c :: rest).getD 5 0 = ch '0' + d.month / 10 % 10 := by
      simp [dayText, paddedDecimal]
    rw [hdigit]
    exact digit_ne (by decide) _
  rw [dateLength?, hlen, if_neg (by omega), if_neg (by omega), if_pos hfour, if_pos hfive]

theorem readDay?_dayText (d : Day) (rest : List ℕ) :
    readDay? 10 (dayText d ++ rest) = some ⟨d.year % 10 ^ 4, d.month % 10 ^ 2, d.day % 10 ^ 2⟩ := by
  have hmonth (more : List ℕ) : (paddedDecimal 2 d.month ++ more).headD 0 ≠ ch 'W' := by
    have hdigit : (paddedDecimal 2 d.month ++ more).headD 0 = ch '0' + d.month / 10 % 10 := by
      simp [paddedDecimal]
    rw [hdigit]
    exact digit_ne (by decide) _
  have hhyphen : (ch '-' == ch '-') = true := by decide
  simp only [readDay?, dayText, List.append_assoc, List.cons_append, readDigits?_paddedDecimal,
    Option.bind_eq_bind, Option.bind_some, List.headD_cons, hhyphen, if_true, List.drop_succ_cons,
    List.drop_zero, if_neg (hmonth _), ne_eq, not_true_eq_false, decide_false, Bool.and_false,
    Bool.false_eq_true, if_false]

theorem readFraction?_paddedDecimal (next n : ℕ) :
    readFraction? next (paddedDecimal 6 n) = some (n % 10 ^ 6, next != 0) := by
  have hread := readDigits?_paddedDecimal 6 n []
  rw [List.append_nil] at hread
  simp [readFraction?, hread]

/-- The last field of a time, with its fraction. The mark that follows is told as more text. -/
theorem readFields?_last (next count : ℕ) (fields : List ℕ) (field : ℕ) (fraction : Option ℕ) :
    readFields? next (count + 1) (some true) fields
        (paddedDecimal 2 field ++ fractionText fraction) =
      some (fields ++ [field % 10 ^ 2], fraction.getD 0 % 10 ^ 6, next != 0) := by
  cases fraction with
  | none =>
    have hread := readDigits?_paddedDecimal 2 field []
    rw [List.append_nil] at hread
    simp [readFields?, fractionText, hread]
  | some n =>
    have hpoint : ¬ch '.' = ch ':' := by decide
    simp [readFields?, readDigits?_paddedDecimal, fractionText, hpoint,
      readFraction?_paddedDecimal]

theorem readFields?_colon (next count : ℕ) (colons : Option Bool)
    (hcolons : colons.getD true = true) (fields : List ℕ) (field : ℕ) {c : ℕ} {rest : List ℕ} :
    readFields? next (count + 1) colons fields
        (paddedDecimal 2 field ++ (ch ':' :: c :: rest)) =
      readFields? next count (some true) (fields ++ [field % 10 ^ 2]) (c :: rest) := by
  rcases colons with _ | _ | _
  · simp [readFields?, readDigits?_paddedDecimal]
  · cases hcolons
  · simp [readFields?, readDigits?_paddedDecimal]

/-- A time of day is read back up to what follows it. -/
theorem readClock?_clockText (next : ℕ) (t : LocalTime) :
    readClock? next t.clockText =
      some (⟨t.hour % 10 ^ 2, t.minute % 10 ^ 2, t.second % 10 ^ 2, t.fraction.getD 0 % 10 ^ 6⟩,
        next != 0) := by
  obtain ⟨b, rest, hsecond⟩ : ∃ b rest,
      paddedDecimal 2 t.second ++ fractionText t.fraction = b :: rest := by
    exact ⟨_, _, rfl⟩
  obtain ⟨d, more, hminute⟩ : ∃ d more, paddedDecimal 2 t.minute ++
      (ch ':' :: (paddedDecimal 2 t.second ++ fractionText t.fraction)) = d :: more := by
    exact ⟨_, _, rfl⟩
  rw [readClock?, clockText, hminute, readFields?_colon next 2 none rfl, ← hminute, hsecond,
    readFields?_colon next 1 (some true) rfl, ← hsecond, readFields?_last]
  rfl

/-- Hours and minutes are read back without any more text behind them. -/
theorem readClock?_offset (hours minutes : ℕ) :
    readClock? 0 (paddedDecimal 2 hours ++ (ch ':' :: paddedDecimal 2 minutes)) =
      some (⟨hours % 10 ^ 2, minutes % 10 ^ 2, 0, 0⟩, false) := by
  obtain ⟨b, rest, hminute⟩ : ∃ b rest, paddedDecimal 2 minutes = b :: rest := by
    exact ⟨_, _, rfl⟩
  have hlast := readFields?_last 0 1 [hours % 10 ^ 2] minutes none
  rw [fractionText, List.append_nil] at hlast
  rw [readClock?, hminute, readFields?_colon 0 2 none rfl, ← hminute, List.nil_append, hlast]
  rfl

theorem opensOffset_eq_false {b : ℕ} (h : isDigit b = true ∨ b = ch ':' ∨ b = ch '.') :
    opensOffset b = false := by
  rcases h with hdigit | rfl | rfl
  · have hb := isDigit_iff.mp hdigit
    simp only [opensOffset, Bool.or_eq_false_iff, beq_eq_false_iff_ne]
    change (b ≠ 43 ∧ b ≠ 45) ∧ b ≠ 90
    omega
  · decide
  · decide

theorem opensOffset_clockText (t : LocalTime) : ∀ b ∈ t.clockText, opensOffset b = false := by
  intro b hb
  apply opensOffset_eq_false
  have hdigit (width n : ℕ) (h : b ∈ paddedDecimal width n) : isDigit b = true :=
    isDigit_of_mem_paddedDecimal h
  simp only [clockText, List.mem_append, List.mem_cons] at hb
  rcases hb with h | h | h | h | h | h
  · exact .inl (hdigit _ _ h)
  · exact .inr (.inl h)
  · exact .inl (hdigit _ _ h)
  · exact .inr (.inl h)
  · exact .inl (hdigit _ _ h)
  · cases hfraction : t.fraction with
    | none => simp [hfraction, fractionText] at h
    | some n =>
      rw [hfraction, fractionText] at h
      rcases List.mem_cons.mp h with h | h
      · exact .inr (.inr h)
      · exact .inl (hdigit _ _ h)

section Mark

variable {part : List ℕ} {clock : Clock} (hnone : ∀ b ∈ part, (!opensOffset b) = true)
  (hread : ∀ next, readClock? next part = some (clock, next != 0))

include hnone hread

theorem readTime?_apart (west : Bool) {hours minutes : ℕ} (hhours : hours ≤ 23)
    (hminutes : minutes ≤ 59) :
    readTime? (part ++ (OffsetMark.apart west hours minutes).text) =
      some (clock, (OffsetMark.apart west hours minutes).offset?) := by
  have hopens : (!opensOffset (if west then ch '-' else ch '+')) = false := by
    cases west <;> decide
  have hz : (if west then ch '-' else ch '+') ≠ ch 'Z' := by
    cases west <;> decide
  have hoffset := readClock?_offset hours minutes
  rw [Nat.mod_eq_of_lt (by omega), Nat.mod_eq_of_lt (by omega)] at hoffset
  have hdistance : ((⟨hours, minutes, 0, 0⟩ : Clock).seconds : ℤ) =
      hours * 3600 + minutes * 60 := by
    simp only [Clock.seconds]
    omega
  have hunit : microsPerSecond = 1000000 := rfl
  have hbelow : ¬(false || decide (86400 * microsPerSecond ≤
      ((⟨hours, minutes, 0, 0⟩ : Clock).seconds : ℤ) * microsPerSecond + (0 : ℕ))) = true := by
    rw [Bool.false_or, decide_eq_true_eq, hdistance, hunit]
    omega
  simp only [readTime?, OffsetMark.text, takeWhile_run hnone hopens, dropWhile_run hnone hopens,
    List.headD_cons, hread, Option.bind_eq_bind, Option.bind_some, if_neg hz]
  rw [hoffset, Option.bind_some, if_neg hbelow, hdistance]
  -- An offset of no seconds is universal time, whatever its sign is.
  by_cases hzero : (hours : ℤ) * 3600 + minutes * 60 = 0
  · simp only [hzero, if_true, OffsetMark.offset?, OffsetMark.seconds, mul_zero, zero_mul]
  · cases west
    · have hplus : ¬ch '+' = ch '-' := by decide
      simp only [if_neg hzero, Bool.false_eq_true, if_false, if_neg hplus, OffsetMark.offset?,
        OffsetMark.seconds, one_mul, Nat.cast_zero, add_zero]
    · simp only [if_neg hzero, if_true, OffsetMark.offset?, OffsetMark.seconds, Nat.cast_zero,
        add_zero, neg_mul, one_mul]

theorem readTime?_mark {mark : OffsetMark} (h : mark.Valid) :
    readTime? (part ++ mark.text) = some (clock, mark.offset?) := by
  cases mark with
  | absent =>
    simp only [readTime?, OffsetMark.text, List.append_nil, takeWhile_of_all hnone,
      dropWhile_of_all hnone, List.headD_nil, hread, Option.bind_eq_bind, Option.bind_some]
    rfl
  | universal =>
    have hopens : (!opensOffset (ch 'Z')) = false := by decide
    simp only [readTime?, OffsetMark.text, takeWhile_run hnone hopens, dropWhile_run hnone hopens,
      List.headD_cons, hread, Option.bind_eq_bind, Option.bind_some]
    rfl
  | apart west hours minutes => exact readTime?_apart hnone hread west h.1 h.2

end Mark

/-- A time of day is read back together with the offset behind it. -/
theorem readTime?_text {t : LocalTime} (h : t.Valid) :
    readTime? (t.clockText ++ t.mark.text) = some (t.clock, t.mark.offset?) := by
  have hclock := Clock.exists?_iff.mp h.clock
  simp only [LocalTime.clock] at hclock
  have hread (next : ℕ) : readClock? next t.clockText = some (t.clock, next != 0) := by
    rw [readClock?_clockText, Nat.mod_eq_of_lt (by omega), Nat.mod_eq_of_lt (by omega),
      Nat.mod_eq_of_lt (by omega), Nat.mod_eq_of_lt (by omega), LocalTime.clock]
  have hnone : ∀ b ∈ t.clockText, (!opensOffset b) = true := by
    intro b hb
    rw [opensOffset_clockText t b hb, Bool.not_false]
  exact readTime?_mark hnone hread h.mark

theorem mendSeparator_of_isXml {s : Text} (h : s.isXml = true) : mendSeparator s = s := by
  have hnone : (separatorPositions.find? fun i => isSurrogate (s.getD i 0)) = none := by
    apply List.find?_eq_none.mpr
    intro i _
    rw [List.getD_eq_getElem?_getD]
    rcases hget : s[i]? with _ | c
    · decide
    · have hc := isSurrogate_eq_false (List.all_eq_true.mp h c (List.mem_of_getElem? hget))
      simpa using hc
  rw [mendSeparator, hnone]

/-- A local time is read back from its text as the moment that it is. -/
theorem ofIsoText?_text {t : LocalTime} (h : t.Valid) : ofIsoText? t.text = some t.moment := by
  have hgraphic := localText_isGraphic t
  have hlength := daysInMonth_le t.day.year t.day.month
  have hexists : (t.day.exists? && t.clock.exists?) = true := by
    rw [h.day, h.clock, Bool.and_self]
  have hday := Day.exists?_iff.mp h.day
  have hreadDay (rest : List ℕ) : readDay? 10 (dayText t.day ++ rest) = some t.day := by
    rw [readDay?_dayText, Nat.mod_eq_of_lt (by omega), Nat.mod_eq_of_lt (by omega),
      Nat.mod_eq_of_lt (by omega)]
  have hdrop (rest : List ℕ) : (dayText t.day ++ rest).drop 10 = rest :=
    List.drop_left' (dayText_length t.day)
  have hseparator : characterLength (ch 'T') = 1 := by decide
  rw [ofIsoText?, mendSeparator_of_isXml hgraphic.isXml, Text.utf8?_of_isXml hgraphic.isXml]
  simp only [Option.bind_eq_bind, Option.bind_some, hgraphic.map_toNat_utf8]
  rw [LocalTime.text, dateLength?_dayText]
  simp only [Option.bind_some, hreadDay, hdrop, List.isEmpty_cons, Bool.false_eq_true, if_false,
    List.headD_cons, hseparator, List.drop_succ_cons, List.drop_zero, readTime?_text h, hexists,
    if_true, LocalTime.moment]

/-- A moment in universal time is read back from its text. -/
theorem ofIsoText?_isoText {m : Moment} (hday : m.day.exists? = true)
    (hclock : m.clock.exists? = true) (hoffset : m.offset = some 0) :
    ofIsoText? m.isoText = some m := by
  have hvalid : (LocalTime.ofMoment m).Valid :=
    ⟨hday, by rw [LocalTime.clock_ofMoment]; exact hclock, trivial⟩
  rw [isoText_eq, ofIsoText?_text hvalid, LocalTime.moment, LocalTime.clock_ofMoment]
  exact congrArg (fun offset => some (Moment.mk m.day m.clock offset)) hoffset.symm

end Moment

end PropertyList
