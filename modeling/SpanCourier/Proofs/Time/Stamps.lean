import SpanCourier.Proofs.Text.Decimal
import SpanCourier.Proofs.Text.Order
import SpanCourier.Proofs.Time.Calendar

/-!
# the time stamp of an annotation

A moment is a date and a time of day.  The stamp of an annotation shows one, as long as the calendar
covers it: the stamp has zeros in the same places as any other, and its numbers are those of the moment,
which is as many microseconds after the start of 1970 as the annotation says.  Past the calendar a stamp is
the number of microseconds itself.  So no two stamps are the same, and while years have four digits, the
earlier stamp is the smaller one.

* `Moment`, `Moment.micros`   a date and a time of day, and when that is;
* `Shows`                     the layout of a stamp, and what is read from it;
* `Moment.micros_lt_iff`      earlier moments are fewer microseconds after 1970;
* `Moment.text_lt_iff`        their texts are smaller;
* `annotationText_faithful`   the stamps of annotations.
-/

namespace SpanCourier

structure Moment where
  date : Date
  hour : Nat
  minute : Nat
  second : Nat
  micro : Nat

/-- the first day that time stamps are counted from -/
def epoch : Date := ⟨1970, 1, 1⟩

namespace Moment

structure IsReal (t : Moment) : Prop where
  date : t.date.IsReal
  hour_lt : t.hour < 24
  minute_lt : t.minute < 60
  second_lt : t.second < 60
  micro_lt : t.micro < 1000000

def sinceMidnight (t : Moment) : Nat :=
  ((t.hour * 60 + t.minute) * 60 + t.second) * 1000000 + t.micro

/-- microseconds from the start of 1970 to a moment -/
def micros (t : Moment) : Int :=
  ((t.date.count : Int) - epoch.count) * 86400000000 + t.sinceMidnight

/-- a moment is earlier than another: by its date, then by the time of day -/
def IsBefore (t u : Moment) : Prop :=
  t.date.IsBefore u.date ∨ t.date = u.date ∧ t.sinceMidnight < u.sinceMidnight

/-- the moment so many microseconds after the start of 1970 -/
def ofMicros (n : Nat) : Moment :=
  let inDay := n % microsPerDay
  { date := Date.ofDay (n / microsPerDay + daysTo1970)
    hour := inDay / 1000000 / 3600
    minute := inDay / 1000000 / 60 % 60
    second := inDay / 1000000 % 60
    micro := inDay % 1000000 }

def text (t : Moment) : String :=
  yearText t.date.year ++ "-" ++ padded 2 t.date.month ++ "-" ++ padded 2 t.date.day
    ++ " (" ++ (padded 2 t.hour ++ ":" ++ padded 2 t.minute ++ ":" ++ padded 2 t.second
    ++ "." ++ padded 6 t.micro) ++ ")"

end Moment

theorem epoch_count : epoch.count = 719528 := by
  rw [Date.count_eq (by decide) (by decide) (by decide)]
  rfl

theorem annotationText_eq {micros : UInt64} (h : micros.toNat ≤ lastCalendarMicro) :
    annotationText micros = (Moment.ofMicros micros.toNat).text := by
  rw [annotationText]
  simp only [if_pos h]
  rfl

theorem annotationText_of_lt {micros : UInt64} (h : lastCalendarMicro < micros.toNat) :
    annotationText micros = toString micros.toNat := by
  rw [annotationText]
  simp only [if_neg (Nat.not_le_of_lt h)]

namespace Moment

/-! ## when a moment is -/

theorem isReal_ofMicros (n : Nat) : (ofMicros n).IsReal := by
  have hday : n % microsPerDay < 86400000000 := Nat.mod_lt _ (by decide)
  exact
    { date := Date.isReal_ofDay _
      hour_lt := by show n % microsPerDay / 1000000 / 3600 < 24; omega
      minute_lt := Nat.mod_lt _ (by decide)
      second_lt := Nat.mod_lt _ (by decide)
      micro_lt := Nat.mod_lt _ (by decide) }

theorem sinceMidnight_ofMicros (n : Nat) : (ofMicros n).sinceMidnight = n % microsPerDay := by
  unfold ofMicros sinceMidnight
  generalize n % microsPerDay = inDay
  dsimp only
  omega

theorem micros_ofMicros (n : Nat) : (ofMicros n).micros = n := by
  have hcount : (ofMicros n).date.count = n / microsPerDay + daysTo1970 + 60 := Date.count_ofDay _
  rw [micros, hcount, sinceMidnight_ofMicros, epoch_count]
  unfold microsPerDay daysTo1970
  omega

theorem IsReal.sinceMidnight_lt {t : Moment} (h : t.IsReal) : t.sinceMidnight < 86400000000 := by
  have hhour := h.hour_lt
  have hminute := h.minute_lt
  have hsecond := h.second_lt
  have hmicro := h.micro_lt
  unfold sinceMidnight
  omega

/-- the earlier time of day has fewer hours, or as many and fewer minutes, and so on -/
theorem sinceMidnight_lt_iff {t u : Moment} (ht : t.IsReal) (hu : u.IsReal) :
    (t.hour < u.hour ∨ t.hour = u.hour ∧ (t.minute < u.minute ∨ t.minute = u.minute
      ∧ (t.second < u.second ∨ t.second = u.second ∧ t.micro < u.micro)))
      ↔ t.sinceMidnight < u.sinceMidnight := by
  have htMinute := ht.minute_lt
  have htSecond := ht.second_lt
  have htMicro := ht.micro_lt
  have huMinute := hu.minute_lt
  have huSecond := hu.second_lt
  have huMicro := hu.micro_lt
  unfold sinceMidnight
  omega

theorem micros_lt_of_date {t u : Moment} (ht : t.IsReal) (h : t.date.IsBefore u.date) :
    t.micros < u.micros := by
  have hcount := Date.count_lt_count ht.date h
  have hday := ht.sinceMidnight_lt
  unfold micros
  omega

/-- earlier moments are fewer microseconds after 1970 -/
theorem micros_lt_iff {t u : Moment} (ht : t.IsReal) (hu : u.IsReal) :
    t.micros < u.micros ↔ t.IsBefore u := by
  rcases Date.isBefore_or t.date u.date with hdate | hdate | hdate
  · exact ⟨fun _ => Or.inl hdate, fun _ => micros_lt_of_date ht hdate⟩
  · have hlt : t.micros < u.micros ↔ t.sinceMidnight < u.sinceMidnight := by
      unfold micros
      rw [hdate]
      omega
    rw [hlt, IsBefore, hdate]
    exact ⟨fun h => Or.inr ⟨rfl, h⟩, fun h => (h.resolve_left (Date.not_isBefore_self _)).2⟩
  · have hlt := micros_lt_of_date hu hdate
    refine ⟨fun h => absurd h (by omega), fun h => ?_⟩
    rcases h with h | ⟨h, -⟩
    · exact micros_lt_of_date ht h
    · rw [h] at hdate
      exact absurd hdate (Date.not_isBefore_self _)

/-- the years before another end where that begins -/
theorem IsReal.year_lt_iff {t : Moment} (h : t.IsReal) (y : Nat) :
    t.date.year < y ↔ t.micros < ((daysBeforeYear y : Int) - epoch.count) * 86400000000 := by
  have hday := h.sinceMidnight_lt
  unfold micros
  constructor
  · intro hlt
    have hcount := h.date.count_lt
    have hmono : daysBeforeYear (t.date.year + 1) ≤ daysBeforeYear y := daysBeforeYear_mono hlt
    omega
  · intro hlt
    by_contra hle
    have hmono : daysBeforeYear y ≤ daysBeforeYear t.date.year :=
      daysBeforeYear_mono (Nat.le_of_not_lt hle)
    have hcount : daysBeforeYear t.date.year ≤ t.date.count := t.date.daysBeforeYear_le_count
    omega

/-! ## the text of a moment -/

theorem text_toList (t : Moment) : t.text.toList =
    (yearText t.date.year).toList ++ '-' :: ((padded 2 t.date.month).toList
      ++ '-' :: ((padded 2 t.date.day).toList ++ ' ' :: '(' :: ((padded 2 t.hour).toList
      ++ ':' :: ((padded 2 t.minute).toList ++ ':' :: ((padded 2 t.second).toList
      ++ '.' :: ((padded 6 t.micro).toList ++ [')'])))))) := by
  have hdash : "-".toList = ['-'] := rfl
  have hopen : " (".toList = [' ', '('] := rfl
  have hcolon : ":".toList = [':'] := rfl
  have hpoint : ".".toList = ['.'] := rfl
  have hclose : ")".toList = [')'] := rfl
  simp only [text, String.toList_append, hdash, hopen, hcolon, hpoint, hclose, List.append_assoc,
    List.cons_append, List.nil_append]

end Moment

/-- the year of a stamp has four digits, and from ten thousand on a sign and all its digits -/
def yearLayout (y : Nat) : List Char :=
  if y < 10000 then "0000".toList else '+' :: List.replicate (toString y).length '0'

/-- the moment that is read from a stamp, which has seven numbers -/
def readMoment? (s : String) : Option Moment :=
  match numbers s.toList with
  | [year, month, day, hour, minute, second, micro] =>
    some ⟨⟨year, month, day⟩, hour, minute, second, micro⟩
  | _ => none

/-- a stamp has its digits in the places of a moment's year and of all that follows, and the moment is
read from it -/
structure Shows (s : String) (t : Moment) : Prop where
  layout : spaced s.toList = yearLayout t.date.year ++ "-00-00 (00:00:00.000000)".toList
  read : readMoment? s = some t

theorem spaced_yearText (y : Nat) : spaced (yearText y).toList = yearLayout y := by
  rw [yearText, yearLayout]
  by_cases h : y < 10000
  · rw [if_pos h, if_pos h]
    exact spaced_padded (by decide) h
  · rw [if_neg h, if_neg h, String.toList_append, spaced_append, (isNumeral_toString y).spaced,
      String.length_toList]
    rfl

theorem numbers_yearText (y : Nat) {c : Char} (hc : c.isDigit = false) (cs : List Char) :
    numbers ((yearText y).toList ++ c :: cs) = y :: numbers cs := by
  unfold yearText
  split
  · exact (isNumeral_padded 4 y).numbers hc cs
  · rw [String.toList_append]
    exact (numbers_cons rfl _).trans ((isNumeral_toString y).numbers hc cs)

namespace Moment

theorem numbers_text (t : Moment) : numbers t.text.toList =
    [t.date.year, t.date.month, t.date.day, t.hour, t.minute, t.second, t.micro] := by
  rw [text_toList, numbers_yearText _ rfl, (isNumeral_padded _ _).numbers rfl,
    (isNumeral_padded _ _).numbers rfl, numbers_cons rfl, (isNumeral_padded _ _).numbers rfl,
    (isNumeral_padded _ _).numbers rfl, (isNumeral_padded _ _).numbers rfl,
    (isNumeral_padded _ _).numbers rfl, numbers_nil]

/-- the date and the time of a real moment have no more digits than there are places for -/
theorem IsReal.lt_places {t : Moment} (h : t.IsReal) : t.date.month < 10 ^ 2
    ∧ t.date.day < 10 ^ 2 ∧ t.hour < 10 ^ 2 ∧ t.minute < 10 ^ 2 ∧ t.second < 10 ^ 2
    ∧ t.micro < 10 ^ 6 := by
  have hmonth := h.date.month_le
  have hday := h.date.day_le.trans (monthLength_le t.date.year t.date.month)
  have hhour := h.hour_lt
  have hminute := h.minute_lt
  have hsecond := h.second_lt
  exact ⟨by omega, by omega, by omega, by omega, by omega, h.micro_lt⟩

theorem IsReal.shows_text {t : Moment} (h : t.IsReal) : Shows t.text t := by
  obtain ⟨hmonth, hday, hhour, hminute, hsecond, hmicro⟩ := h.lt_places
  constructor
  · rw [text_toList, spaced_append, spaced_yearText]
    refine congrArg (yearLayout t.date.year ++ ·) ?_
    simp only [spaced_append, spaced_cons (c := '-') rfl, spaced_cons (c := ' ') rfl,
      spaced_cons (c := '(') rfl, spaced_cons (c := ':') rfl, spaced_cons (c := '.') rfl,
      spaced_cons (c := ')') rfl, spaced_padded (by decide) hmonth, spaced_padded (by decide) hday,
      spaced_padded (by decide) hhour, spaced_padded (by decide) hminute,
      spaced_padded (by decide) hsecond, spaced_padded (by decide) hmicro]
    rfl
  · rw [readMoment?, numbers_text]

/-- with years of four digits the smaller text is that of the earlier moment -/
theorem text_lt_iff {t u : Moment} (ht : t.IsReal) (hu : u.IsReal) (hty : t.date.year < 10000)
    (huy : u.date.year < 10000) : t.text < u.text ↔ t.IsBefore u := by
  have htYear : t.date.year < 10 ^ 4 := hty
  have huYear : u.date.year < 10 ^ 4 := huy
  obtain ⟨htMonth, htDay, htHour, htMinute, htSecond, htMicro⟩ := ht.lt_places
  obtain ⟨huMonth, huDay, huHour, huMinute, huSecond, huMicro⟩ := hu.lt_places
  have hdate : t.date = u.date ↔ t.date.year = u.date.year ∧ t.date.month = u.date.month
      ∧ t.date.day = u.date.day := by
    rw [← Date.mk.injEq]
  rw [String.lt_iff_toList_lt, text_toList, text_toList, yearText, yearText, if_pos hty, if_pos huy,
    padded_append_lt_iff (by decide) htYear huYear, padded_append_lt_iff (by decide) htMonth huMonth,
    padded_append_lt_iff (by decide) htDay huDay, List.cons_lt_cons_self,
    padded_append_lt_iff (by decide) htHour huHour, padded_append_lt_iff (by decide) htMinute huMinute,
    padded_append_lt_iff (by decide) htSecond huSecond, padded_append_lt_iff (by decide) htMicro huMicro]
  have hend : ¬ ([] : List Char) < [] := List.lt_irrefl _
  simp only [hend, and_false, or_false, sinceMidnight_lt_iff ht hu]
  simp only [IsBefore, Date.IsBefore, hdate, and_or_left, or_assoc, and_assoc]

end Moment

/-! ## the stamps of annotations -/

theorem readMoment?_toString (n : Nat) : readMoment? (toString n) = none := by
  rw [readMoment?, (isNumeral_toString n).numbers_self]

/-- a stamp for each number of microseconds -/
structure IsFaithful (stamp : UInt64 → String) : Prop where
  /-- it shows the moment so many microseconds after the start of 1970, up to the year 262142 -/
  shows : ∀ micros : UInt64, micros.toNat ≤ 8210266876799999999 →
    ∃ t : Moment, t.IsReal ∧ Shows (stamp micros) t ∧ t.micros = micros.toNat
  /-- and past that the number -/
  beyond : ∀ micros : UInt64, 8210266876799999999 < micros.toNat →
    stamp micros = toString micros.toNat
  injective : Function.Injective stamp
  /-- with years of four digits all stamps are of one length -/
  length : ∀ micros : UInt64, micros.toNat ≤ 253402300799999999 → (stamp micros).length = 28
  /-- and the earlier one has the smaller bytes -/
  order : ∀ a b : UInt64, a.toNat ≤ 253402300799999999 → b.toNat ≤ 253402300799999999 →
    (a < b ↔ utf8 (stamp a) < utf8 (stamp b))

theorem shows_annotationText {micros : UInt64} (h : micros.toNat ≤ lastCalendarMicro) :
    Shows (annotationText micros) (Moment.ofMicros micros.toNat) := by
  rw [annotationText_eq h]
  exact (Moment.isReal_ofMicros _).shows_text

theorem injective_annotationText : Function.Injective annotationText := by
  intro a b h
  have hread := congrArg readMoment? h
  rw [← UInt64.toNat_inj]
  rcases Nat.lt_or_ge lastCalendarMicro a.toNat with ha | ha <;>
    rcases Nat.lt_or_ge lastCalendarMicro b.toNat with hb | hb
  · rw [annotationText_of_lt ha, annotationText_of_lt hb] at h
    rw [← (isNumeral_toString a.toNat).value, h, (isNumeral_toString b.toNat).value]
  · rw [annotationText_of_lt ha, readMoment?_toString, (shows_annotationText hb).read] at hread
    cases hread
  · rw [annotationText_of_lt hb, readMoment?_toString, (shows_annotationText ha).read] at hread
    cases hread
  · rw [(shows_annotationText ha).read, (shows_annotationText hb).read] at hread
    have hmicros := congrArg Moment.micros (Option.some.inj hread)
    rw [Moment.micros_ofMicros, Moment.micros_ofMicros] at hmicros
    exact Int.ofNat_inj.mp hmicros

/-- the last microseconds of the year 9999 and of the last year of the calendar -/
theorem Moment.IsReal.year_le_iff {t : Moment} (h : t.IsReal) :
    (t.date.year ≤ 9999 ↔ t.micros ≤ 253402300799999999)
      ∧ (t.date.year ≤ 262142 ↔ t.micros ≤ 8210266876799999999) := by
  have hfourDays := daysBeforeYear_of_pos (y := 10000) (by decide)
  have hlastDays := daysBeforeYear_of_pos (y := 262143) (by decide)
  have hfour := h.year_lt_iff 10000
  have hlast := h.year_lt_iff 262143
  rw [epoch_count] at hfour hlast
  omega

theorem year_ofMicros_lt {n : Nat} (h : n ≤ 253402300799999999) :
    (Moment.ofMicros n).date.year < 10000 := by
  refine Nat.lt_succ_of_le ((Moment.isReal_ofMicros n).year_le_iff.1.mpr ?_)
  rw [Moment.micros_ofMicros]
  omega

/-- the stamps of annotations are faithful, over all the years of the calendar -/
theorem annotationText_faithful :
    IsFaithful annotationText
      ∧ ∀ t : Moment, t.IsReal → (t.date.year ≤ 9999 ↔ t.micros ≤ 253402300799999999)
        ∧ (t.date.year ≤ 262142 ↔ t.micros ≤ 8210266876799999999) := by
  have hle {n : Nat} (h : n ≤ 253402300799999999) : n ≤ lastCalendarMicro :=
    Nat.le_trans h (by decide)
  refine ⟨⟨fun micros h => ?_, fun micros h => annotationText_of_lt h, injective_annotationText,
    fun micros h => ?_, fun a b ha hb => ?_⟩, fun t ht => ht.year_le_iff⟩
  · exact ⟨Moment.ofMicros micros.toNat, Moment.isReal_ofMicros _, shows_annotationText h,
      Moment.micros_ofMicros _⟩
  · have hlayout := (shows_annotationText (hle h)).layout
    rw [yearLayout, if_pos (year_ofMicros_lt h)] at hlayout
    rw [← String.length_toList, ← length_spaced, hlayout]
    rfl
  · rw [utf8_lt_iff, annotationText_eq (hle ha), annotationText_eq (hle hb),
      Moment.text_lt_iff (Moment.isReal_ofMicros _) (Moment.isReal_ofMicros _) (year_ofMicros_lt ha)
        (year_ofMicros_lt hb),
      ← Moment.micros_lt_iff (Moment.isReal_ofMicros _) (Moment.isReal_ofMicros _),
      Moment.micros_ofMicros, Moment.micros_ofMicros, UInt64.lt_iff_toNat_lt, Int.ofNat_lt]

/-- a leap day that ends a century, the last stamp with a date and the first without one -/
theorem annotationText_faithful_leap_day :
    let leapDay : UInt64 := 951825600000000
    let later : UInt64 := 1472470996199001
    let last : UInt64 := 8210266876799999999
    (∃ t : Moment, t.IsReal ∧ Shows "2000-02-29 (12:00:00.000000)" t ∧ t.micros = leapDay.toNat)
      ∧ utf8 "2000-02-29 (12:00:00.000000)" < utf8 "2016-08-29 (11:43:16.199001)"
      ∧ (∃ t : Moment, t.IsReal ∧ Shows "+262142-12-31 (23:59:59.999999)" t ∧ t.micros = last.toNat)
      ∧ annotationText (last + 1) = "8210266876800000000"
      ∧ annotationText leapDay ≠ annotationText later ∧ (annotationText later).length = 28 := by
  intro leapDay later last
  obtain ⟨hfaithful, -⟩ := annotationText_faithful
  have hleapDay : annotationText leapDay = "2000-02-29 (12:00:00.000000)" := by decide +kernel
  have hlater : annotationText later = "2016-08-29 (11:43:16.199001)" := by decide +kernel
  have hlast : annotationText last = "+262142-12-31 (23:59:59.999999)" := by decide +kernel
  refine ⟨hleapDay ▸ hfaithful.shows leapDay (by decide), ?_, hlast ▸ hfaithful.shows last (by decide),
    (hfaithful.beyond (last + 1) (by decide)).trans (by decide +kernel),
    fun h => absurd (hfaithful.injective h) (by decide), hfaithful.length later (by decide)⟩
  rw [← hleapDay, ← hlater]
  exact (hfaithful.order leapDay later (by decide) (by decide)).mp (by decide)

end SpanCourier
