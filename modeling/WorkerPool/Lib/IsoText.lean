import Mathlib
import WorkerPool.Lib.Calendar

/-!
# The ISO text of an instant

Reading the text back gives the instant. Comparing two texts compares the instants, except
within one second when one of the two has no fraction: the text without a fraction goes on
with `Z`, which is greater than the point before a fraction.
-/

namespace Calendar

/-! ### Lexicographic order of texts of equal width -/

section Widths

variable {α : Type} [LinearOrder α]

theorem append_lt_append_iff {xs ys u v : List α} (width : xs.length = ys.length) :
    xs ++ u < ys ++ v ↔ xs < ys ∨ xs = ys ∧ u < v := by
  induction xs generalizing ys with
  | nil =>
    obtain rfl := List.eq_nil_of_length_eq_zero width.symm
    simp
  | cons x xs ih =>
    cases ys with
    | nil => cases width
    | cons y ys =>
      rw [List.cons_append, List.cons_append, List.cons_lt_cons_iff, List.cons_lt_cons_iff,
        ih (Nat.succ.inj width), List.cons_eq_cons]
      tauto

end Widths

/-! ### Digits -/

theorem digitChar_toNat (n : Nat) : (digitChar n).toNat = 48 + n % 10 := by
  unfold digitChar
  have digit : n % 10 < 10 := Nat.mod_lt _ (by decide)
  generalize n % 10 = d at digit
  interval_cases d <;> rfl

theorem digitChar_lt_iff {m n : Nat} : digitChar m < digitChar n ↔ m % 10 < n % 10 := by
  have order : digitChar m < digitChar n ↔ (digitChar m).toNat < (digitChar n).toNat := Iff.rfl
  rw [order, digitChar_toNat, digitChar_toNat]
  omega

theorem length_padded (width n : Nat) : (padded width n).length = width := by
  induction width generalizing n with
  | zero => rfl
  | succ width ih => rw [padded, List.length_append, ih, List.length_singleton]

theorem padded_lt_iff {width m n : Nat} (hm : m < 10 ^ width) (hn : n < 10 ^ width) :
    padded width m < padded width n ↔ m < n := by
  induction width generalizing m n with
  | zero =>
    simp only [pow_zero, Nat.lt_one_iff] at hm hn
    simp [padded, hm, hn]
  | succ width ih =>
    have small : ∀ {k : Nat}, k < 10 ^ (width + 1) → k / 10 < 10 ^ width := by
      intro k hk
      rw [pow_succ] at hk
      omega
    have lower := ih (small hm) (small hn)
    have upper := ih (small hn) (small hm)
    have same : padded width (m / 10) = padded width (n / 10) ↔ m / 10 = n / 10 := by
      constructor
      · intro same
        rw [same] at lower upper
        simp only [lt_self_iff_false, false_iff] at lower upper
        omega
      · intro same
        rw [same]
    rw [padded, padded, append_lt_append_iff (by rw [length_padded, length_padded]), lower, same,
      List.cons_lt_cons_iff, digitChar_lt_iff]
    simp only [List.not_lt_nil, and_false, or_false]
    omega

theorem padded_inj {width m n : Nat} (hm : m < 10 ^ width) (hn : n < 10 ^ width) :
    padded width m = padded width n ↔ m = n := by
  constructor
  · intro same
    have lower := padded_lt_iff hm hn
    have upper := padded_lt_iff hn hm
    rw [same] at lower upper
    simp only [lt_self_iff_false, false_iff] at lower upper
    omega
  · intro same
    rw [same]

/-- A field of fixed width is compared first. -/
theorem padded_append_lt_iff {width m n : Nat} {u v : List Char} (hm : m < 10 ^ width)
    (hn : n < 10 ^ width) :
    padded width m ++ u < padded width n ++ v ↔ m < n ∨ m = n ∧ u < v := by
  rw [append_lt_append_iff (by rw [length_padded, length_padded]), padded_lt_iff hm hn,
    padded_inj hm hn]

theorem readDigits_append (cs : List Char) (c : Char) :
    readDigits (cs ++ [c]) = (readDigits cs).bind fun n =>
      if '0' ≤ c ∧ c ≤ '9' then some (n * 10 + (c.toNat - 48)) else none := by
  rw [readDigits, List.foldl_append]
  rfl

theorem readDigits_padded (width n : Nat) : readDigits (padded width n) = some (n % 10 ^ width) := by
  induction width generalizing n with
  | zero => simp [padded, readDigits, Nat.mod_one]
  | succ width ih =>
    have digit : '0' ≤ digitChar n ∧ digitChar n ≤ '9' := by
      have low : '0' ≤ digitChar n ↔ 48 ≤ (digitChar n).toNat := Iff.rfl
      have high : digitChar n ≤ '9' ↔ (digitChar n).toNat ≤ 57 := Iff.rfl
      rw [low, high, digitChar_toNat]
      omega
    rw [padded, readDigits_append, ih, Option.bind_some, if_pos digit, digitChar_toNat, pow_succ,
      Nat.mul_comm (10 ^ width) 10, Nat.mod_mul]
    congr 1
    omega

/-! ### Dates -/

/-- A year, a month and a day of the calendar. -/
structure IsDate (year month day : Nat) : Prop where
  era : 1 ≤ year
  january : 1 ≤ month
  december : month ≤ 12
  first : 1 ≤ day
  last : day ≤ daysInMonth year month

def ordinal (year month day : Nat) : Nat :=
  daysBeforeYear year + daysBeforeMonth year month + (day - 1)

theorem daysBeforeMonth_succ (year : Nat) {month : Nat} (h : 1 ≤ month) :
    daysBeforeMonth year (month + 1) = daysBeforeMonth year month + daysInMonth year month := by
  obtain ⟨m, rfl⟩ := Nat.exists_eq_add_of_le' h
  simp only [daysBeforeMonth, Nat.add_sub_cancel, List.range_succ, List.map_append, List.sum_append,
    List.map_singleton, List.sum_singleton]

theorem daysBeforeMonth_mono (year : Nat) {month month' : Nat} (h : 1 ≤ month)
    (later : month ≤ month') : daysBeforeMonth year month ≤ daysBeforeMonth year month' := by
  induction month', later using Nat.le_induction with
  | base => exact Nat.le_refl _
  | succ month' later ih =>
    rw [daysBeforeMonth_succ year (Nat.le_trans h later)]
    omega

theorem daysBeforeMonth_thirteen (year : Nat) :
    daysBeforeMonth year 13 = if isLeap year then 366 else 365 := by
  cases h : isLeap year <;> simp [daysBeforeMonth, daysInMonth, List.range_succ, h]

theorem isLeap_iff (year : Nat) :
    isLeap year = true ↔ year % 4 = 0 ∧ (year % 100 ≠ 0 ∨ year % 400 = 0) := by
  simp [isLeap]

theorem daysBeforeYear_succ {year : Nat} (h : 1 ≤ year) :
    daysBeforeYear (year + 1) = daysBeforeYear year + daysBeforeMonth year 13 := by
  obtain ⟨y, rfl⟩ := Nat.exists_eq_add_of_le' h
  have leap := isLeap_iff (y + 1)
  rw [daysBeforeMonth_thirteen]
  simp only [daysBeforeYear, Nat.add_sub_cancel]
  by_cases h4 : (y + 1) % 4 = 0
  · by_cases h400 : (y + 1) % 400 = 0
    · rw [if_pos (leap.mpr ⟨h4, .inr h400⟩)]
      omega
    · by_cases h100 : (y + 1) % 100 = 0
      · rw [if_neg fun yes => (leap.mp yes).2.elim (fun no => no h100) h400]
        omega
      · rw [if_pos (leap.mpr ⟨h4, .inl h100⟩)]
        omega
  · rw [if_neg fun yes => h4 (leap.mp yes).1]
    omega

theorem daysBeforeYear_mono {year year' : Nat} (h : 1 ≤ year) (later : year ≤ year') :
    daysBeforeYear year ≤ daysBeforeYear year' := by
  induction year', later using Nat.le_induction with
  | base => exact Nat.le_refl _
  | succ year' later ih =>
    rw [daysBeforeYear_succ (Nat.le_trans h later)]
    omega

theorem IsDate.day_le {year month day : Nat} (h : IsDate year month day) : day ≤ 31 := by
  refine h.last.trans ?_
  unfold daysInMonth
  split
  · split <;> decide
  · split <;> decide

/-- A date lies before the first of the next month. -/
theorem IsDate.lt_month {year month day : Nat} (h : IsDate year month day) :
    daysBeforeMonth year month + (day - 1) < daysBeforeMonth year (month + 1) := by
  have first := h.first
  have last := h.last
  rw [daysBeforeMonth_succ year h.january]
  omega

theorem IsDate.lt_year {year month day : Nat} (h : IsDate year month day) :
    ordinal year month day < daysBeforeYear (year + 1) := by
  have before := h.lt_month
  have december := h.december
  have within := daysBeforeMonth_mono year (by omega : 1 ≤ month + 1) (by omega : month + 1 ≤ 13)
  rw [ordinal, daysBeforeYear_succ h.era]
  omega

/-- Dates in the order of their fields are in the order of their days. -/
theorem IsDate.ordinal_lt {year month day year' month' day' : Nat} (h : IsDate year month day)
    (earlier : year < year' ∨ year = year' ∧ (month < month' ∨ month = month' ∧ day < day')) :
    ordinal year month day < ordinal year' month' day' := by
  rcases earlier with years | ⟨rfl, months | ⟨rfl, days⟩⟩
  · have before := h.lt_year
    have start := daysBeforeYear_mono (by omega : 1 ≤ year + 1) years
    have after : daysBeforeYear year' ≤ ordinal year' month' day' := by
      unfold ordinal
      omega
    omega
  · have before := h.lt_month
    have start := daysBeforeMonth_mono year (by omega : 1 ≤ month + 1) months
    unfold ordinal
    omega
  · have first := h.first
    unfold ordinal
    omega

/-- The days of the months are split off one after the other. -/
theorem monthAndDay_spec (year : Nat) {fuel month day : Nat} (january : 1 ≤ month)
    (december : month + fuel = 12)
    (within : daysBeforeMonth year month + day < daysBeforeMonth year 13) :
    ∃ m d, monthAndDay year fuel month day = (m, d) ∧ 1 ≤ m ∧ m ≤ 12 ∧ 1 ≤ d ∧
      d ≤ daysInMonth year m ∧
      daysBeforeMonth year m + d = daysBeforeMonth year month + day + 1 := by
  induction fuel generalizing month day with
  | zero =>
    obtain rfl : month = 12 := december
    have last : daysBeforeMonth year 13 = daysBeforeMonth year 12 + daysInMonth year 12 :=
      daysBeforeMonth_succ year (by decide)
    exact ⟨12, day + 1, rfl, by omega⟩
  | succ fuel ih =>
    have next := daysBeforeMonth_succ year january
    rw [monthAndDay]
    by_cases here : day < daysInMonth year month
    · rw [if_pos here]
      exact ⟨month, day + 1, rfl, by omega⟩
    · rw [if_neg here]
      obtain ⟨m, d, split, low, high, first, last, same⟩ :=
        ih (Nat.le_add_left 1 month) (by omega) (by omega : daysBeforeMonth year (month + 1) +
          (day - daysInMonth year month) < daysBeforeMonth year 13)
      exact ⟨m, d, split, low, high, first, last, by omega⟩

/-- The first of January after whole cycles of 400, 100 and 4 years and further years. -/
theorem daysBeforeYear_cycles (n400 : Nat) {n100 n4 n1 : Nat} (h100 : n100 ≤ 3) (h4 : n4 ≤ 24)
    (h1 : n1 ≤ 3) : daysBeforeYear (n400 * 400 + n100 * 100 + n4 * 4 + n1 + 1) =
      n400 * 146097 + n100 * 36524 + n4 * 1461 + n1 * 365 := by
  simp only [daysBeforeYear, Nat.add_sub_cancel]
  omega

/-- The last of December is the day before the first of January. -/
theorem newYearsEve {year : Nat} (h : 1 ≤ year) :
    IsDate year 12 31 ∧ ordinal year 12 31 + 1 = daysBeforeYear (year + 1) := by
  have december : daysBeforeMonth year 13 = daysBeforeMonth year 12 + daysInMonth year 12 :=
    daysBeforeMonth_succ year (by decide)
  have days : daysInMonth year 12 = 31 := rfl
  refine ⟨⟨h, by decide, by decide, by decide, by omega⟩, ?_⟩
  rw [ordinal, daysBeforeYear_succ h, december]
  omega

/-- The civil date of a day number is the date of that day. -/
theorem civil_spec (days : Nat) : ∃ year month day, civil days = (year, month, day) ∧
    IsDate year month day ∧ ordinal year month day = days := by
  unfold civil
  simp only
  have h400 := Nat.div_add_mod days 146097
  have l400 := Nat.mod_lt days (by decide : 146097 > 0)
  generalize days / 146097 = n400 at *
  generalize days % 146097 = r400 at *
  have h100 := Nat.div_add_mod r400 36524
  have l100 := Nat.mod_lt r400 (by decide : 36524 > 0)
  generalize r400 / 36524 = n100 at *
  generalize r400 % 36524 = r100 at *
  have h4 := Nat.div_add_mod r100 1461
  have l4 := Nat.mod_lt r100 (by decide : 1461 > 0)
  generalize r100 / 1461 = n4 at *
  generalize r100 % 1461 = r4 at *
  have h1 := Nat.div_add_mod r4 365
  have l1 := Nat.mod_lt r4 (by decide : 365 > 0)
  generalize r4 / 365 = n1 at *
  generalize r4 % 365 = r1 at *
  by_cases leapDay : n1 = 4 ∨ n100 = 4
  · obtain ⟨date, eve⟩ := newYearsEve (by omega : 1 ≤ n400 * 400 + n100 * 100 + n4 * 4 + n1)
    rw [if_pos leapDay, Nat.add_sub_cancel]
    refine ⟨_, 12, 31, rfl, date, ?_⟩
    rcases leapDay with rfl | rfl
    · have next := daysBeforeYear_cycles n400 (by omega : n100 ≤ 3) (by omega : n4 + 1 ≤ 24)
        (by decide : 0 ≤ 3)
      have same : n400 * 400 + n100 * 100 + n4 * 4 + 4 + 1 =
        n400 * 400 + n100 * 100 + (n4 + 1) * 4 + 0 + 1 := by omega
      rw [same, next] at eve
      omega
    · have next := daysBeforeYear_cycles (n400 + 1) (by decide : 0 ≤ 3) (by decide : 0 ≤ 24)
        (by decide : 0 ≤ 3)
      obtain ⟨rfl, rfl⟩ : n4 = 0 ∧ n1 = 0 := by omega
      have same : n400 * 400 + 4 * 100 + 0 * 4 + 0 + 1 =
        (n400 + 1) * 400 + 0 * 100 + 0 * 4 + 0 + 1 := by omega
      rw [same, next] at eve
      omega
  · have start := daysBeforeYear_cycles n400 (by omega : n100 ≤ 3) (by omega : n4 ≤ 24)
      (by omega : n1 ≤ 3)
    have era : 1 ≤ n400 * 400 + n100 * 100 + n4 * 4 + n1 + 1 := by omega
    rw [if_neg leapDay]
    obtain ⟨year, whole⟩ : ∃ year, n400 * 400 + n100 * 100 + n4 * 4 + n1 + 1 = year := ⟨_, rfl⟩
    rw [whole] at start era ⊢
    have january : daysBeforeMonth year 1 = 0 := rfl
    have within : daysBeforeMonth year 1 + r1 < daysBeforeMonth year 13 := by
      rw [daysBeforeMonth_thirteen]
      split <;> omega
    obtain ⟨month, day, found, low, high, first, last, same⟩ :=
      monthAndDay_spec year (Nat.le_refl 1) (rfl : 1 + 11 = 12) within
    rw [found]
    refine ⟨year, month, day, rfl, ⟨era, low, high, first, last⟩, ?_⟩
    unfold ordinal
    omega

/-- The years of the calendar have four digits. -/
theorem civil_year {days : Nat} (h : days < calendarDays) : (civil days).1 < 10000 := by
  obtain ⟨year, month, day, civil, date, same⟩ := civil_spec days
  rw [civil]
  by_contra late
  have after : daysBeforeYear 10000 ≤ daysBeforeYear year :=
    daysBeforeYear_mono (by decide) (Nat.le_of_not_lt late)
  have bound : daysBeforeYear 10000 = calendarDays := rfl
  unfold ordinal at same
  omega

/-! ### Reading the text back -/

/-- The text up to the seconds. -/
def stampChars (seconds : Nat) : List Char :=
  let (year, month, day) := civil (seconds / secondsPerDay)
  let clock := seconds % secondsPerDay
  padded 4 year ++ '-' :: (padded 2 month ++ '-' :: (padded 2 day ++ 'T' ::
    (padded 2 (clock / 3600) ++ ':' :: (padded 2 (clock % 3600 / 60) ++ ':' ::
      padded 2 (clock % 60)))))

/-- The text from the seconds on. -/
def fractionChars (fraction : Nat) : List Char :=
  if fraction = 0 then ['Z'] else '.' :: (padded 6 fraction ++ ['Z'])

theorem isoChars_eq (t : Instant) : isoChars t =
    stampChars (t.micros / microsPerSecond) ++ fractionChars (t.micros % microsPerSecond) := by
  unfold isoChars stampChars fractionChars
  simp only [List.append_assoc, List.cons_append]
  split <;> simp

theorem readFraction_fractionChars {fraction : Nat} (h : fraction < microsPerSecond) :
    readFraction (fractionChars fraction) = some fraction := by
  unfold fractionChars
  split
  · rename_i zero
    rw [zero]
    rfl
  · have read := readDigits_padded 6 fraction
    rw [Nat.mod_eq_of_lt (show fraction < 10 ^ 6 from h)] at read
    exact read

theorem readDigits_field {width n : Nat} (h : n < 10 ^ width) :
    readDigits (padded width n) = some n := by
  rw [readDigits_padded, Nat.mod_eq_of_lt h]

theorem readClock_padded {hour minute second : Nat} (h : hour < 24) (m : minute < 60)
    (s : second < 60) {h1 h2 n1 n2 s1 s2 : Char} (hours : padded 2 hour = [h1, h2])
    (minutes : padded 2 minute = [n1, n2]) (seconds : padded 2 second = [s1, s2]) :
    readClock h1 h2 n1 n2 s1 s2 = some (hour * 3600 + minute * 60 + second) := by
  have bound : ∀ {n : Nat}, n < 60 → n < 10 ^ 2 := fun hn => by omega
  rw [readClock, ← hours, ← minutes, ← seconds, readDigits_field (bound (by omega)),
    readDigits_field (bound m), readDigits_field (bound s)]
  exact if_pos ⟨h, m, s⟩

theorem ofCivil?_ordinal {year month day clock fraction : Nat} (date : IsDate year month day) :
    ofCivil? year month day clock fraction = Instant.ofMicros?
      ((ordinal year month day * secondsPerDay + clock) * microsPerSecond + fraction) :=
  if_pos ⟨date.era, date.january, date.december, date.first, date.last⟩

/-- What is read of a text with every field in its place. -/
theorem parseIso_fields {year month day hour minute second fraction : Nat} (y : year < 10000)
    (date : IsDate year month day) (h : hour < 24) (m : minute < 60) (s : second < 60)
    (f : fraction < microsPerSecond) :
    parseIso (String.ofList (padded 4 year ++ '-' :: (padded 2 month ++ '-' :: (padded 2 day ++ 'T' ::
      (padded 2 hour ++ ':' :: (padded 2 minute ++ ':' :: (padded 2 second ++
        fractionChars fraction))))))) =
      Instant.ofMicros? ((ordinal year month day * secondsPerDay +
        (hour * 3600 + minute * 60 + second)) * microsPerSecond + fraction) := by
  have two : ∀ n, ∃ a b, padded 2 n = [a, b] := fun _ => ⟨_, _, rfl⟩
  obtain ⟨y1, y2, y3, y4, years⟩ : ∃ a b c d, padded 4 year = [a, b, c, d] := ⟨_, _, _, _, rfl⟩
  obtain ⟨m1, m2, months⟩ := two month
  obtain ⟨d1, d2, days⟩ := two day
  obtain ⟨h1, h2, hours⟩ := two hour
  obtain ⟨n1, n2, minutes⟩ := two minute
  obtain ⟨s1, s2, seconds⟩ := two second
  have readYear : readDigits [y1, y2, y3, y4] = some year := years ▸ readDigits_field y
  have readMonth : readDigits [m1, m2] = some month := by
    have december := date.december
    exact months ▸ readDigits_field (by omega)
  have readDay : readDigits [d1, d2] = some day := by
    have most := date.day_le
    exact days ▸ readDigits_field (by omega)
  rw [years, months, days, hours, minutes, seconds, parseIso, String.toList_ofList]
  simp only [List.cons_append, List.nil_append]
  rw [readYear, readMonth, readDay, readClock_padded h m s hours minutes seconds,
    readFraction_fractionChars f]
  exact ofCivil?_ordinal date

theorem Instant.ext_iff (a b : Instant) : a = b ↔ a.micros = b.micros := by
  constructor
  · intro same
    rw [same]
  · intro same
    cases a
    cases b
    cases same
    rfl

theorem Instant.ofMicros?_micros (t : Instant) : Instant.ofMicros? t.micros = some t :=
  dif_pos t.inCalendar

/-- The day of an instant is in the calendar. -/
theorem Instant.day_lt (t : Instant) :
    t.micros / microsPerSecond / secondsPerDay < calendarDays := by
  have bound := t.inCalendar
  rw [Nat.div_div_eq_div_mul, Nat.div_lt_iff_lt_mul (by decide)]
  rw [Nat.mul_assoc] at bound
  rwa [Nat.mul_comm microsPerSecond]

/-- The text of an instant reads back as that instant. -/
theorem parseIso_iso (t : Instant) : parseIso (iso t) = some t := by
  obtain ⟨year, month, day, civil, date, same⟩ :=
    civil_spec (t.micros / microsPerSecond / secondsPerDay)
  have four := civil_year t.day_lt
  rw [civil] at four
  have clock : t.micros / microsPerSecond % secondsPerDay < 86400 := Nat.mod_lt _ (by decide)
  have fraction : t.micros % microsPerSecond < microsPerSecond := Nat.mod_lt _ (by decide)
  rw [iso, isoChars_eq, stampChars, civil]
  simp only [List.append_assoc, List.cons_append]
  rw [parseIso_fields four date (by omega) (by omega) (by omega) fraction, same]
  have days := Nat.div_add_mod (t.micros / microsPerSecond) secondsPerDay
  have seconds := Nat.div_add_mod t.micros microsPerSecond
  have total : (t.micros / microsPerSecond / secondsPerDay * secondsPerDay +
      (t.micros / microsPerSecond % secondsPerDay / 3600 * 3600 +
        t.micros / microsPerSecond % secondsPerDay % 3600 / 60 * 60 +
        t.micros / microsPerSecond % secondsPerDay % 60)) * microsPerSecond +
      t.micros % microsPerSecond = t.micros := by
    unfold microsPerSecond secondsPerDay at *
    omega
  rw [total]
  exact t.ofMicros?_micros

theorem iso_ne_empty (t : Instant) : iso t ≠ "" := by
  intro empty
  have read := parseIso_iso t
  rw [empty] at read
  cases read

/-! ### Comparing the texts -/

theorem IsDate.ordinal_lt_iff {year month day year' month' day' : Nat} (h : IsDate year month day)
    (h' : IsDate year' month' day') :
    ordinal year month day < ordinal year' month' day' ↔
      year < year' ∨ year = year' ∧ (month < month' ∨ month = month' ∧ day < day') := by
  constructor
  · intro days
    by_contra no
    by_cases same : year = year' ∧ month = month' ∧ day = day'
    · obtain ⟨rfl, rfl, rfl⟩ := same
      omega
    · have back : ordinal year' month' day' < ordinal year month day := by
        refine h'.ordinal_lt ?_
        omega
      omega
  · exact h.ordinal_lt

theorem cons_lt_cons_same {c : Char} {u v : List Char} : c :: u < c :: v ↔ u < v := by
  rw [List.cons_lt_cons_iff]
  simp

/-- Texts up to the seconds are in the order of the seconds. -/
theorem stampChars_lt_iff {s s' : Nat} (h : s / secondsPerDay < calendarDays)
    (h' : s' / secondsPerDay < calendarDays) : stampChars s < stampChars s' ↔ s < s' := by
  obtain ⟨year, month, day, civil, date, same⟩ := civil_spec (s / secondsPerDay)
  obtain ⟨year', month', day', civil', date', same'⟩ := civil_spec (s' / secondsPerDay)
  have four := civil_year h
  have four' := civil_year h'
  rw [civil] at four
  rw [civil'] at four'
  have two : ∀ {n : Nat}, n < 60 → n < 10 ^ 2 := fun hn => by omega
  have most := date.december
  have most' := date'.december
  have longest := date.day_le
  have longest' := date'.day_le
  have clock : s % secondsPerDay < 86400 := Nat.mod_lt _ (by decide)
  have clock' : s' % secondsPerDay < 86400 := Nat.mod_lt _ (by decide)
  rw [stampChars, stampChars, civil, civil']
  simp only
  rw [padded_append_lt_iff four four', cons_lt_cons_same,
    padded_append_lt_iff (two (by omega)) (two (by omega)), cons_lt_cons_same,
    padded_append_lt_iff (two (by omega)) (two (by omega)), cons_lt_cons_same,
    padded_append_lt_iff (two (by omega)) (two (by omega)), cons_lt_cons_same,
    padded_append_lt_iff (two (by omega)) (two (by omega)), cons_lt_cons_same,
    padded_lt_iff (two (by omega)) (two (by omega))]
  have dates := date.ordinal_lt_iff date'
  have dates' := date'.ordinal_lt_iff date
  rw [same, same'] at dates dates'
  unfold secondsPerDay at *
  omega

theorem length_stampChars (s : Nat) : (stampChars s).length = 19 := by
  unfold stampChars
  simp [length_padded]

/-- A fraction comes before none, and fractions come in their order. -/
theorem fractionChars_lt_iff {f f' : Nat} (h : f < microsPerSecond) (h' : f' < microsPerSecond) :
    fractionChars f < fractionChars f' ↔ f ≠ 0 ∧ (f' = 0 ∨ f < f') := by
  unfold fractionChars
  by_cases whole : f = 0
  · rw [if_pos whole]
    by_cases whole' : f' = 0
    · rw [if_pos whole']
      simp [whole]
    · rw [if_neg whole', List.cons_lt_cons_iff]
      have after : ¬ 'Z' < '.' ∧ 'Z' ≠ '.' := by decide
      simp [whole, after.1, after.2]
  · rw [if_neg whole]
    by_cases whole' : f' = 0
    · rw [if_pos whole', List.cons_lt_cons_iff]
      have before : '.' < 'Z' := by decide
      simp [whole, whole', before]
    · rw [if_neg whole', cons_lt_cons_same, padded_append_lt_iff h h']
      simp [whole, whole']

/-- The two instants lie within one second, and just one of them has no fraction. -/
def Garbled (a b : Instant) : Prop :=
  a.micros / microsPerSecond = b.micros / microsPerSecond ∧ a ≠ b ∧
    (a.micros % microsPerSecond = 0 ∨ b.micros % microsPerSecond = 0)

theorem isoChars_lt_iff (a b : Instant) : isoChars a < isoChars b ↔
    a.micros / microsPerSecond < b.micros / microsPerSecond ∨
      a.micros / microsPerSecond = b.micros / microsPerSecond ∧
        a.micros % microsPerSecond ≠ 0 ∧ (b.micros % microsPerSecond = 0 ∨
          a.micros % microsPerSecond < b.micros % microsPerSecond) := by
  have order := stampChars_lt_iff a.day_lt b.day_lt
  have back := stampChars_lt_iff b.day_lt a.day_lt
  have same : stampChars (a.micros / microsPerSecond) = stampChars (b.micros / microsPerSecond) ↔
      a.micros / microsPerSecond = b.micros / microsPerSecond := by
    constructor
    · intro same
      rw [same] at order back
      simp only [lt_self_iff_false, false_iff] at order back
      omega
    · intro same
      rw [same]
  rw [isoChars_eq, isoChars_eq, append_lt_append_iff (by rw [length_stampChars, length_stampChars]),
    order, same,
    fractionChars_lt_iff (Nat.mod_lt _ (by decide)) (Nat.mod_lt _ (by decide))]

/-- The texts are in the order of the instants unless they are garbled. -/
theorem iso_le_iff (a b : Instant) : (iso a ≤ iso b ↔ a ≤ b) ↔ ¬ Garbled a b := by
  have text : iso a ≤ iso b ↔ ¬ isoChars b < isoChars a := by
    rw [← not_lt, String.lt_iff_toList_lt, iso, iso, String.toList_ofList, String.toList_ofList]
  have instants : a ≤ b ↔ a.micros ≤ b.micros := Iff.rfl
  have differ : a ≠ b ↔ a.micros ≠ b.micros := not_congr (Instant.ext_iff a b)
  rw [text, isoChars_lt_iff, instants, Garbled, differ]
  unfold microsPerSecond
  omega

theorem Instant.ofMicros?_eq_some_iff {n : Nat} {u : Instant} :
    Instant.ofMicros? n = some u ↔ u.micros = n := by
  constructor
  · intro made
    unfold Instant.ofMicros? at made
    split at made
    · cases made
      rfl
    · cases made
  · rintro rfl
    exact u.ofMicros?_micros

/-- A shift back in time, where the calendar reaches that far. -/
theorem Instant.shift?_back {t u : Instant} {seconds : Nat} :
    t.shift? (-seconds) = some u ↔ u.micros + seconds * microsPerSecond = t.micros := by
  simp only [Instant.shift?]
  by_cases within : 0 ≤ (t.micros : Int) + -(seconds : Int) * (microsPerSecond : Int)
  · rw [if_pos within, Instant.ofMicros?_eq_some_iff]
    unfold microsPerSecond at *
    omega
  · rw [if_neg within]
    unfold microsPerSecond at *
    simp only [reduceCtorEq, false_iff]
    omega

end Calendar
