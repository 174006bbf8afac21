import PayFormula.Calendar

/-!
# Dates and times as they are read

A date or a time that was read prints as the text it was read from. The other
way round, every day of the calendar within bounds and every minute of the day
is read from what is printed for it. So nothing else is read: a literal is
accepted just if it is printed for such a day or minute. The days are those of
the calendar as it is hung on a wall, a list of months for each year, and the
bounds are two of these days in the order of time.
-/
namespace PayFormula

open Calendar

theorem Calendar.digit?_eq_some {c : Char} {n : Nat} (h : digit? c = some n) :
    n < 10 ∧ digitChar n = c := by
  unfold digit? at h
  split at h
  · rename_i hc
    have hn : c.toNat - 48 = n := Option.some.inj h
    have hbounds : 48 ≤ c.toNat ∧ c.toNat ≤ 57 := by
      simpa [Char.isDigit, UInt32.le_iff_toNat_le] using hc
    refine ⟨by omega, ?_⟩
    have hdigit : '0'.toNat + n % 10 = c.toNat := by
      change 48 + n % 10 = c.toNat
      omega
    rw [digitChar, hdigit, Char.ofNat_toNat]
  · cases h

theorem Calendar.digitChar_mod (n : Nat) : digitChar (n % 10) = digitChar n := by
  rw [digitChar, digitChar, Nat.mod_mod]

theorem Calendar.pair?_eq_some {c d : Char} {n : Nat} (h : pair? c d = some n) :
    n < 100 ∧ writePair n = [c, d] := by
  unfold pair? at h
  obtain ⟨high, hhigh, h⟩ := Option.bind_eq_some_iff.mp h
  obtain ⟨low, hlow, hpure⟩ := Option.bind_eq_some_iff.mp h
  obtain ⟨hh, rfl⟩ := digit?_eq_some hhigh
  obtain ⟨hl, rfl⟩ := digit?_eq_some hlow
  have hn : 10 * high + low = n := Option.some.inj hpure
  have hdiv : n / 10 = high := by omega
  have hmod : n % 10 = low := by omega
  exact ⟨by omega, by rw [writePair, hdiv, ← digitChar_mod n, hmod]⟩

theorem Date.chars_of_fields {text : List Char} {d : Date} (h : fields? text = some d) :
    d.chars = text := by
  unfold fields? at h
  split at h
  · obtain ⟨century, hc, h⟩ := Option.bind_eq_some_iff.mp h
    obtain ⟨year, hy, h⟩ := Option.bind_eq_some_iff.mp h
    obtain ⟨month, hm, h⟩ := Option.bind_eq_some_iff.mp h
    obtain ⟨day, hd, h⟩ := Option.bind_eq_some_iff.mp h
    obtain ⟨hcentury, hc⟩ := pair?_eq_some hc
    obtain ⟨hyear, hy⟩ := pair?_eq_some hy
    obtain ⟨-, hm⟩ := pair?_eq_some hm
    obtain ⟨-, hd⟩ := pair?_eq_some hd
    obtain rfl : (⟨100 * century + year, month, day⟩ : Date) = d := Option.some.inj h
    have hdiv : (100 * century + year) / 100 = century := by omega
    have hmod : (100 * century + year) % 100 = year := by omega
    rw [chars, hdiv, hmod, hc, hy, hm, hd]
    rfl
  · cases h

theorem Date.fields?_of_ofChars {text : List Char} {d : Date} (h : ofChars text = .ok d) :
    fields? text = some d := by
  unfold ofChars at h
  split at h
  · cases h
  · rename_i heq
    split at h
    · cases h
    · split at h
      · cases h
      · cases h
        exact heq

theorem Date.ofChars_of_fields {text : List Char} {d : Date} (h : fields? text = some d) :
    ofChars text = if !d.exists? then .error .noSuchDay
      else if !d.inBounds then .error .dateOutOfBounds else .ok d := by
  rw [ofChars, h]

theorem Date.valid_of_ofChars {text : List Char} {d : Date} (h : ofChars text = .ok d) :
    d.exists? ∧ d.inBounds := by
  rw [ofChars_of_fields (fields?_of_ofChars h)] at h
  split at h
  · cases h
  · split at h
    · cases h
    · simp_all

theorem Date.render_of_ofChars {text : String} {d : Date} (h : ofChars text.toList = .ok d) :
    d.render = text := by
  rw [render, chars_of_fields (fields?_of_ofChars h), String.ofList_toList]

theorem Clock.chars_of_fields {text : List Char} {c : Clock} (h : fields? text = some c) :
    c.chars = text := by
  unfold fields? at h
  split at h
  · obtain ⟨hour, hh, h⟩ := Option.bind_eq_some_iff.mp h
    obtain ⟨minute, hm, h⟩ := Option.bind_eq_some_iff.mp h
    obtain ⟨-, hh⟩ := pair?_eq_some hh
    obtain ⟨-, hm⟩ := pair?_eq_some hm
    obtain rfl : (⟨hour, minute⟩ : Clock) = c := Option.some.inj h
    rw [chars, hh, hm]
    rfl
  · cases h

theorem Clock.fields?_of_ofChars {text : List Char} {c : Clock} (h : ofChars text = .ok c) :
    fields? text = some c := by
  unfold ofChars at h
  split at h
  · cases h
  · rename_i heq
    split at h
    · cases h
      exact heq
    · cases h

theorem Clock.ofChars_of_fields {text : List Char} {c : Clock} (h : fields? text = some c) :
    ofChars text = if c.inRange then .ok c else .error .timeOutOfRange := by
  rw [ofChars, h]

theorem Clock.inRange_of_ofChars {text : List Char} {c : Clock} (h : ofChars text = .ok c) :
    c.inRange := by
  rw [ofChars_of_fields (fields?_of_ofChars h)] at h
  split at h
  · assumption
  · cases h

theorem Clock.render_of_ofChars {text : String} {c : Clock} (h : ofChars text.toList = .ok c) :
    c.render = text := by
  rw [render, chars_of_fields (fields?_of_ofChars h), String.ofList_toList]

theorem Calendar.digit?_digitChar (n : Nat) : digit? (digitChar n) = some (n % 10) := by
  have h : ∀ k < 10, digit? (Char.ofNat ('0'.toNat + k)) = some k := by decide
  exact h (n % 10) (Nat.mod_lt n (by decide))

theorem Calendar.pair?_digitChar {n : Nat} (h : n < 100) :
    pair? (digitChar (n / 10)) (digitChar n) = some n := by
  have hn : 10 * (n / 10 % 10) + n % 10 = n := by omega
  rw [pair?, digit?_digitChar, digit?_digitChar]
  exact congrArg some hn

theorem Calendar.daysInMonth_le (year month : Nat) : daysInMonth year month ≤ 31 := by
  unfold daysInMonth
  repeat' split
  all_goals decide

theorem Date.fields?_chars {d : Date} (hy : d.year < 10000) (hm : d.month < 100)
    (hd : d.day < 100) :
    fields? d.chars = some d := by
  have hcentury := pair?_digitChar (n := d.year / 100) (by omega)
  have hyear := pair?_digitChar (n := d.year % 100) (by omega)
  have hsum : 100 * (d.year / 100) + d.year % 100 = d.year := by omega
  simp [chars, writePair, fields?, hcentury, hyear, pair?_digitChar hm, pair?_digitChar hd, hsum]

theorem Date.ofChars_render {d : Date} (he : d.exists?) (hb : d.inBounds) :
    ofChars d.render.toList = .ok d := by
  have hexists := he
  simp only [Date.exists?, Bool.and_eq_true, decide_eq_true_eq] at hexists
  have hbounds := hb
  simp only [inBounds, Bool.and_eq_true, decide_eq_true_eq] at hbounds
  have hday := daysInMonth_le d.year d.month
  rw [render, String.toList_ofList, ofChars, fields?_chars (by omega) (by omega) (by omega)]
  simp [he, hb]

theorem Clock.fields?_chars {c : Clock} (hh : c.hour < 100) (hm : c.minute < 100) :
    fields? c.chars = some c := by
  simp [chars, writePair, fields?, pair?_digitChar hh, pair?_digitChar hm]

theorem Clock.ofChars_render {c : Clock} (h : c.inRange) : ofChars c.render.toList = .ok c := by
  have hrange := h
  simp only [inRange, Bool.and_eq_true, decide_eq_true_eq] at hrange
  rw [render, String.toList_ofList, ofChars, fields?_chars (by omega) (by omega)]
  simp [h]

/-! ### The calendar -/

namespace Calendar

/-- How many days the months of a year have, from the first to the last. Every fourth year has a day
more in its second month, of the full centuries only every fourth one. -/
def monthLengths (year : Nat) : List Nat :=
  [31, if 4 ∣ year ∧ ¬ 100 ∣ year ∨ 400 ∣ year then 29 else 28, 31, 30, 31, 30, 31, 31, 30, 31, 30,
    31]

theorem isLeapYear_iff (year : Nat) :
    isLeapYear year ↔ 4 ∣ year ∧ ¬ 100 ∣ year ∨ 400 ∣ year := by
  simp [isLeapYear, Nat.dvd_iff_mod_eq_zero]

theorem getElem?_monthLengths (year : Nat) {month : Nat} (h : 1 ≤ month ∧ month ≤ 12) :
    (monthLengths year)[month - 1]? = some (daysInMonth year month) := by
  obtain rfl | rfl | hother : month = 2 ∨ month = 12 ∨
      month ∈ [1, 3, 4, 5, 6, 7, 8, 9, 10, 11] := by simp; omega
  · simp [monthLengths, daysInMonth, isLeapYear_iff]
  · rfl
  · simp only [List.mem_cons, List.not_mem_nil, or_false] at hother
    rcases hother with rfl | rfl | rfl | rfl | rfl | rfl | rfl | rfl | rfl | rfl <;> rfl

end Calendar

namespace Date

/-- A day of the Gregorian calendar. -/
structure IsDay (d : Date) : Prop where
  month_pos : 1 ≤ d.month
  day_pos : 1 ≤ d.day
  day_le : ∃ length ∈ (monthLengths d.year)[d.month - 1]?, d.day ≤ length

theorem IsDay.month_le {d : Date} (h : d.IsDay) : d.month ≤ 12 := by
  obtain ⟨length, hlength, -⟩ := h.day_le
  obtain ⟨hlt, -⟩ := List.getElem?_eq_some_iff.mp hlength
  have hpos := h.month_pos
  have htwelve : (monthLengths d.year).length = 12 := rfl
  omega

theorem exists?_iff {d : Date} : d.exists? ↔ d.IsDay := by
  simp only [exists?, Bool.and_eq_true, decide_eq_true_eq]
  constructor
  · rintro ⟨⟨⟨hpos, hle⟩, hday⟩, hlength⟩
    exact ⟨hpos, hday, _, getElem?_monthLengths d.year ⟨hpos, hle⟩, hlength⟩
  · intro h
    obtain ⟨length, hmem, hlength⟩ := h.day_le
    have hmonth := getElem?_monthLengths d.year ⟨h.month_pos, h.month_le⟩
    obtain rfl := Option.some.inj (hmonth.symm.trans hmem)
    exact ⟨⟨⟨h.month_pos, h.month_le⟩, h.day_pos⟩, hlength⟩

theorem IsDay.day_le_31 {d : Date} (h : d.IsDay) : d.day ≤ 31 := by
  have hexists := exists?_iff.mpr h
  simp only [exists?, Bool.and_eq_true, decide_eq_true_eq] at hexists
  exact Nat.le_trans hexists.2 (daysInMonth_le d.year d.month)

/-- The order of time. -/
instance : LE Date where
  le a b := a.year < b.year ∨
    a.year = b.year ∧ (a.month < b.month ∨ a.month = b.month ∧ a.day ≤ b.day)

theorem le_iff {a b : Date} : a ≤ b ↔ a.year < b.year ∨
    a.year = b.year ∧ (a.month < b.month ∨ a.month = b.month ∧ a.day ≤ b.day) := Iff.rfl

def earliest : Date := ⟨1900, 1, 1⟩

def latest : Date := ⟨3000, 12, 31⟩

/-- The bounds begin and end with a year, so that for a day only its year matters. -/
theorem IsDay.inBounds_iff {d : Date} (h : d.IsDay) : d.inBounds ↔ earliest ≤ d ∧ d ≤ latest := by
  have hmonth := h.month_pos
  have hmonth' := h.month_le
  have hday := h.day_pos
  have hday' := h.day_le_31
  simp only [inBounds, Bool.and_eq_true, decide_eq_true_eq, le_iff, earliest, latest]
  omega

theorem ofChars_eq_ok_iff {text : String} {d : Date} : ofChars text.toList = .ok d ↔
    d.IsDay ∧ earliest ≤ d ∧ d ≤ latest ∧ text = d.render := by
  constructor
  · intro h
    obtain ⟨hexists, hbounds⟩ := valid_of_ofChars h
    have hday := exists?_iff.mp hexists
    obtain ⟨hearliest, hlatest⟩ := hday.inBounds_iff.mp hbounds
    exact ⟨hday, hearliest, hlatest, (render_of_ofChars h).symm⟩
  · rintro ⟨hday, hearliest, hlatest, rfl⟩
    exact ofChars_render (exists?_iff.mpr hday) (hday.inBounds_iff.mpr ⟨hearliest, hlatest⟩)

end Date

theorem Clock.ofChars_eq_ok_iff {text : String} {c : Clock} : ofChars text.toList = .ok c ↔
    c.hour ≤ 23 ∧ c.minute ≤ 59 ∧ text = c.render := by
  have hrange : c.inRange ↔ c.hour ≤ 23 ∧ c.minute ≤ 59 := by simp [inRange]
  constructor
  · intro h
    obtain ⟨hhour, hminute⟩ := hrange.mp (inRange_of_ofChars h)
    exact ⟨hhour, hminute, (render_of_ofChars h).symm⟩
  · rintro ⟨hhour, hminute, rfl⟩
    exact ofChars_render (hrange.mpr ⟨hhour, hminute⟩)

/-- A literal is read as a date just if it is what is printed for it and it is a day of the calendar
within the bounds, and as a time just if it is what is printed for it and it is a minute of the day.
So each of them is read from what is printed for it, and from no other literal. -/
theorem literal_read_iff (text : String) :
    (∀ d, Date.ofChars text.toList = .ok d ↔
      d.IsDay ∧ Date.earliest ≤ d ∧ d ≤ Date.latest ∧ text = d.render) ∧
      ∀ c, Clock.ofChars text.toList = .ok c ↔ c.hour ≤ 23 ∧ c.minute ≤ 59 ∧ text = c.render :=
  ⟨fun _ => Date.ofChars_eq_ok_iff, fun _ => Clock.ofChars_eq_ok_iff⟩

/-- The last year of a century has a day less than the leap years around it, but not each fourth. -/
example : Date.ofChars "\x7b2000-02-29\x7d".toList = .ok ⟨2000, 2, 29⟩ ∧
    Date.ofChars "\x7b1900-02-29\x7d".toList = .error .noSuchDay := ⟨rfl, rfl⟩

end PayFormula
