import Mathlib.Algebra.GroupWithZero.Nat
import Mathlib.Data.List.Basic
import FlowShape.Timestamp

/-!
# The text of a timestamp

The calendar counts each day once, numbers are written with a width that holds them, and the parts
of a timestamp stand in fixed places around the mark between date and time. So the text tells two
timestamps apart.
-/

namespace FlowShape

/-! ## The calendar -/

namespace Date

/-- The days of an era of 400 years fall into years of at most 366 days. -/
theorem dayOfYear_bounds {dayOfEra year : Int} (h : 0 ≤ dayOfEra ∧ dayOfEra < 146097)
    (hyear : year = (dayOfEra - dayOfEra / 1460 + dayOfEra / 36524 - dayOfEra / 146096) / 365) :
    (0 ≤ year ∧ year < 400) ∧ 0 ≤ dayOfEra - (365 * year + year / 4 - year / 100) ∧
      dayOfEra - (365 * year + year / 4 - year / 100) < 366 := by
  have hcentury : dayOfEra / 36524 = 0 ∨ dayOfEra / 36524 = 1 ∨ dayOfEra / 36524 = 2 ∨
      dayOfEra / 36524 = 3 ∨ dayOfEra / 36524 = 4 := by omega
  have hhundred : dayOfEra / 36524 - dayOfEra / 146096 = year / 100 := by
    rcases hcentury with hc | hc | hc | hc | hc <;> omega
  have hfour : year / 4 ≤ dayOfEra / 1460 ∧ dayOfEra / 1460 ≤ year / 4 + 1 := by omega
  omega

/-- The date of a day falls on that day, and its month and day have two digits. -/
theorem ofDays_spec (n : Int) :
    (ofDays n).toDays = n ∧ (ofDays n).month ≤ 12 ∧ (ofDays n).day ≤ 31 := by
  have hera : 0 ≤ (n + 719468) % 146097 ∧ (n + 719468) % 146097 < 146097 := by omega
  have hsplit : n + 719468 = 146097 * ((n + 719468) / 146097) + (n + 719468) % 146097 := by omega
  simp only [ofDays]
  generalize (n + 719468) / 146097 = era at *
  generalize (n + 719468) % 146097 = dayOfEra at *
  obtain ⟨hyear, hday⟩ := dayOfYear_bounds hera rfl
  generalize (dayOfEra - dayOfEra / 1460 + dayOfEra / 36524 - dayOfEra / 146096) / 365 = year at *
  have hdays : dayOfEra = year * 365 + year / 4 - year / 100 +
    (dayOfEra - (365 * year + year / 4 - year / 100)) := by omega
  generalize dayOfEra - (365 * year + year / 4 - year / 100) = dayOfYear at *
  have hquotient : (year + era * 400) / 400 = era := by omega
  have hremainder : (year + era * 400) % 400 = year := by omega
  split
  · have hmonth : ¬((5 * dayOfYear + 2) / 153 + 3).toNat ≤ 2 := by omega
    simp only [toDays, hmonth, if_false, hquotient, hremainder]
    omega
  · have hmonth : ((5 * dayOfYear + 2) / 153 - 9).toNat ≤ 2 := by omega
    have hnext : year + era * 400 + 1 - 1 = year + era * 400 := by omega
    simp only [toDays, hmonth, if_true, hnext, hquotient, hremainder]
    omega

end Date

namespace Timestamp

/-- The timestamps that stand for an instant. Only the last second of a minute may be followed by a
leap second. -/
structure IsValid (t : Timestamp) : Prop where
  second : t.second < 86400
  nano : t.nano < 2000000000
  leap : 1000000000 ≤ t.nano → t.second % 60 = 59

instance (t : Timestamp) : Decidable t.IsValid :=
  decidable_of_iff
    (t.second < 86400 ∧ t.nano < 2000000000 ∧ (1000000000 ≤ t.nano → t.second % 60 = 59))
    ⟨fun ⟨second, nano, leap⟩ => ⟨second, nano, leap⟩, fun h => ⟨h.second, h.nano, h.leap⟩⟩

/-! ## Numbers -/

variable {width m n : Nat} {c : Char}

theorem isDigit_of_mem_padded (h : c ∈ (padded width n).toList) : c.isDigit := by
  simp only [padded, String.toList_ofList, List.mem_append, List.mem_replicate] at h
  rcases h with ⟨-, rfl⟩ | h
  · rfl
  · exact Nat.isDigit_of_mem_toDigits (by omega) (by omega) h

theorem length_padded (hwidth : 0 < width) (h : n < 10 ^ width) :
    (padded width n).toList.length = width := by
  have hle := (Nat.length_toDigits_le_iff (by omega) hwidth).2 h
  simp only [padded, String.toList_ofList, List.length_append, List.length_replicate]
  omega

/-- Leading zeros do not change a number. -/
theorem ofDigitChars_padded : Nat.ofDigitChars 10 (padded width n).toList 0 = n := by
  simp [padded, Nat.ofDigitChars_append]

theorem padded_inj (h : padded width m = padded width n) : m = n := by
  have hvalue := congrArg (fun s : String => Nat.ofDigitChars 10 s.toList 0) h
  simpa only [ofDigitChars_padded] using hvalue

/-! ## Years and fractions -/

theorem padded_ne_signed {sign : String} (hsign : sign = "-" ∨ sign = "+") :
    padded width m ≠ sign ++ padded width n := by
  intro h
  have hdigit : ∀ c ∈ sign.toList, c.isDigit := by
    intro c hc
    have hmem : c ∈ (padded width m).toList := by simp [h, hc]
    exact isDigit_of_mem_padded hmem
  rcases hsign with rfl | rfl <;> simp at hdigit

theorem yearText_inj {y z : Int} (h : yearText y = yearText z) : y = z := by
  have hsign (x : Int) :
      (if x < 0 then "-" else "+") = "-" ∨ (if x < 0 then "-" else "+") = "+" := by
    split <;> simp
  by_cases hy : 0 ≤ y ∧ y ≤ 9999 <;> by_cases hz : 0 ≤ z ∧ z ≤ 9999 <;>
    simp only [yearText, hy, hz, and_self, if_true, if_false] at h
  · have := padded_inj h
    omega
  · exact absurd h (padded_ne_signed (hsign z))
  · exact absurd h.symm (padded_ne_signed (hsign y))
  · have hsame : y < 0 ↔ z < 0 := by
      have hhead := congrArg (·.toList.head?) h
      by_cases hy : y < 0 <;> by_cases hz : z < 0 <;> simp [hy, hz] at hhead ⊢
    have := padded_inj ((String.append_right_inj _).1 (by simpa only [hsame] using h))
    omega

theorem length_fractionText (h : n < 1000000000) :
    (fractionText n).toList.length =
      if n = 0 then 0 else if n % 1000000 = 0 then 4 else if n % 1000 = 0 then 7 else 10 := by
  unfold fractionText
  split
  · rfl
  · have hmillis : (padded 3 (n / 1000000)).toList.length = 3 := length_padded (by omega) (by omega)
    have hmicros : (padded 6 (n / 1000)).toList.length = 6 := length_padded (by omega) (by omega)
    have hnanos : (padded 9 n).toList.length = 9 := length_padded (by omega) h
    split
    · simp [hmillis]
    · split <;> simp [hmicros, hnanos]

theorem fractionText_inj (hm : m < 1000000000) (hn : n < 1000000000)
    (h : fractionText m = fractionText n) : m = n := by
  have hlength := congrArg (·.toList.length) h
  simp only [length_fractionText hm, length_fractionText hn] at hlength
  unfold fractionText at h
  split_ifs at h hlength
  all_goals try omega
  all_goals
    have := padded_inj ((String.append_right_inj _).1 h)
    omega

/-! ## Places -/

/-- A date as it is written, by characters. -/
def dateChars (d : Date) : List Char :=
  (yearText d.year).toList ++
    '-' :: ((padded 2 d.month).toList ++ '-' :: (padded 2 d.day).toList)

/-- A time of day as it is written, by characters. -/
def timeChars (second nano : Nat) : List Char :=
  (padded 2 (second / 3600)).toList ++
    ':' :: ((padded 2 (second / 60 % 60)).toList ++
      ':' :: ((padded 2 (second % 60 + nano / 1000000000)).toList ++
        ((fractionText (nano % 1000000000)).toList ++ ['Z'])))

theorem toList_text (t : Timestamp) :
    t.text.toList = dateChars (Date.ofDays t.day) ++ 'T' :: timeChars t.second t.nano := by
  simp [text, dateChars, timeChars]

theorem separator_notMem_padded : 'T' ∉ (padded width n).toList := by
  intro h
  cases isDigit_of_mem_padded h

theorem separator_notMem_dateChars (d : Date) : 'T' ∉ dateChars d := by
  have hyear : 'T' ∉ (yearText d.year).toList := by
    unfold yearText
    split_ifs <;> simp [separator_notMem_padded]
  simp [dateChars, hyear, separator_notMem_padded]

theorem separator_notMem_timeChars (second nano : Nat) : 'T' ∉ timeChars second nano := by
  have hfraction (n : Nat) : 'T' ∉ (fractionText n).toList := by
    unfold fractionText
    split_ifs <;> simp [separator_notMem_padded]
  simp [timeChars, hfraction, separator_notMem_padded]

/-- Numbers of the same width take the same place, and what follows them starts at the same. -/
theorem append_padded_inj {xs ys : List Char} (hwidth : 0 < width) (hm : m < 10 ^ width)
    (hn : n < 10 ^ width)
    (h : (padded width m).toList ++ xs = (padded width n).toList ++ ys) : m = n ∧ xs = ys := by
  obtain ⟨hdigits, hrest⟩ :=
    List.append_inj h ((length_padded hwidth hm).trans (length_padded hwidth hn).symm)
  exact ⟨padded_inj (String.toList_inj.1 hdigits), hrest⟩

/-- Months and days have two digits, so that the year ends six characters before the end. -/
theorem dateChars_inj {d e : Date} (hd : d.month < 100 ∧ d.day < 100)
    (he : e.month < 100 ∧ e.day < 100) (h : dateChars d = dateChars e) : d = e := by
  have hlength : ∀ n < 100, (padded 2 n).toList.length = 2 :=
    fun n hn => length_padded (by omega) hn
  obtain ⟨hyear, h⟩ := List.append_inj' h (by simp only [List.length_cons, List.length_append,
    hlength _ hd.1, hlength _ hd.2, hlength _ he.1, hlength _ he.2])
  obtain ⟨hmonth, h⟩ := append_padded_inj (by omega) hd.1 he.1 (List.cons.inj h).2
  have hday := padded_inj (String.toList_inj.1 (List.cons.inj h).2)
  have hyear := yearText_inj (String.toList_inj.1 hyear)
  cases d
  cases e
  simp_all

theorem timeChars_inj {t u : Timestamp} (ht : t.IsValid) (hu : u.IsValid)
    (h : timeChars t.second t.nano = timeChars u.second u.nano) :
    t.second = u.second ∧ t.nano = u.nano := by
  obtain ⟨hsecond, hnano, hleap⟩ := ht
  obtain ⟨hsecond', hnano', hleap'⟩ := hu
  obtain ⟨hhour, h⟩ := append_padded_inj (by omega) (by omega) (by omega) h
  obtain ⟨hminute, h⟩ :=
    append_padded_inj (by omega) (by omega) (by omega) (List.cons.inj h).2
  obtain ⟨hrest, h⟩ :=
    append_padded_inj (by omega) (by omega) (by omega) (List.cons.inj h).2
  have hfraction : t.nano % 1000000000 = u.nano % 1000000000 := by
    apply fractionText_inj (by omega) (by omega)
    exact String.toList_inj.1 (List.append_cancel_right h)
  omega

/-- Different instants are written differently. -/
theorem text_inj {t u : Timestamp} (ht : t.IsValid) (hu : u.IsValid) (h : t.text = u.text) :
    t = u := by
  have hchars := congrArg String.toList h
  rw [toList_text, toList_text, List.append_cons_inj_of_notMem (separator_notMem_dateChars _)
    (separator_notMem_timeChars _ _)] at hchars
  obtain ⟨hdate, -, htime⟩ := hchars
  obtain ⟨hdays, hmonth, hday⟩ := Date.ofDays_spec t.day
  obtain ⟨hdays', hmonth', hday'⟩ := Date.ofDays_spec u.day
  have hdate := dateChars_inj ⟨by omega, by omega⟩ ⟨by omega, by omega⟩ hdate
  obtain ⟨hsecond, hnano⟩ := timeChars_inj ht hu htime
  have hsame : t.day = u.day := by rw [← hdays, ← hdays', hdate]
  cases t
  cases u
  simp_all

end Timestamp

end FlowShape
