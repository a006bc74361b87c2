import LedgerLens.Library.DateTime
import LedgerLens.Library.Text

namespace Date

/-- The last day of the year 9999. -/
def maxOrdinal : Nat := 3652059

/-- The date is one of the years 1 to 9999. -/
def Exists (date : Date) : Prop := 1 ≤ date.ordinal ∧ date.ordinal ≤ maxOrdinal

theorem Exists.between {first date last : Date} (made : first.Exists) (made' : last.Exists) (after : first ≤ date)
    (before : date ≤ last) : date.Exists :=
  ⟨made.1.trans (Date.le_iff.mp after), (Date.le_iff.mp before).trans made'.2⟩

def isLeap (year : Nat) : Bool := year % 4 = 0 && (year % 100 ≠ 0 || year % 400 = 0)

def daysBeforeYear (year : Nat) : Nat :=
  let y := year - 1
  y * 365 + y / 4 - y / 100 + y / 400

/-- The ordinal of a day of a month, not checked. -/
def ymdToOrd (year month day : Nat) : Nat :=
  daysBeforeYear year + (daysBeforeMonth month + if 2 < month ∧ isLeap year then 1 else 0) + day

/-- The constructor, which raises on a day that does not exist. -/
def ofYmd (year month day : Nat) : Option Date :=
  if 1 ≤ year ∧ year ≤ 9999 ∧ 1 ≤ month ∧ month ≤ 12 ∧ 1 ≤ day ∧
      day ≤ daysInMonth month + (if month = 2 ∧ isLeap year then 1 else 0) then
    some ⟨ymdToOrd year month day⟩
  else none

/-- The weekday of the first of January, from Monday as 0. -/
def firstWeekday (year : Nat) : Nat := (ymdToOrd year 1 1 + 6) % 7

def isoWeek1Monday (year : Nat) : Nat :=
  let monday := ymdToOrd year 1 1 - firstWeekday year
  if 3 < firstWeekday year then monday + 7 else monday

/-- The day of an ISO week; a year has 53 of them when it begins on a Thursday, or on a Wednesday and is
a leap year. -/
def ofIsocalendar (year week day : Nat) : Option Date :=
  let long := firstWeekday year = 3 ∨ firstWeekday year = 2 ∧ isLeap year
  if 1 ≤ year ∧ year ≤ 9999 ∧ 1 ≤ week ∧ (week ≤ 52 ∨ week = 53 ∧ long) ∧ 1 ≤ day ∧ day ≤ 7 then
    let ordinal := isoWeek1Monday year + (week - 1) * 7 + (day - 1)
    if ordinal ≤ maxOrdinal then some ⟨ordinal⟩ else none
  else none

section Parsing

/-- A number of exactly so many digits. -/
def parseDigits (width : Nat) (input : List Char) : Option (Nat × List Char) :=
  if (input.take width).length = width ∧ (input.take width).all Char.isDigit then
    some (Nat.ofDigitChars 10 (input.take width) 0, input.drop width)
  else none

def skipSeparator : Bool → List Char → Option (List Char)
  | false, rest => some rest
  | true, '-' :: rest => some rest
  | true, _ => none

/-- The week and the day behind the `W`; the day is Monday when the text ends before it. -/
def parseIsoWeek (year : Nat) (separated : Bool) (input : List Char) : Option Date := do
  let (week, rest) ← parseDigits 2 input
  if rest = [] then ofIsocalendar year week 1
  else do
    let rest ← skipSeparator separated rest
    let (day, _) ← parseDigits 1 rest
    ofIsocalendar year week day

def parseMonthDay (year : Nat) (separated : Bool) (input : List Char) : Option Date := do
  let (month, rest) ← parseDigits 2 input
  let rest ← skipSeparator separated rest
  let (day, _) ← parseDigits 2 rest
  ofYmd year month day

/-- `parse_isoformat_date`; what follows the day is not looked at. -/
def parseIsoformatDate (input : List Char) : Option Date := do
  let (year, rest) ← parseDigits 4 input
  match rest with
  | '-' :: 'W' :: rest => parseIsoWeek year true rest
  | '-' :: rest => parseMonthDay year true rest
  | 'W' :: rest => parseIsoWeek year false rest
  | rest => parseMonthDay year false rest

/-- `date.fromisoformat`; `none` stands for the `ValueError` it raises. -/
def fromisoformat (s : String) : Option Date :=
  let bytes := (s.toList.map Char.utf8Size).sum
  if bytes = 7 ∨ bytes = 8 ∨ bytes = 10 then parseIsoformatDate s.toList else none

end Parsing

section RoundTrip

theorem pad_toList (width n : Nat) :
    (pad width n).toList = List.replicate (width - (toString n).toList.length) '0' ++ (toString n).toList := by
  rw [pad, String.toList_append, String.toList_ofList, String.length_toList]

theorem pad_isDigit (width n : Nat) : ∀ c ∈ (pad width n).toList, c.isDigit := by
  rw [pad_toList]
  refine List.forall_mem_append.mpr ⟨fun c member => ?_, fun c => Text.toString_nat_digits⟩
  rw [List.eq_of_mem_replicate member]
  rfl

theorem pad_length {width n : Nat} (positive : 0 < width) (fits : n < 10 ^ width) :
    (pad width n).toList.length = width := by
  have short : (toString n).toList.length ≤ width := by
    rw [Text.toString_nat_toList]
    exact (Nat.length_toDigits_le_iff (by decide) positive).mpr fits
  rw [pad_toList, List.length_append, List.length_replicate]
  omega

theorem pad_sizes {width n : Nat} (positive : 0 < width) (fits : n < 10 ^ width) :
    (pad width n).toList.map Char.utf8Size = List.replicate width 1 := by
  have one : ∀ c ∈ (pad width n).toList, c.utf8Size = 1 := fun c member =>
    Text.utf8Size_of_isDigit (pad_isDigit width n c member)
  rw [List.map_congr_left one, List.map_const', pad_length positive fits]

theorem pad_value (width n : Nat) : Nat.ofDigitChars 10 (pad width n).toList 0 = n := by
  rw [pad_toList, Nat.ofDigitChars_append, Nat.ofDigitChars_replicate_zero, Nat.mul_zero, Text.ofDigitChars_toString]

theorem parseDigits_pad {width n : Nat} (positive : 0 < width) (fits : n < 10 ^ width) (rest : List Char) :
    parseDigits width ((pad width n).toList ++ rest) = some (n, rest) := by
  have length := pad_length positive fits
  have all : (pad width n).toList.all Char.isDigit := List.all_eq_true.mpr (pad_isDigit width n)
  rw [parseDigits, List.take_left' length, List.drop_left' length, if_pos ⟨length, all⟩, pad_value]

theorem isoformat_toList {date : Date} {year month day : Nat} (parts : date.ymd = (year, month, day)) :
    date.isoformat.toList =
      (pad 4 year).toList ++ '-' :: ((pad 2 month).toList ++ '-' :: (pad 2 day).toList) := by
  have dash : "-".toList = ['-'] := rfl
  simp only [isoformat, parts, String.toList_append, dash, List.append_assoc, List.cons_append, List.nil_append]

theorem isoformat_chars {date : Date} {c : Char} (char : c ∈ date.isoformat.toList) : c = '-' ∨ c.isDigit := by
  obtain ⟨year, month, day, parts⟩ : ∃ year month day, date.ymd = (year, month, day) := ⟨_, _, _, rfl⟩
  rw [isoformat_toList parts] at char
  rcases List.mem_append.mp char with yearDigit | behind
  · exact .inr (pad_isDigit 4 year c yearDigit)
  · rcases List.mem_cons.mp behind with dash | behind
    · exact .inl dash
    · rcases List.mem_append.mp behind with monthDigit | behind
      · exact .inr (pad_isDigit 2 month c monthDigit)
      · rcases List.mem_cons.mp behind with dash | dayDigit
        · exact .inl dash
        · exact .inr (pad_isDigit 2 day c dayDigit)

/-- The month and the day of the n-th day of a year. -/
def monthDay (leap : Bool) (n : Nat) : Nat × Nat :=
  let guess := (n + 50) / 32
  let preceding := daysBeforeMonth guess + if 2 < guess ∧ leap then 1 else 0
  if n < preceding then
    let month := guess - 1
    let preceding := preceding - (daysInMonth month + if month = 2 ∧ leap then 1 else 0)
    (month, n - preceding + 1)
  else (guess, n - preceding + 1)

theorem monthDay_spec : ∀ leap : Bool, ∀ n < 365 + leap.toNat,
    1 ≤ (monthDay leap n).1 ∧ (monthDay leap n).1 ≤ 12 ∧ 1 ≤ (monthDay leap n).2 ∧
      (monthDay leap n).2 ≤ daysInMonth (monthDay leap n).1 + (if (monthDay leap n).1 = 2 ∧ leap then 1 else 0) ∧
      daysBeforeMonth (monthDay leap n).1 + (if 2 < (monthDay leap n).1 ∧ leap then 1 else 0) + (monthDay leap n).2 =
        n + 1 := by
  decide +kernel

/-- The days before a year, by the cycles of the calendar that have gone by. -/
theorem daysBeforeYear_cycles (n400 : Nat) {n100 n4 n1 : Nat} (centuries : n100 ≤ 3) (fours : n4 ≤ 24) (ones : n1 ≤ 3) :
    daysBeforeYear (n400 * 400 + 1 + n100 * 100 + n4 * 4 + n1) =
      n400 * 146097 + n100 * 36524 + n4 * 1461 + n1 * 365 := by
  simp only [daysBeforeYear]
  omega

theorem isLeap_cycles {n400 n100 n4 n1 : Nat} (centuries : n100 ≤ 3) (fours : n4 ≤ 24) (ones : n1 ≤ 3) :
    isLeap (n400 * 400 + 1 + n100 * 100 + n4 * 4 + n1) = decide (n1 = 3 ∧ (n4 ≠ 24 ∨ n100 = 3)) := by
  rw [Bool.eq_iff_iff]
  simp only [isLeap, Bool.and_eq_true, Bool.or_eq_true, decide_eq_true_eq]
  omega

/-- A day exists under the year, month and day that it is counted to. -/
theorem ofYmd_ymd {date : Date} (made : date.Exists) {year month day : Nat} (parts : date.ymd = (year, month, day)) :
    ofYmd year month day = some date := by
  obtain ⟨ordinal⟩ := date
  obtain ⟨first, last⟩ := made
  simp only [ymd] at parts first last
  generalize h400 : (ordinal - 1) / 146097 = n400 at parts
  generalize hr : (ordinal - 1) % 146097 = r at parts
  generalize h100 : r / 36524 = n100 at parts
  generalize hs : r % 36524 = s at parts
  generalize h4 : s / 1461 = n4 at parts
  generalize ht : s % 1461 = t at parts
  generalize h1 : t / 365 = n1 at parts
  generalize hn : t % 365 = n at parts
  unfold maxOrdinal at last
  have fours : n4 ≤ 24 := by omega
  split at parts
  · next special =>
    simp only [Prod.mk.injEq] at parts
    obtain ⟨rfl, rfl, rfl⟩ := parts
    -- The last day of a leap year stands past the end of its last cycle.
    have leap : isLeap (n400 * 400 + 1 + n100 * 100 + n4 * 4 + n1 - 1) = true := by
      simp only [isLeap, Bool.and_eq_true, Bool.or_eq_true, decide_eq_true_eq]
      omega
    have preceding : daysBeforeYear (n400 * 400 + 1 + n100 * 100 + n4 * 4 + n1 - 1) + 366 = ordinal := by
      rcases special with rfl | rfl
      · have centuries : n100 ≤ 3 := by omega
        have cycles := daysBeforeYear_cycles n400 centuries fours (le_refl 3)
        rw [show n400 * 400 + 1 + n100 * 100 + n4 * 4 + 4 - 1 = n400 * 400 + 1 + n100 * 100 + n4 * 4 + 3 by omega]
        omega
      · have cycles := daysBeforeYear_cycles n400 (le_refl 3) (le_refl 24) (le_refl 3)
        rw [show n400 * 400 + 1 + 4 * 100 + n4 * 4 + n1 - 1 = n400 * 400 + 1 + 3 * 100 + 24 * 4 + 3 by omega]
        omega
    have december : daysBeforeMonth 12 = 334 := rfl
    have counted : ymdToOrd (n400 * 400 + 1 + n100 * 100 + n4 * 4 + n1 - 1) 12 31 = ordinal := by
      rw [ymdToOrd, leap, december, if_pos ⟨by decide, rfl⟩, ← preceding]
    rw [ofYmd, counted, if_pos]
    simp [daysInMonth]
    omega
  · next ordinary =>
    simp only [not_or] at ordinary
    have centuries : n100 ≤ 3 := by omega
    have ones : n1 ≤ 3 := by omega
    have counted : (year, month, day) =
        (n400 * 400 + 1 + n100 * 100 + n4 * 4 + n1, monthDay (decide (n1 = 3 ∧ (n4 ≠ 24 ∨ n100 = 3))) n) := by
      rw [← parts, monthDay]
      simp only [decide_eq_true_eq]
      exact (apply_ite (Prod.mk _) _ _ _).symm
    rw [← isLeap_cycles centuries fours ones] at counted
    obtain ⟨rfl, monthAndDay⟩ := Prod.mk.inj counted
    generalize leap : isLeap (n400 * 400 + 1 + n100 * 100 + n4 * 4 + n1) = isLeapYear at monthAndDay
    have inYear : n < 365 + isLeapYear.toNat := by omega
    obtain ⟨month1, month12, day1, dayLast, preceding⟩ := monthDay_spec isLeapYear n inYear
    rw [← monthAndDay] at month1 month12 day1 dayLast preceding
    simp only at month1 month12 day1 dayLast preceding
    have cycles := daysBeforeYear_cycles n400 centuries fours ones
    rw [ofYmd, if_pos ⟨by omega, by omega, month1, month12, day1, by rw [leap]; exact dayLast⟩, ymdToOrd, cycles, leap,
      add_assoc, preceding]
    congr 2
    omega

theorem ofYmd_eq_some {year month day : Nat} {date : Date} (valid : ofYmd year month day = some date) :
    year < 10 ^ 4 ∧ month < 10 ^ 2 ∧ day < 10 ^ 2 := by
  have longest : ∀ month ≤ 12, daysInMonth month ≤ 31 := by decide
  rw [ofYmd, Option.ite_none_right_eq_some] at valid
  obtain ⟨⟨_, lastYear, _, december, _, lastDay⟩, _⟩ := valid
  have most := longest month december
  have leap : (if month = 2 ∧ isLeap year then 1 else 0) ≤ 1 := by split <;> omega
  omega

theorem parseMonthDay_pad (year : Nat) {month day : Nat} (monthFits : month < 10 ^ 2) (dayFits : day < 10 ^ 2) :
    parseMonthDay year true ((pad 2 month).toList ++ '-' :: (pad 2 day).toList) = ofYmd year month day := by
  have dayText := parseDigits_pad (by decide) dayFits []
  rw [List.append_nil] at dayText
  simp only [parseMonthDay, parseDigits_pad (by decide) monthFits, Option.bind_eq_bind, Option.bind_some, skipSeparator,
    dayText]

/-- A date is read back from its text. -/
theorem fromisoformat_isoformat {date : Date} (made : date.Exists) : fromisoformat date.isoformat = some date := by
  obtain ⟨year, month, day, parts⟩ : ∃ year month day, date.ymd = (year, month, day) := ⟨_, _, _, rfl⟩
  have valid := ofYmd_ymd made parts
  obtain ⟨yearFits, monthFits, dayFits⟩ := ofYmd_eq_some valid
  have text := isoformat_toList parts
  have ten : (date.isoformat.toList.map Char.utf8Size).sum = 10 := by
    rw [text, List.map_append, List.map_cons, List.map_append, List.map_cons, pad_sizes (by decide) yearFits,
      pad_sizes (by decide) monthFits, pad_sizes (by decide) dayFits]
    decide
  have scanned : parseIsoformatDate date.isoformat.toList = some date := by
    have two := pad_length (by decide) monthFits
    obtain ⟨c, tail, monthText⟩ := List.exists_cons_of_length_pos (by omega : 0 < (pad 2 month).toList.length)
    have digit := pad_isDigit 2 month c (monthText ▸ List.mem_cons_self)
    have rest := parseMonthDay_pad year monthFits dayFits
    rw [text, parseIsoformatDate, parseDigits_pad (by decide) yearFits]
    rw [monthText, List.cons_append] at rest ⊢
    change (match '-' :: c :: (tail ++ '-' :: (pad 2 day).toList) with
      | '-' :: 'W' :: rest => parseIsoWeek year true rest
      | '-' :: rest => parseMonthDay year true rest
      | 'W' :: rest => parseIsoWeek year false rest
      | rest => parseMonthDay year false rest) = some date
    split
    · next week =>
      cases week
      exact absurd digit (by decide)
    · next behind =>
      cases behind
      rw [rest, valid]
    · next week => cases week
    · next other _ => exact (other _ rfl).elim
  simp only [fromisoformat, ten, scanned]
  rfl

/-- Dates with one text are one date. -/
theorem isoformat_injective {date other : Date} (made : date.Exists) (made' : other.Exists)
    (same : date.isoformat = other.isoformat) : date = other := by
  have read := fromisoformat_isoformat made
  rw [same, fromisoformat_isoformat made'] at read
  exact (Option.some.inj read).symm

end RoundTrip
end Date
