import Mathlib.Algebra.Order.Ring.Int
import Mathlib.Order.Basic
import Mathlib.Data.Nat.Basic
import Mathlib.Tactic.Common

/-- A proleptic Gregorian date as its ordinal; 0001-01-01 is day 1. -/
@[ext] structure Date where
  ordinal : Nat

namespace Date

instance : LinearOrder Date := LinearOrder.lift' ordinal fun _ _ => Date.ext

instance lawfulBEq : LawfulBEq Date := inferInstance

theorem le_iff {a b : Date} : a ≤ b ↔ a.ordinal ≤ b.ordinal := Iff.rfl

theorem lt_iff {a b : Date} : a < b ↔ a.ordinal < b.ordinal := Iff.rfl

def daysBeforeMonth (month : Nat) : Nat :=
  [0, 0, 31, 59, 90, 120, 151, 181, 212, 243, 273, 304, 334].getD month 365

def daysInMonth (month : Nat) : Nat :=
  [0, 31, 28, 31, 30, 31, 30, 31, 31, 30, 31, 30, 31].getD month 0

/-- Year, month and day. -/
def ymd (date : Date) : Nat × Nat × Nat :=
  let n := date.ordinal - 1
  let n400 := n / 146097
  let n := n % 146097
  let n100 := n / 36524
  let n := n % 36524
  let n4 := n / 1461
  let n := n % 1461
  let n1 := n / 365
  let n := n % 365
  let year := n400 * 400 + 1 + n100 * 100 + n4 * 4 + n1
  if n1 = 4 ∨ n100 = 4 then (year - 1, 12, 31)
  else
    let leap := n1 = 3 ∧ (n4 ≠ 24 ∨ n100 = 3)
    let guess := (n + 50) / 32
    let preceding := daysBeforeMonth guess + if 2 < guess ∧ leap then 1 else 0
    if n < preceding then
      let month := guess - 1
      let preceding := preceding - (daysInMonth month + if month = 2 ∧ leap then 1 else 0)
      (year, month, n - preceding + 1)
    else (year, guess, n - preceding + 1)

def pad (width n : Nat) : String :=
  let digits := toString n
  String.ofList (List.replicate (width - digits.length) '0') ++ digits

def isoformat (date : Date) : String :=
  let (year, month, day) := ymd date
  pad 4 year ++ "-" ++ pad 2 month ++ "-" ++ pad 2 day

end Date

/-- A date and time on its own clock face, in microseconds since 0001-01-01T00:00:00, with the UTC
offset of its time zone when it has one. Only years 1 to 9999 exist. -/
structure DateTime where
  wall : Nat
  utcoffset : Option Int
  wall_lt : wall < 3652059 * 86400000000
  utcoffset_lt : ∀ offset ∈ utcoffset, -86400000000 < offset ∧ offset < 86400000000
  deriving DecidableEq

namespace DateTime

def microsPerDay : Nat := 86400000000

/-- The first microsecond past year 9999. -/
def ceiling : Nat := 3652059 * microsPerDay

def isAware (time : DateTime) : Bool := time.utcoffset.isSome

/-- The point on the UTC time line; a naive time is read as UTC. -/
def instant (time : DateTime) : Int := time.wall - time.utcoffset.getD 0

def ofInstant (wall : Nat) (below : wall < ceiling) : DateTime :=
  ⟨wall, some 0, below, by rintro _ ⟨⟩; decide⟩

/-- 0001-01-01T00:00:00+01:00, an hour before the first moment that UTC has. -/
def earliest : DateTime := ⟨0, some 3600000000, by decide, by rintro _ ⟨⟩; decide⟩

/-- The same instant in UTC; `none` when it falls outside years 1 to 9999. -/
def astimezoneUtc (time : DateTime) : Option DateTime :=
  if inside : 0 ≤ time.instant ∧ time.instant < ceiling then
    some (ofInstant time.instant.toNat (by omega))
  else none

def isUtc (time : DateTime) : Bool := time.utcoffset = some 0

def date (time : DateTime) : Date := ⟨time.wall / microsPerDay + 1⟩

@[simp] theorem ofInstant_instant {wall : Nat} (below : wall < ceiling) :
    (ofInstant wall below).instant = wall := by
  simp [ofInstant, instant]

@[simp] theorem ofInstant_isUtc {wall : Nat} (below : wall < ceiling) : (ofInstant wall below).isUtc := by
  simp [ofInstant, isUtc]

theorem instant_of_isUtc {time : DateTime} (utc : time.isUtc) : time.instant = time.wall := by
  simp only [isUtc, decide_eq_true_eq] at utc
  simp [instant, utc]

/-- Times in UTC are determined by their instants. -/
theorem eq_of_instant {left right : DateTime} (leftUtc : left.isUtc) (rightUtc : right.isUtc)
    (same : left.instant = right.instant) : left = right := by
  rw [instant_of_isUtc leftUtc, instant_of_isUtc rightUtc] at same
  simp only [isUtc, decide_eq_true_eq] at leftUtc rightUtc
  cases left
  cases right
  simp_all

theorem astimezoneUtc_eq_some {time utc : DateTime} :
    time.astimezoneUtc = some utc ↔ utc.isUtc ∧ utc.instant = time.instant := by
  unfold astimezoneUtc
  constructor
  · intro converted
    split at converted
    · next inside =>
      cases Option.some.inj converted
      exact ⟨ofInstant_isUtc _, by rw [ofInstant_instant]; omega⟩
    · cases converted
  · rintro ⟨isUtc, same⟩
    have wall := instant_of_isUtc isUtc
    have below := utc.wall_lt
    have inside : 0 ≤ time.instant ∧ time.instant < ceiling := by
      unfold ceiling microsPerDay
      omega
    rw [dif_pos inside]
    refine congrArg some (eq_of_instant (ofInstant_isUtc _) isUtc ?_)
    rw [ofInstant_instant]
    omega

theorem astimezoneUtc_of_isUtc {time : DateTime} (utc : time.isUtc) : time.astimezoneUtc = some time :=
  astimezoneUtc_eq_some.mpr ⟨utc, rfl⟩

/-- The calendar day of an instant on the UTC time line. -/
def utcDate (time : DateTime) : Date := ⟨time.instant.toNat / microsPerDay + 1⟩

theorem date_of_isUtc {time : DateTime} (utc : time.isUtc) : time.date = time.utcDate := by
  rw [date, utcDate, instant_of_isUtc utc, Int.toNat_natCast]

theorem utcDate_mono {left right : DateTime} (order : left.instant ≤ right.instant) :
    left.utcDate ≤ right.utcDate := by
  have days := @Nat.div_le_div_right _ _ microsPerDay (Int.toNat_le_toNat order)
  exact Date.le_iff.mpr (Nat.add_le_add_right days 1)

end DateTime
