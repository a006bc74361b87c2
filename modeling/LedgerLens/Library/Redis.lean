import Mathlib.Data.Rat.Floor
import Mathlib.Logic.Function.Basic

namespace Redis
universe u
variable {V : Type u}

/-- A value with the instant its key disappears at, if it has one. -/
structure Entry (V : Type u) where
  value : V
  expiry : Option ℚ

/-- What a server holds under its keys. -/
abbrev Store (V : Type u) := String → Option (Entry V)

def Store.empty : Store V := fun _ => none

/-- The store at an instant: keys that have come to their expiry are gone. -/
def advance (now : ℚ) (store : Store V) : Store V :=
  fun key => (store key).filter fun entry => entry.expiry.all fun expiry => now < expiry

/-- GET -/
def get (store : Store V) (key : String) : Option V := (store key).map Entry.value

/-- SET with an expiry of so many seconds. -/
def setEx (now : ℚ) (store : Store V) (key : String) (value : V) (seconds : Int) : Store V :=
  Function.update store key (some ⟨value, some (now + seconds)⟩)

/-- INCR: an absent key counts as zero, and a present one keeps its expiry. -/
def incr (store : Store Int) (key : String) : Int × Store Int :=
  let current := (get store key).getD 0 + 1
  (current, Function.update store key (some ⟨current, (store key).bind Entry.expiry⟩))

/-- EXPIRE, of a positive number of seconds. -/
def expire (now : ℚ) (store : Store V) (key : String) (seconds : Int) : Store V :=
  match store key with
  | none => store
  | some entry => Function.update store key (some { entry with expiry := some (now + seconds) })

/-- TTL, to the nearest second; negative for a key that is absent or has no expiry. -/
def ttl (now : ℚ) (store : Store V) (key : String) : Int :=
  match store key with
  | none => -2
  | some ⟨_, none⟩ => -1
  | some ⟨_, some expiry⟩ => ⌊expiry - now + 1 / 2⌋

theorem advance_eq_some {now : ℚ} {store : Store V} {key : String} {entry : Entry V} :
    advance now store key = some entry ↔ store key = some entry ∧ ∀ expiry ∈ entry.expiry, now < expiry := by
  rw [advance, Option.filter_eq_some_iff, Option.all_eq_true]
  simp only [decide_eq_true_eq, Option.mem_def]

theorem advance_eq_none {now : ℚ} {store : Store V} {key : String} (absent : store key = none) :
    advance now store key = none := by
  rw [advance, absent, Option.filter_none]

@[simp] theorem setEx_same (now : ℚ) (store : Store V) (key : String) (value : V) (seconds : Int) :
    setEx now store key value seconds key = some ⟨value, some (now + seconds)⟩ :=
  Function.update_self ..

theorem setEx_other {key other : String} (different : other ≠ key) (now : ℚ) (store : Store V) (value : V)
    (seconds : Int) : setEx now store key value seconds other = store other :=
  Function.update_of_ne different ..

theorem incr_other {key other : String} (different : other ≠ key) (store : Store Int) :
    (incr store key).2 other = store other :=
  Function.update_of_ne different ..

theorem expire_other {key other : String} (different : other ≠ key) (now : ℚ) (store : Store V) (seconds : Int) :
    expire now store key seconds other = store other := by
  unfold expire
  cases store key with
  | none => rfl
  | some entry => exact Function.update_of_ne different ..

/-- Keys expire for good. -/
theorem advance_advance {now later : ℚ} (order : now ≤ later) (store : Store V) :
    advance later (advance now store) = advance later store := by
  funext key
  refine Option.ext fun entry => ?_
  rw [advance_eq_some, advance_eq_some, advance_eq_some]
  constructor
  · rintro ⟨⟨present, _⟩, alive⟩
    exact ⟨present, alive⟩
  · rintro ⟨present, alive⟩
    exact ⟨⟨present, fun expiry member => order.trans_lt (alive expiry member)⟩, alive⟩

theorem advance_congr {store other : Store V} {key : String} (same : store key = other key) (now : ℚ) :
    advance now store key = advance now other key :=
  congrArg (Option.filter _) same

end Redis
