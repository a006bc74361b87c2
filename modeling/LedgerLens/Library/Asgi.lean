import Mathlib.Data.List.Basic
import Mathlib.Tactic.Common

namespace Asgi

abbrev Bytes := List UInt8

/-- The messages of an HTTP response, whose absent parts have their defaults. -/
inductive Message where
  | start (status : Int) (headers : List (Bytes × Bytes))
  | body (content : Bytes) (moreBody : Bool)
  deriving DecidableEq

def Message.isStart : Message → Bool
  | start .. => true
  | body .. => false

/-- The last message of a response. -/
def Message.isFinal : Message → Bool
  | start .. => false
  | body _ moreBody => !moreBody

/-- How far a response has come. -/
inductive Phase where
  | idle
  | started
  | finished
  deriving DecidableEq

def Phase.next : Phase → Message → Option Phase
  | .idle, .start .. => some .started
  | .started, .body _ moreBody => some (if moreBody then .started else .finished)
  | _, _ => none

/-- The phase after some messages, as long as they make up a part of a valid response. -/
def Phase.after (phase : Phase) (messages : List Message) : Option Phase := messages.foldlM Phase.next phase

/-- The messages of a response up to some point. -/
def ResponsePrefix (messages : List Message) : Prop := (Phase.idle.after messages).isSome

instance : DecidablePred ResponsePrefix := fun _ => inferInstanceAs (Decidable (_ = _))

namespace Phase

@[simp] theorem after_nil (phase : Phase) : phase.after [] = some phase := rfl

theorem after_cons_eq_some {phase final : Phase} {message : Message} {rest : List Message} :
    phase.after (message :: rest) = some final ↔
      ∃ next, phase.next message = some next ∧ next.after rest = some final := by
  rw [after, List.foldlM_cons]
  exact Option.bind_eq_some_iff

theorem after_append_eq_some {phase final : Phase} {before rest : List Message} :
    phase.after (before ++ rest) = some final ↔
      ∃ middle, phase.after before = some middle ∧ middle.after rest = some final := by
  rw [after, List.foldlM_append]
  exact Option.bind_eq_some_iff

theorem after_finished {final : Phase} {messages : List Message} (valid : finished.after messages = some final) :
    messages = [] := by
  cases messages with
  | nil => rfl
  | cons message rest =>
    obtain ⟨_, step, _⟩ := after_cons_eq_some.mp valid
    cases step

/-- Once a response has begun, no other one does. -/
theorem not_isStart_of_after {phase final : Phase} {messages : List Message} (begun : phase ≠ idle)
    (valid : phase.after messages = some final) : ∀ message ∈ messages, ¬ message.isStart := by
  induction messages generalizing phase with
  | nil => exact List.forall_mem_nil _
  | cons message rest ih =>
    obtain ⟨next, step, valid⟩ := after_cons_eq_some.mp valid
    match phase, message with
    | .idle, _ => exact absurd rfl begun
    | .started, .start .. => cases step
    | .started, .body _ moreBody =>
      cases step
      exact List.forall_mem_cons.mpr ⟨nofun, ih (by cases moreBody <;> nofun) valid⟩
    | .finished, .start .. => cases step
    | .finished, .body .. => cases step

/-- Messages changed without a change of their kind lead through the same phases. -/
theorem after_map {f : Message → Message}
    (alike : ∀ (phase : Phase) message, phase.next (f message) = phase.next message) (phase : Phase)
    (messages : List Message) : phase.after (messages.map f) = phase.after messages := by
  rw [after, List.foldlM_map]
  simp only [alike]
  rfl

end Phase

/-- A response has one start. -/
theorem ResponsePrefix.starts_le_one {messages : List Message} (valid : ResponsePrefix messages) :
    (messages.filter Message.isStart).length ≤ 1 := by
  obtain ⟨final, valid⟩ := Option.isSome_iff_exists.mp valid
  cases messages with
  | nil => exact Nat.zero_le 1
  | cons message rest =>
    obtain ⟨next, step, valid⟩ := Phase.after_cons_eq_some.mp valid
    have begun : next ≠ .idle := by
      cases message <;> cases step
      nofun
    have others := List.filter_eq_nil_iff.mpr (Phase.not_isStart_of_after begun valid)
    calc ((message :: rest).filter Message.isStart).length
        ≤ (rest.filter Message.isStart).length + 1 := by
          rw [List.filter_cons]
          split
          · exact Nat.le_refl _
          · exact Nat.le_succ _
      _ = 1 := by rw [others]; rfl

/-- Its first message is the start. -/
theorem ResponsePrefix.exists_isStart {messages : List Message} (valid : ResponsePrefix messages)
    (nonempty : messages ≠ []) : ∃ message ∈ messages, message.isStart := by
  obtain ⟨final, valid⟩ := Option.isSome_iff_exists.mp valid
  obtain ⟨message, rest, rfl⟩ := List.exists_cons_of_ne_nil nonempty
  obtain ⟨next, step, _⟩ := Phase.after_cons_eq_some.mp valid
  refine ⟨message, List.mem_cons_self, ?_⟩
  cases message <;> cases step
  rfl

/-- Nothing follows its final message. -/
theorem ResponsePrefix.nothing_after {before rest : List Message} {final : Message}
    (valid : ResponsePrefix (before ++ final :: rest)) (last : final.isFinal) : rest = [] := by
  obtain ⟨_, valid⟩ := Option.isSome_iff_exists.mp valid
  obtain ⟨phase, _, valid⟩ := Phase.after_append_eq_some.mp valid
  obtain ⟨next, step, valid⟩ := Phase.after_cons_eq_some.mp valid
  match phase, final with
  | .started, .body _ true => cases last
  | .started, .body _ false =>
    cases step
    exact Phase.after_finished valid

end Asgi
