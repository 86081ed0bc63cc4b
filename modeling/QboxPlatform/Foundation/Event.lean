import Mathlib

/-!
# Notified events

An event of a discrete-event kernel holds one pending notification at most: of
several requests only the earliest is kept.
-/

namespace Foundation

/-- When the event is due, if it is notified at all. -/
structure Event where
  due : Option Nat := none
  deriving DecidableEq

namespace Event

/-- Ask for a notification at a time. -/
def notify (event : Event) (time : Nat) : Event :=
  ⟨some (event.due.elim time (min time))⟩

/-- Whether a notification is due by `now`. -/
def ready (event : Event) (now : Nat) : Bool :=
  event.due.any (· ≤ now)

/-- Whether time can advance to `later` without passing the notification. -/
def permits (event : Event) (later : Nat) : Bool :=
  event.due.all (later ≤ ·)

@[simp]
theorem notify_due_ne_none (event : Event) (time : Nat) : (event.notify time).due ≠ none := by
  simp [notify]

/-- The notification that is kept is the standing one or the new one. -/
theorem due_notify_eq {event : Event} {time due : Nat}
    (notified : (event.notify time).due = some due) :
    due ≤ time ∧ (due = time ∨ event.due = some due) := by
  cases standing : event.due with
  | none =>
      simp only [notify, standing, Option.elim_none, Option.some.injEq] at notified
      exact ⟨notified.ge, .inl notified.symm⟩
  | some earlier =>
      simp only [notify, standing, Option.elim_some, Option.some.injEq] at notified
      rcases min_choice time earlier with same | same
      · exact ⟨by omega, .inl (by omega)⟩
      · exact ⟨by omega, .inr (by rw [← notified, same])⟩

theorem le_of_due_notify {event : Event} {now time due : Nat} (later : now ≤ time)
    (timely : ∀ due, event.due = some due → now ≤ due)
    (notified : (event.notify time).due = some due) : now ≤ due := by
  rcases (due_notify_eq notified).2 with rfl | standing
  · exact later
  · exact timely due standing

/-- Time that may advance does not pass the notification. -/
theorem le_of_permits {event : Event} {later due : Nat} (permitted : event.permits later = true)
    (notified : event.due = some due) : later ≤ due := by
  simpa [permits, notified] using permitted

end Event

end Foundation
