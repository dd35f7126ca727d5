/-!
# Faults

A fault ends a computation without an answer. Sums of format scores fault when they leave the
range of scores, a batch faults when it is to run more evaluations at once than there may be, a
variable when its text is cut inside a character, and a check may fault with a message of its own.
Steps taken in turn give an answer exactly when each of them does (`Fault.bind_eq_ok_iff`).
-/

namespace ReleaseSelection

structure Fault where
  message : String
  deriving DecidableEq, Repr

namespace Fault

def overflow : Fault := ⟨"attempt to add with overflow"⟩

def concurrency : Fault :=
  ⟨"a semaphore may not have more than MAX_PERMITS permits (2305843009213693951)"⟩

variable {ε α β : Type}

theorem bind_eq_ok_iff {x : Except ε α} {f : α → Except ε β} {b : β} :
    x >>= f = .ok b ↔ ∃ a, x = .ok a ∧ f a = .ok b := by
  cases x with
  | error fault => exact ⟨nofun, nofun⟩
  | ok a => exact ⟨fun h => ⟨a, rfl, h⟩, fun ⟨_, h, hf⟩ => by cases h; exact hf⟩

theorem map_eq_ok_iff {x : Except ε α} {f : α → β} {b : β} :
    f <$> x = .ok b ↔ ∃ a, x = .ok a ∧ f a = b := by
  cases x with
  | error fault => exact ⟨nofun, nofun⟩
  | ok a =>
    constructor
    · intro h
      exact ⟨a, rfl, Except.ok.inj h⟩
    · rintro ⟨_, h, rfl⟩
      cases h
      rfl

theorem pure_eq_ok_iff {a b : α} : (pure a : Except ε α) = .ok b ↔ a = b :=
  ⟨Except.ok.inj, congrArg Except.ok⟩

end Fault

end ReleaseSelection
