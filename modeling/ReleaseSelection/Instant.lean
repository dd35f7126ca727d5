import ReleaseSelection.Instant.Calendar

/-!
# Points of time

Instants count from 1970-01-01T00:00:00Z and keep nanoseconds. A leap second is told apart from
the second that follows it, so a difference of two instants counts one that lies between them.
-/

namespace ReleaseSelection

/-- Whole seconds and nanoseconds. Within a leap second `nano` goes on from 10⁹ while `second`
stays at the second before it. -/
structure Instant where
  second : Int
  nano : Nat
  deriving DecidableEq, Repr

namespace Instant

instance : LE Instant := ⟨fun a b => a.second < b.second ∨ a.second = b.second ∧ a.nano ≤ b.nano⟩

instance : LT Instant := ⟨fun a b => a.second < b.second ∨ a.second = b.second ∧ a.nano < b.nano⟩

theorem le_def {a b : Instant} :
    a ≤ b ↔ a.second < b.second ∨ a.second = b.second ∧ a.nano ≤ b.nano := Iff.rfl

theorem lt_def {a b : Instant} :
    a < b ↔ a.second < b.second ∨ a.second = b.second ∧ a.nano < b.nano := Iff.rfl

instance (a b : Instant) : Decidable (a ≤ b) := decidable_of_iff _ le_def.symm

instance (a b : Instant) : Decidable (a < b) := decidable_of_iff _ lt_def.symm

theorem le_refl (a : Instant) : a ≤ a := by simp [le_def]

theorem le_trans {a b c : Instant} (hab : a ≤ b) (hbc : b ≤ c) : a ≤ c := by
  rw [le_def] at *
  omega

theorem le_total (a b : Instant) : a ≤ b ∨ b ≤ a := by
  simp only [le_def]
  omega

theorem le_antisymm {a b : Instant} (hab : a ≤ b) (hba : b ≤ a) : a = b := by
  rw [le_def] at *
  cases a
  cases b
  simp only [mk.injEq]
  simp only at hab hba
  omega

def nanosPerSecond : Nat := 1000000000

def secondsPerDay : Int := 86400

def isLeap (t : Instant) : Bool := nanosPerSecond ≤ t.nano

def secondOfDay (t : Instant) : Int := t.second % secondsPerDay

/-- The leap second that lies between two times of day, as seen from the difference of their
whole seconds. -/
def leapSince (t since : Instant) : Int :=
  if since.secondOfDay < t.secondOfDay ∧ since.isLeap then 1
  else if t.secondOfDay < since.secondOfDay ∧ t.isLeap then -1
  else 0

/-- The nanoseconds from `since` to `t`, negative when `t` is earlier. -/
def nanosSince (t since : Instant) : Int :=
  (t.second - since.second + t.leapSince since) * nanosPerSecond + (t.nano - since.nano)

/-- Whole minutes of a span of nanoseconds, a part of a minute dropped towards zero. -/
def minutes (nanos : Int) : Int := nanos.tdiv 60000000000

def milliseconds (nanos : Int) : Int := nanos.tdiv 1000000

def hours (n : Int) : Int := n * 3600000000000

/-- Dates from the year -262143 to the year 262142 can be represented. -/
def isRepresentable (second : Int) : Bool :=
  -262143 ≤ Calendar.yearOf (second / secondsPerDay + 719162) &&
    Calendar.yearOf (second / secondsPerDay + 719162) ≤ 262142

/-- The instant a number of days earlier, if it can be represented. A leap second moved back by
whole days becomes the second after it, moved forth the second before it. -/
def daysBefore? (t : Instant) (days : Int) : Option Instant :=
  let moved : Instant :=
    if t.isLeap ∧ 0 < days then ⟨t.second + 1 - days * secondsPerDay, t.nano - nanosPerSecond⟩
    else if t.isLeap ∧ days < 0 then ⟨t.second - days * secondsPerDay, t.nano - nanosPerSecond⟩
    else ⟨t.second - days * secondsPerDay, t.nano⟩
  if isRepresentable moved.second then some moved else none

theorem nanosSince_of_not_isLeap {t since : Instant} (ht : t.isLeap = false)
    (hs : since.isLeap = false) :
    t.nanosSince since = (t.second - since.second) * nanosPerSecond + (t.nano - since.nano) := by
  simp [nanosSince, leapSince, ht, hs]

end Instant

end ReleaseSelection
