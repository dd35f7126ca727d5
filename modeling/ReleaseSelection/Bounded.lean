/-!
# Integers within bounds

Scores, counts, sizes and periods are integers of a fixed range. `ofInt?` admits exactly the
integers of the range, and `add?` is addition that fails outside it.
-/

namespace ReleaseSelection

/-- An integer from `lo` to `hi`, both included. -/
structure Bounded (lo hi : Int) where
  val : Int
  lo_le : lo ≤ val
  le_hi : val ≤ hi
  deriving DecidableEq, Repr

/-- Format scores, indexer priorities and the order of delay profiles. -/
abbrev Score := Bounded (-2147483648) 2147483647

/-- Version parts, tags, minutes and swarm counts. -/
abbrev Count := Bounded 0 4294967295

/-- Sizes in bytes and limits on a batch. -/
abbrev Size := Bounded 0 18446744073709551615

/-- Windows of time in hours or days. -/
abbrev Period := Bounded (-9223372036854775808) 9223372036854775807

/-- Bounds that lie in order, so that the range is not empty. -/
class Bounds (lo hi : Int) : Prop where
  le : lo ≤ hi

instance : Bounds (-2147483648) 2147483647 := ⟨by decide⟩

instance : Bounds 0 4294967295 := ⟨by decide⟩

instance : Bounds 0 18446744073709551615 := ⟨by decide⟩

instance : Bounds (-9223372036854775808) 9223372036854775807 := ⟨by decide⟩

namespace Bounded

variable {lo hi : Int}

def ofInt? (n : Int) : Option (Bounded lo hi) :=
  if h : lo ≤ n ∧ n ≤ hi then some ⟨n, h.1, h.2⟩ else none

instance : Ord (Bounded lo hi) := ⟨fun a b => compare a.val b.val⟩

def add? (a b : Bounded lo hi) : Option (Bounded lo hi) := ofInt? (a.val + b.val)

/-- The integer of the range that is nearest to `n`. -/
def saturate [Bounds lo hi] (n : Int) : Bounded lo hi :=
  ⟨max lo (min hi n), Int.le_max_left .., Int.max_le.mpr ⟨Bounds.le, Int.min_le_left ..⟩⟩

/-- A numeral outside the range stands for the end that is nearest to it. -/
instance [Bounds lo hi] (n : Nat) : OfNat (Bounded lo hi) n := ⟨saturate n⟩

def toNat (a : Bounded lo hi) : Nat := a.val.toNat

theorem val_inj {a b : Bounded lo hi} : a.val = b.val ↔ a = b := by
  cases a; cases b; simp

theorem val_saturate [Bounds lo hi] (n : Int) :
    (saturate n : Bounded lo hi).val = max lo (min hi n) := rfl

/-- What saturation cuts off at the upper end lay above every integer of the range. -/
theorem val_saturate_lt_iff [Bounds lo hi] {n : Int} (above : lo ≤ n) (a : Bounded lo hi) :
    (saturate n : Bounded lo hi).val < a.val ↔ n < a.val := by
  have least := a.lo_le
  have greatest := a.le_hi
  rw [val_saturate]
  omega

theorem ofInt?_val (a : Bounded lo hi) : ofInt? a.val = some a := by
  simp [ofInt?, a.lo_le, a.le_hi]

theorem ofInt?_eq_some_iff {n : Int} {a : Bounded lo hi} : ofInt? n = some a ↔ a.val = n := by
  constructor
  · intro h
    unfold ofInt? at h
    split at h
    · cases h; rfl
    · cases h
  · rintro rfl
    exact ofInt?_val a

theorem add?_eq_some_iff {a b c : Bounded lo hi} : add? a b = some c ↔ c.val = a.val + b.val :=
  ofInt?_eq_some_iff

end Bounded

end ReleaseSelection
