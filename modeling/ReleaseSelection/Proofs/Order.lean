import ReleaseSelection.GameVersion
import ReleaseSelection.Quality

/-!
# The orders of revisions and versions

Both compare part by part, and every part is below 2³². So a revision is a numeral of two digits
and a version one of four, and comparing them is comparing integers: `Revision.compare_eq` and
`GameVersion.compare_eq`. `GameVersion.isUpgrade_iff` puts a missing version at the bottom of
that order, and `GameVersion.isUpgrade_strict` says what follows for upgrades.
-/

namespace ReleaseSelection

/-- Leading parts decide, and parts of lower place only between equal ones. -/
theorem compare_then_digit {base a b u v : Int} (hu : 0 ≤ u) (hub : u < base) (hv : 0 ≤ v)
    (hvb : v < base) :
    (compare a b).then (compare u v) = compare (a * base + u) (b * base + v) := by
  have carry : ∀ {x y : Int}, x < y → x * base + base ≤ y * base := by
    intro x y h
    have := Int.mul_le_mul_of_nonneg_right (c := base) (show x + 1 ≤ y by omega) (by omega)
    rwa [Int.add_mul, Int.one_mul] at this
  cases h : compare a b with
  | lt =>
    have := carry (Int.compare_eq_lt.mp h)
    exact (Int.compare_eq_lt.mpr (by omega)).symm
  | gt =>
    have := carry (Int.compare_eq_gt.mp h)
    exact (Int.compare_eq_gt.mpr (by omega)).symm
  | eq =>
    rw [Int.compare_eq_eq.mp h]
    cases hd : compare u v with
    | lt => exact (Int.compare_eq_lt.mpr (by have := Int.compare_eq_lt.mp hd; omega)).symm
    | eq => exact (Int.compare_eq_eq.mpr (by have := Int.compare_eq_eq.mp hd; omega)).symm
    | gt => exact (Int.compare_eq_gt.mpr (by have := Int.compare_eq_gt.mp hd; omega)).symm

/-- One more than the highest count. -/
def Count.base : Int := 4294967296

theorem Count.lt_base (n : Count) : n.val < Count.base := by
  have := n.le_hi
  unfold Count.base
  omega

theorem Count.val_zero : (0 : Count).val = 0 := rfl

/-- The integer whose digits are the parts of a revision. -/
def Revision.ordinal (r : Revision) : Int := r.version.val * Count.base + r.real.val

theorem Revision.compare_eq (a b : Revision) : compare a b = compare a.ordinal b.ordinal :=
  compare_then_digit a.real.lo_le a.real.lt_base b.real.lo_le b.real.lt_base

namespace GameVersion

/-- The integer whose digits are the parts of a version. -/
def ordinal (v : GameVersion) : Int :=
  ((v.major.val * Count.base + v.minor.val) * Count.base + v.patch.val) * Count.base + v.build.val

theorem compare_eq (a b : GameVersion) : compare a b = compare a.ordinal b.ordinal := by
  have step {x y : Int} (u v : Count) :
      (compare x y).then (compare u v) =
        compare (x * Count.base + u.val) (y * Count.base + v.val) :=
    compare_then_digit u.lo_le u.lt_base v.lo_le v.lt_base
  rw [ordinal, ordinal, ← step a.build, ← step a.patch, ← step a.minor, Ordering.then_assoc,
    Ordering.then_assoc]
  rfl

theorem ordinal_nonneg (v : GameVersion) : 0 ≤ v.ordinal := by
  have := v.major.lo_le
  have := v.minor.lo_le
  have := v.patch.lo_le
  have := v.build.lo_le
  unfold ordinal Count.base
  omega

theorem isEmpty_iff (v : GameVersion) : v.isEmpty ↔ v.ordinal = 0 := by
  have := v.major.lo_le
  have := v.minor.lo_le
  have := v.patch.lo_le
  have := v.build.lo_le
  rw [isEmpty, beq_iff_eq]
  constructor
  · rintro rfl
    rfl
  · intro h
    unfold ordinal Count.base at h
    cases v
    simp only [zero, mk.injEq, ← Bounded.val_inj, Count.val_zero] at *
    omega

/-- The place of a version that may be missing; a missing one stands with the empty one. -/
def ordinalOf (v : Option GameVersion) : Int := (v.getD zero).ordinal

theorem isUpgrade_iff (held offered : Option GameVersion) :
    isUpgrade held offered ↔ ordinalOf held < ordinalOf offered := by
  have empty : ordinalOf none = 0 := rfl
  cases offered with
  | none =>
    have : 0 ≤ ordinalOf held := ordinal_nonneg _
    simp only [isUpgrade, empty, Bool.false_eq_true, false_iff]
    omega
  | some o =>
    have nonneg := o.ordinal_nonneg
    have newer : (!o.isEmpty) = true ↔ 0 < o.ordinal := by
      rw [Bool.not_eq_true', ← Bool.not_eq_true, isEmpty_iff]
      omega
    cases held with
    | none => exact newer
    | some h =>
      simp only [isUpgrade]
      split
      · rename_i none
        rw [newer, show ordinalOf (some h) = 0 from (isEmpty_iff h).mp none]
        rfl
      · rw [beq_iff_eq, compare_eq, Int.compare_eq_gt]
        rfl

/-! ## The order that upgrades follow -/

def parts (v : GameVersion) : List Int :=
  [v.major.val, v.minor.val, v.patch.val, v.build.val]

/-- The first part that differs is the lower one. A missing version has the parts of the empty
one. -/
def IsBelow (held offered : Option GameVersion) : Prop :=
  List.Lex (· < ·) (held.getD zero).parts (offered.getD zero).parts

theorem lex_parts_iff (a b : GameVersion) :
    List.Lex (· < ·) a.parts b.parts ↔ a.ordinal < b.ordinal := by
  have inTurn : compare a b = ((compare a.major.val b.major.val).then <|
      (compare a.minor.val b.minor.val).then <| (compare a.patch.val b.patch.val).then
        (compare a.build.val b.build.val)) := rfl
  rw [← Int.compare_eq_lt, ← compare_eq, inTurn]
  simp only [Ordering.then_eq_lt, Int.compare_eq_lt, Int.compare_eq_eq, parts,
    List.cons_lex_cons_iff, List.not_lex_nil, and_false, or_false]

theorem isBelow_iff (held offered : Option GameVersion) :
    IsBelow held offered ↔ ordinalOf held < ordinalOf offered :=
  lex_parts_iff _ _

/-- **Upgrades are the strict order of versions**, up to the versions of which neither upgrades the
other. -/
theorem isUpgrade_strict :
    (∀ held offered, isUpgrade held offered ↔ IsBelow held offered) ∧
    (∀ v, ¬ isUpgrade v v) ∧
    (∀ u v w, isUpgrade u v → isUpgrade v w → isUpgrade u w) ∧
    Equivalence fun u v => ¬ isUpgrade u v ∧ ¬ isUpgrade v u := by
  refine ⟨fun held offered => ?_, ?_⟩
  · rw [isUpgrade_iff, isBelow_iff]
  simp only [isUpgrade_iff]
  refine ⟨fun _ => Int.lt_irrefl _, fun _ _ _ => Int.lt_trans, ?_⟩
  constructor
  · intro v
    exact ⟨Int.lt_irrefl _, Int.lt_irrefl _⟩
  · intro u v neither
    exact ⟨neither.2, neither.1⟩
  · intro u v w first second
    omega

/-- From no version through a build of no release to a release. -/
theorem isUpgrade_strict_build :
    (isUpgrade none (some ⟨0, 0, 0, 7⟩) ∧ isUpgrade (some ⟨0, 0, 0, 7⟩) (some ⟨1, 0, 0, 0⟩)) ∧
      IsBelow none (some ⟨0, 0, 0, 7⟩) ∧ isUpgrade none (some ⟨1, 0, 0, 0⟩) := by
  obtain ⟨below, _, trans, _⟩ := isUpgrade_strict
  have build : isUpgrade none (some ⟨0, 0, 0, 7⟩) := by decide
  have release : isUpgrade (some ⟨0, 0, 0, 7⟩) (some ⟨1, 0, 0, 0⟩) := by decide
  exact ⟨⟨build, release⟩, (below _ _).mp build, trans _ _ _ build release⟩

end GameVersion

end ReleaseSelection
