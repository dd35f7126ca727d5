import Mathlib.Data.List.Nodup
import ReleaseSelection.Proofs.Rating
import ReleaseSelection.Validation

/-!
# The cutoff of a valid profile

A quality is allowed by any entry that allows it, and ranks by the first entry that lists it. In a
valid profile there is always a cutoff, its quality is allowed, and the last entry that is allowed
stands at the cutoff or above (`Profile.hasCutoff_of_valid`). Where no quality is listed twice the
entry at the cutoff is allowed itself and the best quality meets the cutoff. A profile may list a
quality again, and then neither has to hold (`Profile.cutoff_of_repeated`).
-/

namespace ReleaseSelection

theorem violationIf_eq_nil_iff {broken : Bool} {field message : String} :
    violationIf broken field message = [] ↔ broken = false := by
  cases broken <;> simp [violationIf]

namespace Profile

variable {p : Profile} {q best : Quality} {item entry : ProfileItem} {i n last : Nat}

theorem violations_eq_nil_iff : p.violations = [] ↔
    Text.isBlankText p.name = false ∧ (∃ item ∈ p.items, item.allowed) ∧
      (p.upgradeAllowed → p.isAllowed p.cutoff) ∧ 1 ≤ p.minUpgradeFormatScore.val ∧
      ∀ size ∈ p.preferredSize, isUnusableSize size = false := by
  have unlocked : (p.upgradeAllowed && !p.isAllowed p.cutoff) = false ↔
      (p.upgradeAllowed → p.isAllowed p.cutoff) := by
    cases p.upgradeAllowed <;> simp
  simp only [violations, List.append_eq_nil_iff, violationIf_eq_nil_iff, unlocked,
    Bool.not_eq_false', List.any_eq_true, decide_eq_false_iff_not, Int.not_lt, Option.any_eq_false,
    Option.mem_def, and_assoc]

/-! ## Places in the list -/

theorem isAllowed_iff : p.isAllowed q ↔ ⟨q, true⟩ ∈ p.items := by
  rw [isAllowed, List.any_eq_true]
  constructor
  · rintro ⟨⟨quality, allowed⟩, mem, own⟩
    obtain ⟨rfl, rfl⟩ : quality = q ∧ allowed = true := by simpa using own
    exact mem
  · intro mem
    exact ⟨_, mem, by simp⟩

theorem mem_take_of_getElem? (listed : p.items[n]? = some item) (below : n < i) :
    item ∈ p.items.take i := by
  apply List.mem_of_getElem? (i := n)
  rw [List.getElem?_take_of_lt below, listed]

/-- The rank of a quality is the place of its first entry. -/
theorem rankOf_eq_some_iff : p.rankOf q = some i ↔
    (∃ item, p.items[i]? = some item ∧ item.quality = q) ∧
      ∀ lower ∈ p.items.take i, lower.quality ≠ q := by
  rw [rankOf, List.findIdx?_eq_some_iff_getElem]
  constructor
  · rintro ⟨bound, own, first⟩
    refine ⟨⟨_, List.getElem?_eq_getElem bound, beq_iff_eq.mp own⟩, fun lower mem same => ?_⟩
    obtain ⟨j, before, rfl⟩ := List.mem_take_iff_getElem.mp mem
    exact first j (by omega) (beq_iff_eq.mpr same)
  · rintro ⟨⟨item, here, rfl⟩, first⟩
    obtain ⟨bound, rfl⟩ := List.getElem?_eq_some_iff.mp here
    refine ⟨bound, beq_self_eq_true _, fun j before own => ?_⟩
    exact first _ (List.mem_take_iff_getElem.mpr ⟨j, by omega, rfl⟩) (beq_iff_eq.mp own)

/-- No entry for a quality stands below its rank. -/
theorem exists_rankOf_le (listed : p.items[n]? = some item) :
    ∃ rank, p.rankOf item.quality = some rank ∧ rank ≤ n := by
  have mem : ∃ other ∈ p.items, (other.quality == item.quality) = true :=
    ⟨item, List.mem_of_getElem? listed, beq_self_eq_true _⟩
  have ranked := List.findIdx?_eq_some_of_exists mem
  refine ⟨_, ranked, ?_⟩
  apply Nat.le_of_not_lt
  intro below
  have first := (rankOf_eq_some_iff.mp ranked).2
  exact first item (mem_take_of_getElem? listed below) rfl

theorem le_rankOf {rank : Nat} (ranked : p.rankOf q = some rank)
    (none : ∀ lower ∈ p.items.take i, lower.quality ≠ q) : i ≤ rank := by
  apply Nat.le_of_not_lt
  intro below
  obtain ⟨⟨first, here, own⟩, -⟩ := rankOf_eq_some_iff.mp ranked
  exact none first (mem_take_of_getElem? here below) own

/-- An entry is allowed where its quality is not listed as refused. -/
theorem allowed_of_not_mem (listed : item ∈ p.items) (once : ⟨item.quality, false⟩ ∉ p.items) :
    item.allowed := by
  apply Classical.byContradiction
  intro refused
  apply once
  rwa [← Bool.eq_false_iff.mpr refused]

theorem exists_firstAllowed (choice : ∃ item ∈ p.items, item.allowed) :
    ∃ q, p.firstAllowed = some q ∧ p.isAllowed q := by
  obtain ⟨item, found⟩ := Option.isSome_iff_exists.mp (List.find?_isSome.mpr choice)
  refine ⟨item.quality, by rw [firstAllowed, found, Option.map_some], ?_⟩
  have allowed := List.find?_some found
  exact List.any_eq_true.mpr ⟨item, List.mem_of_find?_eq_some found, by simp [allowed]⟩

/-- The last quality that is allowed comes from the last entry that is. -/
theorem exists_lastAllowed (choice : ∃ item ∈ p.items, item.allowed) :
    ∃ (q : Quality) (last : Nat), p.lastAllowed = some q ∧ p.items[last]? = some ⟨q, true⟩ ∧
      ∀ (n : Nat) (item : ProfileItem), p.items[n]? = some item → item.allowed → n ≤ last := by
  have found : (p.items.reverse.find? (·.allowed)).isSome := by
    simpa only [List.find?_isSome, List.mem_reverse] using choice
  obtain ⟨⟨q, allowed⟩, found⟩ := Option.isSome_iff_exists.mp found
  obtain ⟨rfl, after, before, backwards, none⟩ := List.find?_eq_some_iff_append.mp found
  have split : p.items = before.reverse ++ ⟨q, true⟩ :: after.reverse := by
    rw [← List.reverse_reverse p.items, backwards]
    simp
  refine ⟨q, before.reverse.length, by rw [lastAllowed, found, Option.map_some], ?_, ?_⟩
  · rw [split, List.getElem?_append_right (Nat.le_refl _), Nat.sub_self, List.getElem?_cons_zero]
  · intro n item listed allowed
    apply Nat.le_of_not_lt
    intro above
    rw [split, List.getElem?_append_right (by omega),
      show n - before.reverse.length = n - before.reverse.length - 1 + 1 by omega,
      List.getElem?_cons_succ] at listed
    have later := List.mem_reverse.mp (List.mem_of_getElem? listed)
    simpa [allowed] using none item later

/-! ## The cutoff -/

/-- The quality with which the profile is content. -/
def contentWith (p : Profile) : Option Quality :=
  if p.upgradeAllowed then some p.cutoff else p.firstAllowed

theorem cutoffIndex_eq : p.cutoffIndex = p.contentWith.bind p.rankOf := rfl

theorem exists_contentWith (choice : ∃ item ∈ p.items, item.allowed)
    (cutoff : p.upgradeAllowed → p.isAllowed p.cutoff) :
    ∃ q, p.contentWith = some q ∧ p.isAllowed q := by
  unfold contentWith
  split
  · rename_i unlocked
    exact ⟨_, rfl, cutoff unlocked⟩
  · exact exists_firstAllowed choice

/-- The entry at the cutoff, the last entry that is allowed, and how they stand to each other. -/
structure HasCutoff (p : Profile) (i last : Nat) (entry : ProfileItem) (best : Quality) : Prop where
  cutoffIndex : p.cutoffIndex = some i
  atCutoff : p.items[i]? = some entry
  isAllowed : p.isAllowed entry.quality
  lastAllowed : p.lastAllowed = some best
  atLast : p.items[last]? = some ⟨best, true⟩
  isLast : ∀ (n : Nat) (item : ProfileItem), p.items[n]? = some item → item.allowed → n ≤ last
  cutoff_le : i ≤ last
  ranked : ∃ rank, p.rankOf best = some rank

/-- The best quality meets the cutoff unless it is listed again below the cutoff. -/
theorem HasCutoff.met (h : p.HasCutoff i last entry best)
    (none : ∀ lower ∈ p.items.take i, lower.quality ≠ best) :
    ∃ rank, p.rankOf best = some rank ∧ i ≤ rank ∧ p.qualityCutoffMet best := by
  obtain ⟨rank, ranked⟩ := h.ranked
  have above := le_rankOf ranked none
  refine ⟨rank, ranked, above, ?_⟩
  rw [qualityCutoffMet, h.cutoffIndex, ranked]
  exact decide_eq_true above

/-- A profile in which every quality can be told by its one entry. -/
def ListsOnce (p : Profile) : Prop := (p.items.map (·.quality)).Nodup

theorem ListsOnce.item_inj (once : p.ListsOnce) {a b : ProfileItem} (ha : a ∈ p.items)
    (hb : b ∈ p.items) (same : a.quality = b.quality) : a = b :=
  List.inj_on_of_nodup_map once ha hb same

theorem HasCutoff.allowed_of_listsOnce (h : p.HasCutoff i last entry best) (once : p.ListsOnce) :
    entry.allowed := by
  apply allowed_of_not_mem (List.mem_of_getElem? h.atCutoff)
  intro refused
  cases once.item_inj (isAllowed_iff.mp h.isAllowed) refused rfl

theorem HasCutoff.met_of_listsOnce (h : p.HasCutoff i last entry best) (once : p.ListsOnce) :
    ∃ rank, p.rankOf best = some rank ∧ i ≤ rank ∧ p.qualityCutoffMet best := by
  apply h.met
  intro lower below same
  have other : lower = ⟨best, true⟩ :=
    once.item_inj (List.mem_of_mem_take below) (List.mem_of_getElem? h.atLast) same
  have above : lower ∈ p.items.drop i := by
    rw [other]
    apply List.mem_of_getElem? (i := last - i)
    rw [List.getElem?_drop, Nat.add_sub_cancel' h.cutoff_le, h.atLast]
  exact List.disjoint_take_drop once.of_map (Nat.le_refl i) below above

theorem exists_hasCutoff (choice : ∃ item ∈ p.items, item.allowed)
    (cutoff : p.upgradeAllowed → p.isAllowed p.cutoff) :
    ∃ i last entry best, p.HasCutoff i last entry best := by
  obtain ⟨q, content, allowed⟩ := exists_contentWith choice cutoff
  obtain ⟨best, last, lastAllowed, atLast, isLast⟩ := exists_lastAllowed choice
  obtain ⟨n, listed⟩ := List.mem_iff_getElem?.mp (isAllowed_iff.mp allowed)
  obtain ⟨i, ranked, le⟩ := exists_rankOf_le listed
  obtain ⟨⟨entry, atCutoff, rfl⟩, -⟩ := rankOf_eq_some_iff.mp ranked
  obtain ⟨rank, bestRanked, -⟩ := exists_rankOf_le atLast
  have index : p.cutoffIndex = some i := by rw [cutoffIndex_eq, content, Option.bind_some, ranked]
  exact ⟨i, last, entry, best, index, atCutoff, allowed, lastAllowed, atLast, isLast,
    Nat.le_trans le (isLast n _ listed rfl), rank, bestRanked⟩

/-- **A valid profile has a cutoff, and one that lists no quality twice has a cutoff that is allowed
and that its best quality meets.** -/
theorem hasCutoff_of_valid (valid : p.violations = []) :
    ∃ i last entry best, p.HasCutoff i last entry best ∧
      (p.ListsOnce → entry.allowed ∧
        ∃ rank, p.rankOf best = some rank ∧ i ≤ rank ∧ p.qualityCutoffMet best) := by
  obtain ⟨-, choice, cutoff, -⟩ := violations_eq_nil_iff.mp valid
  obtain ⟨i, last, entry, best, drawn⟩ := exists_hasCutoff choice cutoff
  exact ⟨i, last, entry, best, drawn, fun once =>
    ⟨drawn.allowed_of_listsOnce once, drawn.met_of_listsOnce once⟩⟩

/-- Content with the second of three qualities, and with the third all the more. -/
theorem hasCutoff_of_valid_small :
    small.violations = [] ∧ small.HasCutoff 1 2 ⟨.retail, true⟩ .portable ∧ small.ListsOnce ∧
      small.qualityCutoffMet .portable := by
  have valid : small.violations = [] := by decide
  have once : small.ListsOnce := by
    unfold ListsOnce
    decide
  obtain ⟨i, last, entry, best, drawn, plain⟩ := hasCutoff_of_valid valid
  obtain rfl : 1 = i := Option.some.inj drawn.cutoffIndex
  obtain rfl : ⟨.retail, true⟩ = entry := Option.some.inj drawn.atCutoff
  obtain rfl : Quality.portable = best := Option.some.inj drawn.lastAllowed
  obtain rfl : 2 = last := by
    have least := drawn.isLast 2 _ rfl rfl
    have bound := (List.getElem?_eq_some_iff.mp drawn.atLast).1
    exact Nat.le_antisymm least (Nat.le_of_lt_succ bound)
  obtain ⟨-, -, -, -, met⟩ := plain once
  exact ⟨valid, drawn, once, met⟩

/-- Retail is listed on both sides of scene, and scene both ways. -/
def repeated : Profile :=
  ofItems .nil "Repeated"
    [⟨.retail, true⟩, ⟨.scene, false⟩, ⟨.scene, true⟩, ⟨.retail, true⟩] .scene

/-- A valid profile that repeats qualities: the entry at the cutoff is not allowed, and the best
quality ranks below the cutoff and does not meet it. -/
theorem cutoff_of_repeated :
    repeated.violations = [] ∧
      (¬ ∃ i item, repeated.cutoffIndex = some i ∧ repeated.items[i]? = some item ∧
        item.allowed) ∧
      (¬ ∃ i q rank, repeated.cutoffIndex = some i ∧ repeated.lastAllowed = some q ∧
        repeated.rankOf q = some rank ∧ i ≤ rank) ∧
      ¬ ∃ q, repeated.lastAllowed = some q ∧ repeated.qualityCutoffMet q := by
  have index : repeated.cutoffIndex = some 1 := rfl
  have best : repeated.lastAllowed = some .retail := rfl
  refine ⟨by decide, ?_, ?_, ?_⟩
  · rintro ⟨i, item, cutoff, listed, allowed⟩
    obtain rfl := Option.some.inj (index.symm.trans cutoff)
    cases listed
    cases allowed
  · rintro ⟨i, q, rank, cutoff, last, ranked, above⟩
    obtain rfl := Option.some.inj (index.symm.trans cutoff)
    obtain rfl := Option.some.inj (best.symm.trans last)
    cases ranked
    cases above
  · rintro ⟨q, last, met⟩
    obtain rfl := Option.some.inj (best.symm.trans last)
    cases met

end Profile

end ReleaseSelection
