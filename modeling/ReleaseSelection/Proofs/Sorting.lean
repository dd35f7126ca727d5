/-!
# Stable sorting

A stable sort by a key leaves the elements of each key in the order in which they came
(`keepsTies_mergeSort`). With the keys in order nothing is left open: two lists that agree on the
elements of every key and are both sorted are equal (`KeepsTies.eq_of_pairwise`). What a search
finds first in a sorted list can be told from the list as it came (`find?_mergeSort_eq_some_iff`).
-/

namespace ReleaseSelection

section
variable {α κ : Type} [BEq κ] [LawfulBEq κ] {key : α → κ} {xs ys : List α}

/-- For each key both lists have the same elements in the same order. -/
def KeepsTies (key : α → κ) (xs ys : List α) : Prop :=
  ∀ k, xs.filter (key · == k) = ys.filter (key · == k)

theorem KeepsTies.mem_iff (h : KeepsTies key xs ys) {x : α} : x ∈ xs ↔ x ∈ ys := by
  have tied := congrArg (x ∈ ·) (h (key x))
  simpa using tied

theorem KeepsTies.perm (h : KeepsTies key xs ys) : xs.Perm ys := by
  classical
  refine List.perm_iff_count.mpr fun x => ?_
  have own (zs : List α) : (zs.filter (key · == key x)).count x = zs.count x :=
    List.count_filter (beq_self_eq_true _)
  rw [← own xs, h, own]

omit [LawfulBEq κ] in
theorem KeepsTies.filter (h : KeepsTies key xs ys) (p : α → Bool) :
    KeepsTies key (xs.filter p) (ys.filter p) := by
  intro k
  have swap (zs : List α) :
      (zs.filter p).filter (key · == k) = (zs.filter (key · == k)).filter p := by
    simp only [List.filter_filter, Bool.and_comm]
  rw [swap, h k, swap]

/-- Of two sorted lists that keep each other's ties, each has the head of the other as its own:
were the heads of different keys, each would have to come before the other. -/
theorem KeepsTies.eq_of_pairwise {R : κ → κ → Prop} (antisymm : ∀ {k l}, R k l → R l k → k = l)
    (h : KeepsTies key xs ys) (hx : xs.Pairwise fun a b => R (key a) (key b))
    (hy : ys.Pairwise fun a b => R (key a) (key b)) : xs = ys := by
  induction xs generalizing ys with
  | nil => exact (List.nil_perm.mp h.perm).symm
  | cons x xs ih =>
    cases ys with
    | nil => exact List.perm_nil.mp h.perm
    | cons y ys =>
      have same : key x = key y := by
        apply Classical.byContradiction
        intro other
        have later : x ∈ ys := by
          have mem := h.mem_iff.mp (List.mem_cons_self (a := x))
          exact (List.mem_cons.mp mem).resolve_left fun eq => other (congrArg key eq)
        have earlier : y ∈ xs := by
          have mem := h.mem_iff.mpr (List.mem_cons_self (a := y))
          exact (List.mem_cons.mp mem).resolve_left fun eq => other (congrArg key eq.symm)
        exact other (antisymm (List.rel_of_pairwise_cons hx earlier)
          (List.rel_of_pairwise_cons hy later))
      have heads := h (key x)
      simp only [List.filter_cons, beq_self_eq_true, if_true, same, List.cons.injEq] at heads
      obtain ⟨rfl, _⟩ := heads
      have rest : KeepsTies key xs ys := by
        intro k
        have all := h k
        simp only [List.filter_cons] at all
        split at all
        · exact (List.cons_inj_right x).mp all
        · exact all
      rw [ih rest hx.tail hy.tail]

/-- Sorting keeps ties where elements of one key may stand in either order. -/
theorem keepsTies_mergeSort {le : α → α → Bool} (trans : ∀ a b c, le a b → le b c → le a c)
    (total : ∀ a b, le a b || le b a) (tied : ∀ {a b}, key a = key b → le a b) (xs : List α) :
    KeepsTies key (xs.mergeSort le) xs := by
  intro k
  have sorted : (xs.filter (key · == k)).Pairwise fun a b => le a b := by
    rw [List.pairwise_filter]
    refine List.pairwise_of_forall fun a b ha hb => ?_
    exact tied ((beq_iff_eq.mp ha).trans (beq_iff_eq.mp hb).symm)
  have inside := List.sublist_mergeSort trans total sorted List.filter_sublist
  have sublist := inside.filter (key · == k)
  rw [List.filter_filter] at sublist
  simp only [Bool.and_self] at sublist
  exact (sublist.eq_of_length ((List.mergeSort_perm xs le).filter _).length_eq.symm).symm

end

/-! ## The first of a sorted list -/

section
variable {α : Type} {le : α → α → Bool} {p : α → Bool} {x y : α} {xs ys : List α}

/-- Among the elements that satisfy a condition, those that came earlier are greater than this one
and those that came later are not less. -/
def IsForemost (le : α → α → Bool) (p : α → Bool) (xs : List α) (x : α) : Prop :=
  ∃ before after, xs = before ++ x :: after ∧ p x ∧
    (∀ y ∈ before, p y → ¬ le y x) ∧ ∀ y ∈ after, p y → le x y

theorem IsForemost.mem (h : IsForemost le p xs x) : x ∈ xs ∧ p x := by
  obtain ⟨before, after, rfl, satisfies, _⟩ := h
  exact ⟨List.mem_append_right before List.mem_cons_self, satisfies⟩

/-- Of two foremost elements one would come earlier, and so be greater and not greater. -/
theorem IsForemost.unique (hx : IsForemost le p xs x) (hy : IsForemost le p xs y) : x = y := by
  obtain ⟨before, after, rfl, px, greaterX, notLessX⟩ := hx
  obtain ⟨before', after', split, py, greaterY, notLessY⟩ := hy
  rcases List.append_eq_append_iff.mp split with ⟨between, rfl, rest⟩ | ⟨between, rfl, rest⟩
  · cases between with
    | nil => exact (List.cons.inj rest).1
    | cons z between =>
      obtain ⟨rfl, rfl⟩ := List.cons.inj rest
      have earlier := greaterY x (List.mem_append_right before List.mem_cons_self) px
      have later := notLessX y (List.mem_append_right between List.mem_cons_self) py
      exact absurd later earlier
  · cases between with
    | nil => exact (List.cons.inj rest).1.symm
    | cons z between =>
      obtain ⟨rfl, rfl⟩ := List.cons.inj rest
      have earlier := greaterX y (List.mem_append_right before' List.mem_cons_self) py
      have later := notLessY x (List.mem_append_right between List.mem_cons_self) px
      exact absurd later earlier

variable (trans : ∀ a b c, le a b → le b c → le a c) (total : ∀ a b, le a b || le b a)
include trans total

/-- The first element of a list comes, in the sorted one, behind some that are less and ahead of
those that are not. So a search meets it first unless it meets one that is less. -/
theorem IsForemost.of_find? (found : (xs.mergeSort le).find? p = some x) :
    IsForemost le p xs x := by
  induction xs with
  | nil => simp at found
  | cons first xs ih =>
    obtain ⟨lesser, rest, sorted, others, less⟩ := List.mergeSort_cons trans total first xs
    have ordered := List.pairwise_mergeSort trans total (first :: xs)
    rw [sorted] at ordered
    cases met : lesser.find? p with
    | some y =>
      have same : y = x := by simpa [sorted, met] using found
      subst same
      obtain ⟨before, after, rfl, satisfies, greater, notLess⟩ := ih (by simp [others, met])
      have behind : ¬ le first y := by
        simpa using less y (List.mem_of_find?_eq_some met)
      exact ⟨first :: before, after, rfl, satisfies,
        List.forall_mem_cons.mpr ⟨fun _ => behind, greater⟩, notLess⟩
    | none =>
      by_cases satisfies : p first
      · have same : first = x := by simpa [sorted, met, satisfies] using found
        subst same
        refine ⟨[], xs, rfl, satisfies, List.forall_mem_nil _, fun y mem py => ?_⟩
        have placed : y ∈ lesser ++ rest := by rwa [← others, List.mem_mergeSort]
        rcases List.mem_append.mp placed with early | late
        · exact absurd py (List.find?_eq_none.mp met y early)
        · exact List.rel_of_pairwise_cons (List.pairwise_append.mp ordered).2.1 late
      · obtain ⟨before, after, rfl, px, greater, notLess⟩ :=
          ih (by simpa [sorted, others, met, satisfies] using found)
        exact ⟨first :: before, after, rfl, px,
          List.forall_mem_cons.mpr ⟨fun py => absurd py satisfies, greater⟩, notLess⟩

theorem find?_mergeSort_eq_some_iff :
    (xs.mergeSort le).find? p = some x ↔ IsForemost le p xs x := by
  refine ⟨IsForemost.of_find? trans total, fun foremost => ?_⟩
  cases found : (xs.mergeSort le).find? p with
  | none =>
    have missed := List.find?_eq_none.mp found x (List.mem_mergeSort.mpr foremost.mem.1)
    exact absurd foremost.mem.2 missed
  | some y => rw [(IsForemost.of_find? trans total found).unique foremost]

/-- Elements that are equal where neither is less can be sorted in one way only. -/
theorem mergeSort_eq_of_perm (perm : xs.Perm ys)
    (antisymm : ∀ a ∈ xs, ∀ b ∈ xs, le a b → le b a → a = b) :
    xs.mergeSort le = ys.mergeSort le := by
  have same : (xs.mergeSort le).Perm (ys.mergeSort le) :=
    ((List.mergeSort_perm xs le).trans perm).trans (List.mergeSort_perm ys le).symm
  apply same.eq_of_pairwise _ (List.pairwise_mergeSort trans total xs)
    (List.pairwise_mergeSort trans total ys)
  intro a b ha hb
  exact antisymm a (List.mem_mergeSort.mp ha) b (perm.mem_iff.mpr (List.mem_mergeSort.mp hb))

end

end ReleaseSelection
