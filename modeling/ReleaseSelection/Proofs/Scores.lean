import ReleaseSelection.Proofs.Offers

/-!
# Exact scores

A sum of scores may leave the range on the way and come back, so that it is the order of the formats
that decides whether there is a score. While the weights together, each without its sign, stay in
the range, no order makes a sum leave it, and the score is the exact sum (`Profile.scoreOf_exact`).
-/

namespace ReleaseSelection

/-! ## Sums without signs -/

/-- The sum of the distances from zero. -/
def mass (ns : List Int) : Int := total (ns.map fun n => (n.natAbs : Int))

theorem total_append (ms ns : List Int) : total (ms ++ ns) = total ms + total ns := by
  induction ms with
  | nil => exact (Int.zero_add _).symm
  | cons m ms ih => rw [List.cons_append, total_cons, total_cons, ih, Int.add_assoc]

theorem mass_cons (n : Int) (ns : List Int) : mass (n :: ns) = n.natAbs + mass ns := rfl

theorem mass_append (ms ns : List Int) : mass (ms ++ ns) = mass ms + mass ns := by
  rw [mass, List.map_append, total_append]
  rfl

theorem natAbs_total_le (ns : List Int) : (total ns).natAbs ≤ mass ns := by
  induction ns with
  | nil => exact Int.le_refl 0
  | cons n ns ih =>
    rw [total_cons, mass_cons]
    omega

theorem mass_nonneg (ns : List Int) : 0 ≤ mass ns :=
  Int.le_trans (Int.natCast_nonneg _) (natAbs_total_le ns)

/-- What counts for nothing may be left out. -/
theorem total_map_filter {α : Type} {f : α → Int} {p : α → Bool} (zero : ∀ a, ¬ p a → f a = 0)
    (as : List α) : total ((as.filter p).map f) = total (as.map f) := by
  induction as with
  | nil => rfl
  | cons a as ih =>
    by_cases kept : p a
    · rw [List.filter_cons_of_pos kept, List.map_cons, List.map_cons, total_cons, total_cons, ih]
    · rw [List.filter_cons_of_neg kept, List.map_cons, total_cons, zero a kept, ih, Int.zero_add]

namespace Profile

variable {p : Profile} {formats others : List Format} {id : FormatId} {n : Int}

/-! ## Weights -/

/-- The weight of a format: that of its first entry in the table, or none. -/
inductive Weighs (p : Profile) (id : FormatId) : Int → Prop
  | listed {before after : List FormatWeight} {weight : Score}
      (entries : p.formatItems = before ++ ⟨id, weight⟩ :: after)
      (first : ∀ entry ∈ before, entry.format ≠ id) : Weighs p id weight.val
  | unlisted (absent : ∀ entry ∈ p.formatItems, entry.format ≠ id) : Weighs p id 0

def lists (p : Profile) (format : Format) : Bool := p.formatItems.any (·.format == format.id)

/-- The same formats in any order, apart from some that the table does not list. -/
def SameListed (p : Profile) (formats others : List Format) : Prop :=
  (formats.filter p.lists).Perm (others.filter p.lists)

def weights (p : Profile) (formats : List Format) : List Int :=
  formats.map fun format => (p.formatScore format.id).val

theorem weighs_formatScore (p : Profile) (id : FormatId) : p.Weighs id (p.formatScore id).val := by
  unfold formatScore
  cases found : p.formatItems.find? (·.format == id) with
  | none =>
    apply Weighs.unlisted
    simpa using found
  | some entry =>
    obtain ⟨same, before, after, entries, first⟩ := List.find?_eq_some_iff_append.mp found
    obtain rfl := beq_iff_eq.mp same
    exact .listed entries (by simpa using first)

theorem formatScore_of_weighs (weighs : p.Weighs id n) : (p.formatScore id).val = n := by
  unfold formatScore
  cases weighs with
  | @listed before after weight entries first =>
    have found : p.formatItems.find? (·.format == id) = some ⟨id, weight⟩ :=
      List.find?_eq_some_iff_append.mpr
        ⟨beq_self_eq_true id, before, after, entries, by simpa using first⟩
    rw [found]
    rfl
  | unlisted absent =>
    have missed : p.formatItems.find? (·.format == id) = none := by simpa using absent
    rw [missed]
    rfl

theorem weights_eq {weights : List Int}
    (weighs : formats.Forall₂ (fun format n => p.Weighs format.id n) weights) :
    p.weights formats = weights := by
  induction weighs with
  | nil => rfl
  | cons first _ ih => rw [Profile.weights, List.map_cons, formatScore_of_weighs first, ← ih]; rfl

theorem formatScore_of_not_lists {format : Format} (unlisted : ¬ p.lists format) :
    (p.formatScore format.id).val = 0 := by
  apply formatScore_of_weighs
  apply Weighs.unlisted
  simpa [lists] using unlisted

/-- No sum over the formats depends on their order or on those that are not in the table. -/
theorem SameListed.total_map {f : Int → Int} (zero : f 0 = 0) (same : p.SameListed formats others) :
    total ((p.weights formats).map f) = total ((p.weights others).map f) := by
  have unlisted (format : Format) (h : ¬ p.lists format) :
      f (p.formatScore format.id).val = 0 := by
    rw [formatScore_of_not_lists h, zero]
  have listed (formats : List Format) : total ((p.weights formats).map f) =
      total ((formats.filter p.lists).map fun format => f (p.formatScore format.id).val) := by
    rw [total_map_filter unlisted, weights, List.map_map]
    rfl
  rw [listed, listed]
  exact total_perm (same.map _)

/-! ## Scores -/

theorem staysInRange_of_mass (small : mass (p.weights formats) ≤ 2147483647) :
    p.StaysInRange formats := by
  rintro part ⟨rest, rfl⟩
  have split : p.weights (part ++ rest) = p.weights part ++ p.weights rest := List.map_append
  have bound : (p.weigh part).natAbs ≤ mass (p.weights part) := natAbs_total_le _
  have := mass_nonneg (p.weights rest)
  rw [split, mass_append] at small
  exact ⟨⟨p.weigh part, by omega, by omega⟩, rfl⟩

theorem scoreOf_of_mass (small : mass (p.weights formats) ≤ 2147483647) :
    ∃ score, p.scoreOf formats = .ok score ∧ score.val = total (p.weights formats) := by
  obtain ⟨score, scored⟩ := sums_iff.mpr (staysInRange_of_mass small)
  exact ⟨score, scored, scoreOf_eq_ok scored⟩

/-- **Light formats have their exact sum for a score**, in whatever order they come and with
whatever other formats between them that the table does not list. The scores of two parts add
up. -/
theorem scoreOf_exact (p : Profile) {formats : List Format} {weights : List Int}
    (weighs : formats.Forall₂ (fun format n => p.Weighs format.id n) weights)
    (small : mass weights ≤ 2147483647) :
    (∀ others, p.SameListed others formats →
      ∃ score, p.scoreOf others = .ok score ∧ score.val = total weights) ∧
    ∀ front back, formats = front ++ back → ∃ first second all,
      p.scoreOf front = .ok first ∧ p.scoreOf back = .ok second ∧ p.scoreOf formats = .ok all ∧
        all.val = first.val + second.val := by
  obtain rfl := weights_eq weighs
  constructor
  · intro others same
    have masses : mass (p.weights others) = mass (p.weights formats) := same.total_map rfl
    obtain ⟨score, scored, exact⟩ := scoreOf_of_mass (masses ▸ small)
    have totals := same.total_map (f := fun n => n) rfl
    rw [List.map_id', List.map_id'] at totals
    exact ⟨score, scored, exact.trans totals⟩
  · rintro front back rfl
    have split : p.weights (front ++ back) = p.weights front ++ p.weights back := List.map_append
    have frontMass := mass_nonneg (p.weights front)
    have backMass := mass_nonneg (p.weights back)
    have masses := mass_append (p.weights front) (p.weights back)
    rw [← split] at masses
    have smallFront : mass (p.weights front) ≤ 2147483647 := by omega
    have smallBack : mass (p.weights back) ≤ 2147483647 := by omega
    obtain ⟨first, scoredFirst, firstExact⟩ := scoreOf_of_mass smallFront
    obtain ⟨second, scoredSecond, secondExact⟩ := scoreOf_of_mass smallBack
    obtain ⟨all, scored, exact⟩ := scoreOf_of_mass small
    refine ⟨first, second, all, scoredFirst, scoredSecond, scored, ?_⟩
    rw [exact, firstExact, secondExact, split, total_append]

/-- The bonus counts against a release, whatever a later entry has it give. -/
def docked : Profile :=
  { small with
    formatItems :=
      [⟨Format.bonus.id, .saturate (-1000000000)⟩, ⟨Format.bonus.id, 2000000000⟩] }

/-- Two bonuses and, between them, a format that the table does not list. -/
theorem scoreOf_exact_docked :
    [Format.bonus, .bonus].Forall₂ (fun format n => docked.Weighs format.id n)
        [-1000000000, -1000000000] ∧
      mass [-1000000000, -1000000000] ≤ 2147483647 ∧
      docked.SameListed [.bonus, .malus, .bonus] [.bonus, .bonus] ∧
      (∃ score, docked.scoreOf [.bonus, .malus, .bonus] = .ok score ∧
        score.val = total [-1000000000, -1000000000]) ∧
      ∃ first second all, docked.scoreOf [.bonus] = .ok first ∧
        docked.scoreOf [.bonus] = .ok second ∧ docked.scoreOf [.bonus, .bonus] = .ok all ∧
          all.val = first.val + second.val := by
  have bonus : docked.Weighs Format.bonus.id (-1000000000) := weighs_formatScore docked .nil
  have weighs : [Format.bonus, .bonus].Forall₂ (fun format n => docked.Weighs format.id n)
      [-1000000000, -1000000000] := .cons bonus (.cons bonus .nil)
  have small : mass [-1000000000, -1000000000] ≤ 2147483647 := by decide
  have same : docked.SameListed [.bonus, .malus, .bonus] [.bonus, .bonus] := .refl _
  obtain ⟨exact, additive⟩ := scoreOf_exact docked weighs small
  exact ⟨weighs, small, same, exact _ same, additive [.bonus] [.bonus] rfl⟩

end Profile

end ReleaseSelection
