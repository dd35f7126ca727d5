import Mathlib.Data.List.Chain
import ReleaseSelection.Proofs.Succession

/-!
# Chains of upgrades

In a chain each release is an upgrade over the one before it, and it can still come back to where it
started: some upgrades give up rank and others score. Below the quality cutoff and within one rank a
chain climbs, and past the cutoff it does where revisions are not upgraded. `Chain.climbs` says by
what, and that no release stands in such a chain twice.
-/

namespace ReleaseSelection

/-! ## Ratings of releases -/

/-- Both releases can be scored, and what a comparison sees of them is so related. -/
def Profile.Rated (p : Profile) (R : Rating → Rating → Prop) (a b : Standing) : Prop :=
  ∃ aScore bScore, p.scoreOf a.formats = .ok aScore ∧ p.scoreOf b.formats = .ok bScore ∧
    R (p.rating a.quality aScore) (p.rating b.quality bScore)

namespace Profile.Rated

variable {p : Profile} {R S : Rating → Rating → Prop} {a b c : Standing}

theorem imp (h : p.Rated R a b)
    (weaker : ∀ aScore bScore, R (p.rating a.quality aScore) (p.rating b.quality bScore) →
      S (p.rating a.quality aScore) (p.rating b.quality bScore)) : p.Rated S a b := by
  obtain ⟨aScore, bScore, ha, hb, related⟩ := h
  exact ⟨aScore, bScore, ha, hb, weaker aScore bScore related⟩

theorem irrefl (irrefl : ∀ r, ¬ R r r) (a : Standing) : ¬ p.Rated R a a := by
  rintro ⟨score, score', h, h', related⟩
  cases h.symm.trans h'
  exact irrefl _ related

theorem trans (trans : ∀ {x y z}, R x y → R y z → R x z) (hab : p.Rated R a b)
    (hbc : p.Rated R b c) : p.Rated R a c := by
  obtain ⟨aScore, bScore, ha, hb, before⟩ := hab
  obtain ⟨bScore', cScore, hb', hc, after⟩ := hbc
  cases hb.symm.trans hb'
  exact ⟨aScore, cScore, ha, hc, trans before after⟩

/-- What each step raises in an order, the whole chain raises in it, so nothing comes back. -/
theorem pairwise_nodup {releases : List Standing} (irrefl : ∀ r, ¬ R r r)
    (trans : ∀ {x y z}, R x y → R y z → R x z) (steps : releases.IsChain (p.Rated R)) :
    releases.Pairwise (p.Rated R) ∧ releases.Nodup := by
  have : Trans (p.Rated R) (p.Rated R) (p.Rated R) := ⟨Rated.trans trans⟩
  have rises : releases.Pairwise (p.Rated R) := List.isChain_iff_pairwise.mp steps
  refine ⟨rises, rises.imp fun rated same => ?_⟩
  subst same
  exact Rated.irrefl irrefl _ rated

end Profile.Rated

/-! ## Chains -/

namespace UpgradeRules

variable {rules : UpgradeRules} {p : Profile}

/-- Releases without versions, each an upgrade over the one before it. -/
structure Chain (rules : UpgradeRules) (p : Profile) (releases : List Standing) : Prop where
  unversioned : ∀ s ∈ releases, s.version = none
  upgrades : releases.IsChain fun held next => rules.isUpgrade p held next = .ok true

/-- Below the quality cutoff no rank is given up. -/
theorem Improves.rank_le {held next : Rating} (h : rules.Improves p held next)
    (short : ¬ p.MeetsCutoff held.rank) : held.rank ≤ next.rank := by
  cases h with
  | quality less => exact Int.le_of_lt less
  | revision le => exact le
  | score le => exact le
  | ceiling _ met => exact absurd met short

theorem improves_of_isUpgrade {held next : Standing}
    (upgrade : rules.isUpgrade p held next = .ok true) (unversioned : next.version = none) :
    p.Rated (rules.Improves p) held next := by
  obtain ⟨_, heldScore, nextScore, hs, ns, gain⟩ := isUpgrade_eq_ok_true_iff.mp upgrade
  refine ⟨heldScore, nextScore, hs, ns, gain.resolve_right ?_⟩
  rw [unversioned]
  exact Int.not_lt.mpr (GameVersion.ordinal_nonneg (held.version.getD .zero))

namespace Chain

variable {releases : List Standing}

theorem improves (chain : rules.Chain p releases) :
    releases.IsChain (p.Rated (rules.Improves p)) :=
  chain.upgrades.imp_of_mem_imp fun _ next _ mem upgrade =>
    improves_of_isUpgrade upgrade (chain.unversioned next mem)

/-- All releases of a chain but the last are improved on. -/
theorem improves_of_held (chain : rules.Chain p releases) {P : Standing → Prop}
    (holds : ∀ held ∈ releases.dropLast, P held) :
    releases.IsChain fun held next => P held ∧ p.Rated (rules.Improves p) held next := by
  rw [List.isChain_iff_forall₂, List.forall₂_and_left]
  exact ⟨holds, List.isChain_iff_forall₂.mp chain.improves⟩

theorem precedes_of_short (chain : rules.Chain p releases)
    (short : ∀ held ∈ releases.dropLast, p.qualityCutoffMet held.quality.quality = false) :
    releases.IsChain (p.Rated (Rating.Precedes rules.propers)) := by
  refine (chain.improves_of_held short).imp fun held next ⟨short, rated⟩ => rated.imp ?_
  intro heldScore nextScore improves
  have below : ¬ p.MeetsCutoff (p.rank held.quality.quality) := fun meets => by
    simp [(p.qualityCutoffMet_iff _).mpr meets] at short
  exact improves.precedes (improves.rank_le below)

theorem precedes_of_rank (chain : rules.Chain p releases) {rank : Int}
    (same : ∀ s ∈ releases, p.rank s.quality.quality = rank) :
    releases.IsChain (p.Rated (Rating.Precedes rules.propers)) := by
  refine chain.improves.imp_of_mem_imp fun held next hm nm rated => rated.imp ?_
  intro heldScore nextScore improves
  exact improves.precedes (Int.le_of_eq ((same held hm).trans (same next nm).symm))

theorem score_lt_of_met (chain : rules.Chain p releases)
    (preferred : rules.propers ≠ .preferAndUpgrade)
    (met : ∀ held ∈ releases.dropLast, p.qualityCutoffMet held.quality.quality) :
    releases.IsChain (p.Rated fun a b => a.score < b.score) := by
  refine (chain.improves_of_held met).imp fun held next ⟨met, rated⟩ => rated.imp ?_
  intro heldScore nextScore improves
  exact improves.score_lt preferred ((p.qualityCutoffMet_iff _).mp met)

/-- **Below the quality cutoff or within one rank a chain climbs** by rank, revision and score, or
where revisions are not upgraded by rank and score. Past the cutoff it then climbs by score, while
revisions that are upgraded may bring the score down. What climbs comes back to no release. -/
theorem climbs (chain : rules.Chain p releases) :
    ((∀ held ∈ releases.dropLast, p.qualityCutoffMet held.quality.quality = false) ∨
        (∃ rank, ∀ s ∈ releases, p.rank s.quality.quality = rank) →
      releases.Pairwise (p.Rated (Rating.Precedes rules.propers)) ∧ releases.Nodup) ∧
    (rules.propers ≠ .preferAndUpgrade →
      (∀ held ∈ releases.dropLast, p.qualityCutoffMet held.quality.quality) →
      releases.Pairwise (p.Rated fun a b => a.score < b.score) ∧ releases.Nodup) := by
  constructor
  · intro side
    apply Profile.Rated.pairwise_nodup Rating.Precedes.irrefl Rating.Precedes.trans
    rcases side with short | ⟨rank, same⟩
    · exact chain.precedes_of_short short
    · exact chain.precedes_of_rank same
  · intro preferred met
    exact Profile.Rated.pairwise_nodup (fun r => Int.lt_irrefl r.score) Int.lt_trans
      (chain.score_lt_of_met preferred met)

/-- From a quality that the profile does not list, by way of two revisions of scene, to portable. -/
def rising : List Standing :=
  [.unversioned .gog 1 [], .unversioned .scene 1 [], .unversioned .scene 2 [],
    .unversioned .portable 1 []]

/-- Portable gives way to retail, for a score past the ceiling. -/
def falling : List Standing := [.unversioned .portable 1 [], .unversioned .retail 1 [.bonus]]

theorem climbs_rising :
    (Policy.default.upgradeRules.Chain .small rising ∧
      (∀ held ∈ rising.dropLast, Profile.small.qualityCutoffMet held.quality.quality = false) ∧
      rising.Pairwise (Profile.small.Rated (Rating.Precedes .preferAndUpgrade)) ∧ rising.Nodup) ∧
    (UpgradeRules.Chain ⟨.doNotUpgrade, .climbAtCeiling⟩ .small falling ∧
      (∀ held ∈ falling.dropLast, Profile.small.qualityCutoffMet held.quality.quality) ∧
      falling.Pairwise (Profile.small.Rated fun a b => a.score < b.score) ∧ falling.Nodup) := by
  have up : Policy.default.upgradeRules.Chain .small rising :=
    ⟨by simp [rising, Standing.unversioned],
      .cons_cons rfl (.cons_cons rfl (.cons_cons rfl (.singleton _)))⟩
  have down : UpgradeRules.Chain ⟨.doNotUpgrade, .climbAtCeiling⟩ .small falling :=
    ⟨by simp [falling, Standing.unversioned], .cons_cons rfl (.singleton _)⟩
  have short : ∀ held ∈ rising.dropLast,
      Profile.small.qualityCutoffMet held.quality.quality = false := by decide
  have met : ∀ held ∈ falling.dropLast,
      Profile.small.qualityCutoffMet held.quality.quality := by decide
  exact ⟨⟨up, short, (climbs up).1 (.inl short)⟩, down, met, (climbs down).2 (by decide) met⟩

end Chain

end UpgradeRules

end ReleaseSelection
