import Mathlib.Data.List.Nodup
import ReleaseSelection.Policy
import ReleaseSelection.Proofs.Sorting

/-!
# Delay profiles

The delay profile for the tags of a game is the first by order that shares one of them, else the
first without tags, else no delay; profiles of one order stand as they are listed
(`Policy.delayProfileFor_chosen`). What decides is which tags there are and, while no two profiles
have one order, which profiles.
-/

namespace ReleaseSelection

namespace DelayProfile

/-- Lowest in order among the profiles that meet a condition, and first in the list among those of
its order. -/
def Leads (profiles : List DelayProfile) (meets : DelayProfile → Prop) (d : DelayProfile) : Prop :=
  ∃ before after, profiles = before ++ d :: after ∧ meets d ∧
    (∀ e ∈ before, meets e → d.order.val < e.order.val) ∧
    ∀ e ∈ after, meets e → d.order.val ≤ e.order.val

def Shares (tags : List Count) (d : DelayProfile) : Prop := ∃ tag ∈ d.tags, tag ∈ tags

def Untagged (d : DelayProfile) : Prop := d.tags = []

/-- The choice for the tags of a game. -/
inductive Chosen (profiles : List DelayProfile) (tags : List Count) : DelayProfile → Prop
  | shared {d : DelayProfile} (leads : Leads profiles (Shares tags) d) : Chosen profiles tags d
  | untagged {d : DelayProfile} (unshared : ∀ e ∈ profiles, ¬ Shares tags e)
      (leads : Leads profiles Untagged d) : Chosen profiles tags d
  | implicit (unshared : ∀ e ∈ profiles, ¬ Shares tags e) (tagged : ∀ e ∈ profiles, ¬ Untagged e) :
      Chosen profiles tags .default

/-- Profiles by order, those of one order as they are listed. -/
def byOrder (profiles : List DelayProfile) : List DelayProfile :=
  profiles.mergeSort fun a b => a.order.val ≤ b.order.val

theorem lowerFirst_trans (a b c : DelayProfile) (hab : decide (a.order.val ≤ b.order.val))
    (hbc : decide (b.order.val ≤ c.order.val)) : decide (a.order.val ≤ c.order.val) :=
  decide_eq_true (Int.le_trans (of_decide_eq_true hab) (of_decide_eq_true hbc))

theorem lowerFirst_total (a b : DelayProfile) :
    decide (a.order.val ≤ b.order.val) || decide (b.order.val ≤ a.order.val) := by
  simpa using Int.le_total a.order.val b.order.val

/-- No delay for games with these tags. -/
def ofOrder (order : Score) (tags : List Count) : DelayProfile :=
  { default with order := order, tags := tags }

section
variable {profiles others : List DelayProfile} {tags : List Count} {d : DelayProfile}
  {p : DelayProfile → Bool} {meets : DelayProfile → Prop}

theorem find?_byOrder_eq_some_iff (decides : ∀ d, p d ↔ meets d) :
    (byOrder profiles).find? p = some d ↔ Leads profiles meets d := by
  rw [byOrder, find?_mergeSort_eq_some_iff lowerFirst_trans lowerFirst_total]
  simp only [IsForemost, Leads, decides, decide_eq_true_eq, Int.not_le]

theorem find?_byOrder_eq_none_iff (decides : ∀ d, p d ↔ meets d) :
    (byOrder profiles).find? p = none ↔ ∀ e ∈ profiles, ¬ meets e := by
  simp only [byOrder, List.find?_eq_none, List.mem_mergeSort, decides]

theorem byOrder_eq_of_perm (perm : others.Perm profiles)
    (distinct : (profiles.map (·.order)).Nodup) : byOrder others = byOrder profiles := by
  apply (mergeSort_eq_of_perm lowerFirst_trans lowerFirst_total perm.symm _).symm
  intro a ha b hb le ge
  have orders := Int.le_antisymm (of_decide_eq_true le) (of_decide_eq_true ge)
  exact List.inj_on_of_nodup_map distinct ha hb (Bounded.val_inj.mp orders)

theorem sharesTag_iff (d : DelayProfile) : d.sharesTag tags ↔ Shares tags d := by
  simp [sharesTag, Shares]

theorem isTagged_and_sharesTag_iff (d : DelayProfile) :
    (d.isTagged && d.sharesTag tags) ↔ Shares tags d := by
  rw [Bool.and_eq_true, sharesTag_iff, and_iff_right_iff_imp]
  rintro ⟨tag, own, _⟩
  simpa [isTagged] using List.ne_nil_of_mem own

theorem not_isTagged_iff (d : DelayProfile) : (!d.isTagged) ↔ Untagged d := by
  simp [isTagged, Untagged]

end

end DelayProfile

namespace Policy

open DelayProfile

theorem delayProfileFor_eq (policy : Policy) (tags : List Count) :
    policy.delayProfileFor tags =
      (((byOrder policy.delayProfiles).find? fun d => d.isTagged && d.sharesTag tags).or
        ((byOrder policy.delayProfiles).find? fun d => !d.isTagged)).getD .default := rfl

theorem chosen_delayProfileFor (policy : Policy) (tags : List Count) :
    Chosen policy.delayProfiles tags (policy.delayProfileFor tags) := by
  rw [delayProfileFor_eq]
  cases shared : (byOrder policy.delayProfiles).find? fun d => d.isTagged && d.sharesTag tags with
  | some d => exact .shared ((find?_byOrder_eq_some_iff isTagged_and_sharesTag_iff).mp shared)
  | none =>
    have unshared := (find?_byOrder_eq_none_iff isTagged_and_sharesTag_iff).mp shared
    cases untagged : (byOrder policy.delayProfiles).find? fun d => !d.isTagged with
    | some d =>
      exact .untagged unshared ((find?_byOrder_eq_some_iff not_isTagged_iff).mp untagged)
    | none => exact .implicit unshared ((find?_byOrder_eq_none_iff not_isTagged_iff).mp untagged)

theorem delayProfileFor_of_chosen {policy : Policy} {tags : List Count} {d : DelayProfile}
    (chosen : Chosen policy.delayProfiles tags d) : policy.delayProfileFor tags = d := by
  rw [delayProfileFor_eq]
  cases chosen with
  | shared leads =>
    rw [(find?_byOrder_eq_some_iff isTagged_and_sharesTag_iff).mpr leads]
    rfl
  | untagged unshared leads =>
    rw [(find?_byOrder_eq_none_iff isTagged_and_sharesTag_iff).mpr unshared,
      (find?_byOrder_eq_some_iff not_isTagged_iff).mpr leads]
    rfl
  | implicit unshared tagged =>
    rw [(find?_byOrder_eq_none_iff isTagged_and_sharesTag_iff).mpr unshared,
      (find?_byOrder_eq_none_iff not_isTagged_iff).mpr tagged]
    rfl

/-- **The delay profile is the least by order and place**, among those that share a tag if there are
any. Repeated tags and the order of tags do not matter, nor does the order of the list where the
profiles differ in theirs. -/
theorem delayProfileFor_chosen (policy : Policy) (tags : List Count) :
    (∀ d, policy.delayProfileFor tags = d ↔ Chosen policy.delayProfiles tags d) ∧
    (∀ others : List Count, (∀ tag, tag ∈ others ↔ tag ∈ tags) →
      policy.delayProfileFor others = policy.delayProfileFor tags) ∧
    ∀ other : Policy, other.delayProfiles.Perm policy.delayProfiles →
      (policy.delayProfiles.map (·.order)).Nodup →
      other.delayProfileFor tags = policy.delayProfileFor tags := by
  refine ⟨?_, ?_, ?_⟩
  · intro d
    constructor
    · rintro rfl
      exact chosen_delayProfileFor policy tags
    · exact delayProfileFor_of_chosen
  · intro others same
    have shares (d : DelayProfile) : d.sharesTag others = d.sharesTag tags := by
      rw [Bool.eq_iff_iff, sharesTag_iff, sharesTag_iff]
      simp only [Shares, same]
    simp only [delayProfileFor_eq, shares]
  · intro other perm distinct
    rw [delayProfileFor_eq, delayProfileFor_eq, byOrder_eq_of_perm perm distinct]

/-- Settings that differ from the defaults in their delay profiles. -/
def delayedBy (profiles : List DelayProfile) : Policy := { default with delayProfiles := profiles }

/-- The third of three profiles is the lowest, and two of them share a tag. -/
theorem delayProfileFor_chosen_crowded :
    Chosen [.ofOrder 5 [1], .ofOrder 4 [], .ofOrder 3 [1, 2]] [2, 1] (.ofOrder 3 [1, 2]) ∧
      (delayedBy [.ofOrder 5 [1], .ofOrder 4 [], .ofOrder 3 [1, 2]]).delayProfileFor [2, 1] =
        .ofOrder 3 [1, 2] ∧
    (∀ tag : Count, tag ∈ [(1 : Count), 2, 1] ↔ tag ∈ [(2 : Count), 1]) ∧
      (delayedBy [.ofOrder 5 [1], .ofOrder 4 [], .ofOrder 3 [1, 2]]).delayProfileFor [1, 2, 1] =
        (delayedBy [.ofOrder 5 [1], .ofOrder 4 [], .ofOrder 3 [1, 2]]).delayProfileFor [2, 1] ∧
    [DelayProfile.ofOrder 3 [1, 2], .ofOrder 5 [1], .ofOrder 4 []].Perm
        [.ofOrder 5 [1], .ofOrder 4 [], .ofOrder 3 [1, 2]] ∧
      ([DelayProfile.ofOrder 5 [1], .ofOrder 4 [], .ofOrder 3 [1, 2]].map (·.order)).Nodup ∧
      (delayedBy [.ofOrder 3 [1, 2], .ofOrder 5 [1], .ofOrder 4 []]).delayProfileFor [2, 1] =
        (delayedBy [.ofOrder 5 [1], .ofOrder 4 [], .ofOrder 3 [1, 2]]).delayProfileFor [2, 1] := by
  obtain ⟨chosen, tags, list⟩ := delayProfileFor_chosen
    (delayedBy [.ofOrder 5 [1], .ofOrder 4 [], .ofOrder 3 [1, 2]]) [2, 1]
  have lower : ∀ e ∈ [DelayProfile.ofOrder 5 [1], .ofOrder 4 []],
      (3 : Score).val < e.order.val := by
    decide
  have least : Chosen [.ofOrder 5 [1], .ofOrder 4 [], .ofOrder 3 [1, 2]] [2, 1]
      (.ofOrder 3 [1, 2]) :=
    .shared ⟨[.ofOrder 5 [1], .ofOrder 4 []], [], rfl, ⟨1, by decide, by decide⟩,
      fun e mem _ => lower e mem, List.forall_mem_nil _⟩
  have same (tag : Count) : tag ∈ [(1 : Count), 2, 1] ↔ tag ∈ [(2 : Count), 1] := by
    simp only [List.mem_cons, List.not_mem_nil, or_false]
    tauto
  have perm : [DelayProfile.ofOrder 3 [1, 2], .ofOrder 5 [1], .ofOrder 4 []].Perm
      [.ofOrder 5 [1], .ofOrder 4 [], .ofOrder 3 [1, 2]] := by decide
  exact ⟨least, (chosen _).mpr least, same, tags _ same, perm, by decide,
    list (delayedBy [.ofOrder 3 [1, 2], .ofOrder 5 [1], .ofOrder 4 []]) perm (by decide)⟩

end Policy

end ReleaseSelection
