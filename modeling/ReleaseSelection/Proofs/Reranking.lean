import ReleaseSelection.Proofs.Admission
import ReleaseSelection.Proofs.Placement

/-!
# Ranking again

Within one game a ranking is a stable sort by the key. So decisions may be left out before it or
after it, and the order in which they come shows only between equal keys
(`Decision.prioritize_of_oneGame`). Over all games a ranking keeps the games in the order in which
they appear, the decisions of each game in the order of their keys, and the rejected decisions as
they are, so a ranking of a ranking is the same ranking (`Decision.prioritize_idem`).
-/

namespace ReleaseSelection

theorem eraseDups_run {α : Type} [BEq α] [LawfulBEq α] {x : α} {run : List α}
    (own : ∀ y ∈ run, y = x) (filled : run ≠ []) : run.eraseDups = [x] := by
  obtain ⟨y, ys, rfl⟩ := List.exists_cons_of_ne_nil filled
  obtain ⟨rfl, again⟩ := List.forall_mem_cons.mp own
  have none : ys.filter (fun z => !z == y) = [] := by
    apply List.filter_eq_nil_iff.mpr
    intro z mem
    simp [again z mem]
  rw [List.eraseDups_cons, none, List.eraseDups_nil]

/-- Values that come in runs are, without repetition, the values of the runs. -/
theorem eraseDups_flatMap {α : Type} [BEq α] [LawfulBEq α] {xs : List α} {run : α → List α}
    (nodup : xs.Nodup) (own : ∀ x ∈ xs, ∀ y ∈ run x, y = x) (filled : ∀ x ∈ xs, run x ≠ []) :
    (xs.flatMap run).eraseDups = xs := by
  induction xs with
  | nil => rfl
  | cons x xs ih =>
    obtain ⟨first, nodup⟩ := List.nodup_cons.mp nodup
    obtain ⟨ownFirst, own⟩ := List.forall_mem_cons.mp own
    obtain ⟨filledFirst, filled⟩ := List.forall_mem_cons.mp filled
    have rest : (xs.flatMap run).removeAll (run x) = xs.flatMap run := by
      apply List.filter_eq_self.mpr
      intro z mem
      obtain ⟨y, later, inRun⟩ := List.mem_flatMap.mp mem
      have different : z ∉ run x := by
        intro shared
        apply first
        rw [← ownFirst z shared, own y later z inRun]
        exact later
      simp [different]
    rw [List.flatMap_cons, List.eraseDups_append, eraseDups_run ownFirst filledFirst, rest,
      ih nodup own filled, List.singleton_append]

namespace Decision

variable {policy : Policy} {now : Instant} {ds es : List Decision} {game : Option GameId}

/-! ## One game -/

theorem keys_best_pairwise (policy : Policy) (now : Instant) (ds : List Decision) :
    (best policy now ds).Pairwise fun a b =>
      (compare (a.offer.rankKey policy now) (b.offer.rankKey policy now)).isGE :=
  (best_pairwise policy now ds).imp ranksBefore_iff.mp

/-- What is left out before sorting and what is left out after it leave the same list: both are in
order, and both keep the ties of what is left. -/
theorem best_filter (policy : Policy) (now : Instant) (p : Decision → Bool)
    (ds : List Decision) : best policy now (ds.filter p) = (best policy now ds).filter p := by
  have ties : KeepsTies (·.offer.rankKey policy now) (best policy now (ds.filter p))
      ((best policy now ds).filter p) := by
    intro k
    rw [keepsTies_best policy now (ds.filter p) k, (keepsTies_best policy now ds).filter p k]
  apply ties.eq_of_pairwise RankKey.isGE_antisymm
  · exact keys_best_pairwise policy now (ds.filter p)
  · exact (keys_best_pairwise policy now ds).filter p

theorem best_best (policy : Policy) (now : Instant) (ds : List Decision) :
    best policy now (best policy now ds) = best policy now ds :=
  List.mergeSort_of_pairwise (best_pairwise policy now ds)

/-- Keys in order are one list, whatever order they came in. -/
theorem keys_best_of_perm (policy : Policy) (now : Instant) (perm : es.Perm ds) :
    (best policy now es).map (·.offer.rankKey policy now) =
      (best policy now ds).map (·.offer.rankKey policy now) := by
  have sorted (xs : List Decision) :
      ((best policy now xs).map (·.offer.rankKey policy now)).Pairwise fun k l =>
        (compare k l).isGE :=
    List.pairwise_map.mpr (keys_best_pairwise policy now xs)
  have same : (best policy now es).Perm (best policy now ds) :=
    (List.mergeSort_perm es _).trans (perm.trans (List.mergeSort_perm ds _).symm)
  apply List.Perm.eq_of_pairwise (fun _ _ _ _ => RankKey.isGE_antisymm) (sorted es) (sorted ds)
  exact same.map _

/-- **The ranking of a game does not depend on who else is in it.** Leaving decisions out changes
nothing in the order of the others, and decisions that come in another order come to the same keys
in turn. -/
theorem prioritize_of_oneGame (policy : Policy) (now : Instant)
    (own : ∀ d ∈ ds, d.offer.gameId = game) (approved : ∀ d ∈ ds, d.isApproved) :
    (∀ p : Decision → Bool,
      prioritize policy now (ds.filter p) = (prioritize policy now ds).filter p) ∧
    ∀ es : List Decision, es.Perm ds →
      (prioritize policy now es).map (·.offer.rankKey policy now) =
        (prioritize policy now ds).map (·.offer.rankKey policy now) := by
  have sorted {xs : List Decision} (some : ∀ d ∈ xs, d ∈ ds) :
      prioritize policy now xs = best policy now xs :=
    prioritize_eq_best policy now (fun d mem => own d (some d mem))
      fun d mem => approved d (some d mem)
  constructor
  · intro p
    rw [sorted fun _ => id, sorted fun d mem => (List.mem_filter.mp mem).1, best_filter]
  · intro es perm
    rw [sorted fun _ => id, sorted fun d => perm.mem_iff.mp, keys_best_of_perm policy now perm]

/-- Approved releases of one game, of which the last two tie. -/
def rivals : List Decision :=
  [.unversioned .scene 1 [.bonus], .unversioned .scene 2 [], .unversioned .retail 1 [.bonus],
    ⟨⟨.retail, ⟨1, 0, false⟩⟩, [.bonus], some .zero⟩].map fun s => .approved (Game.small.offered s)

/-- Those that score keep their order without the one that does not, and reversed rivals come to the
same keys. -/
theorem prioritize_of_oneGame_rivals :
    (∀ d ∈ rivals, d.offer.gameId = some Game.small.id) ∧ (∀ d ∈ rivals, d.isApproved) ∧
      prioritize .default ⟨0, 0⟩ (rivals.filter (0 < ·.offer.score.val)) =
        (prioritize .default ⟨0, 0⟩ rivals).filter (0 < ·.offer.score.val) ∧
      (prioritize .default ⟨0, 0⟩ rivals.reverse).map (·.offer.rankKey .default ⟨0, 0⟩) =
        (prioritize .default ⟨0, 0⟩ rivals).map (·.offer.rankKey .default ⟨0, 0⟩) := by
  have own : ∀ d ∈ rivals, d.offer.gameId = some Game.small.id := by decide
  have approved : ∀ d ∈ rivals, d.isApproved := by decide
  obtain ⟨filtered, permuted⟩ := prioritize_of_oneGame .default ⟨0, 0⟩ own approved
  exact ⟨own, approved, filtered _, permuted _ (List.reverse_perm rivals)⟩

/-! ## All games -/

theorem games_blocks (policy : Policy) (now : Instant) (ds : List Decision) :
    games (blocks policy now ds) = games ds := by
  rw [games, blocks, List.map_flatMap]
  apply eraseDups_flatMap (games_nodup ds)
  · intro game _ other mem
    obtain ⟨d, ranked, rfl⟩ := List.mem_map.mp mem
    exact (mem_ofGame.mp (mem_best.mp ranked)).2
  · intro game seen empty
    obtain ⟨d, mem, own⟩ := mem_games.mp seen
    have ranked : d ∈ best policy now (ofGame game ds) := mem_best.mpr (mem_ofGame.mpr ⟨mem, own⟩)
    rw [List.map_eq_nil_iff.mp empty] at ranked
    exact List.not_mem_nil ranked

theorem blocks_blocks (policy : Policy) (now : Instant) (ds : List Decision) :
    blocks policy now (blocks policy now ds) = blocks policy now ds := by
  calc blocks policy now (blocks policy now ds)
    _ = (games (blocks policy now ds)).flatMap fun game =>
          best policy now (ofGame game (blocks policy now ds)) := rfl
    _ = (games ds).flatMap fun game => best policy now (ofGame game ds) := by
      simp only [games_blocks, ofGame_blocks, best_best]

/-- **Ranking again changes nothing**, whatever games, rejections and ties there are. -/
theorem prioritize_idem (policy : Policy) (now : Instant) (ds : List Decision) :
    prioritize policy now (prioritize policy now ds) = prioritize policy now ds := by
  rw [prioritize_eq policy now (prioritize policy now ds), filter_approved_prioritize,
    filter_rejected_prioritize, blocks_blocks, ← prioritize_eq]

end Decision

end ReleaseSelection
