import ReleaseSelection.Proofs.Grouping
import ReleaseSelection.Proofs.Sorting

/-!
# Places in a ranking

A decision has a place: the rejected ones share the last, and an approved one stands with its game
and its key. A ranking keeps the ties of each place (`keepsTies_prioritize`) and puts the places in
order (`pairwise_prioritize`), games as they first appear among the approved decisions and keys from
the greatest down. No other list does both, which is why the conditions of `Prioritized` have the
ranking as their one solution (`Decision.prioritized_iff`).
-/

namespace ReleaseSelection

/-! ## Keys -/

namespace RankKey

theorem parts_inj {a b : RankKey} (h : a.parts = b.parts) : a = b := by
  obtain ⟨⟨_, _, _⟩, _, _, _, ⟨_, _⟩, _, ⟨_, _⟩, transport, ⟨_, _⟩, _, _⟩ := a
  obtain ⟨⟨_, _, _⟩, _, _, _, ⟨_, _⟩, _, ⟨_, _⟩, transport', ⟨_, _⟩, _, _⟩ := b
  cases transport <;> cases transport' <;> simp_all [parts]

instance : Std.TransOrd RankKey := inferInstanceAs (Std.TransCmp (compareOn parts))

instance : Std.LawfulEqOrd RankKey where
  eq_of_compare {a b} h := by
    have same : compare a.parts b.parts = .eq := h
    exact parts_inj (Std.LawfulEqCmp.eq_of_compare same)

theorem isGE_antisymm {k l : RankKey} (first : (compare k l).isGE)
    (second : (compare l k).isGE) : k = l :=
  Std.LawfulEqCmp.eq_of_compare (Std.OrientedCmp.isGE_antisymm first second)

end RankKey

namespace Decision

variable {policy : Policy} {now : Instant} {ds out : List Decision} {d : Decision}
  {game : Option GameId}

/-! ## One game -/

theorem ranksBefore_iff {a b : Decision} : ranksBefore policy now a b ↔
    (compare (a.offer.rankKey policy now) (b.offer.rankKey policy now)).isGE := by
  rw [ranksBefore, bne_iff_ne, ne_eq, Ordering.isGE_iff_ne_lt]
  rfl

theorem ranksBefore_trans (a b d : Decision) (hab : ranksBefore policy now a b)
    (hbd : ranksBefore policy now b d) : ranksBefore policy now a d := by
  rw [ranksBefore_iff] at *
  exact Std.TransCmp.isGE_trans hab hbd

theorem ranksBefore_total (a b : Decision) :
    ranksBefore policy now a b || ranksBefore policy now b a := by
  rw [Bool.or_eq_true, ranksBefore_iff, ranksBefore_iff, Std.OrientedCmp.isGE_iff_isLE]
  cases compare (b.offer.rankKey policy now) (a.offer.rankKey policy now) <;> simp

theorem mem_best : d ∈ best policy now ds ↔ d ∈ ds := List.mem_mergeSort

theorem best_pairwise (policy : Policy) (now : Instant) (ds : List Decision) :
    (best policy now ds).Pairwise fun a b => ranksBefore policy now a b :=
  List.pairwise_mergeSort ranksBefore_trans ranksBefore_total ds

theorem keepsTies_best (policy : Policy) (now : Instant) (ds : List Decision) :
    KeepsTies (·.offer.rankKey policy now) (best policy now ds) ds := by
  refine keepsTies_mergeSort ranksBefore_trans ranksBefore_total ?_ ds
  intro a b same
  rw [ranksBefore_iff, same, Std.ReflOrd.compare_self]
  rfl

/-! ## All games -/

/-- Game by game in the order of their appearance, the best first. -/
def blocks (policy : Policy) (now : Instant) (ds : List Decision) : List Decision :=
  (games ds).flatMap fun game => best policy now (ofGame game ds)

theorem mem_blocks : d ∈ blocks policy now ds ↔ d ∈ ds := by
  simp only [blocks, List.mem_flatMap, mem_best, mem_ofGame, mem_games]
  constructor
  · rintro ⟨_, _, mem, _⟩
    exact mem
  · exact fun mem => ⟨_, ⟨d, mem, rfl⟩, mem, rfl⟩

theorem ofGame_blocks (game : Option GameId) (ds : List Decision) :
    ofGame game (blocks policy now ds) = best policy now (ofGame game ds) := by
  have own : ofGame game (best policy now (ofGame game ds)) = best policy now (ofGame game ds) :=
    ofGame_eq_self fun d mem => (mem_ofGame.mp (mem_best.mp mem)).2
  rw [ofGame, blocks, List.filter_flatMap, flatMap_eq_of_others (a := game) (games_nodup ds)]
  · exact own
  · intro other _ different
    refine List.filter_eq_nil_iff.mpr fun d mem same => different ?_
    exact (mem_ofGame.mp (mem_best.mp mem)).2.symm.trans (beq_iff_eq.mp same)
  · intro absent
    refine List.filter_eq_nil_iff.mpr fun d mem _ => absent ?_
    have member := mem_ofGame.mp (mem_best.mp mem)
    exact mem_games.mpr ⟨d, member.1, member.2⟩

theorem blocks_pairwise (policy : Policy) (now : Instant) (ds : List Decision) :
    (blocks policy now ds).Pairwise fun a b =>
      seenAt ds a.offer.gameId < seenAt ds b.offer.gameId ∨
        a.offer.gameId = b.offer.gameId ∧ ranksBefore policy now a b := by
  rw [blocks, List.pairwise_flatMap]
  constructor
  · intro game _
    refine (best_pairwise policy now _).imp_of_mem fun {a b} ha hb before => .inr ⟨?_, before⟩
    exact (mem_ofGame.mp (mem_best.mp ha)).2.trans (mem_ofGame.mp (mem_best.mp hb)).2.symm
  · refine (games_pairwise ds).imp fun {g h} earlier a ha b hb => .inl ?_
    rwa [(mem_ofGame.mp (mem_best.mp ha)).2, (mem_ofGame.mp (mem_best.mp hb)).2]

/-! ## The ranking -/

theorem prioritize_eq (policy : Policy) (now : Instant) (ds : List Decision) :
    prioritize policy now ds =
      blocks policy now (ds.filter (·.isApproved)) ++ ds.filter (!·.isApproved) := by
  simp only [prioritize, List.partition_eq_filter_filter, byGame_eq, List.flatMap_map]
  rfl

theorem isApproved_of_mem_blocks (mem : d ∈ blocks policy now (ds.filter (·.isApproved))) :
    d.isApproved :=
  (List.mem_filter.mp (mem_blocks.mp mem)).2

theorem filter_approved_prioritize (ds : List Decision) :
    (prioritize policy now ds).filter (·.isApproved) =
      blocks policy now (ds.filter (·.isApproved)) := by
  have approved : (blocks policy now (ds.filter (·.isApproved))).filter (·.isApproved) =
      blocks policy now (ds.filter (·.isApproved)) :=
    List.filter_eq_self.mpr fun d mem => isApproved_of_mem_blocks mem
  have rejected : (ds.filter (!·.isApproved)).filter (·.isApproved) = [] := by
    simp [List.filter_filter]
  rw [prioritize_eq, List.filter_append, approved, rejected, List.append_nil]

theorem filter_rejected_prioritize (ds : List Decision) :
    (prioritize policy now ds).filter (!·.isApproved) = ds.filter (!·.isApproved) := by
  have approved : (blocks policy now (ds.filter (·.isApproved))).filter (!·.isApproved) = [] := by
    refine List.filter_eq_nil_iff.mpr fun d mem => ?_
    simp [isApproved_of_mem_blocks mem]
  rw [prioritize_eq, List.filter_append, approved, List.filter_filter, List.nil_append]
  simp only [Bool.and_self]

theorem mem_prioritize : d ∈ prioritize policy now ds ↔ d ∈ ds := by
  rw [prioritize_eq, List.mem_append, mem_blocks, List.mem_filter, List.mem_filter]
  cases d.isApproved <;> simp

/-- What a ranking shows of a game depends on the decisions of that game alone. -/
theorem ofGame_prioritize_eq (policy : Policy) (now : Instant) (game : Option GameId)
    (ds : List Decision) : ofGame game (prioritize policy now ds) =
      best policy now ((ofGame game ds).filter (·.isApproved)) ++
        (ofGame game ds).filter (!·.isApproved) := by
  rw [prioritize_eq, ofGame, List.filter_append, ← ofGame, ← ofGame, ofGame_blocks, ofGame_filter,
    ofGame_filter]

/-- Decisions of one game are ranked in one block. -/
theorem prioritize_of_own (policy : Policy) (now : Instant)
    (own : ∀ d ∈ ds, d.offer.gameId = game) : prioritize policy now ds =
      best policy now (ds.filter (·.isApproved)) ++ ds.filter (!·.isApproved) := by
  have alone := ofGame_prioritize_eq policy now game ds
  rwa [ofGame_eq_self own,
    ofGame_eq_self fun d mem => own d (mem_prioritize.mp mem)] at alone

theorem prioritize_eq_best (policy : Policy) (now : Instant)
    (own : ∀ d ∈ ds, d.offer.gameId = game) (approved : ∀ d ∈ ds, d.isApproved) :
    prioritize policy now ds = best policy now ds := by
  have rejected : ds.filter (!·.isApproved) = [] := by
    apply List.filter_eq_nil_iff.mpr
    intro d mem
    simp [approved d mem]
  rw [prioritize_of_own policy now own, List.filter_eq_self.mpr approved, rejected,
    List.append_nil]

theorem ofGame_prioritize (policy : Policy) (now : Instant) (game : Option GameId)
    (ds : List Decision) :
    ofGame game (prioritize policy now ds) = prioritize policy now (ofGame game ds) := by
  rw [ofGame_prioritize_eq, prioritize_of_own policy now fun d mem => (mem_ofGame.mp mem).2]

/-- The last place, or that of a key in a game. -/
abbrev Place := Option (Option GameId × RankKey)

def place (policy : Policy) (now : Instant) (d : Decision) : Place :=
  if d.isApproved then some (d.offer.gameId, d.offer.rankKey policy now) else none

/-- The order of places, with the games as they appear among the approved decisions. -/
inductive PlacedBefore (ds : List Decision) : Place → Place → Prop where
  | rejected (p : Place) : PlacedBefore ds p none
  | game {g h : Option GameId} {k l : RankKey}
      (earlier : seenAt (ds.filter (·.isApproved)) g < seenAt (ds.filter (·.isApproved)) h) :
      PlacedBefore ds (some (g, k)) (some (h, l))
  | key {g : Option GameId} {k l : RankKey} (leads : (compare k l).isGE) :
      PlacedBefore ds (some (g, k)) (some (g, l))

theorem PlacedBefore.antisymm {p q : Place} (hpq : PlacedBefore ds p q)
    (hqp : PlacedBefore ds q p) : p = q := by
  cases hpq with
  | rejected => cases hqp; rfl
  | game earlier =>
    cases hqp with
    | game earlier' => omega
    | key => omega
  | key leads =>
    cases hqp with
    | game earlier => omega
    | key leads' => rw [RankKey.isGE_antisymm leads leads']

/-- Ties are kept among the rejected decisions, and for each game and key among the approved. -/
theorem keepsTies_place_iff {xs ys : List Decision} :
    KeepsTies (place policy now) xs ys ↔
      xs.filter (!·.isApproved) = ys.filter (!·.isApproved) ∧
        ∀ game, KeepsTies (·.offer.rankKey policy now) (ofGame game (xs.filter (·.isApproved)))
          (ofGame game (ys.filter (·.isApproved))) := by
  have rejected (xs : List Decision) :
      xs.filter (place policy now · == none) = xs.filter (!·.isApproved) := by
    congr
    funext d
    cases approved : d.isApproved <;> simp [place, approved]
  have approved (game : Option GameId) (key : RankKey) (xs : List Decision) :
      xs.filter (place policy now · == some (game, key)) =
        (ofGame game (xs.filter (·.isApproved))).filter (·.offer.rankKey policy now == key) := by
    rw [ofGame, List.filter_filter, List.filter_filter]
    congr
    funext d
    cases approved : d.isApproved <;> simp [place, approved, Bool.and_comm, beq_eq_decide]
  constructor
  · intro ties
    refine ⟨?_, fun game key => ?_⟩
    · rw [← rejected, ← rejected, ties]
    · rw [← approved, ← approved, ties]
  · rintro ⟨last, ties⟩ (_ | ⟨game, key⟩)
    · rw [rejected, rejected, last]
    · rw [approved, approved, ties]

theorem keepsTies_prioritize (policy : Policy) (now : Instant) (ds : List Decision) :
    KeepsTies (place policy now) (prioritize policy now ds) ds := by
  refine keepsTies_place_iff.mpr ⟨filter_rejected_prioritize ds, fun game => ?_⟩
  rw [filter_approved_prioritize, ofGame_blocks]
  exact keepsTies_best policy now _

theorem pairwise_prioritize (policy : Policy) (now : Instant) (ds : List Decision) :
    (prioritize policy now ds).Pairwise fun a b =>
      PlacedBefore ds (place policy now a) (place policy now b) := by
  have last {d : Decision} (mem : d ∈ ds.filter (!·.isApproved)) : place policy now d = none := by
    have rejected := (List.mem_filter.mp mem).2
    rw [place, if_neg (by simpa using rejected)]
  rw [prioritize_eq, List.pairwise_append]
  refine ⟨?_, ?_, ?_⟩
  · refine (blocks_pairwise policy now _).imp_of_mem fun {a b} ha hb order => ?_
    rw [place, if_pos (isApproved_of_mem_blocks ha), place, if_pos (isApproved_of_mem_blocks hb)]
    rcases order with earlier | ⟨same, leads⟩
    · exact .game earlier
    · rw [same]
      exact .key (ranksBefore_iff.mp leads)
  · refine List.pairwise_of_forall_mem_list fun a _ b hb => ?_
    rw [last hb]
    exact .rejected _
  · intro a _ b hb
    rw [last hb]
    exact .rejected _

/-- What a ranking is to do with decisions, said of the list that comes out. -/
structure Prioritized (policy : Policy) (now : Instant) (ds out : List Decision) : Prop where
  perm : out.Perm ds
  approvedFirst : out.Pairwise fun a b => b.isApproved → a.isApproved
  rejectedKept : out.filter (!·.isApproved) = ds.filter (!·.isApproved)
  /-- Between two approved decisions of a game there are only decisions of that game. -/
  contiguous : ∀ a d b, [a, d, b].Sublist (out.filter (·.isApproved)) →
    a.offer.gameId = b.offer.gameId → d.offer.gameId = a.offer.gameId
  gamesAsSeen : (out.filter (·.isApproved)).Pairwise fun a b =>
    seenAt (ds.filter (·.isApproved)) a.offer.gameId ≤
      seenAt (ds.filter (·.isApproved)) b.offer.gameId
  bestFirst : (out.filter (·.isApproved)).Pairwise fun a b =>
    a.offer.gameId = b.offer.gameId → a.offer.compareRank policy now b.offer ≠ .lt
  tiesKept : ∀ game key,
    (ofGame game (out.filter (·.isApproved))).filter (·.offer.rankKey policy now == key) =
      (ofGame game (ds.filter (·.isApproved))).filter (·.offer.rankKey policy now == key)

theorem Prioritized.keepsTies (h : Prioritized policy now ds out) :
    KeepsTies (place policy now) out ds :=
  keepsTies_place_iff.mpr ⟨h.rejectedKept, h.tiesKept⟩

theorem Prioritized.pairwise (h : Prioritized policy now ds out) :
    out.Pairwise fun a b => PlacedBefore ds (place policy now a) (place policy now b) := by
  have gamesAsSeen := List.pairwise_filter.mp h.gamesAsSeen
  have bestFirst := List.pairwise_filter.mp h.bestFirst
  refine ((h.approvedFirst.and gamesAsSeen).and bestFirst).imp_of_mem ?_
  rintro a b ha - ⟨⟨approvedFirst, seen⟩, best⟩
  by_cases approved : b.isApproved
  · have first := approvedFirst approved
    rw [place, if_pos first, place, if_pos approved]
    rcases Nat.lt_or_eq_of_le (seen first approved) with earlier | same
    · exact .game earlier
    · have known : a ∈ ds.filter (·.isApproved) := List.mem_filter.mpr ⟨h.perm.mem_iff.mp ha, first⟩
      have game := seenAt_inj known same
      rw [← game]
      exact .key (Ordering.isGE_iff_ne_lt.mpr (best first approved game))
  · rw [place, place, if_neg approved]
    exact .rejected _

theorem prioritized_prioritize (policy : Policy) (now : Instant) (ds : List Decision) :
    Prioritized policy now ds (prioritize policy now ds) := by
  have ties := keepsTies_prioritize policy now ds
  have order := blocks_pairwise policy now (ds.filter (·.isApproved))
  rw [← filter_approved_prioritize] at order
  have seen : ((prioritize policy now ds).filter (·.isApproved)).Pairwise fun a b =>
      seenAt (ds.filter (·.isApproved)) a.offer.gameId ≤
        seenAt (ds.filter (·.isApproved)) b.offer.gameId := by
    refine order.imp ?_
    rintro a b (earlier | ⟨same, _⟩)
    · exact Nat.le_of_lt earlier
    · exact Nat.le_of_eq (congrArg _ same)
  constructor
  · exact ties.perm
  · refine (pairwise_prioritize policy now ds).imp fun {a b} placed approved => ?_
    rw [place, place, if_pos approved] at placed
    split at placed
    · assumption
    · cases placed
  · exact filter_rejected_prioritize ds
  · intro a d b inside same
    -- The game between two occurrences of a game is seen neither before nor after it.
    have ranked := seen.sublist inside
    simp only [List.pairwise_cons, List.mem_cons, List.not_mem_nil, or_false, forall_eq_or_imp,
      forall_eq] at ranked
    obtain ⟨⟨ad, -⟩, db, -⟩ := ranked
    rw [← same] at db
    have ranked := inside.subset List.mem_cons_self
    have known : a ∈ ds.filter (·.isApproved) := (ties.perm.filter _).mem_iff.mp ranked
    exact (seenAt_inj known (Nat.le_antisymm ad db)).symm
  · exact seen
  · refine order.imp ?_
    rintro a b (earlier | ⟨_, before⟩) same
    · rw [same] at earlier
      exact absurd earlier (Nat.lt_irrefl _)
    · exact Ordering.isGE_iff_ne_lt.mp (ranksBefore_iff.mp before)
  · exact fun game key => (keepsTies_place_iff.mp ties).2 game key

/-- **The ranking is the one list that meets these conditions.** -/
theorem prioritized_iff :
    Prioritized policy now ds out ↔ out = prioritize policy now ds := by
  constructor
  · intro h
    have ties : KeepsTies (place policy now) out (prioritize policy now ds) := fun p =>
      (h.keepsTies p).trans (keepsTies_prioritize policy now ds p).symm
    exact ties.eq_of_pairwise PlacedBefore.antisymm h.pairwise (pairwise_prioritize policy now ds)
  · rintro rfl
    exact prioritized_prioritize policy now ds

end Decision

end ReleaseSelection
