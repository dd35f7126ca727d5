import Mathlib.Data.List.Basic
import Mathlib.Data.List.Induction
import ReleaseSelection.Ranking

/-!
# Groups of decisions

Decisions are taken one by one, and each joins the group of its game. What comes of it is told by
`byGame_eq`: the games in the order in which they first appear, each with all of its decisions.
-/

namespace ReleaseSelection

/-! ## Lists without repetition -/

theorem eraseDups_concat {α : Type} [BEq α] [LawfulBEq α] (xs : List α) (x : α) :
    (xs ++ [x]).eraseDups = if x ∈ xs then xs.eraseDups else xs.eraseDups ++ [x] := by
  rw [List.eraseDups_append]
  by_cases known : x ∈ xs
  · have none : [x].removeAll xs = [] := by simp [List.removeAll, known]
    rw [none, if_pos known, List.eraseDups_nil, List.append_nil]
  · have new : [x].removeAll xs = [x] := by simp [List.removeAll, known]
    rw [new, if_neg known, List.eraseDups_cons, List.filter_nil, List.eraseDups_nil]

/-- Values without repetition stand in the order of their first occurrence. -/
theorem pairwise_idxOf_eraseDups {α : Type} [BEq α] [LawfulBEq α] (xs : List α) :
    xs.eraseDups.Pairwise fun a b => xs.idxOf a < xs.idxOf b := by
  -- By the last element: what stands before it keeps its first occurrence.
  induction xs using List.reverseRecOn with
  | nil => simp
  | append_singleton xs x ih =>
    have old {a : α} (mem : a ∈ xs.eraseDups) : (xs ++ [x]).idxOf a = xs.idxOf a := by
      rw [List.idxOf_append, if_pos (List.mem_eraseDups.mp mem)]
    have kept : xs.eraseDups.Pairwise fun a b => (xs ++ [x]).idxOf a < (xs ++ [x]).idxOf b :=
      ih.imp_of_mem fun ha hb less => by rwa [old ha, old hb]
    rw [eraseDups_concat]
    split
    · exact kept
    · rename_i new
      rw [List.pairwise_append]
      refine ⟨kept, List.pairwise_singleton _ _, fun a ha b hb => ?_⟩
      rw [List.mem_singleton.mp hb, old ha, List.idxOf_append, if_neg new]
      have := List.idxOf_lt_length_of_mem (List.mem_eraseDups.mp ha)
      omega

/-- Where one member alone gives anything, and is there once, the whole is what it gives. -/
theorem flatMap_eq_of_others {α β : Type} [DecidableEq α] {xs : List α} {f : α → List β} {a : α}
    (nodup : xs.Nodup) (others : ∀ b ∈ xs, b ≠ a → f b = []) (absent : a ∉ xs → f a = []) :
    xs.flatMap f = f a := by
  induction xs with
  | nil => simp [absent]
  | cons x xs ih =>
    obtain ⟨first, nodup⟩ := List.nodup_cons.mp nodup
    rw [List.flatMap_cons]
    by_cases here : x = a
    · subst here
      have rest : xs.flatMap f = [] := List.flatMap_eq_nil_iff.mpr fun b mem =>
        others b (List.mem_cons_of_mem _ mem) fun same => first (same ▸ mem)
      rw [rest, List.append_nil]
    · rw [others x List.mem_cons_self here, List.nil_append]
      refine ih nodup (fun b mem => others b (List.mem_cons_of_mem _ mem)) fun missing => ?_
      refine absent fun mem => missing ((List.mem_cons.mp mem).resolve_left fun same => ?_)
      exact here same.symm

/-! ## Games in the order of their appearance -/

namespace Decision

variable {ds : List Decision} {d : Decision} {game : Option GameId}

/-- The games of decisions in the order of their first appearance. -/
def games (ds : List Decision) : List (Option GameId) := (ds.map (·.offer.gameId)).eraseDups

def ofGame (game : Option GameId) (ds : List Decision) : List Decision :=
  ds.filter (·.offer.gameId == game)

/-- How many decisions there are before the first of a game. -/
def seenAt (ds : List Decision) (game : Option GameId) : Nat :=
  (ds.map (·.offer.gameId)).idxOf game

theorem seenAt_inj (mem : d ∈ ds) (same : seenAt ds d.offer.gameId = seenAt ds game) :
    d.offer.gameId = game := by
  have listed : d.offer.gameId ∈ ds.map (·.offer.gameId) := List.mem_map_of_mem mem
  exact (List.idxOf_inj listed).mp same

theorem games_pairwise (ds : List Decision) :
    (games ds).Pairwise fun g h => seenAt ds g < seenAt ds h :=
  pairwise_idxOf_eraseDups _

theorem games_nodup (ds : List Decision) : (games ds).Nodup :=
  (games_pairwise ds).imp fun {g h} less same => by
    rw [same] at less
    exact Nat.lt_irrefl _ less

theorem mem_games : game ∈ games ds ↔ ∃ d ∈ ds, d.offer.gameId = game := by
  rw [games, List.mem_eraseDups, List.mem_map]

theorem mem_ofGame : d ∈ ofGame game ds ↔ d ∈ ds ∧ d.offer.gameId = game := by
  rw [ofGame, List.mem_filter, beq_iff_eq]

theorem ofGame_eq_self (own : ∀ d ∈ ds, d.offer.gameId = game) : ofGame game ds = ds :=
  List.filter_eq_self.mpr fun d mem => beq_iff_eq.mpr (own d mem)

theorem ofGame_filter (game : Option GameId) (p : Decision → Bool) (ds : List Decision) :
    ofGame game (ds.filter p) = (ofGame game ds).filter p :=
  List.filter_comm ..

/-! ## Groups -/

theorem ofGame_concat_self (ds : List Decision) (d : Decision) :
    ofGame d.offer.gameId (ds ++ [d]) = ofGame d.offer.gameId ds ++ [d] := by
  simp [ofGame]

theorem ofGame_concat_of_ne (other : d.offer.gameId ≠ game) (ds : List Decision) :
    ofGame game (ds ++ [d]) = ofGame game ds := by
  simp [ofGame, other]

/-- A decision that joins the groups of decisions before it is the last of its group. -/
theorem join_groups {gs : List (Option GameId)} (nodup : gs.Nodup)
    (absent : d.offer.gameId ∉ gs → ofGame d.offer.gameId ds = []) :
    join d (gs.map fun game => (game, ofGame game ds)) =
      (if d.offer.gameId ∈ gs then gs else gs ++ [d.offer.gameId]).map fun game =>
        (game, ofGame game (ds ++ [d])) := by
  induction gs with
  | nil =>
    have first := absent List.not_mem_nil
    simp [join, ofGame_concat_self, first]
  | cons g gs ih =>
    obtain ⟨fresh, nodup⟩ := List.nodup_cons.mp nodup
    rw [List.map_cons, join]
    by_cases here : g = d.offer.gameId
    · subst here
      have others : ∀ game ∈ gs, ofGame game (ds ++ [d]) = ofGame game ds := fun game mem =>
        ofGame_concat_of_ne (fun same => fresh (same ▸ mem)) ds
      have rest := List.map_congr_left fun game mem =>
        congrArg (Prod.mk game) (others game mem)
      rw [if_pos (beq_self_eq_true _), if_pos List.mem_cons_self, List.map_cons,
        ofGame_concat_self, rest]
    · have elsewhere := Ne.symm here
      have rest := ih nodup fun missing =>
        absent fun mem => missing ((List.mem_cons.mp mem).resolve_left elsewhere)
      rw [if_neg (by simpa using here), rest]
      simp only [List.mem_cons, elsewhere, false_or]
      split
      · rw [List.map_cons, ofGame_concat_of_ne elsewhere]
      · rw [List.cons_append, List.map_cons, ofGame_concat_of_ne elsewhere]

theorem byGame_eq (ds : List Decision) :
    byGame ds = (games ds).map fun game => (game, ofGame game ds) := by
  induction ds using List.reverseRecOn with
  | nil => rfl
  | append_singleton ds d ih =>
    have absent : d.offer.gameId ∉ games ds → ofGame d.offer.gameId ds = [] := by
      intro missing
      refine List.filter_eq_nil_iff.mpr fun other mem same => missing ?_
      exact mem_games.mpr ⟨other, mem, beq_iff_eq.mp same⟩
    have seen : d.offer.gameId ∈ games ds ↔ d.offer.gameId ∈ ds.map (·.offer.gameId) :=
      List.mem_eraseDups
    have more : games (ds ++ [d]) =
        if d.offer.gameId ∈ games ds then games ds else games ds ++ [d.offer.gameId] := by
      simp only [seen]
      rw [games, List.map_append, List.map_singleton, eraseDups_concat, games]
    rw [byGame, List.foldl_append, ← byGame, ih, more]
    exact join_groups (games_nodup ds) absent

end Decision

end ReleaseSelection
