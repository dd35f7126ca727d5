import Mathlib.Data.List.Forall2
import ReleaseSelection.Proofs.Held
import ReleaseSelection.Service

/-!
# Batches

A batch is decided by a pool whose evaluations end and are collected in an order that nothing fixes.
`Accounting` is what every step keeps: each offer waits, runs, has come to its ending, or has what
became of it in its slot, and a slot holds the decision on its own offer or nothing. So a pool that
has finished has one list of decisions, whatever the order (`Accounting.decisions`), and every order
comes to an end (`Step.work`, `exists_step`). An evaluation that takes too long costs a step more,
and it holds its place meanwhile (`Run.taken_le`).
-/

namespace ReleaseSelection

theorem zipIdx_set {α : Type} (xs : List α) (i : Nat) (a : α) :
    (xs.set i a).zipIdx = xs.zipIdx.set i (a, i) := by
  apply List.ext_getElem?
  intro j
  rw [List.getElem?_zipIdx, List.getElem?_set, List.getElem?_set, List.getElem?_zipIdx,
    List.length_zipIdx, Nat.zero_add]
  by_cases here : i = j
  · subst here
    by_cases inside : i < xs.length <;> simp [inside]
  · simp [here]

namespace Pool

variable {places : Nat} {evaluate : Offer → Except Fault Decision} {late : Nat → Bool}
  {offers : List Offer} {task : Offer × Nat} {p q : Pool}

/-! ## Endings -/

/-- What becomes of the evaluation of an offer, which stands in this position. -/
def ending (evaluate : Offer → Except Fault Decision) (late : Nat → Bool) (task : Offer × Nat) :
    Ending :=
  if late task.2 then .outOfTime else .of (evaluate task.1)

theorem ending_of_late (tooLong : late task.2 = true) :
    ending evaluate late task = .outOfTime := if_pos tooLong

theorem ending_of_inTime (inTime : late task.2 = false) :
    ending evaluate late task = .of (evaluate task.1) := by
  rw [ending, inTime, if_neg Bool.false_ne_true]

/-! ## Steps -/

/-- The evaluations of which nothing is known yet. -/
def pending (p : Pool) : List (Offer × Nat) := p.waiting ++ p.running

/-- What a step does to the evaluations, in whatever order they are kept. -/
inductive Effect (evaluate : Offer → Except Fault Decision) (late : Nat → Bool) (p q : Pool) :
    Prop where
  | moved (pending : q.pending.Perm p.pending) (ended : q.ended = p.ended)
      (slots : q.slots = p.slots)
  | known (o : Offer) (i : Nat) (pending : p.pending.Perm ((o, i) :: q.pending))
      (ended : q.ended.Perm ((ending evaluate late (o, i), i) :: p.ended))
      (slots : q.slots = p.slots)
  | collected (result : Ending) (i : Nat) (pending : q.pending = p.pending)
      (ended : p.ended.Perm ((result, i) :: q.ended)) (slots : q.slots = fill p.slots result i)

theorem pending_perm {before after : List (Offer × Nat)}
    (busy : p.running = before ++ task :: after) :
    p.pending.Perm (task :: (p.waiting ++ (before ++ after))) := by
  rw [pending, busy, ← List.append_assoc, ← List.append_assoc]
  exact List.perm_middle

theorem Step.effect (step : Step places evaluate late p q) : Effect evaluate late p q := by
  cases step with
  | start task rest next free =>
    refine .moved ?_ rfl rfl
    rw [pending, pending, next, Pool.start, ← List.append_assoc]
    exact List.perm_append_singleton task (rest ++ p.running)
  | finish before task after busy inTime =>
    refine .known task.1 task.2 (pending_perm busy) ?_ rfl
    rw [ending_of_inTime inTime]
    exact List.perm_append_singleton ..
  | giveUp before task after busy tooLong =>
    refine .known task.1 task.2 (pending_perm busy) ?_ rfl
    rw [ending_of_late tooLong]
    exact List.perm_append_singleton ..
  | release before task after given => exact .moved (.refl _) rfl rfl
  | collect before result after started ready =>
    refine .collected result.1 result.2 rfl ?_ rfl
    rw [ready]
    exact List.perm_middle

/-- An evaluation that was given up still counts against the places. -/
theorem Step.taken_le (step : Step places evaluate late p q) (h : p.taken ≤ places) :
    q.taken ≤ places := by
  cases step with
  | start task rest next free =>
    simp only [Pool.taken, Pool.start, List.length_append, List.length_cons, List.length_nil] at *
    omega
  | finish before task after busy inTime =>
    simp only [Pool.taken, Pool.finish, busy, List.length_append, List.length_cons] at *
    omega
  | giveUp before task after busy tooLong =>
    simp only [Pool.taken, Pool.giveUp, busy, List.length_append, List.length_cons,
      List.length_nil] at *
    omega
  | release before task after given =>
    simp only [Pool.taken, Pool.release, given, List.length_append, List.length_cons] at *
    omega
  | collect before result after started ready => exact h

/-! ## Slots -/

theorem length_fill (slots : List (Option Decision)) (result : Ending) (i : Nat) :
    (fill slots result i).length = slots.length := by
  unfold fill
  split
  · exact List.length_set
  · rfl

theorem getElem?_fill_ne {slots : List (Option Decision)} {result : Ending} {i j : Nat}
    (other : i ≠ j) : (fill slots result i)[j]? = slots[j]? := by
  unfold fill
  split
  · exact List.getElem?_set_ne other
  · rfl

/-- A decision comes to stand in its slot if that was empty or held the same. -/
theorem getElem?_fill_self {slots : List (Option Decision)} {result : Ending} {i : Nat}
    (fits : slots[i]? = some none ∨ slots[i]? = some result.decision?) :
    (fill slots result i)[i]? = some result.decision? := by
  unfold fill
  cases found : result.decision? with
  | some decision =>
    have inside : i < slots.length := by
      rcases fits with free | same
      · exact (List.getElem?_eq_some_iff.mp free).1
      · exact (List.getElem?_eq_some_iff.mp same).1
    exact List.getElem?_set_self inside
  | none =>
    rw [found] at fits
    exact fits.elim id id

/-! ## What every step keeps -/

/-- What a pool holds of the offers of its batch. -/
structure Accounting (evaluate : Offer → Except Fault Decision) (late : Nat → Bool)
    (offers : List Offer) (p : Pool) : Prop where
  pending : ∀ (o : Offer) (i : Nat), (o, i) ∈ p.pending → offers[i]? = some o
  ended : ∀ (result : Ending) (i : Nat), (result, i) ∈ p.ended →
    ∃ o, offers[i]? = some o ∧ ending evaluate late (o, i) = result
  length : p.slots.length = offers.length
  slots : ∀ (i : Nat) (o : Offer), offers[i]? = some o →
    p.slots[i]? = some none ∨ p.slots[i]? = some (ending evaluate late (o, i)).decision?
  covered : ∀ (i : Nat) (o : Offer), offers[i]? = some o → (o, i) ∈ p.pending ∨
    (ending evaluate late (o, i), i) ∈ p.ended ∨
      p.slots[i]? = some (ending evaluate late (o, i)).decision?

theorem pending_ofOffers (offers : List Offer) : (ofOffers offers).pending = offers.zipIdx :=
  List.append_nil _

theorem accounting_ofOffers (evaluate : Offer → Except Fault Decision) (late : Nat → Bool)
    (offers : List Offer) : Accounting evaluate late offers (ofOffers offers) := by
  constructor
  · intro o i mem
    rw [pending_ofOffers] at mem
    exact List.mem_zipIdx_iff_getElem?.mp mem
  · intro result i mem
    exact absurd mem List.not_mem_nil
  · exact List.length_map _
  · intro i o known
    left
    rw [ofOffers, List.getElem?_map, known, Option.map_some]
  · intro i o known
    rw [pending_ofOffers]
    exact .inl (List.mem_zipIdx_iff_getElem?.mpr known)

theorem Accounting.step (h : Accounting evaluate late offers p)
    (step : Step places evaluate late p q) : Accounting evaluate late offers q := by
  cases step.effect with
  | moved pending ended slots =>
    constructor
    · exact fun o i mem => h.pending o i (pending.mem_iff.mp mem)
    · rw [ended]
      exact h.ended
    · rw [slots]
      exact h.length
    · rw [slots]
      exact h.slots
    · intro i o known
      rw [pending.mem_iff, ended, slots]
      exact h.covered i o known
  | known o i pending ended slots =>
    have known := h.pending o i (pending.mem_iff.mpr List.mem_cons_self)
    constructor
    · exact fun other j mem => h.pending other j (pending.mem_iff.mpr (List.mem_cons_of_mem _ mem))
    · intro result j mem
      rcases List.mem_cons.mp (ended.mem_iff.mp mem) with here | before
      · cases here
        exact ⟨o, known, rfl⟩
      · exact h.ended result j before
    · rw [slots]
      exact h.length
    · rw [slots]
      exact h.slots
    · intro j other known
      rw [ended.mem_iff, slots]
      rcases h.covered j other known with waits | done | filled
      · rcases List.mem_cons.mp (pending.mem_iff.mp waits) with here | waits
        · cases here
          exact .inr (.inl List.mem_cons_self)
        · exact .inl waits
      · exact .inr (.inl (List.mem_cons_of_mem _ done))
      · exact .inr (.inr filled)
  | collected result i pending ended slots =>
    obtain ⟨o, here, rfl⟩ := h.ended result i (ended.mem_iff.mpr List.mem_cons_self)
    -- The slot of this offer is now as its ending has it, and those of the others are as before.
    have slot (j : Nat) (other : Offer) (known : offers[j]? = some other) :
        q.slots[j]? = some (ending evaluate late (other, j)).decision? ∨
          i ≠ j ∧ q.slots[j]? = p.slots[j]? := by
      rw [slots]
      by_cases same : i = j
      · subst same
        cases here.symm.trans known
        exact .inl (getElem?_fill_self (h.slots i o here))
      · exact .inr ⟨same, getElem?_fill_ne same⟩
    constructor
    · rw [pending]
      exact h.pending
    · exact fun other j mem => h.ended other j (ended.mem_iff.mpr (List.mem_cons_of_mem _ mem))
    · rw [slots, length_fill]
      exact h.length
    · intro j other known
      rcases slot j other known with filled | ⟨_, before⟩
      · exact .inr filled
      · rw [before]
        exact h.slots j other known
    · intro j other known
      rcases slot j other known with filled | ⟨different, before⟩
      · exact .inr (.inr filled)
      · rw [pending, before]
        rcases h.covered j other known with waits | done | filled
        · exact .inl waits
        · have rest := (List.mem_cons.mp (ended.mem_iff.mp done)).resolve_left fun eq =>
            different (Prod.mk.inj eq).2.symm
          exact .inr (.inl rest)
        · exact .inr (.inr filled)

/-! ## Finished pools -/

/-- The decision that an evaluation comes to where it is waited for. -/
def settle (evaluate : Offer → Except Fault Decision) (o : Offer) : Decision :=
  match evaluate o with
  | .ok decision => decision
  | .error _ => .faulted o

/-- What is told of an offer in the end. -/
def conclude (evaluate : Offer → Except Fault Decision) (late : Nat → Bool)
    (task : Offer × Nat) : Decision :=
  (ending evaluate late task).decision?.getD (.faulted task.1)

theorem conclude_of_inTime (inTime : late task.2 = false) :
    conclude evaluate late task = settle evaluate task.1 := by
  rw [conclude, ending_of_inTime inTime, settle]
  cases evaluate task.1 <;> rfl

theorem conclude_of_late (tooLong : late task.2 = true) :
    conclude evaluate late task = .faulted task.1 := by
  rw [conclude, ending_of_late tooLong]
  rfl

/-- Where nothing is left to happen every slot is filled for good. -/
theorem Accounting.decisions (h : Accounting evaluate late offers p) (finished : p.Finished) :
    p.decisions offers = offers.zipIdx.map (conclude evaluate late) := by
  apply List.ext_getElem?
  intro i
  rw [Pool.decisions, List.getElem?_zipWith, List.getElem?_map, List.getElem?_zipIdx, Nat.zero_add]
  cases known : offers[i]? with
  | none =>
    have outside : p.slots.length ≤ i := by
      rw [h.length]
      exact List.getElem?_eq_none_iff.mp known
    rw [List.getElem?_eq_none outside]
    rfl
  | some o =>
    have filled : p.slots[i]? = some (ending evaluate late (o, i)).decision? := by
      rcases h.covered i o known with waits | done | filled
      · rw [Pool.pending, finished.waiting, finished.running] at waits
        exact absurd waits List.not_mem_nil
      · rw [finished.ended] at done
        exact absurd done List.not_mem_nil
      · exact filled
    rw [filled]
    rfl

/-! ## Runs -/

/-- How many steps are left: three for an evaluation that waits, two for one that runs, and one for
one that has come to its ending. One that takes too long goes on behind it, which is a step more. -/
def work (late : Nat → Bool) (p : Pool) : Nat :=
  3 * p.waiting.length + 2 * p.running.length + p.ended.length +
    (p.pending.countP (late ·.2) + p.overdue.length)

theorem work_ofOffers (late : Nat → Bool) (offers : List Offer) :
    (ofOffers offers).work late = 3 * offers.length + offers.zipIdx.countP (late ·.2) := by
  rw [work, pending_ofOffers]
  simp [ofOffers]

theorem Step.work (step : Step places evaluate late p q) : q.work late + 1 = p.work late := by
  cases step with
  | start task rest next free =>
    simp only [Pool.work, Pool.pending, Pool.start, next, List.length_append, List.length_cons,
      List.length_nil, List.countP_append, List.countP_cons, List.countP_nil]
    omega
  | finish before task after busy inTime =>
    simp only [Pool.work, Pool.pending, Pool.finish, busy, List.length_append, List.length_cons,
      List.length_nil, List.countP_append, List.countP_cons, inTime, Bool.false_eq_true, if_false]
    omega
  | giveUp before task after busy tooLong =>
    simp only [Pool.work, Pool.pending, Pool.giveUp, busy, List.length_append, List.length_cons,
      List.length_nil, List.countP_append, List.countP_cons, tooLong, if_true]
    omega
  | release before task after given =>
    simp only [Pool.work, Pool.pending, Pool.release, given, List.length_append, List.length_cons]
    omega
  | collect before result after started ready =>
    simp only [Pool.work, Pool.pending, Pool.collect, ready, List.length_append, List.length_cons]
    omega

theorem finished_of_work (h : p.work late = 0) : p.Finished := by
  unfold work at h
  constructor
  · exact List.eq_nil_of_length_eq_zero (by omega)
  · exact List.eq_nil_of_length_eq_zero (by omega)
  · exact List.eq_nil_of_length_eq_zero (by omega)

theorem Step.of_endFirst? (h : p.endFirst? evaluate late = some q) :
    Step places evaluate late p q := by
  unfold endFirst? at h
  split at h
  · rename_i task rest busy
    cases lateness : late task.2 with
    | true =>
      rw [lateness, if_pos rfl] at h
      cases h
      exact .giveUp p [] task rest busy lateness
    | false =>
      rw [lateness, if_neg Bool.false_ne_true] at h
      cases h
      exact .finish p [] task rest busy lateness
  · cases h

theorem Step.of_releaseFirst? (h : p.releaseFirst? = some q) : Step places evaluate late p q := by
  unfold releaseFirst? at h
  split at h
  · cases h
    exact .release p [] _ _ ‹_›
  · cases h

theorem endFirst?_eq_none_iff : p.endFirst? evaluate late = none ↔ p.running = [] := by
  unfold endFirst?
  split
  · rename_i busy
    rw [busy]
    split <;> simp
  · rename_i idle
    simp [idle]

theorem releaseFirst?_eq_none_iff : p.releaseFirst? = none ↔ p.overdue = [] := by
  unfold releaseFirst?
  split <;> simp_all

theorem collectFirst?_eq_none_iff : p.collectFirst? = none ↔ p.ended = [] := by
  unfold collectFirst?
  split <;> simp_all

theorem Step.of_step? (h : p.step? places evaluate late = some q) :
    Step places evaluate late p q := by
  unfold step? at h
  split at h
  · split at h
    · cases h
      exact .start p _ _ ‹_› ‹_›
    · rcases Option.or_eq_some_iff.mp h with busy | ⟨_, given⟩
      · exact .of_endFirst? busy
      · exact .of_releaseFirst? given
  · rename_i started
    rcases Option.or_eq_some_iff.mp h with busy | ⟨_, ready⟩
    · exact .of_endFirst? busy
    · unfold collectFirst? at ready
      split at ready
      · cases ready
        exact .collect p [] _ _ started ‹_›
      · cases ready

theorem finished_of_step? (room : 0 < places) (h : p.step? places evaluate late = none) :
    p.Finished := by
  unfold step? at h
  split at h
  · split at h
    · cases h
    · rename_i full
      obtain ⟨idle, empty⟩ := Option.or_eq_none_iff.mp h
      rw [taken, endFirst?_eq_none_iff.mp idle, releaseFirst?_eq_none_iff.mp empty] at full
      exact absurd room full
  · obtain ⟨idle, empty⟩ := Option.or_eq_none_iff.mp h
    exact ⟨‹_›, endFirst?_eq_none_iff.mp idle, collectFirst?_eq_none_iff.mp empty⟩

/-- So many steps from the start of a batch, in any order. -/
inductive Run (places : Nat) (evaluate : Offer → Except Fault Decision) (late : Nat → Bool)
    (offers : List Offer) : Nat → Pool → Prop where
  | start : Run places evaluate late offers 0 (ofOffers offers)
  | step {n : Nat} {p q : Pool} : Run places evaluate late offers n p →
      Step places evaluate late p q → Run places evaluate late offers (n + 1) q

theorem Run.accounting {n : Nat} (run : Run places evaluate late offers n p) :
    Accounting evaluate late offers p := by
  induction run with
  | start => exact accounting_ofOffers evaluate late offers
  | step _ step ih => exact ih.step step

theorem Run.taken_le {n : Nat} (run : Run places evaluate late offers n p) : p.taken ≤ places := by
  induction run with
  | start => exact Nat.zero_le _
  | step _ step ih => exact step.taken_le ih

theorem Run.work {n : Nat} (run : Run places evaluate late offers n p) :
    p.work late + n = 3 * offers.length + offers.zipIdx.countP (late ·.2) := by
  induction run with
  | start => exact work_ofOffers late offers
  | step _ step ih =>
    have := step.work
    omega

/-- A pool with a place goes on until it has finished. -/
theorem exists_step (room : 0 < places) (unfinished : ¬ p.Finished) :
    ∃ q, Step places evaluate late p q := by
  cases next : p.step? places evaluate late with
  | none => exact absurd (finished_of_step? room next) unfinished
  | some q => exact ⟨q, .of_step? next⟩

/-- First come, first served is one of the orders. -/
theorem Run.run (room : 0 < places) {n k : Nat} (h : Run places evaluate late offers n p)
    (enough : p.work late ≤ k) :
    ∃ m, Run places evaluate late offers m (p.run places evaluate late k) ∧
      (p.run places evaluate late k).Finished := by
  induction k generalizing n p with
  | zero => exact ⟨n, h, finished_of_work (Nat.le_zero.mp enough)⟩
  | succ k ih =>
    rw [Pool.run]
    cases next : p.step? places evaluate late with
    | none => exact ⟨n, h, finished_of_step? room next⟩
    | some q =>
      have step := Step.of_step? next
      have := step.work
      exact ih (h.step step) (by omega)

theorem decideAll_eq (room : 0 < places) (evaluate : Offer → Except Fault Decision)
    (late : Nat → Bool) (offers : List Offer) :
    decideAll places evaluate late offers = offers.zipIdx.map (conclude evaluate late) := by
  have begun : Run places evaluate late offers 0 (ofOffers offers) := .start
  have enough : (ofOffers offers).work late ≤ 4 * offers.length := by
    have := List.countP_le_length (p := fun task => late task.2) (l := offers.zipIdx)
    rw [List.length_zipIdx] at this
    rw [work_ofOffers]
    omega
  obtain ⟨m, run, finished⟩ := begun.run room enough
  exact run.accounting.decisions finished

end Pool

/-! ## Batches -/

theorem Offer.decide_offer {o : Offer} {checks : List Check} {c : Context} {d : Decision}
    (decided : o.decide checks c = .ok d) : d.offer = o.inContext c := by
  rw [Offer.decide, Offer.judge] at decided
  split at decided
  · cases decided
    rfl
  · obtain ⟨r, _, rfl⟩ := Fault.map_eq_ok_iff.mp decided
    rfl

namespace Service

variable {policy : Policy} {store : Store} {c : Context} {took : Durations}

theorem places_pos (policy : Policy) : 0 < places policy := by
  unfold places
  omega

theorem isLate_eq_false_iff {i : Nat} :
    isLate policy took i = false ↔ took i ≤ policy.evaluationTimeout.val := by
  rw [isLate, decide_eq_false_iff_not, Int.not_lt]

theorem evaluateBatch_eq (policy : Policy) (store : Store) (offers : List Offer) (c : Context)
    (aborted : Bool) (took : Durations) :
    evaluateBatch policy store offers c aborted took =
      if aborted then .error .aborted
      else if maxConcurrency < policy.maxConcurrentEvaluations.val then .error (.fault .concurrency)
      else
        .ok (offers.zipIdx.map
          (Pool.conclude (evaluate policy store c) (isLate policy took))) := by
  rw [evaluateBatch, Pool.decideAll_eq (places_pos policy)]

theorem evaluateBatch_eq_ok (bounded : policy.maxConcurrentEvaluations.val ≤ maxConcurrency)
    (store : Store) (offers : List Offer) (c : Context) (took : Durations) :
    evaluateBatch policy store offers c false took =
      .ok (offers.zipIdx.map (Pool.conclude (evaluate policy store c) (isLate policy took))) := by
  rw [evaluateBatch_eq, if_neg Bool.false_ne_true, if_neg (Int.not_lt.mpr bounded)]

/-- What comes of an offer in a position, for itself: the decision on it, or a report where a check
faults, and likewise where its evaluation takes longer than the policy waits. -/
inductive Settled (policy : Policy) (store : Store) (c : Context) (took : Durations) :
    Offer × Nat → Decision → Prop where
  | decided (o : Offer) (i : Nat) (d : Decision)
      (inTime : took i ≤ policy.evaluationTimeout.val)
      (run : o.decide (Check.standard policy store.readers) c = .ok d) :
      Settled policy store c took (o, i) d
  | faulted (o : Offer) (i : Nat) (fault : Fault)
      (inTime : took i ≤ policy.evaluationTimeout.val)
      (run : o.decide (Check.standard policy store.readers) c = .error fault) :
      Settled policy store c took (o, i) (.faulted o)
  | outOfTime (o : Offer) (i : Nat) (tooLong : policy.evaluationTimeout.val < took i) :
      Settled policy store c took (o, i) (.faulted o)

theorem settled_conclude (policy : Policy) (store : Store) (c : Context) (took : Durations)
    (task : Offer × Nat) : Settled policy store c took task
      (Pool.conclude (evaluate policy store c) (isLate policy took) task) := by
  obtain ⟨o, i⟩ := task
  cases lateness : isLate policy took i with
  | true =>
    rw [Pool.conclude_of_late lateness]
    exact .outOfTime o i (of_decide_eq_true lateness)
  | false =>
    have inTime := isLate_eq_false_iff.mp lateness
    rw [Pool.conclude_of_inTime lateness, Pool.settle]
    cases decided : evaluate policy store c o with
    | ok d => exact .decided o i d inTime decided
    | error fault => exact .faulted o i fault inTime decided

/-- A batch that is not aborted settles its offers one by one. -/
theorem settled_evaluateBatch (policy : Policy) (store : Store) (offers : List Offer) (c : Context)
    (took : Durations) (bounded : policy.maxConcurrentEvaluations.val ≤ maxConcurrency) :
    ∃ ds, evaluateBatch policy store offers c false took = .ok ds ∧
      offers.zipIdx.Forall₂ (Settled policy store c took) ds := by
  refine ⟨_, evaluateBatch_eq_ok bounded store offers c took, ?_⟩
  rw [List.forall₂_map_right_iff]
  exact List.forall₂_same.mpr fun task _ => settled_conclude policy store c took task

/-- It is about that offer, with the source at most changed. -/
theorem Settled.offer {task : Offer × Nat} {d : Decision}
    (h : Settled policy store c took task d) :
    { d.offer with source := task.1.source } = task.1 := by
  cases h with
  | decided o i d inTime run => simp only [Offer.decide_offer run, Offer.inContext]
  | faulted o i fault inTime run => rfl
  | outOfTime o i tooLong => rfl

/-- **A batch is decided offer by offer, in whatever order its evaluations end.** Every run of its
pool comes to an end and never takes more places than there are, and at each end stand the decisions
of the batch; each of them is that on its offer alone, or the report on it, and another offer in one
position changes no decision but that one. An evaluation that takes too long costs a step of its
own. -/
theorem evaluateBatch_pointwise (policy : Policy) (store : Store) (offers : List Offer)
    (c : Context) (took : Durations)
    (bounded : policy.maxConcurrentEvaluations.val ≤ maxConcurrency) :
    ∃ decisions, evaluateBatch policy store offers c false took = .ok decisions ∧
      decisions.length = offers.length ∧
      (∀ (i : Nat) (o : Offer), offers[i]? = some o → ∃ d, decisions[i]? = some d ∧
        Settled policy store c took (o, i) d ∧ { d.offer with source := o.source } = o) ∧
      (∀ (i : Nat) (other : Offer), ∃ d,
        evaluateBatch policy store (offers.set i other) c false took =
          .ok (decisions.set i d)) ∧
      ∀ (n : Nat) (pool : Pool),
        Pool.Run (places policy) (evaluate policy store c) (isLate policy took) offers n pool →
          n ≤ 3 * offers.length + offers.zipIdx.countP (isLate policy took ·.2) ∧
          pool.taken ≤ places policy ∧
          (pool.Finished → pool.decisions offers = decisions) ∧
          (¬ pool.Finished → ∃ next, Pool.Step (places policy) (evaluate policy store c)
            (isLate policy took) pool next) := by
  refine ⟨_, evaluateBatch_eq_ok bounded store offers c took, ?_, ?_, ?_, ?_⟩
  · rw [List.length_map, List.length_zipIdx]
  · intro i o known
    have settled := settled_conclude policy store c took (o, i)
    refine ⟨_, ?_, settled, settled.offer⟩
    rw [List.getElem?_map, List.getElem?_zipIdx, known, Nat.zero_add]
    rfl
  · intro i other
    refine ⟨Pool.conclude (evaluate policy store c) (isLate policy took) (other, i), ?_⟩
    rw [evaluateBatch_eq_ok bounded, zipIdx_set, List.map_set]
  · intro n pool run
    have := run.work
    exact ⟨by omega, run.taken_le, run.accounting.decisions, Pool.exists_step (places_pos policy)⟩

def smallBatch : List Offer :=
  [(Game.ofTitle .nil "Small" .small).offered (.unversioned .scene 1 []),
    (Game.ofTitle .nil "Small" .small).offered (.unversioned .retail 1 [.bonus])]

/-- Under the default policy, which waits five seconds, two offers that take one second are decided
within six steps, with one outcome. -/
theorem evaluateBatch_pointwise_smallBatch :
    Policy.default.maxConcurrentEvaluations.val ≤ maxConcurrency ∧
      ∃ decisions, evaluateBatch .default .empty smallBatch (.rss ⟨0, 0⟩) false (fun _ => 1000) =
          .ok decisions ∧
        decisions.length = 2 ∧
        ∀ (n : Nat) (pool : Pool), Pool.Run (places .default)
            (evaluate .default .empty (.rss ⟨0, 0⟩)) (isLate .default fun _ => 1000) smallBatch n
            pool →
          n ≤ 6 ∧ (pool.Finished → pool.decisions smallBatch = decisions) := by
  have bounded : Policy.default.maxConcurrentEvaluations.val ≤ maxConcurrency := by decide
  obtain ⟨decisions, decided, length, _, _, ends⟩ :=
    evaluateBatch_pointwise .default .empty smallBatch (.rss ⟨0, 0⟩) (fun _ => 1000) bounded
  refine ⟨bounded, decisions, decided, length, fun n pool run => ?_⟩
  obtain ⟨steps, _, outcome, _⟩ := ends n pool run
  exact ⟨steps, outcome⟩

end Service

end ReleaseSelection
