import ReleaseSelection.Decision

/-!
# Pools of evaluations

The offers of a batch are decided side by side. An evaluation starts when a place is free, in the
order of the offers, and gives its place back when it ends. One that takes too long is given up,
but it goes on and keeps its place until it ends as well. When all have started, what became of them
is collected, and each decision goes into the slot of its offer. A fault leaves the slot empty, and
so does an evaluation that was given up; the offer itself is what is left to report on. `Step`
leaves the order open in which all this happens; `run` takes one of these orders.
-/

namespace ReleaseSelection

/-- What becomes of an evaluation. -/
inductive Ending where
  | decided (decision : Decision)
  | faulted (fault : Fault)
  | outOfTime
  deriving DecidableEq, Repr

def Ending.of : Except Fault Decision → Ending
  | .ok decision => .decided decision
  | .error fault => .faulted fault

def Ending.decision? : Ending → Option Decision
  | .decided decision => some decision
  | .faulted _ | .outOfTime => none

/-- Each evaluation goes with the position of its offer in the batch. Those that are overdue have
been given up and still take a place. -/
structure Pool where
  waiting : List (Offer × Nat)
  running : List (Offer × Nat)
  overdue : List (Offer × Nat)
  ended : List (Ending × Nat)
  slots : List (Option Decision)

namespace Pool

def ofOffers (offers : List Offer) : Pool where
  waiting := offers.zipIdx
  running := []
  overdue := []
  ended := []
  slots := offers.map fun _ => none

/-- How many places are taken. -/
def taken (p : Pool) : Nat := p.running.length + p.overdue.length

def fill (slots : List (Option Decision)) (ending : Ending) (i : Nat) : List (Option Decision) :=
  match ending.decision? with
  | some decision => slots.set i (some decision)
  | none => slots

def start (p : Pool) (task : Offer × Nat) (waiting : List (Offer × Nat)) : Pool :=
  { p with waiting := waiting, running := p.running ++ [task] }

def finish (evaluate : Offer → Except Fault Decision) (p : Pool) (task : Offer × Nat)
    (running : List (Offer × Nat)) : Pool :=
  { p with running := running, ended := p.ended ++ [(.of (evaluate task.1), task.2)] }

def giveUp (p : Pool) (task : Offer × Nat) (running : List (Offer × Nat)) : Pool :=
  { p with
    running := running
    overdue := p.overdue ++ [task]
    ended := p.ended ++ [(.outOfTime, task.2)] }

/-- What an evaluation comes to after it was given up is not looked at. -/
def release (p : Pool) (overdue : List (Offer × Nat)) : Pool := { p with overdue := overdue }

def collect (p : Pool) (result : Ending × Nat) (ended : List (Ending × Nat)) : Pool :=
  { p with ended := ended, slots := fill p.slots result.1 result.2 }

/-- What may happen next in a pool with so many places, where the evaluations in some positions take
too long. -/
inductive Step (places : Nat) (evaluate : Offer → Except Fault Decision) (late : Nat → Bool) :
    Pool → Pool → Prop where
  | start (p : Pool) (task : Offer × Nat) (rest : List (Offer × Nat))
      (next : p.waiting = task :: rest) (free : p.taken < places) :
      Step places evaluate late p (p.start task rest)
  | finish (p : Pool) (before : List (Offer × Nat)) (task : Offer × Nat)
      (after : List (Offer × Nat)) (busy : p.running = before ++ task :: after)
      (inTime : late task.2 = false) :
      Step places evaluate late p (p.finish evaluate task (before ++ after))
  | giveUp (p : Pool) (before : List (Offer × Nat)) (task : Offer × Nat)
      (after : List (Offer × Nat)) (busy : p.running = before ++ task :: after)
      (tooLong : late task.2 = true) :
      Step places evaluate late p (p.giveUp task (before ++ after))
  | release (p : Pool) (before : List (Offer × Nat)) (task : Offer × Nat)
      (after : List (Offer × Nat)) (given : p.overdue = before ++ task :: after) :
      Step places evaluate late p (p.release (before ++ after))
  | collect (p : Pool) (before : List (Ending × Nat)) (result : Ending × Nat)
      (after : List (Ending × Nat)) (started : p.waiting = [])
      (ready : p.ended = before ++ result :: after) :
      Step places evaluate late p (p.collect result (before ++ after))

/-- Nothing is waited for any more, though evaluations that were given up may still go on. -/
structure Finished (p : Pool) : Prop where
  waiting : p.waiting = []
  running : p.running = []
  ended : p.ended = []

/-- The first that runs ends or is given up. -/
def endFirst? (evaluate : Offer → Except Fault Decision) (late : Nat → Bool) (p : Pool) :
    Option Pool :=
  match p.running with
  | task :: rest =>
    if late task.2 then some (p.giveUp task rest) else some (p.finish evaluate task rest)
  | [] => none

def releaseFirst? (p : Pool) : Option Pool :=
  match p.overdue with
  | _ :: rest => some (p.release rest)
  | [] => none

def collectFirst? (p : Pool) : Option Pool :=
  match p.ended with
  | result :: rest => some (p.collect result rest)
  | [] => none

/-- First come, first served: the first that waits starts where there is a place for it, else the
first that takes a place ends, else the first that has ended is collected. -/
def step? (places : Nat) (evaluate : Offer → Except Fault Decision) (late : Nat → Bool)
    (p : Pool) : Option Pool :=
  match p.waiting with
  | task :: rest =>
    if p.taken < places then some (p.start task rest)
    else (p.endFirst? evaluate late).or p.releaseFirst?
  | [] => (p.endFirst? evaluate late).or p.collectFirst?

def run (places : Nat) (evaluate : Offer → Except Fault Decision) (late : Nat → Bool) :
    Nat → Pool → Pool
  | 0, p => p
  | n + 1, p =>
    match p.step? places evaluate late with
    | some next => run places evaluate late n next
    | none => p

/-- One decision for each offer. -/
def decisions (offers : List Offer) (p : Pool) : List Decision :=
  List.zipWith (fun slot o => slot.getD (.faulted o)) p.slots offers

/-- The decisions of a pool with at least one place. Each offer takes four steps at most. -/
def decideAll (places : Nat) (evaluate : Offer → Except Fault Decision) (late : Nat → Bool)
    (offers : List Offer) : List Decision :=
  ((ofOffers offers).run places evaluate late (4 * offers.length)).decisions offers

end Pool

end ReleaseSelection
