import ReleaseSelection.Check

/-!
# Decisions

An offer is put to the checks stage by stage until one of them does not accept it. `consult` keeps
the checks that were asked, so that it can be told which of them were not.
-/

namespace ReleaseSelection

structure Decision where
  offer : Offer
  rejection : Option Rejection
  deriving DecidableEq, Repr

namespace Decision

def approved (o : Offer) : Decision := ⟨o, none⟩

/-- What is decided of an offer whose checks ended in a fault or took too long. -/
def faulted (o : Offer) : Decision :=
  ⟨o, some ⟨.error, "Unexpected error processing release", .temporary, .default, none⟩⟩

def isApproved (d : Decision) : Bool := d.rejection.isNone

def isTemporary (d : Decision) : Bool := d.rejection.any (·.severity == .temporary)

def isPermanent (d : Decision) : Bool := d.rejection.any (·.severity == .permanent)

end Decision

/-- Checks in the order in which they are asked: by stage, and as registered within a stage. -/
def Check.inOrder (checks : List Check) : List Check :=
  checks.mergeSort fun a b => a.stage.rank ≤ b.stage.rank

/-- The checks that were asked, and the first rejection. -/
def consult (o : Offer) (c : Context) : List Check → List Check × Except Fault (Option Rejection)
  | [] => ([], .ok none)
  | check :: checks =>
    match check.run o c with
    | .error fault => ([check], .error fault)
    | .ok answer =>
      match check.rejection? answer with
      | some rejection => ([check], .ok (some rejection))
      | none => (check :: (consult o c checks).1, (consult o c checks).2)

/-- An offer that no check has to look at, because its game or its title was not understood. -/
def Offer.unfit? (o : Offer) (c : Context) : Option Rejection :=
  if o.game.isNone then
    some ⟨.unknownGame,
      if c.pushed then
        "Unknown Game. Unable to match to existing game in Library using release title."
      else "Unknown Game. Unable to match to correct game using release title.",
      .permanent, .parsing, none⟩
  else if o.parsed.isNone then
    some ⟨.unableToParse, "Unable to parse release", .permanent, .parsing, none⟩
  else none

def Offer.inContext (o : Offer) (c : Context) : Offer := { o with source := c.source }

/-- The decision on an offer, after the checks that were asked for it. -/
def Offer.judge (o : Offer) (checks : List Check) (c : Context) :
    List Check × Except Fault Decision :=
  let o := o.inContext c
  match o.unfit? c with
  | some rejection => ([], .ok ⟨o, some rejection⟩)
  | none =>
    let (asked, verdict) := consult o c (Check.inOrder checks)
    (asked, verdict.map (⟨o, ·⟩))

def Offer.decide (o : Offer) (checks : List Check) (c : Context) : Except Fault Decision :=
  (o.judge checks c).2

end ReleaseSelection
