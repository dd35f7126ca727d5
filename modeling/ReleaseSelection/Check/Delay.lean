import ReleaseSelection.Check.Proper

/-!
# Waiting for a better release

A release has to be as old as the delay profile of its game says. A release over the preferred
transport may be spared the wait when it is already good.
-/

namespace ReleaseSelection

/-- The quality is at least the best that the profile allows. -/
def Profile.isHighestAllowed (p : Profile) (q : Quality) : Bool :=
  match p.lastAllowed.bind p.rankOf, p.rankOf q with
  | some best, some rank => best ≤ rank
  | _, _ => false

namespace Answer

def sparesWait (policy : Policy) (delay : DelayProfile) (o : Offer) (p : Profile) (q : Quality) :
    Bool :=
  (policy.propers == .preferAndUpgrade && o.revisedFile?.isSome) ||
    (delay.bypassIfHighestQuality && p.isHighestAllowed q) ||
    (delay.bypassIfAboveScore && delay.minimumScore.val ≤ o.score.val)

def delay (policy : Policy) (o : Offer) (c : Context) : Answer :=
  if c.isUserInvoked then accept
  else
    match o.game, o.parsed, Transport.ofProtocol? o.release.protocol with
    | some game, some parsed, some transport =>
      let delay := policy.delayProfileFor game.tags
      require
        (transport == delay.preferred &&
            sparesWait policy delay o game.profile parsed.quality.quality ||
          (delay.delay transport).val ≤ o.release.ageMinutes c.now)
        .minimumAgeDelay "Waiting for better quality release"
    | _, _, _ => accept

end Answer

def Check.delay (policy : Policy) : Check where
  name := "Delay"
  run o c := .ok (.delay policy o c)

end ReleaseSelection
