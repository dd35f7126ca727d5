import ReleaseSelection.Check
import ReleaseSelection.Policy

/-!
# Propers and repacks

A higher revision of the quality on disk is grabbed only where the policy lets revisions be
upgraded; a repack must come from the group of the file, and a proper soon after the file.
-/

namespace ReleaseSelection

/-- The file on disk, if the release is a higher revision of its quality. -/
def Offer.revisedFile? (o : Offer) : Option (GameFile × ParsedTitle) := do
  let game ← o.game
  let parsed ← o.parsed
  let file ← game.file
  if file.quality.isRevisionUpgrade parsed.quality then some (file, parsed) else none

namespace Answer

def isUnknownGroup (group : Option String) : Bool := group.all Text.isBlankText

def sameGroup (file release : Option String) : Answer :=
  if isUnknownGroup file then
    reject .repackUnknownReleaseGroup "Existing file's release group is unknown"
  else if isUnknownGroup release then
    reject .repackUnknownReleaseGroup "Release group is unknown"
  else
    require (Text.sameLetters (file.getD "") (release.getD "")) .repackReleaseGroupDoesNotMatch
      ("Existing file's release group does not match " ++ release.getD "")

def repack (propers : Propers) (o : Offer) : Answer :=
  match o.revisedFile? with
  | some (file, parsed) =>
    if parsed.quality.revision.isRepack then
      match propers with
      | .doNotPrefer => accept
      | .doNotUpgrade => reject .repackDisabled "Repack downloading is disabled"
      | .preferAndUpgrade => sameGroup file.group parsed.group
    else accept
  | none => accept

def proper (policy : Policy) (o : Offer) (c : Context) : Answer :=
  if c.isSearch then accept
  else
    match o.revisedFile? with
    | some (file, _) =>
      match policy.propers with
      | .doNotPrefer => accept
      | .doNotUpgrade => reject .propersDisabled "Proper downloading is disabled"
      | .preferAndUpgrade =>
        require (!policy.isOldFile c.now file.added) .properForOldFile "Proper for old file"
    | none => accept

end Answer

namespace Check

def repack (policy : Policy) : Check where
  name := "Repack"
  run o _ := .ok (.repack policy.propers o)

def proper (policy : Policy) : Check where
  name := "Proper"
  run o c := .ok (.proper policy o c)

end Check

end ReleaseSelection
