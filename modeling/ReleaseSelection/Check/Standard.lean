import ReleaseSelection.Check.Delay
import ReleaseSelection.Check.Held
import ReleaseSelection.Check.Indexer
import ReleaseSelection.Check.Proper
import ReleaseSelection.Check.Seen
import ReleaseSelection.Check.Wanted

/-!
# The standard checks

The checks that every release passes through, in the order of their registration.
-/

namespace ReleaseSelection

def Check.standard (policy : Policy) (readers : Readers) : List Check :=
  [monitored, platform, language, qualityAllowed, content, acceptableSize, blocklist readers,
    requiredFlags readers, indexerTag readers, alreadyImported policy readers,
    history policy readers, queue policy readers, minimumScore, repack policy, delay policy,
    proper policy, disk policy]

end ReleaseSelection
