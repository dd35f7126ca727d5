import ReleaseSelection.Offer

/-!
# Contexts

How the offers of a batch came about and the time for which they are judged.
-/

namespace ReleaseSelection

structure Search where
  userInvoked : Bool
  interactive : Bool
  deriving DecidableEq, Repr

structure Context where
  search : Option Search
  pushed : Bool
  now : Instant
  deriving DecidableEq, Repr

namespace Context

def rss (now : Instant) : Context := ⟨none, false, now⟩

def isSearch (c : Context) : Bool := c.search.isSome

def isUserInvoked (c : Context) : Bool := c.search.any (·.userInvoked)

/-- A search hides that the release was pushed, and an interactive one that a user invoked it. -/
def source (c : Context) : Source :=
  match c.search with
  | some search =>
    if search.interactive then .interactiveSearch
    else if search.userInvoked then .userInvokedSearch
    else .search
  | none => if c.pushed then .releasePush else .rss

end Context

end ReleaseSelection
