import ReleaseSelection.Check
import ReleaseSelection.Store

/-!
# What an indexer asks

An indexer may ask for flags on its releases and for tags on the games they go to. An indexer that
is not known, or cannot be looked up, asks for nothing.
-/

namespace ReleaseSelection

def Readers.indexerOf (readers : Readers) (o : Offer) : Option Indexer :=
  match o.release.indexerId with
  | some id =>
    match readers.indexer id with
    | .ok indexer => indexer
    | .error _ => none
  | none => none

namespace Answer

def requiredFlags (readers : Readers) (o : Offer) : Answer :=
  match readers.indexerOf o with
  | some indexer =>
    require
      (indexer.requiredFlags.isEmpty || indexer.requiredFlags.any o.release.flags.contains)
      .requiredFlags
      ("Indexer " ++ indexer.name ++ " requires one of: " ++
        ", ".intercalate (indexer.requiredFlags.map Flag.name))
  | none => accept

def indexerTag (readers : Readers) (o : Offer) : Answer :=
  match o.game, readers.indexerOf o with
  | some game, some indexer =>
    require (indexer.tags.isEmpty || indexer.tags.any game.tags.contains) .noMatchingTag
      "Game tags do not match any of the indexer tags"
  | _, _ => accept

end Answer

namespace Check

def requiredFlags (readers : Readers) : Check where
  name := "RequiredIndexerFlags"
  severity := .permanent
  run o _ := .ok (.requiredFlags readers o)

def indexerTag (readers : Readers) : Check where
  name := "IndexerTag"
  stage := .database
  severity := .permanent
  run o _ := .ok (.indexerTag readers o)

end Check

end ReleaseSelection
