import ReleaseSelection.Check
import ReleaseSelection.Policy
import ReleaseSelection.Store

/-!
# Releases seen before

A release is turned down when it is blocked, or when it was grabbed before and its import turned
out to have another quality than the grab.
-/

namespace ReleaseSelection

namespace Answer

def blocklist (readers : Readers) (o : Offer) : Answer :=
  match o.game with
  | some game =>
    match readers.blocklist game.id with
    | .ok blocked =>
      require (!blocked.any (·.isMatch o.release)) .blocklisted "Release is blocklisted"
    | .error error => failure error.message
  | none => accept

/-- The newest grab and its download, if it was imported with another quality. -/
def disappointingGrab? (history : List HistoryEntry) : Option (HistoryEntry × String) := do
  let grabbed ← history.find? (·.event == .grabbed)
  let downloadId ← grabbed.downloadId
  let imported ← history.find? fun entry =>
    entry.event == .downloadFolderImported &&
      entry.downloadId.any (Text.sameLetters · downloadId)
  if imported.quality == grabbed.quality then none else some (grabbed, downloadId)

def sameDownload (history : List HistoryEntry) (release : Release) : Answer :=
  match disappointingGrab? history with
  | some (grabbed, downloadId) =>
    if release.downloadIdentity.any (Text.sameLetters · downloadId) then
      reject .alreadyImportedSameHash "Has same torrent hash as a grabbed and imported release"
    else
      require (grabbed.sourceTitle != release.title) .alreadyImportedSameName
        "Has same release name as a grabbed and imported release"
  | none => accept

/-- Imports are known only where completed downloads are handled, and matter only while there is a
file. -/
def alreadyImported (policy : Policy) (readers : Readers) (o : Offer) : Answer :=
  match o.game with
  | some game =>
    if policy.completedDownloadHandling && game.file.isSome then
      match readers.history game.id with
      | .ok history => sameDownload history o.release
      | .error error => failure error.message
    else accept
  | none => accept

end Answer

namespace Check

def blocklist (readers : Readers) : Check where
  name := "Blocklist"
  stage := .database
  severity := .permanent
  run o _ := .ok (.blocklist readers o)

def alreadyImported (policy : Policy) (readers : Readers) : Check where
  name := "AlreadyImported"
  stage := .database
  severity := .permanent
  run o _ := .ok (.alreadyImported policy readers o)

end Check

end ReleaseSelection
