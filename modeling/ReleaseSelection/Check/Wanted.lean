import ReleaseSelection.Check

/-!
# What a game wants

Checks of a release against the game and its profile alone. What is not known of a release does not
speak against it.
-/

namespace ReleaseSelection

namespace Answer

/-- A user may search for a game that is not monitored. -/
def monitored (o : Offer) (c : Context) : Answer :=
  match o.game with
  | some game =>
    require (game.monitored || c.isUserInvoked) .gameNotMonitored "Game is not monitored"
  | none => accept

def platform (o : Offer) : Answer :=
  match o.game, o.parsed with
  | some game, some parsed =>
    require
      (game.profile.preferredPlatforms.isEmpty || parsed.platform == .unknown ||
        game.profile.preferredPlatforms.contains parsed.platform)
      .platformNotPreferred (parsed.platform.name ++ " is not a preferred platform")
  | _, _ => accept

/-- The language that a game wants, if it wants any particular one. -/
def wantedLanguage? (game : Game) : Option Language :=
  match game.profile.language with
  | .any => none
  | .original => some game.originalLanguage
  | language => some language

def language (o : Offer) : Answer :=
  match o.game, o.parsed with
  | some game, some parsed =>
    match wantedLanguage? game with
    | some wanted =>
      require (parsed.languages.isEmpty || parsed.languages.contains wanted) .wantedLanguage
        ("Language " ++ wanted.title ++ " is wanted")
    | none => accept
  | _, _ => accept

def qualityAllowed (o : Offer) : Answer :=
  match o.game, o.parsed with
  | some game, some parsed =>
    require (game.profile.isAllowed parsed.quality.quality) .qualityNotWanted
      (parsed.quality.quality.title ++ " is not wanted in profile")
  | _, _ => accept

/-- A release must hold the game itself. -/
def content (o : Offer) : Answer :=
  match o.parsed with
  | some parsed =>
    match parsed.content with
    | .dlcOnly => reject .dlcOnly parsed.content.title
    | .updateOnly => reject .updateOnly parsed.content.title
    | .seasonPass => reject .seasonPassOnly parsed.content.title
    | .unknown | .baseGame | .baseGameWithAllDlc | .expansion => accept
  | none => accept

def minimumScore (o : Offer) : Answer :=
  match o.game with
  | some game =>
    require (game.profile.minFormatScore.val ≤ o.score.val) .customFormatMinimumScore
      ("Custom Formats score of " ++ Text.numeral o.score.val ++ " is below the profile minimum " ++
        Text.numeral game.profile.minFormatScore.val)
  | none => accept

end Answer

namespace Check

def monitored : Check where
  name := "MonitoredGame"
  stage := .parsing
  run o c := .ok (.monitored o c)

def platform : Check where
  name := "Platform"
  stage := .parsing
  run o _ := .ok (.platform o)

def language : Check where
  name := "Language"
  stage := .parsing
  run o _ := .ok (.language o)

def qualityAllowed : Check where
  name := "QualityAllowedByProfile"
  stage := .parsing
  run o _ := .ok (.qualityAllowed o)

def content : Check where
  name := "ContentClassification"
  stage := .parsing
  run o _ := .ok (.content o)

/-- Every size is acceptable; the wish for a size counts in the ranking. -/
def acceptableSize : Check where
  name := "AcceptableSize"
  stage := .parsing
  run _ _ := .ok .accept

def minimumScore : Check where
  name := "CustomFormatAllowedByProfile"
  run o _ := .ok (.minimumScore o)

end Check

end ReleaseSelection
