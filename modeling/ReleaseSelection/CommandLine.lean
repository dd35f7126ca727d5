import ReleaseSelection.Configuration
import ReleaseSelection.Fixture
import ReleaseSelection.Service

/-!
# The command line

The program takes the path of a fixture and perhaps that of a configuration, decides every
candidate as if it had come over the feed, and prints one line for each decision.
-/

namespace ReleaseSelection.CommandLine

structure Arguments where
  fixture : String
  config : Option String
  deriving DecidableEq, Repr

/-- The positional arguments. After `--` an argument is taken as it is; before it, one that starts
with a hyphen would be an option, and there are none. -/
def positional? : List String → Option (List String)
  | [] => some []
  | arg :: args =>
    if arg = "--" then some args
    else if arg.toList.head? = some '-' ∧ arg ≠ "-" then none
    else (positional? args).map (arg :: ·)

/-- One or two paths, neither of them empty. -/
def parse? (args : List String) : Option Arguments :=
  match positional? args with
  | some [fixture] => if fixture = "" then none else some ⟨fixture, none⟩
  | some [fixture, config] =>
    if fixture = "" ∨ config = "" then none else some ⟨fixture, some config⟩
  | _ => none

def qualityText (o : Offer) : String := (o.quality.map QualityModel.text).getD "unparsed"

def line (d : Decision) : String :=
  let what := d.offer.release.title ++ " [" ++ qualityText d.offer ++ "] "
  match d.rejection with
  | none =>
    "APPROVED  " ++ what ++ "score=" ++ Text.numeral d.offer.score.val ++ " " ++
      d.offer.release.protocol.name
  | some r =>
    "REJECTED  " ++ what ++ r.reason.name ++ ": " ++ r.message ++ " (" ++ r.severity.name ++ ")"

structure Result where
  exitCode : Nat
  lines : List String
  deriving DecidableEq, Repr

def misused : Result := ⟨2, []⟩

def failed : Result := ⟨1, []⟩

def faulted : Result := ⟨101, []⟩

/-- The decisions on all candidates of a fixture, in the order of the output. -/
def decisions (policy : Policy) (fixture : Fixture) (now : Instant) (took : Durations) :
    Except BatchError (List Decision) := do
  let offers ← fixture.offers.mapError .fault
  let decided ← Service.evaluateBatch policy fixture.store offers (.rss now) false took
  return Decision.prioritize policy now decided

/-- Runs on the texts of the files that exist. A configuration that does not exist counts as none;
a fixture has to exist. -/
def run (args : List String) (file : String → Option String)
    (environment : List (String × String)) (now : Instant) (took : Durations) : Result :=
  match parse? args with
  | none => misused
  | some arguments =>
    match Configuration.load (arguments.config.bind file) environment with
    | .error (.fault _) => faulted
    | .error _ => failed
    | .ok configuration =>
      match (file arguments.fixture).map Fixture.read with
      | some (.ok fixture) =>
        match decisions configuration.policy fixture now took with
        | .ok ds => ⟨0, ds.map line⟩
        | .error (.fault _) => faulted
        | .error _ => failed
      | _ => failed

end ReleaseSelection.CommandLine
