import ZoomConfig.CommandLine.Arguments
import ZoomConfig.GeoJson
import ZoomConfig.Report
/-!
The program: it checks a document and prints the report on it.

`run` tells what a call prints and how it ends; printing itself is left to its caller.

Correspondence (program ↔ module):
  `main` ↔ `run`
-/
namespace ZoomConfig.CommandLine

/-- How a call ends. -/
inductive Outcome where
  /-- The report was printed. -/
  | report (text : String)
  /-- The arguments asked for help. -/
  | help
  /-- The arguments cannot be used. -/
  | misused
  /-- There is no report. -/
  | failed (message : String)
  deriving DecidableEq, Repr

/-- The line that shows how the program is called. -/
def usage : String := "Usage: config-check [OPTIONS] <FILE>\n"

/-- The text on the arguments. -/
def helpText : String :=
  String.join [
    "Validate a process configuration and print it per zoom level\n\n",
    usage,
    "\nArguments:\n",
    "  <FILE>  Path to the .mapchete document\n",
    "\nOptions:\n",
    "      --zoom <ZOOM> [<ZOOM>]       Initialize a single zoom or a zoom range (min max)\n",
    "      --bounds <COORD> <COORD> <COORD> <COORD>\n",
    "                                   Initialize within left bottom right top\n",
    "      --mode <MODE>                Processing mode (memory, readonly, continue, overwrite)\n",
    "      --log-level <LOG_LEVEL>      Log level\n",
    "      --log-format <LOG_FORMAT>    Log format (json or pretty)\n",
    "      --json                       Print the report as JSON\n",
    "  -h, --help                       Print help\n"]

namespace Outcome

/-- The exit code of the program. -/
def exitCode : Outcome → Nat
  | .report _ | .help => 0
  | .failed _ => 1
  | .misused => 2

/-- What is printed on standard output. -/
def output : Outcome → String
  | .report text => text
  | .help => helpText
  | _ => ""

/-- What is printed on standard error. -/
def complaint : Outcome → String
  | .failed message => message ++ "\n"
  | .misused => usage
  | _ => ""

end Outcome

/-- A text with blanks in front of all lines but the first. -/
def hangingIndent (blanks text : String) : String :=
  ("\n" ++ blanks).intercalate (Text.split '\n' text)

/-- The lines for several causes, numbered from a start. -/
def numberedCauses : Nat → List String → List String
  | _, [] => []
  | n, cause :: rest =>
    ("    " ++ toString n ++ ": " ++ hangingIndent "       " cause) :: numberedCauses (n + 1) rest

/-- The message for a failure and its causes, the nearest first. One cause alone has no number. -/
def failureMessage (what : String) : List String → String
  | [] => "Error: " ++ what
  | [cause] => "Error: " ++ what ++ "\n\nCaused by:\n    " ++ hangingIndent "    " cause
  | causes => "Error: " ++ what ++ "\n\nCaused by:\n" ++ "\n".intercalate (numberedCauses 0 causes)

end CommandLine

/-- The messages of an error and of what lies behind it. -/
def ConfigError.chain (e : ConfigError) : List String :=
  e.message :: match e with
    | .driver _ cause => [cause.message]
    | _ => []

namespace CommandLine

/-- The options of a configuration that the arguments ask for. -/
def Arguments.options (a : Arguments) : InitOptions :=
  { zoom := a.zoom, bounds := a.bounds, mode := a.mode }

/-- A report as it is printed. -/
def print (json : Bool) (r : Report) : Except JsonKeyError String :=
  if json then r.json.map fun j => j.pretty ++ "\n" else .ok r.text

variable {m : Type → Type} [Monad m]

/-- The report on a document. -/
def check (files : Files m) (a : Arguments) : m Outcome := do
  match ← (Configuration.build files (GeoJson.drivers files) (.file a.file) a.options).run with
  | .error e => return .failed (failureMessage ("Failed to load configuration " ++ a.file) e.chain)
  | .ok c =>
    match (← (Report.build c).run.run .fresh).1 with
    | .error e => return .failed (failureMessage "Failed to evaluate configuration" e.chain)
    | .ok r =>
      match print a.json r with
      | .error e => return .failed (failureMessage e.message [])
      | .ok text => return .report text

/-- Runs the program in a directory, with the variables of the environment. -/
def run (files : Files m) (workingDir : String) (readVariable : String → m (Option String))
    (args : List String) : m Outcome := do
  let env ← EnvFile.load files readVariable workingDir
  match ← Arguments.parse env args with
  | .error .help => return .help
  | .error .invalid => return .misused
  | .ok a => check files a

end CommandLine

end ZoomConfig
