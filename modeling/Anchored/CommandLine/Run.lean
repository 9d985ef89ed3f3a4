import Anchored.CommandLine.Arguments
import Anchored.Response

/-!
# Running the command line

One run makes or checks one edit. The edit is told by options, or by a request in a file or on the
standard input. A run is a function of its arguments, its input, the files, and a name that is made
up for it.
-/

namespace Anchored.CommandLine

/-- What a run reads besides the files. -/
structure Surroundings where
  /-- The bytes of the standard input. -/
  input : ByteArray
  /-- The name of the run where none is given. -/
  freshId : String

/-- What a run leaves behind. -/
structure Outcome where
  exitCode : Nat
  output : String
  store : Store

/-- Why no request could be built. -/
inductive RequestError where
  | unreadable (fault : Fault)
  | malformed (error : Json.Error)
  | findAlone
  | replaceAlone
  | noFile
  deriving DecidableEq, Repr

/-- The text of an error. -/
def RequestError.message : RequestError → String
  | .unreadable fault => fault.message
  | .malformed error => error.message
  | .findAlone => "--find requires --replace unless --check is given"
  | .replaceAlone => "--replace requires --find"
  | .noFile => "no file given: pass --file or set file_path in the request"

/-- The text of the standard input. -/
def Surroundings.text (w : Surroundings) : Except Fault String :=
  match String.fromUTF8? w.input with
  | some text => .ok text
  | none => .error .notText

/-- The text that holds the request: that of a file, or the standard input. -/
def requestText (w : Surroundings) (s : Store) : Option String → Except Fault String
  | some path => s.text path
  | none => w.text

/-- The request before flags change it. -/
def baseRequest (w : Surroundings) (s : Store) (a : Arguments) :
    Except RequestError EditRequest :=
  match a.find, a.replace with
  | some find, some replace => .ok ⟨ExecutionId.auto, "", find, replace, none, false⟩
  | some find, none =>
    if a.check then .ok ⟨ExecutionId.auto, "", find, "", none, false⟩ else .error .findAlone
  | none, some _ => .error .replaceAlone
  | none, none =>
    match requestText w s a.request with
    | .error fault => .error (.unreadable fault)
    | .ok text =>
      match EditRequest.read text with
      | .error error => .error (.malformed error)
      | .ok request => .ok request

/-- The request that the arguments ask for. -/
def buildRequest (w : Surroundings) (s : Store) (a : Arguments) :
    Except RequestError EditRequest :=
  match baseRequest w s a with
  | .error error => .error error
  | .ok base =>
    let path := a.file.getD base.path
    if path = "" then .error .noFile
    else
      .ok { base with
        path
        strict := if a.fuzzy then some false else base.strict
        dryRun := a.dryRun || base.dryRun }

/-- The settings that the arguments name, or the default ones. -/
def loadConfig (s : Store) (a : Arguments) : Except ConfigError EditorConfig :=
  match a.config with
  | some path => EditorConfig.load s path
  | none => .ok .default

/-- Does what the arguments ask for. -/
def respond (w : Surroundings) (s : Store) (a : Arguments) : EditResponse × Store :=
  match loadConfig s a with
  | .error error => (.failure w.freshId error.message, s)
  | .ok config =>
    match buildRequest w s a with
    | .error error => (.failure w.freshId (EditResponse.invalidRequest error.message), s)
    | .ok request =>
      let id := (ExecutionId.resolve request.executionId).text w.freshId
      let editor := Editor.new config
      if a.check then (.ofCheck id (editor.check s request), s)
      else
        let (result, _, s) := editor.apply s request
        (.ofEdit id result, s)

/-- A response as it is written. -/
def Arguments.render (a : Arguments) (r : EditResponse) : String :=
  if a.json then r.toValue.pretty else r.summary

/-- Makes one run with arguments that make sense. -/
def runWith (w : Surroundings) (s : Store) (a : Arguments) : Outcome :=
  let (response, s) := respond w s a
  let text := a.render response
  let code := if response.success then 0 else 1
  match a.output with
  | none => ⟨code, text ++ "\n", s⟩
  | some path =>
    match s.write path text with
    | (.ok (), s) => ⟨code, "", s⟩
    | (.error _, s) => ⟨1, "", s⟩

/-- The line that tells the version. -/
def versionLine : String :=
  "anchor-edit 0.1.0\n"

/-- What there is to know about the arguments. -/
def usage : String :=
  "Surgical anchored edits that revert when they break the file\n\n" ++
  "Usage: anchor-edit [OPTIONS]\n\n" ++
  "Options:\n" ++
  "  -f, --file <FILE>        File to edit (overrides \x60file_path\x60 in the request)\n" ++
  "      --find <FIND>        Exact text identifying the edit location\n" ++
  "      --replace <REPLACE>  Text to put in place of the anchor\n" ++
  "  -r, --request <REQUEST>  JSON file containing an edit request (omit, with no --find, to " ++
  "read stdin)\n" ++
  "      --fuzzy              Whitespace-tolerant matching instead of byte-exact\n" ++
  "      --dry-run            Report what would change without writing\n" ++
  "      --check              Only check that the anchor matches exactly once\n" ++
  "  -c, --config <CONFIG>    JSON configuration file\n" ++
  "  -j, --json               Output structured JSON instead of human-readable\n" ++
  "  -o, --output <OUTPUT>    Write output to file instead of stdout\n" ++
  "  -h, --help               Print help\n" ++
  "  -V, --version            Print version\n"

/-- Makes one run. -/
def run (args : List String) (w : Surroundings) (s : Store) : Outcome :=
  match Invocation.read args with
  | .misuse => ⟨2, "", s⟩
  | .help => ⟨0, usage, s⟩
  | .version => ⟨0, versionLine, s⟩
  | .run a => runWith w s a

end Anchored.CommandLine
