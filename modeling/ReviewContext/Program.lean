import ReviewContext.Assembly
import ReviewContext.CommandLine.Invocation
import ReviewContext.CommandLine.Usage
import ReviewContext.Config
import ReviewContext.GitHub.Client
import ReviewContext.Machine
import ReviewContext.Report.Document
import ReviewContext.Report.Terminal
import ReviewContext.Source.Record

/-! # The program

Runs an invocation on a machine. A run that cannot go on ends in a failure, which is told from the
outermost cause to the innermost.
-/

namespace ReviewContext

open CommandLine

/-- How a run ends. -/
inductive Outcome where
  /-- The command line is no invocation, or asks for help or the version. -/
  | usage (error : UsageError)
  | done (stdout stderr : String)
  /-- The causes of the failure, the outermost first. -/
  | failed (causes : List String)

namespace Program

/-- A run on a machine; the causes of a failure end it. -/
abbrev Running := ExceptT (List String) (StateM Machine)

/-- Names a cause of whatever fails. -/
def orFail {ε α : Type} (cause : String) (causes : ε → List String) :
    Except ε α → Running α
  | .ok a => return a
  | .error e => throw (cause :: causes e)

/-- Asks the git of the machine. -/
def askGit {ε α : Type} (asking : ExceptT ε (StateM Git.Commands) α) :
    Running (Except ε α) := do
  let machine : Machine ← get
  let (result, git) := asking machine.git
  set { machine with git }
  return result

/-- Asks the server that the machine reaches. -/
def askServer {α : Type} (call : Web.Server → α × Web.Server) : Running α := do
  let machine : Machine ← get
  let (result, server) := call machine.server
  set { machine with server }
  return result

def accessCauses (error : AccessError) : List String :=
  [error.message]

/-! ## Commands -/

/-- The name of the program and its version. -/
def versionText (coloured : Bool) : String :=
  String.ofList (Report.write coloured
    [⟨[.bold], programName.toList⟩, .plain " ", ⟨[.bold, .green], programVersion.toList⟩,
      .plain "\n"])

/-- The record of a source file, in the order in which it is told. -/
def recordJson (record : SourceRecord) : Json :=
  .object [("language", .string record.language.name), ("imports", .ofStrings record.imports),
    ("exports", .ofStrings record.exports)]

def parse (file : String) : Running Outcome := do
  let machine : Machine ← get
  let content ← orFail ("failed to read " ++ file) (fun (e : SystemError) => [e.message])
    (machine.files.readText machine.here file)
  return .done ((recordJson (SourceRecord.parse file content)).pretty ++ "\n") ""

/-- The top directory of the clone around a path. -/
def cloneRoot (path : String) : Running String := do
  let machine : Machine ← get
  let _ ← orFail ("--path directory not found: " ++ path) (fun (e : SystemError) => [e.message])
    (machine.files.locate machine.here path)
  orFail "--path is not inside a git repository" accessCauses
    (← askGit (Git.Repository.ofPath machine.files machine.here path).topLevel)

/-- The configuration for a clone, if the change comes from one. -/
def configuration (root? : Option String) : Running Config := do
  let machine : Machine ← get
  orFail "failed to load configuration" ConfigError.causes
    (Config.load machine.files machine.here (Config.userDirectory? machine.environment) root?
      machine.environment)

/-- A change before it is assembled: its files, the repository it is in, and how it is assembled. -/
structure Change where
  files : List ChangedFile
  ref : RepositoryRef
  assembled : Running (List ChangedFile)

/-- A change of a clone, at the revision `head`. -/
def cloneChange (root : String) (settings : Settings) (diff : Diff.Input) (head : String) :
    Running Change := do
  let machine : Machine ← get
  let repository := Git.Repository.ofPath machine.files machine.here root
  let text ← orFail "failed to read changes" Diff.ReadError.causes
    (← askGit (diff.read machine.files machine.here machine.input repository))
  let ref ← orFail ("failed to resolve head revision '" ++ head ++ "'") accessCauses
    (← askGit (repository.ref head))
  let files := Diff.parse text
  return {
    files, ref
    assembled := do
      let machine : Machine ← get
      let (files, world) := assemble repository.host settings ref files ⟨machine.git, 0⟩
      set { machine with git := world.host }
      return files }

/-- The change of a pull request. -/
def pullRequestChange (access : GitHubAccess) (settings : Settings) (owner repo : String)
    (number : Nat) : Running Change := do
  let client := GitHub.Client.ofUrl access.apiUrl access.token?
  let head ← orFail
    ("failed to load pull request " ++ owner ++ "/" ++ repo ++ "#" ++ toString number) accessCauses
    (← askServer (client.pullRequestHead owner repo number))
  let files ← orFail "failed to list pull request files" accessCauses
    (← askServer (client.pullRequestFiles owner repo number))
  let ref : RepositoryRef := ⟨owner, repo, head⟩
  return {
    files, ref
    assembled := askServer fun server =>
      let (files, world) := assemble client.host settings ref files ⟨server, 0⟩
      (files, world.host) }

/-- A change by where it comes from. -/
def change (given : AssembleArguments) : Source → Running Change
  | .clone diff head => do
    let root ← cloneRoot given.path
    let config ← configuration (some root)
    cloneChange root (given.overlay config.context) diff head
  | .pullRequest owner repo number => do
    let config ← configuration none
    pullRequestChange config.github (given.overlay config.context) owner repo number

/-- Assembled files in a format. -/
def render (coloured : Bool) (format : Format) (files : List ChangedFile) : String :=
  match format with
  | .terminal => Report.terminal coloured files
  | .json => (Report.document files).pretty

def assemble (given : AssembleArguments) : Running Outcome := do
  match given.source with
  | .error message => throw [message]
  | .ok source =>
    let change ← change given source
    if change.files.isEmpty then return .done "" "No changes to assemble.\n"
    let files ← change.assembled
    return .done (render (← get).coloured given.format files) ""

def runCommand : Command → Running Outcome
  | .assemble given => assemble given
  | .parse file => parse file
  | .version => return .done (versionText (← get).coloured) ""

/-- Runs the words of a command line after the name of the program. -/
def run (words : List String) (machine : Machine) : Outcome × Machine :=
  match Invocation.ofWords words with
  | .error e => (.usage e, machine)
  | .ok invocation =>
    match runCommand invocation.command machine with
    | (.ok outcome, machine) => (outcome, machine)
    | (.error causes, machine) => (.failed causes, machine)

end Program

namespace Outcome

/-- The code that the program exits with. An answer to a question is no mistake. -/
def code : Outcome → Nat
  | done _ _ => 0
  | failed _ => 1
  | usage error => if error.isAnswer then 0 else 2

def stdout : Outcome → String
  | done out _ => out
  | failed _ => ""
  | usage error => error.answer

def stderr : Outcome → String
  | done _ err => err
  | failed causes => "Error: " ++ String.intercalate ": " causes ++ "\n"
  | usage error => error.complaint

end Outcome

end ReviewContext
