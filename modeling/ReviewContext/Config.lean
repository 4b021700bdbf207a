import ReviewContext.Files
import ReviewContext.Settings
import ReviewContext.Text.Shown
import ReviewContext.Toml.Reader

/-! # Configuration

The settings of an assembly, and how GitHub is reached. A configuration is built in layers: what is built
in, a file for all repositories, a file of the repository, and variables of the environment, each of
which goes before the ones below it.
-/

namespace ReviewContext

/-- Where GitHub is, and the token that it is asked with. -/
structure GitHubAccess where
  apiUrl : String := "https://api.github.com"
  token? : Option String := none
  deriving DecidableEq

structure Config where
  context : Settings := {}
  github : GitHubAccess := {}
  deriving DecidableEq

namespace GitHubAccess

def ofToml? (value : Toml) : Option GitHubAccess := do
  let base : GitHubAccess := {}
  match ← value.fields? ["api_url", "token"] with
  | [apiUrl, token] =>
    return {
      apiUrl := ← Field.withDefault? Toml.string? base.apiUrl apiUrl
      token? := ← Field.withDefault? (fun value => value.string?.map some) base.token? token }
  | _ => none

def overlaid (base above : GitHubAccess) : GitHubAccess :=
  let unset : GitHubAccess := {}
  { apiUrl := if above.apiUrl = unset.apiUrl then base.apiUrl else above.apiUrl
    token? := above.token?.or base.token? }

/-- A token of this program goes before the common one. -/
def withEnvironment (environment : Environment) (base : GitHubAccess) : GitHubAccess :=
  { apiUrl := (environment.value? "REVIEWCTX_GITHUB_API_URL").getD base.apiUrl
    token? := (environment.firstOf? ["REVIEWCTX_GITHUB_TOKEN", "GITHUB_TOKEN"]).or base.token? }

/-- The access as it is shown to people, without the token itself. -/
def shown (access : GitHubAccess) : String :=
  "GitHubConfig \x7b api_url: " ++ Text.shown access.apiUrl ++ ", token: " ++
    Text.shownSecret access.token? ++ " \x7d"

def toJson (access : GitHubAccess) : Json :=
  .object [("api_url", .string access.apiUrl), ("token", Json.ofOption .string access.token?)]

end GitHubAccess

/-- Why a file of configuration could not be used. -/
inductive ConfigError where
  | unreadable (path : String) (error : SystemError)
  | malformed (path : String)
  deriving DecidableEq

namespace ConfigError

def message : ConfigError → String
  | unreadable path error => "failed to read config file " ++ path ++ ": " ++ error.message
  | malformed path => "failed to parse config file " ++ path

/-- The message, and that of the error behind it. -/
def causes (error : ConfigError) : List String :=
  error.message ::
    match error with
    | unreadable _ error => [error.message]
    | malformed _ => []

end ConfigError

namespace Config

def ofToml? (value : Toml) : Option Config := do
  match ← value.fields? ["context", "github"] with
  | [context, github] =>
    return {
      context := ← Field.withDefault? Settings.ofToml? {} context
      github := ← Field.withDefault? GitHubAccess.ofToml? {} github }
  | _ => none

/-- Reads a file of configuration. -/
def parse? (text : String) : Option Config :=
  Toml.parse? text >>= ofToml?

/-- The configuration with a layer above it. -/
def overlaid (base above : Config) : Config :=
  { context := base.context.overlaid above.context
    github := base.github.overlaid above.github }

def withEnvironment (environment : Environment) (base : Config) : Config :=
  { context := base.context.withEnvironment environment
    github := base.github.withEnvironment environment }

def shown (config : Config) : String :=
  "Config \x7b context: " ++ config.context.shown ++ ", github: " ++ config.github.shown ++ " \x7d"

def toJson (config : Config) : Json :=
  .object [("context", config.context.toJson), ("github", config.github.toJson)]

/-! ## Loading -/

/-- The configuration with the layer of a file, if the file is there. -/
def withFile (files : Files) (here : Place) (path : String) (base : Config) :
    Except ConfigError Config :=
  if files.isThere here path then
    match files.readText here path with
    | .error e => .error (.unreadable path e)
    | .ok text =>
      match parse? text with
      | none => .error (.malformed path)
      | some above => .ok (base.overlaid above)
  else .ok base

/-- The directory of the files of configuration of a user. -/
def userDirectory? (environment : Environment) : Option String :=
  let raw (name : String) : Option String := (environment.find? (·.1 == name)).map (·.2)
  match (raw "XDG_CONFIG_HOME").filter Files.isAbsolute with
  | some directory => some directory
  | none => ((raw "HOME").filter (!·.isEmpty)).map (Files.joinPath · ".config")

/-- The path of the file for all repositories. -/
def globalPath (directory : String) : String :=
  Files.joinPath (Files.joinPath directory "reviewctx") "config.toml"

/-- The path of the file of a repository. -/
def localPath (root : String) : String :=
  Files.joinPath root ".reviewctx.toml"

/-- The configuration for a repository, if there is one, with all its layers. -/
def load (files : Files) (here : Place) (directory? root? : Option String)
    (environment : Environment) : Except ConfigError Config := do
  let withFile? (path? : Option String) (base : Config) : Except ConfigError Config :=
    match path? with
    | some path => withFile files here path base
    | none => .ok base
  let base ← withFile? (directory?.map globalPath) {}
  let base ← withFile? (root?.map localPath) base
  return base.withEnvironment environment

end Config

end ReviewContext
