import ReviewContext.Program

/-! # The command line

Reads what the program may ask for, runs it, and writes what it says. There is no git here and no way to
the web, so only what lies on the machine itself can be read.
-/

namespace ReviewContext.Main

/-- The variables that the program knows. -/
def variableNames : List String :=
  ["REVIEWCTX_STRATEGY", "REVIEWCTX_FALLBACK_STRATEGY", "REVIEWCTX_MAX_FILE_SIZE",
    "REVIEWCTX_MAX_CHARS_PER_FILE", "REVIEWCTX_MAX_DEPENDENTS", "REVIEWCTX_MAX_TESTS",
    "REVIEWCTX_ENABLE_RELATIONSHIPS", "REVIEWCTX_REQUEST_TIMEOUT", "REVIEWCTX_GITHUB_TOKEN",
    "GITHUB_TOKEN", "REVIEWCTX_GITHUB_API_URL", "XDG_CONFIG_HOME", "HOME", "CLICOLOR_FORCE",
    "NO_COLOR", "CLICOLOR"]

def readEnvironment : IO Environment :=
  variableNames.filterMapM fun name => do
    return (← IO.getEnv name).map fun value => (name, value)

/-- What lies at a path, as an entry at its place. -/
def readEntry (here : Place) (path : String) : IO Files := do
  let place := (Files.names path).foldl Files.step (if Files.isAbsolute path then [] else here)
  try
    let bytes ← IO.FS.readBinFile path
    return [(place, .file bytes.toList)]
  catch
    | .noFileOrDirectory .. => return []
    | _ => return [(place, .directory)]

/-- The paths that a command line may name: every word, and what follows an equals sign in one. -/
def pathsOf (words : List String) : List String :=
  words.flatMap fun word =>
    [word, String.ofList ((word.toList.dropWhile (· != '=')).drop 1)].filter (!·.isEmpty)

partial def readAll (stream : IO.FS.Stream) (found : ByteArray) : IO ByteArray := do
  let chunk ← stream.read 65536
  if chunk.isEmpty then return found else readAll stream (found ++ chunk)

def readMachine (words : List String) : IO Machine := do
  let environment ← readEnvironment
  let here := (Files.names (← IO.currentDir).toString).foldl Files.step []
  let paths := pathsOf words ++ ((Config.userDirectory? environment).map Config.globalPath).toList
  let files ← paths.flatMapM (readEntry here)
  let input ← if words.contains "--diff-stdin" then readAll (← IO.getStdin) .empty else pure .empty
  return {
    files := (here, .directory) :: files
    here, environment
    input := input.toList
    isTerminal := ← (← IO.getStdout).isTty
    git := ⟨[], .error .notFound, []⟩
    server := ⟨[], none, []⟩ }

end ReviewContext.Main

def main (words : List String) : IO UInt32 := do
  let machine ← ReviewContext.Main.readMachine words
  let outcome := (ReviewContext.Program.run words machine).1
  IO.print outcome.stdout
  IO.eprint outcome.stderr
  return UInt32.ofNat outcome.code
