import SeriesBlock.Inspect.Config
import SeriesBlock.Inspect.Help
import SeriesBlock.Inspect.Report

/-!
# The inspection tool

One run of the tool: read the command line, settle the configuration, open the block, answer the query. A run is a
function from the command line, the environment and the answers of a file system to an exit code and two texts.
-/

set_option autoImplicit false

namespace SeriesBlock.Inspect

/-- How a run ends: its exit code and what it wrote to standard output and to standard error. -/
structure Exit where
  code : Nat
  stdout : String := ""
  stderr : String := ""
deriving DecidableEq, Repr

/-- The end of a run without arguments to work on. -/
def Stop.exit (env : Environment.Variables) : Stop → Exit
  | usage => { code := 2, stderr := "usage error" }
  | help topic => { code := 0, stdout := helpText env topic }
  | version => { code := 0, stdout := versionLine }

/-- The end of a run without a configuration. -/
def ConfigFault.exit : ConfigFault → Exit
  | fileNotFound path =>
    { code := 1, stderr := errorLines "config error" (.config s!"config file not found: {path}") }
  | unusable => { code := 1, stderr := "config error: " ++ (BlockError.config "").message }

/-- The settings in effect. -/
def Config.exit (c : Config) : Exit :=
  { code := 0
    stdout := line s!"block_dir={c.blockDir}" ++ line s!"verify_checksums={c.reader.verifyChecksums}" }

/-- The end of a run that has nothing to do. -/
def missingQuery : Exit :=
  { code := 1, stderr := line "no command given (try --help)" ++ line "Error: \"missing command\"" }

/-- Answers a query on an open index, which opening has left the given journal. -/
def answer (i : Index) (q : Query) (metrics : Bool) (opening : Journal) : Exit :=
  let r := q.lines i
  let stderr := eventLines (opening ++ r.journal)
  match r.result with
  | .error e => { code := 1, stderr := stderr ++ errorLines "query failed" e }
  | .ok lines =>
    let p := untilError lines
    let stdout := String.join (p.lines.map line)
    match p.failure with
    | none =>
      let stdout := if metrics then stdout ++ metricsText (opening ++ r.journal ++ p.journal) else stdout
      { code := 0, stdout, stderr }
    | some e => { code := 1, stdout, stderr := stderr ++ errorLines "query failed" e }

/-- Opens a block from its files and answers a query on it. -/
def inspect (c : Config) (q : Query) (metrics : Bool) (files : BlockFiles) : Exit :=
  let opened := Block.ofFiles c.reader files
  match opened.result with
  | .error e =>
    { code := 1, stderr := eventLines opened.journal ++ errorLines s!"failed to open block {c.blockDir}" e }
  | .ok i => answer i q metrics opened.journal

/-- One run of the tool. -/
def run {m : Type → Type} [Monad m] (files : FileAccess m) (env : Environment.Variables)
    (args : List String) : m Exit := do
  match readArguments env args with
  | .error stop => return stop.exit env
  | .ok a =>
    match (← loadFile files a) >>= Config.ofLayers a env with
    | .error fault => return fault.exit
    | .ok c =>
      if a.validateConfig then return c.exit
      else
        match a.query with
        | none => return missingQuery
        | some q =>
          let chunks ← files.read (pathIn c.blockDir BlockFiles.chunksName)
          let index ← files.read (pathIn c.blockDir BlockFiles.indexName)
          return inspect c q a.printMetrics ⟨index, chunks⟩

end SeriesBlock.Inspect
