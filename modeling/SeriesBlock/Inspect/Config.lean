import SeriesBlock.Inspect.Arguments
import SeriesBlock.Inspect.Files
import SeriesBlock.Options
import SeriesBlock.Settings.Environment
import SeriesBlock.Settings.Toml

/-!
# Configuration of the inspection tool

Settings come from defaults, a file, the environment and the command line, each over the one before. The file is
the one that is asked for, which has to exist, or else one of a fixed name in the working directory. Only files
whose name says that they are TOML are read.
-/

set_option autoImplicit false

namespace SeriesBlock.Inspect

/-- What the tool works with. -/
structure Config where
  blockDir : String
  reader : ReaderOptions
deriving DecidableEq, Repr

/-- Why there is no configuration. -/
inductive ConfigFault where
  /-- The file that was asked for does not exist. -/
  | fileNotFound (path : String)
  /-- A file is malformed, or a setting is not of its kind. -/
  | unusable
deriving DecidableEq, Repr

/-- The settings of a file and of the environment, each of which may be left out. -/
structure PartialConfig where
  blockDir : Option String := none
  reader : PartialReaderOptions := {}
deriving DecidableEq, Repr

/-- A setting that may be absent, read by what it is wanted for. -/
def optional {α : Type} (read : Setting → Option α) : Option Setting → Option (Option α)
  | none | some .blank => some none
  | some v => (read v).map some

/-- The settings of the reader: a table of them, or a list that starts with the only one. -/
def readerSettings? : Setting → Option PartialReaderOptions
  | .table fields => do
    return { verifyChecksums := ← optional Setting.asFlag? (fields.lookup "verify_checksums") }
  | .list (v :: _) => do
    return { verifyChecksums := ← optional Setting.asFlag? (some v) }
  | _ => none

/-- The settings in a table; those of other names are ignored. -/
def partialConfig? (fields : List (String × Setting)) : Option PartialConfig := do
  let blockDir ← optional Setting.asText? (fields.lookup "block_dir")
  let reader ← optional readerSettings? (fields.lookup "reader")
  return { blockDir, reader := reader.getD {} }

/-- The file that is read if none is asked for. -/
def defaultFile : String := "tsblock.toml"

/-- The settings in the contents of a file; one that is not text has none. -/
def fileSettings (contents : Bytes) : Except ConfigFault (List (String × Setting)) :=
  match Utf8.decode contents with
  | .error _ => .ok []
  | .ok document =>
    match Toml.parse? document with
    | none => .error .unusable
    | some fields => .ok (Setting.putAll fields)

/-- How the name of a settings file ends. -/
def ending : String := ".toml"

/-- Whether the last name on a path has the right ending, after a beginning of its own. -/
def hasEnding (path : String) : Bool :=
  let name := ((pathParts path).getLast?.getD "").toList
  ending.length < name.length && ending.toList.isSuffixOf name

/-- The path with the right ending added to its last name. Two points are no name. -/
def withEnding? (path : String) : Option String :=
  match (pathParts path).reverse.dropWhile isHere with
  | [] => none
  | name :: above => if name = ".." then none else some ("/".intercalate (above.reverse ++ [name ++ ending]))

section

variable {m : Type → Type} [Monad m]

/-- The contents of a settings file, if it is one: the file at a path that has the right ending, or beside a path
that leads to no file, the one with that ending added. -/
def settingsFile? (files : FileAccess m) (path : String) : m (Option Bytes) := do
  let full := pathIn (← files.here) path
  let isFile := (← files.kind? full) == some .file
  match if isFile then some full else withEnding? full with
  | none => return none
  | some candidate =>
    if hasEnding candidate && (← files.kind? candidate) == some .file then return (← files.read candidate).toOption
    else return none

/-- The settings of the file, as the command line asks for it. -/
def loadFile (files : FileAccess m) (a : Arguments) : m (Except ConfigFault (List (String × Setting))) := do
  if a.noConfig then return .ok []
  let read := fun path => do
    match ← settingsFile? files path with
    | some contents => return fileSettings contents
    | none => return .ok []
  match a.config with
  | some path =>
    if (← files.kind? path).isNone then return .error (.fileNotFound path) else read path
  | none => if (← files.kind? defaultFile).isNone then return .ok [] else read defaultFile

end

/-- The configuration of given arguments over the settings of a file and the environment. -/
def Config.ofLayers (a : Arguments) (env : Environment.Variables) (fields : List (String × Setting)) :
    Except ConfigFault Config :=
  match partialConfig? (Environment.layer env fields) with
  | none => .error .unusable
  | some p =>
    let defaults : ReaderOptions := { listener := .recorder }
    let reader := defaults.merge p.reader
    .ok {
      blockDir := a.blockDir.getD (p.blockDir.getD ".")
      reader := if a.verifyChecksums then { reader with verifyChecksums := true } else reader }

end SeriesBlock.Inspect
