import SeriesBlock.Inspect

/-!
# The inspection tool as a program

Hands the command line, the environment and the file system to `Inspect.run` and passes on how the run ends.
-/

set_option autoImplicit false

namespace SeriesBlock.Inspect

/-- The cause of a failed system call. -/
def faultOf : IO.Error → IoFault
  | .noFileOrDirectory .. => .notFound
  | .inappropriateType _ code text =>
    if code = 20 then .notADirectory
    else if code = 21 then .isADirectory
    else .other text
  | e => .other (toString e)

/-- The contents of a file. -/
def readFile (path : String) : IO (Except IoFault Bytes) := do
  try
    let contents ← IO.FS.readBinFile path
    return .ok contents.toList
  catch e => return .error (faultOf e)

/-- The file system of the machine. -/
def systemFiles : FileAccess IO where
  here := return (← IO.getEnv "PWD").getD ""
  kind? path := do
    match ← readFile path with
    | .ok _ => return some .file
    | .error fault =>
      if fault = .isADirectory then return some .directory
      else if fault = .notFound ∨ fault = .notADirectory then return none
      else return some .file
  read := readFile

/-- The variables of the environment that the tool looks at. -/
def variableNames : List String :=
  ["TSBLOCK_CONFIG", "TSBLOCK_BLOCK_DIR", "TSBLOCK_READER", "TSBLOCK_READER__VERIFY_CHECKSUMS", "NO_COLOR",
    "CLICOLOR_FORCE"]

/-- The variables that are set. -/
def systemVariables : IO Environment.Variables := do
  let values ← variableNames.mapM fun name => do
    return (← IO.getEnv name).map fun value => (name, value)
  return values.filterMap id

end SeriesBlock.Inspect

open SeriesBlock.Inspect in
/-- Runs the tool. -/
def main (args : List String) : IO UInt32 := do
  let exit ← run systemFiles (← systemVariables) args
  IO.print exit.stdout
  IO.eprint exit.stderr
  return UInt32.ofNat exit.code
