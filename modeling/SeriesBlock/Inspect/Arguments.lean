import SeriesBlock.Chunk
import SeriesBlock.Text.Number

/-!
# Arguments of the inspection tool

The command line: options of the tool, then a query with options and operands of its own. Long options take their
value after an equals sign or as the next argument; two dashes alone end the options. An option that is given
twice, that is unknown, or that lacks its value is a usage error, and the first error or request for help on the
line decides.

Two options may also come from the environment.
-/

set_option autoImplicit false

namespace SeriesBlock.Inspect

/-- What the tool is asked for. -/
inductive Query where
  | stats
  | labelIndices
  | labelValues (names : List String)
  | postings (name value : String)
  | series (name value : String) (mint maxt : Timestamp) (chunks : Bool)
deriving DecidableEq, Repr

/-- The queries by kind, and the request for help that stands among them. -/
inductive Topic where
  | stats
  | labelIndices
  | labelValues
  | postings
  | series
  | help
deriving DecidableEq, Repr

namespace Topic

/-- All topics, in the order in which they are listed. -/
def all : List Topic := [stats, labelIndices, labelValues, postings, series, help]

/-- The word for a topic on the command line. -/
def word : Topic → String
  | stats => "stats"
  | labelIndices => "label-indices"
  | labelValues => "label-values"
  | postings => "postings"
  | series => "series"
  | help => "help"

/-- The topic of a word. -/
def ofWord? (word : String) : Option Topic :=
  all.find? fun t => t.word = word

end Topic

/-- A command line that asks for work. -/
structure Arguments where
  config : Option String := none
  blockDir : Option String := none
  noConfig : Bool := false
  validateConfig : Bool := false
  verifyChecksums : Bool := false
  printMetrics : Bool := false
  query : Option Query := none
deriving DecidableEq, Repr

/-- A command line that does not ask for work. -/
inductive Stop where
  | usage
  | help (topic : Option Topic)
  | version
deriving DecidableEq, Repr

/-! ## Options and operands -/

/-- Whether an option takes a value, and if so which ones, and whether the next argument is its value even if it
starts with a dash. -/
inductive Takes where
  | nothing
  | value (valid : String → Bool) (dashed : Bool)

/-- The part of a command line that belongs to the tool or to one query. -/
structure Grammar where
  /-- What help is about here. -/
  topic : Option Topic
  options : List (String × Takes)
  /-- Whether the version can be asked for. -/
  version : Bool
  /-- Whether the first operand starts the part of a query. -/
  query : Bool
  /-- How many operands there may be at most. -/
  operands : Option Nat

/-- What was found in a part of a command line. -/
structure Found where
  flags : List String := []
  values : List (String × String) := []
  operands : List String := []
  /-- Whether the last option before a query is refused. This is said after the query has been read. -/
  refused : Bool := false

namespace Found

/-- Whether an option was found. -/
def has (f : Found) (name : String) : Bool :=
  f.flags.contains name || f.values.any fun v => v.1 = name

/-- The value of an option. -/
def value? (f : Found) (name : String) : Option String :=
  f.values.lookup name

/-- One more flag. -/
def addFlag (f : Found) (name : String) : Found :=
  { f with flags := name :: f.flags }

/-- One more option with its value. -/
def addValue (f : Found) (name value : String) : Found :=
  { f with values := (name, value) :: f.values }

/-- One more operand. -/
def addOperand (f : Found) (operand : String) : Found :=
  { f with operands := f.operands ++ [operand] }

end Found

/-- Whether an argument has the form of an option: a dash and something after it. -/
def isDashed (a : String) : Bool :=
  a.startsWith "-" && a ≠ "-"

/-- The name of a long option, and the value after its equals sign if there is one. -/
def splitOption (a : String) : String × Option String :=
  let cs := a.toList.drop 2
  match cs.dropWhile (· ≠ '=') with
  | [] => (String.ofList cs, none)
  | _ :: value => (String.ofList (cs.takeWhile (· ≠ '=')), some (String.ofList value))

/-- Adds an operand if there is room for one. -/
def takeOperand (g : Grammar) (f : Found) (a : String) : Except Stop Found :=
  if g.operands.any (· ≤ f.operands.length) then .error .usage else .ok (f.addOperand a)

/-- What a cluster of short options asks for; its first letter decides. -/
def shortStop (g : Grammar) (a : String) : Stop :=
  match a.toList with
  | _ :: 'h' :: _ => .help g.topic
  | _ :: 'V' :: _ => if g.version then .version else .usage
  | _ => .usage

/-- What a value that stands as the next argument means for what is found: it is refused if it is not valid, or if
the option has been found before. -/
def takeValue (valid : String → Bool) (f : Found) (name value : String) : Found :=
  if valid value && !f.has name then f.addValue name value else { f with refused := true }

/-- Reads the part of a command line that a grammar describes, and gives what it leaves to the query. A value that
stands as the next argument is judged when the part goes on after it. -/
def scan (g : Grammar) (f : Found) : List String → Except Stop (Found × List String)
  | [] => if f.refused then .error .usage else .ok (f, [])
  | a :: rest =>
    if g.query && !isDashed a then .ok (f, a :: rest)
    else if f.refused then .error .usage
    else if a = "--" then
      if g.query then if rest.isEmpty then .ok (f, []) else .error .usage
      else do
        let f' ← rest.foldlM (takeOperand g) f
        return (f', [])
    else if a.startsWith "--" then
      let (name, value) := splitOption a
      if name = "help" then .error (if value.isSome then .usage else .help g.topic)
      else if name = "version" && g.version then .error (if value.isSome then .usage else .version)
      else
        match g.options.lookup name, value with
        | none, _ => .error .usage
        | some .nothing, none => if f.has name then .error .usage else scan g (f.addFlag name) rest
        | some .nothing, some _ => .error .usage
        | some (.value valid _), some v =>
          if valid v && !f.has name then scan g (f.addValue name v) rest else .error .usage
        | some (.value valid dashed), none =>
          match rest with
          | [] => .error .usage
          | v :: rest' =>
            if dashed || !isDashed v then scan g (takeValue valid f name v) rest' else .error .usage
    else if isDashed a then .error (shortStop g a)
    else
      match takeOperand g f a with
      | .ok f' => scan g f' rest
      | .error stop => .error stop

/-! ## The tool's own grammar -/

/-- A value that is a path. -/
def pathValue : Takes := .value (fun v => !v.isEmpty) false

/-- A value that is any text. -/
def textValue : Takes := .value (fun _ => true) false

/-- A value that is a time. It may be negative. -/
def timeValue : Takes := .value (fun v => (Text.signed64? v).isSome) true

/-- The options before the query. -/
def toolGrammar : Grammar where
  topic := none
  options := [("config", pathValue), ("block-dir", pathValue), ("no-config", .nothing),
    ("validate-config", .nothing), ("verify-checksums", .nothing), ("print-metrics", .nothing)]
  version := true
  query := true
  operands := none

/-- The options and operands of a query. -/
def queryGrammar : Topic → Grammar
  | .series =>
    { topic := some .series
      options := [("name", textValue), ("value", textValue), ("mint", timeValue), ("maxt", timeValue),
        ("chunks", .nothing)]
      version := false, query := false, operands := some 0 }
  | topic =>
    let operands := match topic with
      | .labelValues => none
      | .postings => some 2
      | _ => some 0
    { topic := some topic, options := [], version := false, query := false, operands }

/-- The query that was found, if it is complete. -/
def queryOf? (topic : Topic) (f : Found) : Option Query :=
  match topic, f.operands with
  | .stats, _ => some .stats
  | .labelIndices, _ => some .labelIndices
  | .labelValues, [] => none
  | .labelValues, names => some (.labelValues names)
  | .postings, [name, value] => some (.postings name value)
  | .postings, _ => none
  | .series, _ => do
    let name ← f.value? "name"
    let value ← f.value? "value"
    let time := fun option default => ((f.value? option).bind Text.signed64?).getD default
    some (.series name value (time "mint" Int64.minValue) (time "maxt" Int64.maxValue)
      (f.has "chunks"))
  | .help, _ => none

/-- The words after a request for help: at most one topic. -/
def helpStop : List String → Stop
  | [] => .help none
  | [word] =>
    match Topic.ofWord? word with
    | some topic => .help (some topic)
    | none => .usage
  | _ => .usage

/-- Reads the part of a command line that is a query. -/
def readQuery : List String → Except Stop (Option Query)
  | [] => .ok none
  | word :: rest =>
    match Topic.ofWord? word with
    | none => .error .usage
    | some .help => .error (helpStop rest)
    | some topic => do
      let (f, _) ← scan (queryGrammar topic) {} rest
      match queryOf? topic f with
      | some q => return some q
      | none => throw .usage

/-- The value of a path option, from the command line or else from a variable of the environment. -/
def pathOption (f : Found) (env : List (String × String)) (name variable_ : String) :
    Except Stop (Option String) :=
  match f.value? name with
  | some v => .ok (some v)
  | none =>
    match env.lookup variable_ with
    | some "" => .error .usage
    | v => .ok v

/-- Reads a command line in an environment. -/
def readArguments (env : List (String × String)) (args : List String) : Except Stop Arguments := do
  let (f, rest) ← scan toolGrammar {} args
  let query ← readQuery rest
  if f.refused then throw .usage
  let config ← pathOption f env "config" "TSBLOCK_CONFIG"
  let blockDir ← pathOption f env "block-dir" "TSBLOCK_BLOCK_DIR"
  return {
    config, blockDir, query
    noConfig := f.has "no-config"
    validateConfig := f.has "validate-config"
    verifyChecksums := f.has "verify-checksums"
    printMetrics := f.has "print-metrics" }

end SeriesBlock.Inspect
