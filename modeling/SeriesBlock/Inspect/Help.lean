import SeriesBlock.Inspect.Arguments
import SeriesBlock.Text.Markup

/-!
# Help texts of the inspection tool

The texts are marked up for a terminal (`toolHelp`, `Topic.usage`). What the tool writes is their plain form, unless
the environment asks for the marks (`helpText`).
-/

set_option autoImplicit false

namespace SeriesBlock.Inspect

/-- The tool's name and version. -/
def versionLine : String := "tsblock-inspect 0.1.0\n"

/-- Rows of two columns, the second starting at the same place in all of them and in each of its lines. -/
def columns (rows : List (String × String)) : String :=
  let width := fun left => (Text.plain left).length
  let widest := (rows.map fun r => width r.1).foldl max 0
  String.join (rows.map fun (left, right) =>
    "  " ++ left ++ "".pushn ' ' (widest - width left) ++ "  " ++
      right.replace "\n" ("\n".pushn ' ' (widest + 4)) ++ "\n")

/-- A part of a help text: rows under a heading. -/
def part (title : String) (rows : List (String × String)) : String :=
  "\n" ++ Text.heading (title ++ ":") ++ "\n" ++ columns rows

/-- How something is called: words to be typed, and what stands for other words. -/
def usageLine (words rest : String) : String :=
  Text.heading "Usage:" ++ " " ++ Text.strong words ++ rest ++ "\n"

/-- An option that has no short form, and what stands for its value. -/
def longOption (name value : String) : String :=
  "    " ++ Text.strong ("--" ++ name) ++ value

/-- An option with a short form. -/
def shortOption (letter name : String) : String :=
  Text.strong ("-" ++ letter) ++ ", " ++ Text.strong ("--" ++ name)

/-- What a query does. -/
def Topic.about : Topic → String
  | stats => "Print the block stats record"
  | labelIndices => "List the label name combinations that have a label index"
  | labelValues => "Print the value tuples of the label index over NAMES"
  | postings => "Print the series references for NAME=VALUE"
  | series => "Print the series for NAME=VALUE with chunks overlapping [MINT, MAXT]"
  | help => "Print this message or the help of the given subcommand(s)"

/-- The row for the request for help. -/
def helpRow : String × String := (shortOption "h" "help", "Print help")

/-- What the tool does and all its options. The environment's values of two options are shown. -/
def toolHelp (env : List (String × String)) : String :=
  let shown := fun name => "[env: " ++ name ++ "=" ++ (env.lookup name).getD "" ++ "]"
  "Inspect the index and series data of a tsblock block directory\n\n" ++
  usageLine "tsblock-inspect" " [OPTIONS] [COMMAND]" ++
  part "Commands" (Topic.all.map fun t => (Text.strong t.word, t.about)) ++
  part "Options" [
    (longOption "config" " <CONFIG>",
      "Path to config file (TOML). If omitted, \x60tsblock.toml\x60 is loaded when present " ++ shown "TSBLOCK_CONFIG"),
    (longOption "block-dir" " <BLOCK_DIR>",
      "Block directory containing \x60index\x60 and \x60series\x60 files " ++ shown "TSBLOCK_BLOCK_DIR"),
    (longOption "no-config" "", "Do not load any config file; use defaults + env + CLI only"),
    (longOption "validate-config" "",
      "Load and validate config (file + env + CLI), print the effective settings, then exit"),
    (longOption "verify-checksums" "", "Verify section checksums while reading the index"),
    (longOption "print-metrics" "", "Print reader metrics in Prometheus text format after the command"),
    helpRow,
    (shortOption "V" "version", "Print version")]

/-- What a query does, its operands and its options. -/
def Topic.usage (t : Topic) : String :=
  let about := fun rest => t.about ++ "\n\n" ++ usageLine ("tsblock-inspect " ++ t.word) rest
  match t with
  | stats | labelIndices => about "" ++ part "Options" [helpRow]
  | labelValues => about " <NAMES>..." ++ part "Arguments" [("<NAMES>...", "")] ++ part "Options" [helpRow]
  | postings =>
    about " <NAME> <VALUE>" ++ part "Arguments" [("<NAME>", ""), ("<VALUE>", "")] ++ part "Options" [helpRow]
  | series =>
    about (" [OPTIONS] " ++ Text.strong "--name" ++ " <NAME> " ++ Text.strong "--value" ++ " <VALUE>") ++
      part "Options" [
        (longOption "name" " <NAME>", ""),
        (longOption "value" " <VALUE>", ""),
        (longOption "mint" " <MINT>", s!"[default: {Int64.minValue.toInt}]"),
        (longOption "maxt" " <MAXT>", s!"[default: {Int64.maxValue.toInt}]"),
        (longOption "chunks" "", "Also load each chunk and print its encoding and size"),
        helpRow]
  | help => about " [COMMAND]..." ++ part "Arguments" [("[COMMAND]...", "Print help for the subcommand(s)")]

/-- Whether the environment asks for marks in what goes to no terminal. -/
def wantsMarks (env : List (String × String)) : Bool :=
  ((env.lookup "NO_COLOR").getD "").isEmpty && (env.lookup "CLICOLOR_FORCE").getD "0" ≠ "0"

/-- The help on a topic, or on the tool. Unless marks are wanted it is written plainly. -/
def helpText (env : List (String × String)) (topic : Option Topic) : String :=
  let text := match topic with
    | none => toolHelp env
    | some t => t.usage
  if wantsMarks env then text else Text.plain text

end SeriesBlock.Inspect
