import Mathlib.Data.List.Basic
import SeriesBlock.Inspect

/-!
# The texts that the inspection tool writes

How each thing that the tool speaks of reads on a line of its output (`Format`), written out from the strings in it,
and that what the tool writes reads so: a list of names or of the strings of a tuple (`joined_eq`), the labels of a
series (`labelsLine_eq`), an entry for a chunk (`chunkLine_eq`, `loadedChunkLine_eq`), the figures of a block
(`statsLines_eq`), the events that its listener hears (`eventLines_eq`) and the error that ends it (`errorLines_eq`).
-/

set_option autoImplicit false

namespace SeriesBlock.Inspect

/-! ## The format -/

namespace Format

/-- Lines, each with a line break at its end. -/
def text : List String → String
  | [] => ""
  | s :: rest => s ++ "\n" ++ text rest

/-- Strings with a mark between each two neighbours. -/
def separated (mark : String) : List String → String
  | [] => ""
  | [s] => s
  | s :: t :: rest => s ++ mark ++ separated mark (t :: rest)

/-- A list of names, or the strings of a tuple. -/
def fields (strings : List String) : String :=
  separated "," strings

/-- A label: its value is in quotes. -/
def label (l : Label) : String :=
  l.name ++ "=" ++ Text.quoted l.value

/-- The labels of a series, in braces. -/
def labels (s : Series) : String :=
  "\x7b" ++ separated ", " (s.labels.map label) ++ "\x7d"

/-- A chunk of a series, which stays where it is. -/
def chunk (m : ChunkMeta) : String :=
  "  chunk ref=" ++ toString m.ref ++ " min_time=" ++ toString m.minTime.toInt ++
    " max_time=" ++ toString m.maxTime.toInt

/-- A chunk of a series with the encoding and the size that are found when it is loaded. -/
def loadedChunk (m : ChunkMeta) (c : Chunk) : String :=
  chunk m ++ " encoding=" ++ toString c.encoding.tag ++ " bytes=" ++ toString c.payload.length

/-- The figures of a block, a line for each. -/
def stats (s : BlockStats) : List String :=
  ["min_time=" ++ toString s.minTime.toInt, "max_time=" ++ toString s.maxTime.toInt,
    "series_count=" ++ toString s.seriesCount, "chunk_count=" ++ toString s.chunkCount,
    "sample_count=" ++ toString s.sampleCount]

/-- The lines of an event: one for each failure, and none for an index that opens. -/
def event : Event → List String
  | .indexOpened _ _ => []
  | .indexOpenFailed error => ["index open failed: " ++ error]
  | .seriesReaderOpenFailed error => ["series reader open failed: " ++ error]
  | .checksumMismatch offset expected actual =>
    ["checksum mismatch at offset " ++ toString offset ++ ": expected=" ++ Text.hex 8 expected.toNat ++
      " actual=" ++ Text.hex 8 actual.toNat]
  | .seriesDecodeFailed ref error => ["series " ++ toString ref ++ " decode failed: " ++ error]

/-- The lines of the error that a query ends with: what it says in words, and what it is made of. -/
def failed (e : BlockError) : List String :=
  ["query failed: " ++ e.message, "Error: " ++ e.debug]

theorem text_append (lines more : List String) : text (lines ++ more) = text lines ++ text more := by
  induction lines with
  | nil => exact String.empty_append.symm
  | cons s lines ih => rw [List.cons_append, text, text, ih, ← String.append_assoc]

end Format

/-! ## What is written -/

/-- Lines are written one after another. -/
theorem join_line (lines : List String) : String.join (lines.map line) = Format.text lines := by
  induction lines with
  | nil => rfl
  | cons s lines ih => rw [List.map_cons, String.join_cons, ih, line, Format.text]

theorem intercalate_eq (mark : String) (strings : List String) :
    mark.intercalate strings = Format.separated mark strings := by
  induction strings with
  | nil => exact String.intercalate_nil
  | cons s strings ih =>
      cases strings with
      | nil => exact String.intercalate_singleton
      | cons t rest => rw [String.intercalate_cons_cons, ih, Format.separated]

theorem joined_eq : joined = Format.fields :=
  funext fun strings => intercalate_eq "," strings

theorem labelsLine_eq : labelsLine = Format.labels := by
  funext s
  rw [labelsLine, intercalate_eq]
  rfl

theorem chunkLine_eq : chunkLine = Format.chunk :=
  rfl

theorem loadedChunkLine_eq : loadedChunkLine = Format.loadedChunk := by
  funext m c
  rw [loadedChunkLine, chunkLine_eq, Format.loadedChunk]
  simp only [String.append_assoc]
  rfl

theorem statsLines_eq : statsLines = Format.stats :=
  rfl

theorem toList_eventLine? (event : Event) : (eventLine? event).toList = Format.event event := by
  cases event with
  | checksumMismatch offset expected actual =>
      simp only [eventLine?, Format.event, Option.toList_some, String.append_assoc]
      rfl
  | _ => rfl

/-- **The listener writes the lines of the events in a journal.** -/
theorem eventLines_eq (j : Journal) : eventLines j = Format.text (j.events.flatMap Format.event) := by
  rw [eventLines, join_line, List.filterMap_eq_flatMap_toList]
  exact congrArg Format.text (List.flatMap_congr fun event _ => toList_eventLine? event)

theorem errorLines_eq (e : BlockError) : errorLines "query failed" e = Format.text (Format.failed e) := by
  rw [Format.failed, Format.text, Format.text, Format.text, String.append_empty]
  rfl

end SeriesBlock.Inspect
