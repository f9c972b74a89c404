import SeriesBlock.Block
import SeriesBlock.Inspect.Arguments

/-!
# What the inspection tool prints

A query's answer is a list of lines, some of which need something to be loaded first. They are printed up to the
first that cannot be had, whose error ends the report.
-/

set_option autoImplicit false

namespace SeriesBlock.Inspect

/-- A line that ends with a line break. -/
def line (s : String) : String := s ++ "\n"

/-- What was printed of a report: its lines up to the first error, that error, and the journal so far. -/
structure Printed where
  lines : List String := []
  journal : Journal := []
  failure : Option BlockError := none

/-- Prints a report up to its first error. -/
def untilError : List (Recorded String) → Printed
  | [] => {}
  | ⟨.error e, j⟩ :: _ => { journal := j, failure := some e }
  | ⟨.ok s, j⟩ :: rest =>
    let p := untilError rest
    { p with lines := s :: p.lines, journal := j ++ p.journal }

/-! ## Lines -/

/-- The figures of a block, one a line. -/
def statsLines (s : BlockStats) : List String :=
  [s!"min_time={s.minTime.toInt}", s!"max_time={s.maxTime.toInt}", s!"series_count={s.seriesCount}",
    s!"chunk_count={s.chunkCount}", s!"sample_count={s.sampleCount}"]

/-- Strings side by side. -/
def joined (fields : List String) : String :=
  ",".intercalate fields

/-- The labels of a series. -/
def labelsLine (s : Series) : String :=
  "\x7b" ++ ", ".intercalate (s.labels.map fun l => l.name ++ "=" ++ Text.quoted l.value) ++ "\x7d"

/-- A chunk's entry. -/
def chunkLine (m : ChunkMeta) : String :=
  s!"  chunk ref={m.ref} min_time={m.minTime.toInt} max_time={m.maxTime.toInt}"

/-- A chunk's entry and what was found when it was loaded. -/
def loadedChunkLine (m : ChunkMeta) (c : Chunk) : String :=
  chunkLine m ++ s!" encoding={c.encoding.tag} bytes={c.payload.length}"

/-- A series: its labels and then its chunks, which may have to be loaded. -/
def seriesLines (i : Index) (load : Bool) (s : Series) : List (Recorded String) :=
  pure (labelsLine s) :: s.chunks.map fun m =>
    if load then do return loadedChunkLine m (← i.chunk m.ref) else pure (chunkLine m)

/-- The lines that answer a query. -/
def Query.lines (i : Index) : Query → Recorded (List (Recorded String))
  | stats => do
    return (statsLines (← i.stats)).map pure
  | labelIndices => do
    return (← i.labelIndices).map fun names => pure (joined names)
  | labelValues names => do
    return (← i.labelValues names).toList.map fun tuple => .ofExcept (tuple.map joined)
  | postings name value => do
    return (← i.postings name value).toList.map fun ref => pure (toString ref)
  | series name value mint maxt chunks => do
    return (← i.select name value mint maxt).flatMap (seriesLines i chunks)

/-- What the tool says of an event; opening an index is not worth a line. -/
def eventLine? : Event → Option String
  | .indexOpened _ _ => none
  | .indexOpenFailed text => some s!"index open failed: {text}"
  | .seriesReaderOpenFailed text => some s!"series reader open failed: {text}"
  | .checksumMismatch offset expected actual =>
    some (s!"checksum mismatch at offset {offset}: " ++
      s!"expected={Text.hex 8 expected.toNat} actual={Text.hex 8 actual.toNat}")
  | .seriesDecodeFailed ref text => some s!"series {ref} decode failed: {text}"

/-- What the tool says of all events of a journal. -/
def eventLines (j : Journal) : String :=
  String.join ((j.events.filterMap eventLine?).map line)

/-- The counters that a journal increments, each as a paragraph of the Prometheus text format. -/
def metricsText (j : Journal) : String :=
  String.join ((Counter.all.filter fun c => j.count c ≠ 0).map fun c =>
    line s!"# HELP {c.name} {c.about}" ++ line s!"# TYPE {c.name} counter" ++
      line s!"{c.name}_total {j.count c}" ++ line "")

/-- What the tool says of an error that ends it, after its own words for what went wrong. -/
def errorLines (what : String) (e : BlockError) : String :=
  line (what ++ ": " ++ e.message) ++ line ("Error: " ++ e.debug)

end SeriesBlock.Inspect
