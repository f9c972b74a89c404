import SeriesBlock.Inspect
import SeriesBlock.Proofs.Collecting
import SeriesBlock.Proofs.Lines
import SeriesBlock.Proofs.Loading
import SeriesBlock.Proofs.ReadBack
import SeriesBlock.Proofs.Verification

/-!
# What the inspection tool prints

A run of the tool that comes to ask an open index a query (`Asks`) prints what the index gives back for the request
in it. `Renders` says what is printed of a reply, line by line in the wording of `Format`, and where the printing stops:
at the first tuple that cannot be read or the first chunk that cannot be loaded. Of a request that fails nothing is
printed (`Prints`).

Whatever the index gives back, something is printed of it (`exists_prints`), and the run ends with that, with what
was heard on the way, and with the error that the printing stopped at, if at any (`run_prints_the_reply`).
-/

set_option autoImplicit false

namespace SeriesBlock.Inspect

/-! ## Queries as requests -/

/-- The request that a query puts to an index. -/
def Query.request : Query → Request
  | stats => .stats
  | labelIndices => .labelIndices
  | labelValues names => .values names
  | postings name value => .postings name value
  | series name value mint maxt _ => .select name value mint maxt

/-- Whether a query loads the chunks of the series that are found. -/
def Query.loads : Query → Bool
  | series _ _ _ _ chunks => chunks
  | _ => false

/-- The report on a reply; some of its lines may not be had. -/
def reportOn (i : Index) (load : Bool) : Reply → List (Recorded String)
  | .stats s => (Format.stats s).map pure
  | .labelIndices listed => listed.map fun names => pure (Format.fields names)
  | .values tuples => tuples.map fun tuple => .ofExcept (tuple.map Format.fields)
  | .postings p => p.toList.map fun ref => pure (toString ref)
  | .select found => found.flatMap (seriesLines i load)
  | _ => []

/-- **A query's report is that on the reply to its request.** -/
theorem lines_eq (i : Index) (q : Query) :
    q.lines i = i.answer q.request >>= fun reply => pure (reportOn i q.loads reply) := by
  cases q with
  | stats =>
      rw [Query.lines, statsLines_eq]
      exact (Recorded.bind_pure_bind_pure i.stats Reply.stats (reportOn i false)).symm
  | labelIndices =>
      rw [Query.lines, joined_eq]
      exact (Recorded.bind_pure_bind_pure i.labelIndices Reply.labelIndices (reportOn i false)).symm
  | labelValues names =>
      rw [Query.lines, joined_eq]
      exact (Recorded.bind_pure_bind_pure (i.labelValues names) (Reply.values ·.toList) (reportOn i false)).symm
  | postings name value =>
      exact (Recorded.bind_pure_bind_pure (i.postings name value) Reply.postings (reportOn i false)).symm
  | series name value mint maxt chunks =>
      exact (Recorded.bind_pure_bind_pure (i.select name value mint maxt) Reply.select (reportOn i chunks)).symm

/-! ## Printing up to the first error -/

section Printing

variable {done : List (Recorded String)} {r : Recorded String} {lines : List String} {e : BlockError}

/-- Lines that can all be had are printed, and then what comes after them. -/
theorem untilError_append (h : done.map Recorded.result = lines.map .ok) (rest : List (Recorded String)) :
    (untilError (done ++ rest)).lines = lines ++ (untilError rest).lines ∧
      (untilError (done ++ rest)).failure = (untilError rest).failure := by
  induction done generalizing lines with
  | nil =>
      obtain rfl := List.map_eq_nil_iff.1 h.symm
      exact ⟨rfl, rfl⟩
  | cons r done ih =>
      obtain ⟨s, lines, rfl, hr, hdone⟩ := List.map_eq_cons_iff.1 h.symm
      obtain ⟨hlines, hfailure⟩ := ih hdone.symm
      obtain ⟨result, journal⟩ := r
      obtain rfl : Except.ok s = result := hr
      refine ⟨?_, hfailure⟩
      show s :: (untilError (done ++ rest)).lines = _
      rw [hlines, List.cons_append]

theorem untilError_of_ok (h : done.map Recorded.result = lines.map .ok) :
    (untilError done).lines = lines ∧ (untilError done).failure = none := by
  have happend := untilError_append h []
  rw [List.append_nil] at happend
  exact ⟨happend.1.trans (List.append_nil lines), happend.2⟩

/-- **The first line that cannot be had is where the printing stops.** -/
theorem untilError_of_error (h : done.map Recorded.result = lines.map .ok) (hr : r.result = .error e)
    (rest : List (Recorded String)) :
    (untilError (done ++ r :: rest)).lines = lines ∧ (untilError (done ++ r :: rest)).failure = some e := by
  obtain ⟨result, journal⟩ := r
  obtain rfl : result = .error e := hr
  obtain ⟨hlines, hfailure⟩ := untilError_append h (⟨.error e, journal⟩ :: rest)
  exact ⟨hlines.trans (List.append_nil lines), hfailure⟩

end Printing

/-! ## Replies as they are printed -/

/-- A chunk's line with what is found when it is loaded. -/
def loadedLine (i : Index) (m : ChunkMeta) : Except BlockError String :=
  (i.chunk m.ref).result.map (Format.loadedChunk m)

/-- The lines of a series whose chunks can all be loaded: its labels, and a line for each chunk. -/
def Loaded (i : Index) (s : Series) (lines : List String) : Prop :=
  ∃ chunkLines, s.chunks.map (loadedLine i) = chunkLines.map .ok ∧ lines = Format.labels s :: chunkLines

/-- What is printed of a reply, and the error that the printing stops at, if at any. -/
inductive Renders (i : Index) : (load : Bool) → Reply → List String → Option BlockError → Prop where
  | stats {load : Bool} (s : BlockStats) : Renders i load (.stats s) (Format.stats s) none
  /-- A line for each list of names. -/
  | labelIndices {load : Bool} (listed : List (List String)) :
      Renders i load (.labelIndices listed) (listed.map Format.fields) none
  /-- A line for each reference. -/
  | postings {load : Bool} (p : Postings) : Renders i load (.postings p) (p.toList.map toString) none
  /-- A line for each tuple. -/
  | values {load : Bool} (tuples : List (List String)) :
      Renders i load (.values (tuples.map .ok)) (tuples.map Format.fields) none
  /-- A line for each tuple in front of the first that cannot be read. -/
  | valuesUpTo {load : Bool} (before : List (List String)) (e : BlockError)
      (after : List (Except BlockError (List String))) :
      Renders i load (.values (before.map .ok ++ .error e :: after)) (before.map Format.fields) (some e)
  /-- The labels of each series and a line for each of its chunks, which stay where they are. -/
  | series (found : List Series) :
      Renders i false (.select found) (found.flatMap fun s => Format.labels s :: s.chunks.map Format.chunk) none
  /-- The labels of each series and a line for each of its chunks, which are loaded for it. -/
  | loaded {found : List Series} {printed : List (List String)} :
      List.Forall₂ (Loaded i) found printed → Renders i true (.select found) printed.flatten none
  /-- The same in front of the first chunk that cannot be loaded: all of the series before the one that it is of,
  and of that one the labels and the chunks before it. -/
  | loadedUpTo (before : List Series) {after : List Series} {s : Series} {done rest : List ChunkMeta} {m : ChunkMeta}
      {printed : List (List String)} {lines : List String} {e : BlockError} :
      List.Forall₂ (Loaded i) before printed → s.chunks = done ++ m :: rest →
      done.map (loadedLine i) = lines.map .ok → (i.chunk m.ref).result = .error e →
      Renders i true (.select (before ++ s :: after)) (printed.flatten ++ Format.labels s :: lines) (some e)

/-- What is printed of a query, and the error that the printing stops at, if at any. Of a request that fails
nothing is printed. -/
inductive Prints (i : Index) (q : Query) : List String → Option BlockError → Prop where
  | failed {e : BlockError} : (i.answer q.request).result = .error e → Prints i q [] (some e)
  | answered {reply : Reply} {lines : List String} {failure : Option BlockError} :
      (i.answer q.request).result = .ok reply → Renders i q.loads reply lines failure → Prints i q lines failure

/-- Lines for which nothing has to be read can all be had. -/
theorem map_result_pure {α : Type} (f : α → String) (l : List α) :
    (l.map fun a => (pure (f a) : Recorded String)).map Recorded.result = (l.map f).map .ok := by
  rw [List.map_map, List.map_map]
  rfl

/-- So can those of tuples that were read. -/
theorem map_result_tuples (tuples : List (List String)) :
    ((tuples.map Except.ok).map fun tuple => Recorded.ofExcept (tuple.map Format.fields)).map Recorded.result =
      (tuples.map Format.fields).map .ok := by
  rw [List.map_map, List.map_map, List.map_map]
  rfl

section Series

variable {i : Index}

/-- What is reported of a chunk that is loaded. -/
def loadedReport (i : Index) (m : ChunkMeta) : Recorded String := do
  return Format.loadedChunk m (← i.chunk m.ref)

theorem result_loadedReport (m : ChunkMeta) : (loadedReport i m).result = loadedLine i m := by
  rw [loadedReport, Recorded.bind_pure_eq]
  rfl

/-- A line is wanting with the error of its chunk. -/
theorem loadedLine_eq_error_iff {m : ChunkMeta} {e : BlockError} :
    loadedLine i m = .error e ↔ (i.chunk m.ref).result = .error e := by
  rw [loadedLine]
  cases (i.chunk m.ref).result with
  | ok c => exact ⟨nofun, nofun⟩
  | error e' => rw [Except.map, Except.error.injEq, Except.error.injEq]

theorem seriesLines_true (s : Series) :
    seriesLines i true s = pure (Format.labels s) :: s.chunks.map (loadedReport i) := by
  rw [seriesLines, labelsLine_eq, loadedChunkLine_eq]
  rfl

theorem seriesLines_false (s : Series) :
    seriesLines i false s = pure (Format.labels s) :: s.chunks.map fun m => pure (Format.chunk m) := by
  rw [seriesLines, labelsLine_eq, chunkLine_eq]
  rfl

theorem map_result_loadedReport {metas : List ChunkMeta} {lines : List String}
    (h : metas.map (loadedLine i) = lines.map .ok) :
    (metas.map (loadedReport i)).map Recorded.result = lines.map .ok := by
  rw [List.map_map, ← h]
  exact List.map_congr_left fun m _ => result_loadedReport m

/-- Chunks that stay where they are can always be printed. -/
theorem map_result_seriesLines_false (s : Series) :
    (seriesLines i false s).map Recorded.result = (Format.labels s :: s.chunks.map Format.chunk).map .ok := by
  rw [seriesLines_false, List.map_cons, List.map_cons, map_result_pure]
  rfl

theorem map_result_loaded {found : List Series} {printed : List (List String)}
    (h : List.Forall₂ (Loaded i) found printed) :
    (found.flatMap (seriesLines i true)).map Recorded.result = printed.flatten.map .ok := by
  induction h with
  | nil => rfl
  | cons hs _ ih =>
      obtain ⟨chunkLines, hchunks, rfl⟩ := hs
      rw [List.flatMap_cons, List.flatten_cons, List.map_append, List.map_append, ih, seriesLines_true,
        List.map_cons, map_result_loadedReport hchunks]
      rfl

end Series

section Renders

variable {i : Index} {load : Bool} {reply : Reply} {lines : List String} {failure : Option BlockError}

/-- **What is printed of the report on a reply.** -/
theorem untilError_reportOn (h : Renders i load reply lines failure) :
    (untilError (reportOn i load reply)).lines = lines ∧
      (untilError (reportOn i load reply)).failure = failure := by
  cases h with
  | stats s => exact untilError_of_ok (map_result_pure id (Format.stats s))
  | labelIndices listed => exact untilError_of_ok (map_result_pure Format.fields listed)
  | postings p => exact untilError_of_ok (map_result_pure toString p.toList)
  | values tuples => exact untilError_of_ok (map_result_tuples tuples)
  | valuesUpTo before e after =>
      rw [reportOn, List.map_append, List.map_cons]
      exact untilError_of_error (map_result_tuples before) rfl _
  | series found =>
      apply untilError_of_ok
      rw [reportOn, List.map_flatMap, List.map_flatMap]
      exact List.flatMap_congr fun s _ => map_result_seriesLines_false s
  | loaded hprinted => exact untilError_of_ok (map_result_loaded hprinted)
  | @loadedUpTo before after s done rest m printed chunkLines e hprinted hchunks hdone hfails =>
      have hreport : reportOn i true (.select (before ++ s :: after)) =
          (before.flatMap (seriesLines i true) ++ pure (Format.labels s) :: done.map (loadedReport i)) ++
            loadedReport i m :: (rest.map (loadedReport i) ++ after.flatMap (seriesLines i true)) := by
        simp only [reportOn, List.flatMap_append, List.flatMap_cons, seriesLines_true, hchunks, List.map_append,
          List.map_cons, List.append_assoc, List.cons_append]
      rw [hreport]
      apply untilError_of_error
      · rw [List.map_append, List.map_append, map_result_loaded hprinted, List.map_cons, List.map_cons,
          map_result_loadedReport hdone]
        rfl
      · rw [result_loadedReport]
        exact loadedLine_eq_error_iff.2 hfails

/-- Series whose chunks are loaded are printed as far as these can be. -/
theorem exists_renders_select (found : List Series) :
    ∃ lines failure, Renders i true (.select found) lines failure := by
  induction found with
  | nil => exact ⟨_, _, .loaded .nil⟩
  | cons s found ih =>
      rcases firstFails_or_ok (loadedLine i) s.chunks with ⟨done, m, e, hfirst⟩ | ⟨lines, hlines⟩
      -- the first series has the first chunk that cannot be loaded
      · obtain ⟨⟨rest, hchunks⟩, hdone, hfails⟩ := firstFails_iff.1 hfirst
        obtain ⟨lines, hlines⟩ := exists_map_eq_iff.2 hdone
        exact ⟨_, _, .loadedUpTo [] .nil hchunks hlines (loadedLine_eq_error_iff.1 hfails)⟩
      · obtain ⟨more, failure, hfound⟩ := ih
        have hs : Loaded i s (Format.labels s :: lines) := ⟨lines, hlines, rfl⟩
        cases hfound with
        | loaded hprinted => exact ⟨_, _, .loaded (.cons hs hprinted)⟩
        | loadedUpTo before hprinted hchunks hdone hfails =>
            exact ⟨_, _, .loadedUpTo (s :: before) (.cons hs hprinted) hchunks hdone hfails⟩

/-- Tuples are printed as far as they can be read. -/
theorem exists_renders_values (tuples : List (Except BlockError (List String))) :
    ∃ lines failure, Renders i load (.values tuples) lines failure := by
  rcases firstFails_or_ok id tuples with ⟨before, tuple, e, hfirst⟩ | ⟨values, hvalues⟩
  · obtain ⟨⟨after, rfl⟩, hbefore, hfails⟩ := firstFails_iff.1 hfirst
    obtain ⟨values, hvalues⟩ := exists_map_eq_iff.2 hbefore
    obtain rfl : tuple = .error e := hfails
    rw [List.map_id] at hvalues
    rw [hvalues]
    exact ⟨_, _, .valuesUpTo values e after⟩
  · rw [List.map_id] at hvalues
    rw [hvalues]
    exact ⟨_, _, .values values⟩

/-- **Whatever a query is answered, something is printed of it.** -/
theorem exists_prints (i : Index) (q : Query) : ∃ lines failure, Prints i q lines failure := by
  cases hr : (i.answer q.request).result with
  | error e => exact ⟨[], some e, .failed hr⟩
  | ok reply =>
      have hrenders : ∃ lines failure, Renders i q.loads reply lines failure := by
        cases q with
        | stats =>
            obtain ⟨s, -, rfl⟩ := Recorded.exists_of_bind_pure_eq_ok (f := Reply.stats) hr
            exact ⟨_, _, .stats s⟩
        | labelIndices =>
            obtain ⟨listed, -, rfl⟩ := Recorded.exists_of_bind_pure_eq_ok (f := Reply.labelIndices) hr
            exact ⟨_, _, .labelIndices listed⟩
        | labelValues names =>
            obtain ⟨t, -, rfl⟩ :=
              Recorded.exists_of_bind_pure_eq_ok (f := fun t : Tuples => Reply.values t.toList) hr
            exact exists_renders_values t.toList
        | postings name value =>
            obtain ⟨p, -, rfl⟩ := Recorded.exists_of_bind_pure_eq_ok (f := Reply.postings) hr
            exact ⟨_, _, .postings p⟩
        | series name value mint maxt chunks =>
            obtain ⟨found, -, rfl⟩ := Recorded.exists_of_bind_pure_eq_ok (f := Reply.select) hr
            cases chunks with
            | false => exact ⟨_, _, .series found⟩
            | true => exact exists_renders_select found
      obtain ⟨lines, failure, hlines⟩ := hrenders
      exact ⟨lines, failure, .answered hr hlines⟩

end Renders

/-! ## Answers -/

/-- The end of a run whose listener has had `told` to write: after the printed lines there is nothing more than the
counters, or there is the error that the printing stopped at. -/
def exitAfter (told printed : List String) (counters : String) : Option BlockError → Exit
  | none => { code := 0, stdout := Format.text printed ++ counters, stderr := Format.text told }
  | some e => { code := 1, stdout := Format.text printed, stderr := Format.text (told ++ Format.failed e) }

section Answer

variable {i : Index} {q : Query} {printed : List String} {failure : Option BlockError}

/-- **An answer ends with what is printed of the query.** -/
theorem answer_eq (h : Prints i q printed failure) (metrics : Bool) (opening : Journal) :
    ∃ counters, (metrics = false → counters = "") ∧
      answer i q metrics opening =
        exitAfter ((opening ++ (i.answer q.request).journal).events.flatMap Format.event) printed counters failure := by
  have hlines : q.lines i =
      ⟨(i.answer q.request).result.map (reportOn i q.loads), (i.answer q.request).journal⟩ := by
    rw [lines_eq, Recorded.bind_pure_eq]
  cases h with
  | failed hr =>
      refine ⟨"", fun _ => rfl, ?_⟩
      rw [hr] at hlines
      rw [answer, hlines, exitAfter, Format.text_append, ← eventLines_eq, ← errorLines_eq]
      rfl
  | @answered reply _ _ hr hrenders =>
      obtain ⟨hprinted, hfailure⟩ := untilError_reportOn hrenders
      rw [hr] at hlines
      rw [answer, hlines]
      dsimp only [Except.map]
      rw [hfailure, hprinted, join_line]
      cases failure with
      | none =>
          rw [eventLines_eq]
          cases metrics with
          | false => exact ⟨"", fun _ => rfl, by rw [exitAfter, String.append_empty]; rfl⟩
          | true => exact ⟨_, nofun, rfl⟩
      | some e =>
          refine ⟨"", fun _ => rfl, ?_⟩
          rw [exitAfter, Format.text_append, ← eventLines_eq, ← errorLines_eq]

end Answer

/-! ## Runs -/

section Opening

variable {options : ReaderOptions} {files : BlockFiles} {i : Index}

/-- The index of a block that opens is that of one that is loaded. -/
theorem exists_load_of_ofFiles (h : (Block.ofFiles options files).result = .ok i) :
    ∃ block, (Block.load options files).result = .ok block ∧ i = block.index :=
  Recorded.exists_of_bind_pure_eq_ok h

theorem journal_ofFiles (h : (Block.ofFiles options files).result = .ok i) :
    (Block.ofFiles options files).journal = [.event (.indexOpened i.labels.size i.postingsMap.size)] := by
  obtain ⟨block, hblock, rfl⟩ := exists_load_of_ofFiles h
  rw [Block.ofFiles, Recorded.bind_pure_eq]
  exact (Block.loads_load options files).journal_of_ok hblock

theorem options_of_ofFiles (h : (Block.ofFiles options files).result = .ok i) : i.options = options := by
  obtain ⟨block, hblock, rfl⟩ := exists_load_of_ofFiles h
  exact (Block.loads_load options files).options_of_ok hblock

end Opening

/-- Whatever is configured, the tool listens. -/
theorem listener_of_ofLayers {a : Arguments} {env : Environment.Variables} {fields : List (String × Setting)}
    {c : Config} (h : Config.ofLayers a env fields = .ok c) : c.reader.listener = .recorder := by
  rw [Config.ofLayers] at h
  cases hp : partialConfig? (Environment.layer env fields) with
  | none =>
      rw [hp] at h
      cases h
  | some p =>
      rw [hp] at h
      cases h
      cases a.verifyChecksums with
      | false => rfl
      | true => rfl

/-- The two files of a block directory. -/
def blockFiles (files : FileAccess Id) (directory : String) : BlockFiles where
  index := (files.read (pathIn directory BlockFiles.indexName)).run
  chunks := (files.read (pathIn directory BlockFiles.chunksName)).run

/-- A run of the tool comes to ask an index a query: the command line is one that asks it, there is a
configuration, and the block opens. -/
structure Asks (files : FileAccess Id) (env : Environment.Variables) (args : List String) (a : Arguments)
    (c : Config) (i : Index) (q : Query) : Prop where
  arguments : readArguments env args = .ok a
  query : a.query = some q
  asked : a.validateConfig = false
  config : (loadFile files a).run >>= Config.ofLayers a env = .ok c
  opens : (Block.ofFiles c.reader (blockFiles files c.blockDir)).result = .ok i

section Runs

variable {files : FileAccess Id} {env : Environment.Variables} {args : List String} {a : Arguments} {c : Config}
  {i : Index} {q : Query}

theorem run_of_asks (h : Asks files env args a c i q) :
    (run files env args).run =
      answer i q a.printMetrics [.event (.indexOpened i.labels.size i.postingsMap.size)] := by
  rw [run, h.arguments]
  simp only [Id.run_bind]
  rw [h.config]
  simp only [h.asked, h.query, Bool.false_eq_true, if_false, Id.run_bind, Id.run_pure]
  show inspect c q a.printMetrics (blockFiles files c.blockDir) = _
  rw [inspect, h.opens, journal_ofFiles h.opens]

/-- The tool hears the trace of the request. -/
theorem heard_of_asks (h : Asks files env args a c i q) :
    (Operation.ask i q.request).heard = i.trace q.request := by
  obtain ⟨fields, -, hlayers⟩ := except_bind_eq_ok.1 h.config
  apply Operation.heard_eq_trace
  show i.options.listener = .recorder
  rw [options_of_ofFiles h.opens]
  exact listener_of_ofLayers hlayers

/-- **The tool prints what the index gives back, up to the first failure.** For a run that comes to ask an index a
query, there is something to be printed of it. If the request succeeds and so does everything that is loaded for
the reply, the run ends with code 0 and has printed the whole reply. If not, it ends with code 1 and has printed what
is in front of the first tuple or chunk that fails, or nothing if the request fails; and the error that it speaks of,
in words and part by part, is that failure. Before that stand the lines of the events that its listener hears, of
which there are those of opening the index and those of the request. -/
theorem run_prints_the_reply (h : Asks files env args a c i q) :
    (∃ printed failure, Prints i q printed failure) ∧
    (Operation.ask i q.request).heard = i.trace q.request ∧
    ∀ printed failure, Prints i q printed failure →
      ∃ counters, (a.printMetrics = false → counters = "") ∧
        (run files env args).run =
          exitAfter ((Trace.opening (.ok i) ++ i.trace q.request).flatMap Format.event) printed counters failure := by
  refine ⟨exists_prints i q, heard_of_asks h, fun printed failure hprints => ?_⟩
  obtain ⟨counters, hcounters, hanswer⟩ :=
    answer_eq hprints a.printMetrics [.event (.indexOpened i.labels.size i.postingsMap.size)]
  refine ⟨counters, hcounters, ?_⟩
  rw [run_of_asks h, hanswer, Journal.events_append, Index.events_answer]
  rfl

end Runs

/-! ## Runs on two blocks -/

/-- A buffer of one chunk. -/
def oneChunk : ChunkStore :=
  ⟨Block.withOneChunk⟩

/-- The files of a block directory with this index and with one chunk. -/
def filesWith (index : Bytes) : FileAccess Id where
  here := "/"
  kind? _ := none
  read path :=
    if path = "./index" then .ok index
    else if path = "./series" then .ok oneChunk.buffer
    else .error .notFound

/-- The tool opens the index that the reader opens. -/
theorem ofFiles_filesWith {options : ReaderOptions} {index : Bytes} {i : Index}
    (h : (Index.ofBytes options oneChunk index).result = .ok i) :
    (Block.ofFiles options (blockFiles (filesWith index) ".")).result = .ok i := by
  have hindex : pathIn "." BlockFiles.indexName = "./index" := by decide +kernel
  have hchunks : pathIn "." BlockFiles.chunksName = "./series" := by decide +kernel
  have hstore : ChunkStore.ofBytes oneChunk.buffer = .ok oneChunk := by decide
  have hload : (Block.load options ⟨.ok index, .ok oneChunk.buffer⟩).result = .ok ⟨i, oneChunk⟩ := by
    rw [Block.load_of_opened hstore, h]
    rfl
  rw [blockFiles, hindex, hchunks]
  exact Recorded.result_bind_pure hload Block.index

/-- A command line with no more than a query, for which checksums may be verified, asks it of the index in these
files. -/
theorem asks_filesWith {verify : Bool} {index : Bytes} {args : List String} {i : Index} {q : Query}
    (hargs : readArguments [] args = .ok { noConfig := true, verifyChecksums := verify, query := some q })
    (hindex : (Index.ofBytes ⟨verify, .recorder⟩ oneChunk index).result = .ok i) :
    Asks (filesWith index) [] args { noConfig := true, verifyChecksums := verify, query := some q }
      ⟨".", ⟨verify, .recorder⟩⟩ i q where
  arguments := hargs
  query := rfl
  asked := rfl
  config := by
    have hsettings : partialConfig? (Environment.layer [] []) = some {} := by decide +kernel
    show Config.ofLayers _ [] [] = _
    rw [Config.ofLayers, hsettings]
    cases verify <;> rfl
  opens := ofFiles_filesWith hindex

/-- Nothing is printed of figures that cannot be read, and no more than a mismatch is heard. -/
theorem prints_of_stats_error {i : Index} {e : BlockError} (h : i.stats.result = .error e) :
    Prints i .stats [] (some e) ∧ i.trace .stats = e.mismatch :=
  ⟨.failed (Recorded.result_bind_pure h Reply.stats), congrArg Trace.contents h⟩

/-- A block of one series with two chunks, with the values of two labels and with two lists of postings, of which the
second leads to no series. -/
def ofOneSeries : Layout :=
  .build ⟨-5, 1000, 1, 2, 3⟩ [0, 0, 0, 0]
    [.symbol "job", .symbol "api", .symbol "zone", .symbol "eu",
      .series [⟨"job", "api"⟩, ⟨"zone", "eu"⟩] [⟨4, -5, 0⟩, ⟨300, 1, 1000⟩],
      .labelIndex ["job", "zone"] [["api", "eu"], ["zone", "eu"]],
      .postings "job" "api" [97], .postings "job" "zone" [1000]]

/-- The index of this block, as the tool opens it. -/
def ofOneSeries.index : Index :=
  ofOneSeries.opened { listener := .recorder } oneChunk

theorem wellFormed_ofOneSeries : ofOneSeries.WellFormed := by
  refine Layout.build_wellFormed rfl (by decide) ?_ (by decide) (by decide) (by decide +kernel)
  intro names tuples h
  simp only [List.mem_cons, List.not_mem_nil, or_false, reduceCtorEq, false_or, Piece.labelIndex.injEq] at h
  obtain ⟨rfl, rfl⟩ := h
  decide

/-- Its labels and its first chunk are printed before the second chunk fails. -/
theorem prints_chunks_ofOneSeries :
    Prints ofOneSeries.index (.series "job" "api" Int64.minValue Int64.maxValue true)
      ["\x7bjob=\"api\", zone=\"eu\"\x7d", "  chunk ref=4 min_time=-5 max_time=0 encoding=0 bytes=1"]
      (some .invalidSize) := by
  have hselect : (ofOneSeries.index.select "job" "api" Int64.minValue Int64.maxValue).result =
      .ok [⟨[⟨"job", "api"⟩, ⟨"zone", "eu"⟩], [⟨4, -5, 0⟩, ⟨300, 1, 1000⟩]⟩] := by decide +kernel
  have hfirst : [(⟨4, -5, 0⟩ : ChunkMeta)].map (loadedLine ofOneSeries.index) =
      ["  chunk ref=4 min_time=-5 max_time=0 encoding=0 bytes=1"].map .ok := by decide +kernel
  have hsecond : (ofOneSeries.index.chunk 300).result = .error .invalidSize := by decide +kernel
  exact .answered (Recorded.result_bind_pure hselect Reply.select) (.loadedUpTo [] .nil rfl hfirst hsecond)

/-- Nothing is printed of a selection that comes upon what is no series. -/
theorem prints_selection_ofOneSeries :
    Prints ofOneSeries.index (.series "job" "zone" Int64.minValue Int64.maxValue false) [] (some .invalidSize) := by
  have hselect : (ofOneSeries.index.select "job" "zone" Int64.minValue Int64.maxValue).result =
      .error .invalidSize := by decide +kernel
  exact .failed (Recorded.result_bind_pure hselect Reply.select)

/-- All of its tuples are printed. -/
theorem prints_values_ofOneSeries :
    Prints ofOneSeries.index (.labelValues ["job", "zone"]) ["api,eu", "zone,eu"] none := by
  obtain ⟨t, ht, htuples⟩ : ∃ t, (ofOneSeries.index.labelValues ["job", "zone"]).result = .ok t ∧
      t.toList = [["api", "eu"], ["zone", "eu"]].map .ok :=
    Layout.labelValues_opened wellFormed_ofOneSeries (by decide)
  have hreply : (ofOneSeries.index.answer (.values ["job", "zone"])).result = .ok (.values t.toList) :=
    Recorded.result_bind_pure ht fun t => Reply.values t.toList
  rw [htuples] at hreply
  exact .answered hreply (.values _)

/-- Runs on two blocks. On the first one, a run prints the labels of a series and one chunk before it fails on the
next, another fails on a record and its listener says so, and a third prints the tuples of two labels. On the
second one, the listener tells of a checksum. -/
theorem run_prints_the_reply_onTwoBlocks :
    (run (filesWith ofOneSeries.bytes) []
      ["--no-config", "series", "--name", "job", "--value", "api", "--chunks"]).run =
        { code := 1
          stdout := "\x7bjob=\"api\", zone=\"eu\"\x7d\n" ++
            "  chunk ref=4 min_time=-5 max_time=0 encoding=0 bytes=1\n"
          stderr := "query failed: invalid size\nError: InvalidSize\n" } ∧
    (run (filesWith ofOneSeries.bytes) []
      ["--no-config", "series", "--name", "job", "--value", "zone"]).run =
        { code := 1
          stdout := ""
          stderr := "series 1000 decode failed: invalid size\nquery failed: invalid size\nError: InvalidSize\n" } ∧
    (run (filesWith ofOneSeries.bytes) [] ["--no-config", "label-values", "job", "zone"]).run =
        { code := 0, stdout := "api,eu\nzone,eu\n", stderr := "" } ∧
    (run (filesWith Index.withWrongTrailer) [] ["--no-config", "--verify-checksums", "stats"]).run =
        { code := 1
          stdout := ""
          stderr := "checksum mismatch at offset 8: expected=0x00000000 actual=0xfa61913f\n" ++
            "query failed: checksum mismatch in section at offset 8: expected=0x00000000, actual=0xfa61913f\n" ++
            "Error: ChecksumMismatch \x7b offset: 8, expected: 0, actual: 4200698175 \x7d\n" } := by
  have hends {files : FileAccess Id} {args : List String} {a : Arguments} {c : Config} {i : Index} {q : Query}
      {heard : List Event} {printed : List String} {failure : Option BlockError}
      (h : Asks files [] args a c i q) (ha : a.printMetrics = false) (hprints : Prints i q printed failure)
      (hheard : i.trace q.request = heard) :
      (run files [] args).run =
        exitAfter ((Trace.opening (.ok i) ++ heard).flatMap Format.event) printed "" failure := by
    obtain ⟨-, -, hruns⟩ := run_prints_the_reply h
    obtain ⟨counters, hcounters, hrun⟩ := hruns _ _ hprints
    rw [hrun, hcounters ha, hheard]
  have hopens : (Index.ofBytes ⟨false, .recorder⟩ oneChunk ofOneSeries.bytes).result = .ok ofOneSeries.index :=
    Layout.ofBytes_bytes wellFormed_ofOneSeries _ _
  refine ⟨?_, ?_, ?_, ?_⟩
  · have hheard : ofOneSeries.index.trace (.select "job" "api" Int64.minValue Int64.maxValue) = [] := by
      decide +kernel
    rw [hends (asks_filesWith (by decide +kernel) hopens) rfl prints_chunks_ofOneSeries hheard]
    decide +kernel
  · have hheard : ofOneSeries.index.trace (.select "job" "zone" Int64.minValue Int64.maxValue) =
        [.seriesDecodeFailed 1000 "invalid size"] := by
      decide +kernel
    rw [hends (asks_filesWith (by decide +kernel) hopens) rfl prints_selection_ofOneSeries hheard]
    decide +kernel
  · have hheard : ofOneSeries.index.trace (.values ["job", "zone"]) = [] := by
      decide +kernel
    rw [hends (asks_filesWith (by decide +kernel) hopens) rfl prints_values_ofOneSeries hheard]
    decide +kernel
  · have hstats := Index.stats_withWrongTrailer .recorder oneChunk
    have hopened := Index.ofBytes_withWrongTrailer ⟨true, .recorder⟩ oneChunk
    obtain ⟨hprints, hheard⟩ := prints_of_stats_error hstats
    rw [hends (asks_filesWith (by decide +kernel) hopened) rfl hprints hheard]
    decide +kernel

end SeriesBlock.Inspect
