import SeriesBlock.Proofs.Journals

/-!
# Traces

The events that every operation gives rise to, told from outcomes alone (`Operation.trace`), and that
whoever listens hears just these (`heard_eq_trace`), so that a run is heard as the traces of its
operations one after another (`run_is_heard`).

A failure on a mismatch is told once by the layer that reads the section, with the figures of the error
that is returned, and a failure to open an index or to decode a series once more with the wording of that
error. An index that is opened is told with the numbers of different keys in its two maps. Without
verification no mismatch is told (`mismatch_eq_nil_of_unverified`).
-/

set_option autoImplicit false

namespace SeriesBlock

variable {α : Type}

/-- The event of an error that is a mismatch, also of one that is tied to its section. -/
def BlockError.mismatch : BlockError → List Event
  | checksumMismatch offset expected actual => [.checksumMismatch offset expected actual]
  | within _ (checksumMismatch offset expected actual) => [.checksumMismatch offset expected actual]
  | _ => []

/-! ## Traces of operations -/

namespace Trace

/-- Opening an index: how it went, and before that the mismatch if it failed on one. -/
def opening : Except BlockError Index → List Event
  | .ok i => [.indexOpened i.labels.size i.postingsMap.size]
  | .error e => e.mismatch ++ [.indexOpenFailed e.message]

/-- What reads a section: the mismatch if it failed on one. -/
def contents : Except BlockError α → List Event
  | .ok _ => []
  | .error e => e.mismatch

/-- A look-up of a series: its failure. -/
def series (ref : SeriesRef) : Except BlockError SeriesLookup → List Event
  | .ok _ => []
  | .error e => [.seriesDecodeFailed ref e.message]

/-- Steps in sequence tell a mismatch only if one of them does. -/
theorem contents_bind {β : Type} {r : Except BlockError α} {f : α → Except BlockError β}
    (hr : contents r = []) (hf : ∀ a, contents (f a) = []) : contents (r >>= f) = [] := by
  cases r with
  | ok a => exact hf a
  | error e => exact hr

end Trace

namespace Index

/-- The trace of a look-up of a series. -/
def seriesTrace (i : Index) (mint maxt : Timestamp) (ref : SeriesRef) : List Event :=
  Trace.series ref (i.series ref mint maxt).result

/-- The trace of answering a request. That of a selection is that of its postings, and then those of the
look-ups that it makes. -/
def trace (i : Index) : Request → List Event
  | .stats => Trace.contents i.stats.result
  | .labelValues names | .valueAt names _ | .values names =>
    Trace.contents (i.labelValues names).result
  | .postings name value => Trace.contents (i.postings name value).result
  | .series ref mint maxt => i.seriesTrace mint maxt ref
  | .select name value mint maxt =>
    Trace.contents (i.postings name value).result ++
      match (i.postings name value).result with
      | .ok p => (i.tried mint maxt p.toList).flatMap (i.seriesTrace mint maxt)
      | .error _ => []
  | .labelIndices | .chunk _ | .symbol _ | .symbolText _ => []

end Index

namespace Operation

/-- The options that an operation reads under. -/
def options : Operation → ReaderOptions
  | openIndex options _ _ => options
  | ask i _ => i.options

/-- What the listener of an operation hears of it. -/
def heard (operation : Operation) : List Event :=
  operation.options.listener.hear operation.journal

/-- The trace of an operation. -/
def trace : Operation → List Event
  | openIndex options store b => Trace.opening (Index.ofBytes options store b).result
  | ask i request => i.trace request

end Operation

/-- An error that is not tied to a section is told exactly if it is a mismatch. -/
theorem BlockError.mem_mismatch_iff {e : BlockError} (h : ∀ o source, e ≠ .within o source)
    {offset expected actual : UInt32} :
    .checksumMismatch offset expected actual ∈ e.mismatch ↔
      e = .checksumMismatch offset expected actual := by
  cases e with
  | checksumMismatch o x a =>
      rw [mismatch, List.mem_singleton, Event.checksumMismatch.injEq, checksumMismatch.injEq,
        eq_comm, @eq_comm _ x, @eq_comm _ a]
  | within o source => exact absurd rfl (h o source)
  | _ => simp [mismatch]

/-! ## Events of journals -/

namespace Journal

theorem events_flatMap {ι : Type} (f : ι → Journal) (l : List ι) :
    events (l.flatMap f) = l.flatMap fun a => events (f a) :=
  List.filterMap_flatMap

/-- The report of an error is the event of its mismatch. -/
theorem events_report (e : BlockError) : events e.report = e.mismatch := by
  cases e with
  | checksumMismatch offset expected actual => rfl
  | within offset source => cases source <;> rfl
  | _ => rfl

end Journal

/-- What is read from a payload tells no mismatch. -/
theorem Trace.contents_payload {f : Bytes → Except BlockError α}
    (hf : ∀ payload e, f payload = .error e → e = .invalidSize) (s : Section) :
    contents (s.standardPayload >>= f) = [] := by
  cases hr : s.standardPayload >>= f with
  | ok a => rfl
  | error e =>
      rw [contents, ← Journal.events_report, (contentFault_of_standardPayload hf hr).report]
      rfl

namespace Index

theorem events_openingJournal (r : Except BlockError Index) :
    (openingJournal r).events = Trace.opening r := by
  cases r with
  | ok i => rfl
  | error e =>
      rw [openingJournal, Journal.events_append, Journal.events_report]
      rfl

/-- Entries that are only counted are not heard. -/
theorem events_countedJournal {j : Journal} (hj : j.events = []) (r : Except BlockError α) :
    (countedJournal j r).events = Trace.contents r := by
  cases r with
  | ok a => exact hj
  | error e =>
      have hcount : Journal.events (if e.isCorruption then [.increment .decodeErrors 1] else []) = [] := by
        cases e.isCorruption with
        | true => rfl
        | false => rfl
      rw [countedJournal, Journal.events_append, Journal.events_report, hcount, List.append_nil]
      rfl

theorem events_recordEntries (kept skipped : Nat) : (recordEntries kept skipped).events = [] := by
  by_cases hs : skipped = 0
  · rw [recordEntries, if_pos hs]
    rfl
  · rw [recordEntries, if_neg hs]
    rfl

variable (i : Index)

theorem events_stats : i.stats.journal.events = Trace.contents i.stats.result := by
  rw [journal_stats]
  exact events_countedJournal rfl _

theorem events_labelValues (names : List String) :
    (i.labelValues names).journal.events = Trace.contents (i.labelValues names).result := by
  rw [journal_labelValues]
  exact events_countedJournal rfl _

theorem events_postings (name value : String) :
    (i.postings name value).journal.events = Trace.contents (i.postings name value).result := by
  rw [journal_postings]
  exact events_countedJournal rfl _

theorem events_series (mint maxt : Timestamp) (ref : SeriesRef) :
    (i.series ref mint maxt).journal.events = i.seriesTrace mint maxt ref := by
  rw [seriesTrace, series]
  split
  · exact events_recordEntries _ _
  · rfl

/-- **A selection is heard as its postings and the look-ups it makes.** -/
theorem events_select (name value : String) (mint maxt : Timestamp) :
    (i.select name value mint maxt).journal.events = i.trace (.select name value mint maxt) := by
  have hpostings := events_postings i name value
  rw [trace, ← hpostings]
  cases hp : (i.postings name value).result with
  | ok p =>
      rw [select_of_postings hp, Journal.events_append, Journal.events_flatMap]
      simp only [events_series]
  | error e =>
      rw [select_of_postings_error hp, List.append_nil]

theorem events_chunk (ref : ChunkRef) : (i.chunk ref).journal.events = [] := by
  rw [chunk, ChunkStore.chunk]
  cases i.chunks.framed ref with
  | ok p => rfl
  | error e => rfl

theorem events_answer (request : Request) :
    (i.answer request).journal.events = i.trace request := by
  rw [journal_answer]
  cases request with
  | stats => exact events_stats i
  | labelValues names => exact events_labelValues i names
  | valueAt names k => exact events_labelValues i names
  | values names => exact events_labelValues i names
  | postings name value => exact events_postings i name value
  | series ref mint maxt => exact events_series i mint maxt ref
  | select name value mint maxt => exact events_select i name value mint maxt
  | chunk ref => exact events_chunk i ref
  | labelIndices => rfl
  | symbol offset => rfl
  | symbolText offset => rfl

/-! ## Mismatches -/

variable {options : ReaderOptions} {b : Bytes} {offset : UInt32} {e : BlockError}

theorem MapFault.ne_within (h : MapFault options b offset e) (o : UInt32) (source : BlockError) :
    e ≠ .within o source := by
  cases h with
  | frame hfits => exact nofun
  | checksum hoffset hat hverify hne => exact nofun
  | flag hsection hflag => exact nofun
  | entries hsection hflag hnone => exact nofun

/-- What keeps an index from being opened is not tied to a section. -/
theorem Refused.ne_within (h : Refused options b e) (o : UInt32) (source : BlockError) :
    e ≠ .within o source := by
  cases h with
  | short hlen => exact nofun
  | magic hlen hfound hne => exact nofun
  | labels hends hfault => exact hfault.ne_within o source
  | postings hends hlabels hfault => exact hfault.ne_within o source

/-- **A mismatch is heard in opening exactly if it is the error of opening.** -/
theorem mem_opening_iff {store : ChunkStore} {offset expected actual : UInt32} :
    .checksumMismatch offset expected actual ∈ Trace.opening (ofBytes options store b).result ↔
      (ofBytes options store b).result = .error (.checksumMismatch offset expected actual) := by
  cases hr : (ofBytes options store b).result with
  | ok i => simp [Trace.opening]
  | error e =>
      have hbare := (result_ofBytes_eq_error_iff.1 hr).ne_within
      rw [Trace.opening, List.mem_append, Except.error.injEq, BlockError.mem_mismatch_iff hbare]
      simp

/-! ## Without verification -/

theorem MapFault.mismatch_eq_nil (hv : options.verifyChecksums = false)
    (h : MapFault options b offset e) : e.mismatch = [] := by
  cases h with
  | frame hfits => rfl
  | checksum hoffset hat hverify hne =>
      rw [hv] at hverify
      cases hverify
  | flag hsection hflag => rfl
  | entries hsection hflag hnone => rfl

theorem Refused.mismatch_eq_nil (hv : options.verifyChecksums = false) (h : Refused options b e) :
    e.mismatch = [] := by
  cases h with
  | short hlen => rfl
  | magic hlen hfound hne => rfl
  | labels hends hfault => exact hfault.mismatch_eq_nil hv
  | postings hends hlabels hfault => exact hfault.mismatch_eq_nil hv

theorem contents_readSection (hv : options.verifyChecksums = false) :
    Trace.contents (readSection options b offset).result = [] := by
  rcases readSection_cases options b offset with ⟨-, h⟩ | ⟨s, -, ⟨-, h⟩ | ⟨hverify, -, -⟩⟩
  · rw [h]
    rfl
  · rw [h]
    rfl
  · rw [hv] at hverify
    cases hverify

theorem contents_readSection_inSection (hv : options.verifyChecksums = false) :
    Trace.contents ((readSection options b offset).mapError (.inSection offset)).result = [] := by
  rcases readSection_cases options b offset with ⟨-, h⟩ | ⟨s, -, ⟨-, h⟩ | ⟨hverify, -, -⟩⟩
  · rw [h]
    rfl
  · rw [h]
    rfl
  · rw [hv] at hverify
    cases hverify

variable {i : Index}

theorem contents_stats (hv : i.options.verifyChecksums = false) :
    Trace.contents i.stats.result = [] := by
  rw [stats, Recorded.result_countCorruption, Recorded.result_bind]
  refine Trace.contents_bind (contents_readSection hv) fun s => ?_
  exact Trace.contents_payload (fun _ _ he => BlockStats.eq_invalidSize_of_ofPayload he) s

theorem contents_labelValues (hv : i.options.verifyChecksums = false) (names : List String) :
    Trace.contents (i.labelValues names).result = [] := by
  rw [labelValues, Recorded.result_countCorruption]
  cases i.labels.get? (keyOf names) with
  | none => rfl
  | some offset =>
      simp only [Recorded.result_bind]
      refine Trace.contents_bind (contents_readSection_inSection hv) fun s => ?_
      exact Trace.contents_payload (fun _ _ he => eq_invalidSize_of_tuplesOf he) s

theorem contents_postings (hv : i.options.verifyChecksums = false) (name value : String) :
    Trace.contents (i.postings name value).result = [] := by
  rw [postings, Recorded.result_countCorruption]
  cases i.postingsMap.get? (keyOf [name, value]) with
  | none => rfl
  | some offset =>
      simp only [Recorded.result_bind]
      refine Trace.contents_bind (contents_readSection hv) fun s => ?_
      refine Trace.contents_bind ?_ fun refs => rfl
      exact Trace.contents_payload (fun _ _ he => eq_invalidSize_of_refsOf he) s

/-- The failure of a look-up is told in words. -/
theorem not_mem_seriesTrace (mint maxt : Timestamp) (ref : SeriesRef)
    (offset expected actual : UInt32) :
    .checksumMismatch offset expected actual ∉ i.seriesTrace mint maxt ref := by
  rw [seriesTrace]
  cases (i.series ref mint maxt).result with
  | ok s => simp [Trace.series]
  | error e => simp [Trace.series]

theorem not_mem_trace (hv : i.options.verifyChecksums = false) (request : Request)
    (offset expected actual : UInt32) :
    .checksumMismatch offset expected actual ∉ i.trace request := by
  cases request with
  | stats => simp [trace, contents_stats hv]
  | labelValues names => simp [trace, contents_labelValues hv]
  | valueAt names k => simp [trace, contents_labelValues hv]
  | values names => simp [trace, contents_labelValues hv]
  | postings name value => simp [trace, contents_postings hv]
  | series ref mint maxt => exact not_mem_seriesTrace mint maxt ref offset expected actual
  | select name value mint maxt =>
      rw [trace, contents_postings hv, List.nil_append]
      cases (i.postings name value).result with
      | ok p =>
          intro hmem
          obtain ⟨ref, -, href⟩ := List.mem_flatMap.1 hmem
          exact not_mem_seriesTrace mint maxt ref offset expected actual href
      | error e => exact List.not_mem_nil
  | labelIndices => exact List.not_mem_nil
  | chunk ref => exact List.not_mem_nil
  | symbol o => exact List.not_mem_nil
  | symbolText o => exact List.not_mem_nil

end Index

/-! ## Runs -/

namespace Operation

open Index

/-- **Whoever listens hears the trace of an operation.** -/
theorem heard_eq_trace {operation : Operation} (h : operation.options.listener = .recorder) :
    operation.heard = operation.trace := by
  rw [heard, h, Listener.hear]
  cases operation with
  | openIndex options store b =>
      rw [journal, journal_ofBytes]
      exact events_openingJournal _
  | ask i request => exact events_answer i request

theorem not_mem_trace_of_unverified {operation : Operation}
    (hv : operation.options.verifyChecksums = false) (offset expected actual : UInt32) :
    .checksumMismatch offset expected actual ∉ operation.trace := by
  cases operation with
  | openIndex options store b =>
      rw [trace]
      cases hr : (ofBytes options store b).result with
      | ok i => simp [Trace.opening]
      | error e =>
          have hnil := (result_ofBytes_eq_error_iff.1 hr).mismatch_eq_nil hv
          simp [Trace.opening, hnil]
  | ask i request => exact not_mem_trace hv request offset expected actual

/-- **A run is heard as the traces of its operations**, one after another. An index that is opened is
told with the numbers of different keys in its two maps. A mismatch is heard in opening exactly if it is
the error of opening, and without verification never. -/
theorem run_is_heard :
    (∀ operations : List Operation,
      (∀ operation ∈ operations, operation.options.listener = .recorder) →
      operations.flatMap heard = operations.flatMap trace) ∧
    (∀ (options : ReaderOptions) (store : ChunkStore) (b : Bytes) (lo po : UInt32)
      (labels postings : List (Bytes × UInt32)),
      Index.Ends b lo po → MapAt options b lo labels → MapAt options b po postings →
      (openIndex options store b).trace = [.indexOpened (labels.map Prod.fst).dedup.length
        (postings.map Prod.fst).dedup.length]) ∧
    (∀ (options : ReaderOptions) (store : ChunkStore) (b : Bytes) (offset expected actual : UInt32),
      .checksumMismatch offset expected actual ∈ (openIndex options store b).trace ↔
        (ofBytes options store b).result = .error (.checksumMismatch offset expected actual)) ∧
    ∀ (operation : Operation) (offset expected actual : UInt32),
      operation.options.verifyChecksums = false →
      .checksumMismatch offset expected actual ∉ operation.trace := by
  refine ⟨?_, ?_, ?_, ?_⟩
  · intro operations hlisten
    exact List.flatMap_congr fun operation hmem => heard_eq_trace (hlisten operation hmem)
  · intro options store b lo po labels postings hends hlabels hpostings
    have hopen : (ofBytes options store b).result =
        .ok ⟨b, store, .ofList labels, .ofList postings, options⟩ :=
      result_ofBytes_eq_ok_iff.2 ⟨lo, po, labels, postings, hends, hlabels, hpostings, rfl⟩
    rw [trace, hopen, Trace.opening, OffsetMap.size_ofList, OffsetMap.size_ofList]
  · intro options store b offset expected actual
    exact mem_opening_iff
  · intro operation offset expected actual hv
    exact not_mem_trace_of_unverified hv offset expected actual

/-- An index whose two maps are one section without entries, with a wrong trailer. -/
def withWrongSum : Bytes :=
  Bytes.ofWord32 magic ++ ([1, 0, 0, 0, 0, 0, 0, 0, 9] ++ (Bytes.ofWord32 4 ++ Bytes.ofWord32 4))

/-- An index in which the values of a name are in that section. -/
def ofWrongSum : Index :=
  ⟨withWrongSum, ⟨[]⟩, .ofList [(keyOf ["a"], 4)], .empty, ⟨true, .recorder⟩⟩

/-- The three records with a listener. -/
def ofThreeHeard : Index :=
  { ofThreeRecords with options := ⟨false, .recorder⟩ }

/-- Of two openings the second fails on a mismatch, on which a look-up of label values fails as well. A
selection goes on to the second of three references, which leads past the end. -/
theorem run_is_heard_withWrongSum :
    let operations := [openIndex ⟨true, .recorder⟩ ⟨[]⟩ withOneMap,
      openIndex ⟨true, .recorder⟩ ⟨[]⟩ withWrongSum, ask ofWrongSum (.labelValues ["a"]),
      ask ofThreeHeard (.select "a" "c" 0 9)]
    operations.flatMap heard = [.indexOpened 1 1, .checksumMismatch 4 9 4215463597,
        .indexOpenFailed ("checksum mismatch in section at offset 4: " ++
          "expected=0x00000009, actual=0xfb42dead"),
        .checksumMismatch 4 9 4215463597, .seriesDecodeFailed 200 "invalid size"] ∧
      .checksumMismatch 4 9 4215463597 ∉ (openIndex ⟨false, .recorder⟩ ⟨[]⟩ withWrongSum).trace := by
  intro operations
  obtain ⟨hrun, hopened, -, hunverified⟩ := run_is_heard
  have hlisten : ∀ operation ∈ operations, operation.options.listener = .recorder := by
    intro operation hmem
    simp only [operations, List.mem_cons, List.not_mem_nil, or_false] at hmem
    rcases hmem with rfl | rfl | rfl | rfl <;> rfl
  have hmap := mapAt_withOneMap ⟨true, .recorder⟩
  have hfirst := hopened ⟨true, .recorder⟩ ⟨[]⟩ withOneMap 4 4 _ _ ends_withOneMap hmap hmap
  have hsecond : (openIndex ⟨true, .recorder⟩ ⟨[]⟩ withWrongSum).trace =
      [.checksumMismatch 4 9 4215463597, .indexOpenFailed
        ("checksum mismatch in section at offset 4: " ++ "expected=0x00000009, actual=0xfb42dead")] := by
    decide +kernel
  have hthird : (ask ofWrongSum (.labelValues ["a"])).trace =
      [.checksumMismatch 4 9 4215463597] := by decide +kernel
  have hfourth : (ask ofThreeHeard (.select "a" "c" 0 9)).trace =
      [.seriesDecodeFailed 200 "invalid size"] := by decide +kernel
  refine ⟨(hrun operations hlisten).trans ?_, hunverified _ 4 9 _ rfl⟩
  simp only [operations, List.flatMap_cons, List.flatMap_nil, hfirst, hsecond, hthird, hfourth]
  rfl

end Operation

end SeriesBlock
