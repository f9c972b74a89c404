import SeriesBlock.Proofs.Faults
import SeriesBlock.Proofs.Grammar
import SeriesBlock.Proofs.Selection

/-!
# What operations write

The journal of every operation, told from its outcome. What reads a section reports a mismatch if it
fails on one (`Reports`); steps in sequence report as each of them does (`Reports.bind`). Opening, the
figures, label values and postings add entries of their own to this report (`journal_ofBytes`,
`journal_countCorruption`), and the look-up of a series that fails writes two (`journal_series_error`).

An `Operation` opens an index or asks one. The journal of a run is that of its operations one after
another (`Operation.run`).
-/

set_option autoImplicit false

namespace SeriesBlock

variable {α β : Type} {j : Journal}

/-! ## Reports of mismatches -/

/-- What is reported of an error: a mismatch, also one that is tied to its section. -/
def BlockError.report : BlockError → Journal
  | checksumMismatch offset expected actual => [.event (.checksumMismatch offset expected actual)]
  | within _ (checksumMismatch offset expected actual) =>
    [.event (.checksumMismatch offset expected actual)]
  | _ => []

theorem ContentFault.report {e : BlockError} (h : ContentFault e) : e.report = [] := by
  cases h with
  | flag f => rfl
  | size => rfl

/-- A failure on a mismatch is reported and nothing else of a failure; a success writes `j`. -/
def Reports (j : Journal) (r : Recorded α) : Prop :=
  r.journal = match r.result with
    | .ok _ => j
    | .error e => e.report

theorem reports_pure (a : α) : Reports [] (pure a) :=
  rfl

theorem reports_error {e : BlockError} (h : e.report = []) :
    Reports j (⟨.error e, []⟩ : Recorded α) :=
  h.symm

theorem reports_ofExcept {r : Except BlockError α} (h : ∀ e, r = .error e → e.report = []) :
    Reports [] (Recorded.ofExcept r) := by
  cases r with
  | ok a => rfl
  | error e => exact reports_error (h e rfl)

theorem reports_note (j : Journal) (a : α) : Reports j (Recorded.note j >>= fun _ => pure a) :=
  List.append_nil j

theorem Reports.of_ok {r : Recorded α} {a : α} (h : Reports j r) (ha : r.result = .ok a) :
    r.journal = j := by
  rw [Reports, ha] at h
  exact h

theorem Reports.of_error {r : Recorded α} {e : BlockError} (h : Reports j r)
    (he : r.result = .error e) : r.journal = e.report := by
  rw [Reports, he] at h
  exact h

/-- Steps in sequence report as each of them does. -/
theorem Reports.bind {r : Recorded α} {f : α → Recorded β} (h : Reports [] r)
    (hf : ∀ a, Reports j (f a)) : Reports j (r >>= f) := by
  cases hr : r.result with
  | ok a =>
      rw [Recorded.bind_of_ok hr, h.of_ok hr, List.nil_append]
      exact hf a
  | error e =>
      rw [Recorded.bind_of_error hr]
      exact h.of_error hr

/-- What is read from a payload is not reported. -/
theorem reports_contents {f : Bytes → Except BlockError α}
    (hf : ∀ payload e, f payload = .error e → e = .invalidSize) (s : Section) :
    Reports [] (Recorded.ofExcept (s.standardPayload >>= f)) := by
  apply reports_ofExcept
  intro e he
  exact (contentFault_of_standardPayload hf he).report

namespace Index

theorem reports_readSection (options : ReaderOptions) (b : Bytes) (offset : UInt32) :
    Reports [] (readSection options b offset) := by
  rcases readSection_cases options b offset with ⟨-, h⟩ | ⟨s, -, ⟨-, h⟩ | ⟨-, -, h⟩⟩
  · rw [h]
    rfl
  · rw [h]
    rfl
  -- the one case with an event, which is that of the error
  · rw [h]
    rfl

/-- A mismatch that is tied to its section is reported as the mismatch. -/
theorem reports_readSection_inSection (options : ReaderOptions) (b : Bytes) (offset : UInt32) :
    Reports [] ((readSection options b offset).mapError (.inSection offset)) := by
  rcases readSection_cases options b offset with ⟨-, h⟩ | ⟨s, -, ⟨-, h⟩ | ⟨-, -, h⟩⟩
  · rw [h]
    rfl
  · rw [h]
    rfl
  · rw [h]
    rfl

/-! ## Opening -/

theorem reports_readMap (options : ReaderOptions) (b : Bytes) (offset : UInt32) :
    Reports [] (readMap options b offset) := by
  refine (reports_readSection options b offset).bind fun s => ?_
  exact reports_contents (fun _ _ he => OffsetMap.eq_invalidSize_of_ofPayload he) s

theorem reports_load (options : ReaderOptions) (store : ChunkStore) (b : Bytes) :
    Reports [] (load options store b) := by
  have hends : Reports [] (Recorded.ofExcept (readEnds b)) := by
    apply reports_ofExcept
    intro e he
    -- the buffer is too short, or starts with another word
    rcases readEnds_eq_error_iff.1 he with ⟨-, rfl⟩ | ⟨-, found, -, -, rfl⟩
    · rfl
    · rfl
  refine hends.bind fun ends => ?_
  refine (reports_readMap options b ends.1).bind fun labels => ?_
  exact (reports_readMap options b ends.2).bind fun postings => reports_pure _

/-- What opening an index writes. -/
def openingJournal : Except BlockError Index → Journal
  | .ok i => [.event (.indexOpened i.labels.size i.postingsMap.size)]
  | .error e => e.report ++ [.increment .decodeErrors 1, .event (.indexOpenFailed e.message)]

/-- **Opening reports a mismatch and then how it went.** -/
theorem journal_ofBytes (options : ReaderOptions) (store : ChunkStore) (b : Bytes) :
    (ofBytes options store b).journal = openingJournal (ofBytes options store b).result := by
  have hload := reports_load options store b
  cases hr : (load options store b).result with
  | ok i =>
      rw [ofBytes, Recorded.onError_of_ok hr, Recorded.bind_of_ok hr, hload.of_ok hr]
      rfl
  | error e =>
      rw [ofBytes, Recorded.onError_of_error hr, Recorded.bind_of_error rfl, hload.of_error hr]
      rfl

/-! ## Look-ups in sections -/

/-- What an operation on a section writes: on success `j`, otherwise the report and whether the failure
is counted. -/
def countedJournal (j : Journal) : Except BlockError α → Journal
  | .ok _ => j
  | .error e => e.report ++ if e.isCorruption then [.increment .decodeErrors 1] else []

theorem journal_countCorruption {r : Recorded α} (h : Reports j r) :
    r.countCorruption.journal = countedJournal j r.countCorruption.result := by
  cases hr : r.result with
  | ok a =>
      rw [Recorded.countCorruption, Recorded.onError_of_ok hr, hr, h.of_ok hr]
      rfl
  | error e =>
      rw [Recorded.countCorruption, Recorded.onError_of_error hr, h.of_error hr]
      rfl

variable (i : Index)

theorem journal_stats : i.stats.journal = countedJournal [] i.stats.result := by
  apply journal_countCorruption
  refine (reports_readSection i.options i.buffer BlockStats.offset).bind fun s => ?_
  exact reports_contents (fun _ _ he => BlockStats.eq_invalidSize_of_ofPayload he) s

theorem journal_labelValues (names : List String) :
    (i.labelValues names).journal = countedJournal [] (i.labelValues names).result := by
  apply journal_countCorruption
  cases i.labels.get? (keyOf names) with
  | none => exact reports_error rfl
  | some offset =>
      refine (reports_readSection_inSection i.options i.buffer offset).bind fun s => ?_
      exact reports_contents (fun _ _ he => eq_invalidSize_of_tuplesOf he) s

theorem journal_postings (name value : String) :
    (i.postings name value).journal =
      countedJournal [.increment .postingsLookups 1] (i.postings name value).result := by
  apply journal_countCorruption
  cases i.postingsMap.get? (keyOf [name, value]) with
  | none => exact reports_error rfl
  | some offset =>
      refine (reports_readSection i.options i.buffer offset).bind fun s => ?_
      refine (reports_contents (fun _ _ he => eq_invalidSize_of_refsOf he) s).bind fun refs => ?_
      -- only a list that was read is counted
      exact reports_note _ _

/-! ## Look-ups of series -/

/-- What a look-up that fails writes. -/
theorem journal_series_error {ref : SeriesRef} {mint maxt : Timestamp} {e : BlockError}
    (h : (i.series ref mint maxt).result = .error e) :
    (i.series ref mint maxt).journal =
      [.increment .decodeErrors 1, .event (.seriesDecodeFailed ref e.message)] := by
  rw [series] at h ⊢
  split at h
  · cases h
  · cases h
    rfl

/-! ## Requests -/

/-- Reading tuples and symbols writes nothing: the journal of an answer is that of the look-up in it. -/
theorem journal_answer (request : Request) :
    (i.answer request).journal = match request with
      | .stats => i.stats.journal
      | .labelValues names | .valueAt names _ | .values names => (i.labelValues names).journal
      | .postings name value => (i.postings name value).journal
      | .series ref mint maxt => (i.series ref mint maxt).journal
      | .select name value mint maxt => (i.select name value mint maxt).journal
      | .chunk ref => (i.chunk ref).journal
      | .labelIndices | .symbol _ | .symbolText _ => [] := by
  cases request with
  | stats => exact Recorded.journal_bind_of_silent fun _ => rfl
  | labelIndices => exact Recorded.journal_bind_of_silent fun _ => rfl
  | labelValues names => exact Recorded.journal_bind_of_silent fun _ => rfl
  | valueAt names k =>
      refine Recorded.journal_bind_of_silent fun t => ?_
      exact Recorded.journal_bind_of_silent fun _ => rfl
  | values names => exact Recorded.journal_bind_of_silent fun _ => rfl
  | postings name value => exact Recorded.journal_bind_of_silent fun _ => rfl
  | series ref mint maxt => exact Recorded.journal_bind_of_silent fun _ => rfl
  | select name value mint maxt => exact Recorded.journal_bind_of_silent fun _ => rfl
  | chunk ref => exact Recorded.journal_bind_of_silent fun _ => rfl
  | symbol offset => exact Recorded.journal_bind_of_silent fun _ => rfl
  | symbolText offset => exact Recorded.journal_bind_of_silent fun _ => rfl

end Index

/-! ## Runs -/

/-- An operation on the buffers of a block. -/
inductive Operation where
  /-- Opening an index. -/
  | openIndex (options : ReaderOptions) (store : ChunkStore) (b : Bytes)
  /-- Asking an index. -/
  | ask (i : Index) (request : Request)

namespace Operation

/-- What an operation writes. -/
def journal : Operation → Journal
  | openIndex options store b => (Index.ofBytes options store b).journal
  | ask i request => (i.answer request).journal

/-- What operations write that follow one another on one thread. -/
def run (operations : List Operation) : Journal :=
  operations.flatMap journal

end Operation

end SeriesBlock
