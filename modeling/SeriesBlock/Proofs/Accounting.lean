import SeriesBlock.Proofs.Journals
import SeriesBlock.Proofs.Record

/-!
# Accounting

What every operation adds to every counter, told from outcomes alone (`Operation.tally`), and that its
journal adds just that (`count_journal`). A run adds what its operations add (`run_accounting`).

The number of chunks that a record declares is read on its own (`Series.declaredChunks`): of these a
look-up that succeeds returns some and counts the others as left out, also those that it leaves unread.
Each failure on malformed bytes is counted once, by the operation that meets it: a selection that
propagates the failure of a look-up does not count it again (`count_decodeErrors`).
-/

set_option autoImplicit false

namespace SeriesBlock

variable {α : Type}

/-! ## Declared chunks -/

namespace Series

/-- Passes over `n` numbers. -/
def skipNumbers : Nat → Decoder Unit
  | 0 => pure ()
  | n + 1 => do
    let _ ← Decoder.uvarint
    skipNumbers n

/-- The number of chunks that a record declares, behind the numbers of its labels. -/
def declaredChunks : Decoder Nat := do
  let offsets ← Decoder.uvarint
  skipNumbers offsets.toNat
  let declared ← Decoder.uvarint
  pure declared.toNat

open Decoder

variable {symbols b rest : Bytes} {mint maxt : Timestamp}

/-- A label takes two numbers. -/
theorem run_skipNumbers_of_readLabels {n : Nat} {labels : List Label}
    (h : (readLabels symbols n).run b = (.ok labels, rest)) :
    (skipNumbers (2 * n)).run b = (.ok (), rest) := by
  induction n generalizing b labels with
  | zero =>
      cases h
      rfl
  | succ n ih =>
      obtain ⟨nameOffset, b₁, h₁, h⟩ := run_bind_eq_ok.1 h
      obtain ⟨valueOffset, b₂, h₂, h⟩ := run_bind_eq_ok.1 h
      obtain ⟨name, b₃, h₃, h⟩ := run_bind_eq_ok.1 h
      obtain ⟨value, b₄, h₄, h⟩ := run_bind_eq_ok.1 h
      obtain ⟨more, b₅, h₅, h⟩ := run_bind_eq_ok.1 h
      cases h
      obtain ⟨-, rfl⟩ := run_ofExcept_eq_ok.1 h₃
      obtain ⟨-, rfl⟩ := run_ofExcept_eq_ok.1 h₄
      obtain ⟨u, hu, -⟩ := run_uvarint32_eq_ok.1 h₁
      obtain ⟨v, hv, -⟩ := run_uvarint32_eq_ok.1 h₂
      exact run_bind_eq_ok.2 ⟨u, b₁, hu, run_bind_eq_ok.2 ⟨v, _, hv, ih h₅⟩⟩

/-- Every chunk entry is kept or left out, whether or not it was read. -/
theorem length_add_of_run_readChunks {n : Nat} {kept : List ChunkMeta} {skipped : Nat}
    (h : (readChunks mint maxt n).run b = (.ok (kept, skipped), rest)) :
    kept.length + skipped = n := by
  induction n generalizing b kept skipped with
  | zero =>
      cases h
      rfl
  | succ n ih =>
      obtain ⟨first, b₁, -, h⟩ := run_bind_eq_ok.1 h
      by_cases hmax : maxt < first
      -- the entries from here on are left out unread
      · rw [if_pos hmax] at h
        cases h
        rw [List.length_nil, Nat.zero_add]
      · rw [if_neg hmax] at h
        obtain ⟨last, b₂, -, h⟩ := run_bind_eq_ok.1 h
        obtain ⟨ref, b₃, -, h⟩ := run_bind_eq_ok.1 h
        obtain ⟨⟨more, left⟩, b₄, hmore, h⟩ := run_bind_eq_ok.1 h
        by_cases hmin : last < mint
        · simp only [if_pos hmin] at h
          cases h
          rw [← Nat.add_assoc, ih hmore]
        · simp only [if_neg hmin] at h
          cases h
          rw [List.length_cons, Nat.add_right_comm, ih hmore]

/-- **Of the declared chunks each is returned or counted as left out.** -/
theorem eval_declaredChunks_of_record {labels : List Label} {chunks : List ChunkMeta} {skipped : Nat}
    (h : (record symbols mint maxt).eval b = .ok (labels, chunks, skipped)) :
    declaredChunks.eval b = .ok (chunks.length + skipped) := by
  obtain ⟨rest, h⟩ := eval_eq_ok.1 h
  obtain ⟨offsets, b₁, h₁, h⟩ := run_bind_eq_ok.1 h
  obtain ⟨u, hu, rfl, -⟩ := run_count_eq_ok.1 h₁
  split at h
  · cases h
  · next hodd =>
    obtain ⟨labels', b₂, h₂, h⟩ := run_bind_eq_ok.1 h
    obtain ⟨declared, b₃, h₃, h⟩ := run_bind_eq_ok.1 h
    obtain ⟨⟨chunks', skipped'⟩, b₄, h₄, h⟩ := run_bind_eq_ok.1 h
    cases h
    obtain ⟨m, hm, rfl, -⟩ := run_count_eq_ok.1 h₃
    have hskip := run_skipNumbers_of_readLabels h₂
    -- the number of label offsets is even, so as many numbers are passed over as were read
    have heven : 2 * (u.toNat / 2) = u.toNat := by omega
    rw [heven] at hskip
    rw [length_add_of_run_readChunks h₄]
    refine eval_eq_ok.2 ⟨b₃, ?_⟩
    refine run_bind_eq_ok.2 ⟨u, b₁, hu, run_bind_eq_ok.2 ⟨(), b₂, hskip, ?_⟩⟩
    exact run_bind_eq_ok.2 ⟨m, b₃, hm, rfl⟩

end Series

/-- The chunks that a look-up returns. -/
def SeriesLookup.chunks : SeriesLookup → List ChunkMeta
  | found s => s.chunks
  | notInRange => []

/-- The number of chunks that the record at a reference declares. -/
def Index.declaredChunks (i : Index) (ref : SeriesRef) : Nat :=
  match i.buffer.tailFrom ref.toNat >>= Series.declaredChunks.eval with
  | .ok n => n
  | .error _ => 0

/-! ## Tallies -/

/-- By how much each counter is raised. -/
abbrev Tally := Counter → Nat

/-- Whether an outcome is a failure on malformed bytes. -/
def isCorrupt : Except BlockError α → Bool
  | .ok _ => false
  | .error e => e.isCorruption

namespace Tally

/-- Nothing is counted. -/
def zero : Tally := fun _ => 0

/-- What one thing after another adds. -/
def sum : List Tally → Tally
  | [] => zero
  | t :: more => fun c => t c + sum more c

/-- Opening an index: a failure is counted. -/
def opening (r : Except BlockError Index) : Tally
  | .decodeErrors => if r.isOk then 0 else 1
  | _ => 0

/-- Figures and label values: a failure on malformed bytes is counted. -/
def contents (r : Except BlockError α) : Tally
  | .decodeErrors => if isCorrupt r then 1 else 0
  | _ => 0

/-- Postings: so is a list that is read. -/
def postings (r : Except BlockError Postings) : Tally
  | .postingsLookups => if r.isOk then 1 else 0
  | .decodeErrors => if isCorrupt r then 1 else 0
  | _ => 0

/-- A series: one of three counters is raised, and of the declared chunks those that are not returned
are counted as left out. -/
def series (declared : Nat) : Except BlockError SeriesLookup → Tally
  | .ok (.found _), .seriesDecoded => 1
  | .ok .notInRange, .seriesNotInRange => 1
  | .ok s, .chunksSkipped => declared - s.chunks.length
  | .error _, .decodeErrors => 1
  | _, _ => 0

/-- A chunk: its frame is read or not. -/
def chunk (r : Except BlockError (UInt8 × Bytes)) : Tally
  | .chunkReads => if r.isOk then 1 else 0
  | .decodeErrors => if r.isOk then 0 else 1
  | _ => 0

end Tally

namespace Index

/-- What a look-up of a series adds. -/
def seriesTally (i : Index) (mint maxt : Timestamp) (ref : SeriesRef) : Tally :=
  Tally.series (i.declaredChunks ref) (i.series ref mint maxt).result

/-- What answering a request adds. A selection adds what its postings add, and then what each of the
look-ups that it makes adds. -/
def tally (i : Index) : Request → Tally
  | .stats => Tally.contents i.stats.result
  | .labelValues names | .valueAt names _ | .values names =>
    Tally.contents (i.labelValues names).result
  | .postings name value => Tally.postings (i.postings name value).result
  | .series ref mint maxt => i.seriesTally mint maxt ref
  | .select name value mint maxt => fun c =>
    Tally.postings (i.postings name value).result c +
      match (i.postings name value).result with
      | .ok p => Tally.sum ((i.tried mint maxt p.toList).map (i.seriesTally mint maxt)) c
      | .error _ => 0
  | .chunk ref => Tally.chunk (i.chunks.framed ref)
  | .labelIndices | .symbol _ | .symbolText _ => Tally.zero

/-- Whether the look-up in an answer fails on malformed bytes. -/
def fails (i : Index) : Request → Bool
  | .stats => isCorrupt i.stats.result
  | .labelValues names | .valueAt names _ | .values names => isCorrupt (i.labelValues names).result
  | .postings name value => isCorrupt (i.postings name value).result
  | .series ref mint maxt => isCorrupt (i.series ref mint maxt).result
  | .select name value mint maxt => isCorrupt (i.select name value mint maxt).result
  | .chunk ref => isCorrupt (i.chunk ref).result
  | .labelIndices | .symbol _ | .symbolText _ => false

end Index

namespace Operation

/-- What an operation adds. -/
def tally : Operation → Tally
  | openIndex options store b => Tally.opening (Index.ofBytes options store b).result
  | ask i request => i.tally request

/-- Whether an operation fails on malformed bytes. -/
def fails : Operation → Bool
  | openIndex options store b => isCorrupt (Index.ofBytes options store b).result
  | ask i request => i.fails request

end Operation

/-! ## One operation -/

namespace Journal

/-- Journals one after another add what each of them adds. -/
theorem count_flatMap {ι : Type} {f : ι → Journal} {t : ι → Tally}
    (h : ∀ a c, count c (f a) = t a c) (l : List ι) (c : Counter) :
    count c (l.flatMap f) = Tally.sum (l.map t) c := by
  induction l with
  | nil => rfl
  | cons a l ih =>
      rw [List.flatMap_cons, count_append, h, ih]
      rfl

/-- Reports are heard and not counted. -/
theorem count_report (c : Counter) (e : BlockError) : count c e.report = 0 := by
  cases e with
  | checksumMismatch offset expected actual => rfl
  | within offset source => cases source <;> rfl
  | _ => rfl

end Journal

namespace Index

theorem count_openingJournal (c : Counter) (r : Except BlockError Index) :
    (openingJournal r).count c = Tally.opening r c := by
  cases r with
  | ok i => cases c <;> rfl
  | error e =>
      rw [openingJournal, Journal.count_append, Journal.count_report]
      cases c <;> rfl

theorem count_countedJournal (c : Counter) (r : Except BlockError α) :
    (countedJournal [] r).count c = Tally.contents r c := by
  cases r with
  | ok a => cases c <;> rfl
  | error e =>
      rw [countedJournal, Journal.count_append, Journal.count_report]
      cases hc : e.isCorruption with
      | true => cases c <;> simp [Tally.contents, isCorrupt, hc, Journal.count]
      | false => cases c <;> simp [Tally.contents, isCorrupt, hc, Journal.count]

theorem count_postingsJournal (c : Counter) (r : Except BlockError Postings) :
    (countedJournal [.increment .postingsLookups 1] r).count c = Tally.postings r c := by
  cases r with
  | ok a => cases c <;> rfl
  | error e =>
      rw [countedJournal, Journal.count_append, Journal.count_report]
      cases hc : e.isCorruption with
      | true => cases c <;> simp [Tally.postings, isCorrupt, hc, Journal.count, Except.isOk, Except.toBool]
      | false => cases c <;> simp [Tally.postings, isCorrupt, hc, Journal.count, Except.isOk, Except.toBool]

variable (i : Index) (mint maxt : Timestamp)

/-- **A look-up that succeeds** returns some of the declared chunks, and counts the others. -/
theorem exists_record_of_series {ref : SeriesRef} {s : SeriesLookup}
    (h : (i.series ref mint maxt).result = .ok s) :
    ∃ skipped, i.declaredChunks ref = s.chunks.length + skipped ∧
      (i.series ref mint maxt).journal = recordEntries s.chunks.length skipped ∧
      (s = .notInRange ↔ s.chunks = []) := by
  rw [series] at h ⊢
  split at h
  · next labels chunks skipped hr =>
    obtain ⟨tail, htail, hrecord⟩ := except_bind_eq_ok.1 hr
    have hread := Series.eval_declaredChunks_of_record hrecord
    have hdeclared : i.declaredChunks ref = chunks.length + skipped := by
      rw [declaredChunks, except_bind_eq_ok.2 ⟨tail, htail, hread⟩]
    refine ⟨skipped, ?_⟩
    rw [hdeclared]
    -- whether a chunk is left decides between the two outcomes
    cases chunks with
    | nil =>
        cases h
        exact ⟨rfl, rfl, iff_of_true rfl rfl⟩
    | cons m chunks =>
        cases h
        refine ⟨rfl, rfl, ?_⟩
        constructor
        · intro hs
          cases hs
        · intro hs
          cases hs
  · cases h

theorem count_recordEntries_eq (c : Counter) (declared skipped : Nat) (s : SeriesLookup)
    (hdeclared : declared = s.chunks.length + skipped) (hrange : s = .notInRange ↔ s.chunks = []) :
    (recordEntries s.chunks.length skipped).count c = Tally.series declared (.ok s) c := by
  subst hdeclared
  cases s with
  | found s =>
      have hne : s.chunks.length ≠ 0 := by
        intro h0
        cases hrange.2 (List.length_eq_zero_iff.1 h0)
      by_cases hs : skipped = 0 <;> cases c <;>
        simp [recordEntries, Tally.series, SeriesLookup.chunks, Journal.count, hs, hne]
  | notInRange =>
      by_cases hs : skipped = 0 <;> cases c <;>
        simp [recordEntries, Tally.series, SeriesLookup.chunks, Journal.count, hs]

/-- A look-up of a series raises one of three counters, and accounts for all declared chunks. -/
theorem count_series (c : Counter) (ref : SeriesRef) :
    (i.series ref mint maxt).journal.count c = i.seriesTally mint maxt ref c := by
  rw [seriesTally]
  cases hr : (i.series ref mint maxt).result with
  | ok s =>
      obtain ⟨skipped, hdeclared, hjournal, hrange⟩ := exists_record_of_series i mint maxt hr
      rw [hjournal]
      exact count_recordEntries_eq c _ skipped s hdeclared hrange
  | error e =>
      rw [journal_series_error i hr]
      cases c <;> rfl

theorem count_select (c : Counter) (name value : String) :
    (i.select name value mint maxt).journal.count c = i.tally (.select name value mint maxt) c := by
  have hpostings := congrArg (Journal.count c) (journal_postings i name value)
  rw [count_postingsJournal] at hpostings
  cases hp : (i.postings name value).result with
  | ok p =>
      rw [hp] at hpostings
      simp only [tally, hp]
      rw [select_of_postings hp, Journal.count_append, hpostings]
      exact congrArg (_ + ·) (Journal.count_flatMap (fun ref c => count_series i mint maxt c ref) _ c)
  | error e =>
      rw [hp] at hpostings
      simp only [tally, hp]
      rw [select_of_postings_error hp, hpostings, Nat.add_zero]

theorem count_chunk (c : Counter) (ref : ChunkRef) :
    (i.chunk ref).journal.count c = Tally.chunk (i.chunks.framed ref) c := by
  rw [chunk, ChunkStore.chunk]
  cases i.chunks.framed ref with
  | ok p => cases c <;> rfl
  | error e => cases c <;> rfl

theorem count_answer (c : Counter) (request : Request) :
    (i.answer request).journal.count c = i.tally request c := by
  rw [journal_answer]
  cases request with
  | stats => exact (congrArg (Journal.count c) (journal_stats i)).trans (count_countedJournal c _)
  | labelValues names =>
      exact (congrArg (Journal.count c) (journal_labelValues i names)).trans (count_countedJournal c _)
  | valueAt names k =>
      exact (congrArg (Journal.count c) (journal_labelValues i names)).trans (count_countedJournal c _)
  | values names =>
      exact (congrArg (Journal.count c) (journal_labelValues i names)).trans (count_countedJournal c _)
  | postings name value =>
      exact (congrArg (Journal.count c) (journal_postings i name value)).trans (count_postingsJournal c _)
  | series ref mint maxt => exact count_series i mint maxt c ref
  | select name value mint maxt => exact count_select i mint maxt c name value
  | chunk ref => exact count_chunk i c ref
  | labelIndices => rfl
  | symbol offset => rfl
  | symbolText offset => rfl

/-! ## Failures -/

theorem fails_openIndex (options : ReaderOptions) (store : ChunkStore) (b : Bytes) :
    Tally.opening (ofBytes options store b).result .decodeErrors =
      if isCorrupt (ofBytes options store b).result then 1 else 0 := by
  cases hr : (ofBytes options store b).result with
  | ok i => rfl
  | error e =>
      have hcorrupt := (result_ofBytes_eq_error_iff.1 hr).isCorruption
      simp [Tally.opening, isCorrupt, hcorrupt, Except.isOk, Except.toBool]

theorem fails_chunk (ref : ChunkRef) :
    Tally.chunk (i.chunks.framed ref) .decodeErrors =
      if isCorrupt (i.chunk ref).result then 1 else 0 := by
  rw [chunk, ChunkStore.chunk]
  cases hr : i.chunks.framed ref with
  | ok p =>
      obtain ⟨tag, payload⟩ := p
      -- an unknown tag is the codec's refusal
      cases ht : Encoding.ofTag tag with
      | ok encoding => simp [Chunk.ofTagged, ht, isCorrupt, Tally.chunk, Except.isOk, Except.toBool]
      | error fault =>
          simp [Chunk.ofTagged, ht, isCorrupt, Tally.chunk, BlockError.isCorruption, Except.isOk,
            Except.toBool]
  | error e =>
      have he := ChunkStore.eq_invalidSize_of_framed hr
      subst he
      rfl

theorem fails_series (ref : SeriesRef) :
    i.seriesTally mint maxt ref .decodeErrors =
      if isCorrupt (i.series ref mint maxt).result then 1 else 0 := by
  rw [seriesTally]
  cases hr : (i.series ref mint maxt).result with
  | ok s => cases s <;> rfl
  | error e =>
      have hcorrupt := (recordFault_of_series hr).isCorruption
      simp [Tally.series, isCorrupt, hcorrupt]

/-- Of the look-ups that one thread makes, only the last may fail. -/
theorem sum_seriesTally_tried (refs : List SeriesRef) :
    Tally.sum ((i.tried mint maxt refs).map (i.seriesTally mint maxt)) .decodeErrors =
      if isCorrupt (refs.mapM (i.outcome mint maxt)) then 1 else 0 := by
  induction refs with
  | nil => rfl
  | cons ref more ih =>
      have hfails := fails_series i mint maxt ref
      -- a look-up that succeeds counts no failure, one that fails is the last and counts its own
      cases hs : i.outcome mint maxt ref with
      | ok s =>
          have hzero : i.seriesTally mint maxt ref .decodeErrors = 0 := by
            rw [hfails]
            exact congrArg (fun r => if isCorrupt r then 1 else 0) hs
          simp only [tried, hs, List.map_cons, Tally.sum]
          rw [hzero, ih, Nat.zero_add, List.mapM_cons, hs]
          cases List.mapM (i.outcome mint maxt) more with
          | ok lookups => rfl
          | error e => rfl
      | error e =>
          simp only [tried, hs, List.map_cons, Tally.sum]
          rw [hfails, List.mapM_cons, hs]
          exact congrArg (fun r => if isCorrupt r then 1 else 0) hs

/-- **A failure that a selection propagates is counted once.** -/
theorem fails_select (name value : String) :
    i.tally (.select name value mint maxt) .decodeErrors =
      if isCorrupt (i.select name value mint maxt).result then 1 else 0 := by
  cases hp : (i.postings name value).result with
  | ok p =>
      -- the postings were read, so only a look-up may have failed
      simp only [tally, hp]
      rw [sum_seriesTally_tried, select_of_postings hp]
      cases List.mapM (i.outcome mint maxt) p.toList with
      | ok lookups => rfl
      | error e => exact Nat.zero_add _
  | error e =>
      simp only [tally, hp]
      rw [select_of_postings_error hp]
      rfl

theorem fails_answer (request : Request) :
    i.tally request .decodeErrors = if i.fails request then 1 else 0 := by
  cases request with
  | stats => rfl
  | labelValues names => rfl
  | valueAt names k => rfl
  | values names => rfl
  | postings name value => rfl
  | series ref mint maxt => exact fails_series i mint maxt ref
  | select name value mint maxt => exact fails_select i mint maxt name value
  | chunk ref => exact fails_chunk i ref
  | labelIndices => rfl
  | symbol offset => rfl
  | symbolText offset => rfl

end Index

/-! ## Runs -/

namespace Operation

/-- **Each operation adds its tally.** -/
theorem count_journal (operation : Operation) (c : Counter) :
    operation.journal.count c = operation.tally c := by
  cases operation with
  | openIndex options store b =>
      rw [journal, Index.journal_ofBytes]
      exact Index.count_openingJournal c _
  | ask i request => exact Index.count_answer i c request

theorem count_decodeErrors (operation : Operation) :
    operation.journal.count .decodeErrors = if operation.fails then 1 else 0 := by
  rw [count_journal]
  cases operation with
  | openIndex options store b => exact Index.fails_openIndex options store b
  | ask i request => exact Index.fails_answer i request

/-- As many failures are counted in a run as there are operations that fail on malformed bytes. -/
theorem count_decodeErrors_run (operations : List Operation) :
    (run operations).count .decodeErrors = operations.countP fails := by
  induction operations with
  | nil => rfl
  | cons operation more ih =>
      rw [run, List.flatMap_cons, Journal.count_append, count_decodeErrors, List.countP_cons,
        Nat.add_comm]
      exact congrArg (· + _) ih

/-- **A run adds what its operations add**, and each of these what its outcome says. A look-up of a series
returns no more chunks than its record declares. No failure on malformed bytes is counted twice or
lost. -/
theorem run_accounting :
    (∀ (operation : Operation) (c : Counter), operation.journal.count c = operation.tally c) ∧
      (∀ (operations : List Operation) (c : Counter),
        (run operations).count c = Tally.sum (operations.map tally) c) ∧
      (∀ (i : Index) (ref : SeriesRef) (mint maxt : Timestamp) (s : SeriesLookup),
        (i.series ref mint maxt).result = .ok s → s.chunks.length ≤ i.declaredChunks ref) ∧
      ∀ operations : List Operation,
        (run operations).count .decodeErrors = operations.countP fails := by
  refine ⟨count_journal, ?_, ?_, count_decodeErrors_run⟩
  · intro operations c
    exact Journal.count_flatMap count_journal operations c
  · intro i ref mint maxt s hs
    obtain ⟨skipped, hdeclared, -, -⟩ := Index.exists_record_of_series i mint maxt hs
    rw [hdeclared]
    exact Nat.le_add_right _ _

/-- A record of three chunks, of which the second starts at time 20. -/
def ofLongRecord : Index :=
  ⟨[0, 3, 0, 20, 5, 40, 60, 9, 80, 90, 1], ⟨[]⟩, .empty, .empty, {}⟩

/-- One chunk is returned, two are left out, and the record past the end and the list that is missing
make one failure. -/
theorem run_accounting_ofLongRecord :
    let operations := [ask ofLongRecord (.series 0 0 9), ask ofLongRecord (.series 99 0 9),
      ask ofLongRecord (.select "a" "b" 0 9)]
    (run operations).count .seriesDecoded = 1 ∧ (run operations).count .chunksSkipped = 2 ∧
      (run operations).count .decodeErrors = 1 ∧ 1 ≤ ofLongRecord.declaredChunks 0 := by
  intro operations
  obtain ⟨-, hrun, hreturned, hfails⟩ := run_accounting
  have hfound : (ofLongRecord.series 0 0 9).result = .ok (.found ⟨[], [⟨5, 0, 10⟩]⟩) := by rfl
  refine ⟨(hrun operations _).trans ?_, (hrun operations _).trans ?_,
    (hfails operations).trans ?_, hreturned ofLongRecord 0 0 9 _ hfound⟩
  · rfl
  · rfl
  · rfl

end Operation

end SeriesBlock
