import SeriesBlock.Proofs.Accounting

/-!
# Narrower ranges

How look-ups of one record for different ranges relate, whatever bytes the record has. Which entries are
read is decided by the end of the range alone (`Series.entriesUntil`), and its start only decides which of
these are kept (`Series.readChunks_eq`). So the start never decides whether a look-up fails
(`result_series_eq`). An earlier end stops the reading earlier, after a prefix of the same entries
(`Series.exists_prefix_of_entriesUntil`). The main statement is `narrower_ranges`.
-/

set_option autoImplicit false

namespace SeriesBlock

open Decoder

/-! ## What the start of a range decides -/

/-- The chunks that do not end before a time. -/
def ChunkMeta.endingFrom (mint : Timestamp) (cs : List ChunkMeta) : List ChunkMeta :=
  cs.filter fun c => ¬ c.maxTime < mint

/-- How many chunks end before a time. -/
def ChunkMeta.countBefore (mint : Timestamp) (cs : List ChunkMeta) : Nat :=
  cs.countP fun c => c.maxTime < mint

namespace ChunkMeta

variable {mint mint' : Timestamp} {c : ChunkMeta} {cs cs' : List ChunkMeta}

theorem endingFrom_cons_of_lt (h : c.maxTime < mint) : endingFrom mint (c :: cs) = endingFrom mint cs :=
  List.filter_cons_of_neg (by simp [h])

theorem endingFrom_cons_of_not_lt (h : ¬ c.maxTime < mint) :
    endingFrom mint (c :: cs) = c :: endingFrom mint cs :=
  List.filter_cons_of_pos (by simp [h])

theorem countBefore_cons_of_lt (h : c.maxTime < mint) :
    countBefore mint (c :: cs) = countBefore mint cs + 1 :=
  List.countP_cons_of_pos (by simp [h])

theorem countBefore_cons_of_not_lt (h : ¬ c.maxTime < mint) :
    countBefore mint (c :: cs) = countBefore mint cs :=
  List.countP_cons_of_neg (by simp [h])

/-- A later start keeps no other chunks. -/
theorem endingFrom_sublist (h : mint ≤ mint') (hcs : cs'.Sublist cs) :
    (endingFrom mint' cs').Sublist (endingFrom mint cs) := by
  refine List.Sublist.trans ?_ (hcs.filter _)
  apply List.monotone_filter_right
  intro c hc
  rw [decide_eq_true_iff, Int64.not_lt] at hc ⊢
  exact Int64.le_trans h hc

end ChunkMeta

namespace SeriesLookup

/-- The outcome of a look-up that is left with these chunks. -/
def ofChunks (labels : List Label) (cs : List ChunkMeta) : SeriesLookup :=
  if cs.isEmpty then notInRange else found ⟨labels, cs⟩

theorem chunks_ofChunks (labels : List Label) (cs : List ChunkMeta) :
    (ofChunks labels cs).chunks = cs := by
  cases cs with
  | nil => rfl
  | cons c cs => rfl

theorem labels_of_ofChunks {labels : List Label} {cs : List ChunkMeta} {s : Series}
    (h : ofChunks labels cs = found s) : s.labels = labels := by
  cases cs with
  | nil => cases h
  | cons c cs =>
      cases h
      rfl

end SeriesLookup

namespace Series

/-- Reads up to `n` chunk entries, up to the first that starts after `maxt`. -/
def entriesUntil (maxt : Timestamp) : Nat → Decoder (List ChunkMeta)
  | 0 => pure []
  | n + 1 => do
    let first ← Decoder.varint
    if maxt < first then pure []
    else
      let last ← Decoder.varint
      let ref ← Decoder.uvarint32
      let more ← entriesUntil maxt n
      pure (⟨ref, first, last⟩ :: more)

/-- Reads a record up to the first chunk that starts after `maxt`: its labels, how many chunks it declares, and
those that were read. -/
def recordUntil (symbols : Bytes) (maxt : Timestamp) : Decoder (List Label × Nat × List ChunkMeta) := do
  let offsets ← Decoder.count 1
  if offsets % 2 = 1 then Decoder.fail .invalidSize
  else
    let labels ← readLabels symbols (offsets / 2)
    let declared ← Decoder.count 3
    let chunks ← entriesUntil maxt declared
    pure (labels, declared, chunks)

open ChunkMeta

variable {mint maxt maxt' : Timestamp}

/-- **The start of a range only filters the entries that are read.** Left out are those that are not read and
those that end before the range. -/
theorem readChunks_eq (mint maxt : Timestamp) (n : Nat) :
    readChunks mint maxt n = entriesUntil maxt n >>= fun cs =>
      pure (endingFrom mint cs, n - cs.length + countBefore mint cs) := by
  induction n with
  | zero => rfl
  | succ n ih =>
      rw [readChunks, entriesUntil, bind_assoc]
      apply bind_congr
      intro first
      by_cases hmax : maxt < first
      -- neither reader goes on
      · rw [if_pos hmax, if_pos hmax]
        rfl
      · rw [if_neg hmax, if_neg hmax, bind_assoc]
        apply bind_congr
        intro last
        rw [bind_assoc]
        apply bind_congr
        intro ref
        rw [ih, bind_assoc, bind_assoc]
        apply bind_congr
        intro cs
        rw [pure_bind, pure_bind, List.length_cons, Nat.add_sub_add_right]
        -- the entry ends before the range, or is kept
        by_cases hmin : (⟨ref, first, last⟩ : ChunkMeta).maxTime < mint
        · rw [endingFrom_cons_of_lt hmin, countBefore_cons_of_lt hmin]
          exact if_pos hmin
        · rw [endingFrom_cons_of_not_lt hmin, countBefore_cons_of_not_lt hmin]
          exact if_neg hmin

theorem record_eq (symbols : Bytes) (mint maxt : Timestamp) :
    record symbols mint maxt = recordUntil symbols maxt >>= fun (labels, declared, cs) =>
      pure (labels, endingFrom mint cs, declared - cs.length + countBefore mint cs) := by
  rw [record, recordUntil, bind_assoc]
  apply bind_congr
  intro offsets
  by_cases hodd : offsets % 2 = 1
  · rw [if_pos hodd, if_pos hodd]
    rfl
  · rw [if_neg hodd, if_neg hodd, bind_assoc]
    apply bind_congr
    intro labels
    rw [bind_assoc]
    apply bind_congr
    intro declared
    rw [readChunks_eq, bind_assoc, bind_assoc]
    rfl

/-! ## What the end of a range decides -/

/-- **An earlier end stops the reading after a prefix of the entries.** -/
theorem exists_prefix_of_entriesUntil (hle : maxt' ≤ maxt) {n : Nat} {b rest : Bytes} {cs : List ChunkMeta}
    (h : (entriesUntil maxt n).run b = (.ok cs, rest)) :
    ∃ cs' rest', (entriesUntil maxt' n).run b = (.ok cs', rest') ∧ cs' <+: cs := by
  induction n generalizing b cs with
  | zero => exact ⟨[], b, rfl, List.nil_prefix⟩
  | succ n ih =>
      obtain ⟨first, b₁, h₁, h⟩ := run_bind_eq_ok.1 h
      by_cases hstop : maxt' < first
      -- the earlier end is passed here, whatever becomes of the other
      · refine ⟨[], b₁, run_bind_eq_ok.2 ⟨first, b₁, h₁, ?_⟩, List.nil_prefix⟩
        rw [if_pos hstop, run_pure]
      · have hgo : ¬ maxt < first := by
          intro hmax
          exact hstop (Int64.lt_of_le_of_lt hle hmax)
        rw [if_neg hgo] at h
        obtain ⟨last, b₂, h₂, h⟩ := run_bind_eq_ok.1 h
        obtain ⟨ref, b₃, h₃, h⟩ := run_bind_eq_ok.1 h
        obtain ⟨more, b₄, h₄, h⟩ := run_bind_eq_ok.1 h
        cases h
        obtain ⟨more', rest', hmore, hprefix⟩ := ih h₄
        refine ⟨⟨ref, first, last⟩ :: more', rest', ?_, (List.prefix_cons_inj _).2 hprefix⟩
        refine run_bind_eq_ok.2 ⟨first, b₁, h₁, ?_⟩
        rw [if_neg hstop]
        exact run_bind_eq_ok.2 ⟨last, b₂, h₂, run_bind_eq_ok.2 ⟨ref, b₃, h₃,
          run_bind_eq_ok.2 ⟨more', rest', hmore, rfl⟩⟩⟩

/-- The labels of a record are read alike, and a prefix of its entries is. -/
theorem exists_prefix_of_recordUntil (hle : maxt' ≤ maxt) {symbols b rest : Bytes} {labels : List Label}
    {declared : Nat} {cs : List ChunkMeta}
    (h : (recordUntil symbols maxt).run b = (.ok (labels, declared, cs), rest)) :
    ∃ cs' rest', (recordUntil symbols maxt').run b = (.ok (labels, declared, cs'), rest') ∧ cs' <+: cs := by
  obtain ⟨offsets, b₁, h₁, h⟩ := run_bind_eq_ok.1 h
  by_cases hodd : offsets % 2 = 1
  · rw [if_pos hodd] at h
    cases h
  · rw [if_neg hodd] at h
    obtain ⟨labels', b₂, h₂, h⟩ := run_bind_eq_ok.1 h
    obtain ⟨declared', b₃, h₃, h⟩ := run_bind_eq_ok.1 h
    obtain ⟨entries, b₄, h₄, h⟩ := run_bind_eq_ok.1 h
    cases h
    obtain ⟨cs', rest', hentries, hprefix⟩ := exists_prefix_of_entriesUntil hle h₄
    refine ⟨cs', rest', run_bind_eq_ok.2 ⟨offsets, b₁, h₁, ?_⟩, hprefix⟩
    rw [if_neg hodd]
    exact run_bind_eq_ok.2 ⟨labels, b₂, h₂, run_bind_eq_ok.2 ⟨declared, b₃, h₃,
      run_bind_eq_ok.2 ⟨cs', rest', hentries, rfl⟩⟩⟩

end Series

/-! ## Look-ups -/

namespace Index

open ChunkMeta

variable (i : Index) (ref : SeriesRef) (mint maxt : Timestamp)

/-- The record at a reference, read up to the first chunk that starts after `maxt`. -/
def seriesUntil : Except BlockError (List Label × Nat × List ChunkMeta) :=
  i.buffer.tailFrom ref.toNat >>= (Series.recordUntil i.buffer maxt).eval

/-- The record is read up to the end of the range, and its entries are filtered. -/
theorem eval_record_eq :
    (i.buffer.tailFrom ref.toNat >>= (Series.record i.buffer mint maxt).eval) =
      i.seriesUntil ref maxt >>= fun p =>
        .ok (p.1, endingFrom mint p.2.2, p.2.1 - p.2.2.length + countBefore mint p.2.2) := by
  rw [seriesUntil]
  cases i.buffer.tailFrom ref.toNat with
  | error e => rfl
  | ok tail =>
      show (Series.record i.buffer mint maxt).eval tail =
        (Series.recordUntil i.buffer maxt).eval tail >>= _
      rw [Series.record_eq, eval_bind, eval_eq_step]
      cases (Series.recordUntil i.buffer maxt).step tail with
      | error e => rfl
      | ok p => rfl

/-- **A look-up filters what is read up to the end of its range.** -/
theorem result_series_eq :
    (i.series ref mint maxt).result = i.seriesUntil ref maxt >>= fun p =>
      .ok (.ofChunks p.1 (endingFrom mint p.2.2)) := by
  rw [series, eval_record_eq]
  cases i.seriesUntil ref maxt with
  | error e => rfl
  | ok p => rfl

theorem result_series_eq_ok_iff {s : SeriesLookup} :
    (i.series ref mint maxt).result = .ok s ↔ ∃ labels declared cs,
      i.seriesUntil ref maxt = .ok (labels, declared, cs) ∧ s = .ofChunks labels (endingFrom mint cs) := by
  rw [result_series_eq, except_bind_eq_ok]
  constructor
  · rintro ⟨⟨labels, declared, cs⟩, hread, hs⟩
    cases hs
    exact ⟨labels, declared, cs, hread, rfl⟩
  · rintro ⟨labels, declared, cs, hread, rfl⟩
    exact ⟨(labels, declared, cs), hread, rfl⟩

/-- A look-up fails just as the reading up to the end of its range does. -/
theorem result_series_eq_error_iff {e : BlockError} :
    (i.series ref mint maxt).result = .error e ↔ i.seriesUntil ref maxt = .error e := by
  rw [result_series_eq, except_bind_eq_error]
  constructor
  · rintro (hread | ⟨p, -, hp⟩)
    · exact hread
    · cases hp
  · intro hread
    exact Or.inl hread

theorem exists_prefix_of_seriesUntil {maxt' : Timestamp} (hle : maxt' ≤ maxt) {labels : List Label}
    {declared : Nat} {cs : List ChunkMeta} (h : i.seriesUntil ref maxt = .ok (labels, declared, cs)) :
    ∃ cs', i.seriesUntil ref maxt' = .ok (labels, declared, cs') ∧ cs' <+: cs := by
  obtain ⟨tail, htail, hread⟩ := except_bind_eq_ok.1 h
  obtain ⟨rest, hrun⟩ := eval_eq_ok.1 hread
  obtain ⟨cs', rest', hrun', hprefix⟩ := Series.exists_prefix_of_recordUntil hle hrun
  exact ⟨cs', except_bind_eq_ok.2 ⟨tail, htail, eval_of_run hrun'⟩, hprefix⟩

/-- **Look-ups of a record are monotone in the range**, whatever bytes it has. The start of the range never
decides whether they fail or how. Where one succeeds, so does every look-up that ends no later; if it also
starts no earlier, its chunks are among those of the first, in the same order, and it has the same
labels. -/
theorem narrower_ranges :
    (∀ (mint' : Timestamp) (e : BlockError),
      (i.series ref mint maxt).result = .error e ↔ (i.series ref mint' maxt).result = .error e) ∧
    ∀ s, (i.series ref mint maxt).result = .ok s → ∀ mint' maxt' : Timestamp, maxt' ≤ maxt →
      ∃ s', (i.series ref mint' maxt').result = .ok s' ∧
        (mint ≤ mint' → s'.chunks.Sublist s.chunks ∧
          ∀ wide narrow, s = .found wide → s' = .found narrow → narrow.labels = wide.labels) := by
  constructor
  · intro mint' e
    rw [result_series_eq_error_iff, result_series_eq_error_iff]
  · intro s hs mint' maxt' hmax
    obtain ⟨labels, declared, cs, hread, rfl⟩ := (i.result_series_eq_ok_iff ref mint maxt).1 hs
    obtain ⟨cs', hread', hprefix⟩ := i.exists_prefix_of_seriesUntil ref maxt hmax hread
    refine ⟨.ofChunks labels (endingFrom mint' cs'), ?_, ?_⟩
    · exact (i.result_series_eq_ok_iff ref mint' maxt').2 ⟨labels, declared, cs', hread', rfl⟩
    · intro hmin
      constructor
      · rw [SeriesLookup.chunks_ofChunks, SeriesLookup.chunks_ofChunks]
        exact endingFrom_sublist hmin hprefix.sublist
      · intro wide narrow hwide hnarrow
        rw [SeriesLookup.labels_of_ofChunks hwide, SeriesLookup.labels_of_ofChunks hnarrow]

/-- Three chunks that do not start in order of time, and a record that declares a second chunk and ends
after the first. -/
def ofUnsortedRecord : Index :=
  ⟨[0, 3, 40, 60, 7, 0, 20, 5, 10, 12, 9, 0, 2, 40, 60, 7, 0], ⟨[]⟩, .empty, .empty, {}⟩

/-- The narrower range leaves out the last chunk, and a range that ends before the first chunk starts leaves
out all of them. The other record cannot be read from any time on. -/
theorem narrower_ranges_ofUnsortedRecord :
    (ofUnsortedRecord.series 0 0 25).result =
      .ok (.found ⟨[], [⟨7, 20, 30⟩, ⟨5, 0, 10⟩, ⟨9, 5, 6⟩]⟩) ∧
    (ofUnsortedRecord.series 0 8 25).result = .ok (.found ⟨[], [⟨7, 20, 30⟩, ⟨5, 0, 10⟩]⟩) ∧
    [⟨7, 20, 30⟩, ⟨5, 0, 10⟩].Sublist [(⟨7, 20, 30⟩ : ChunkMeta), ⟨5, 0, 10⟩, ⟨9, 5, 6⟩] ∧
    (∃ s, (ofUnsortedRecord.series 0 8 15).result = .ok s) ∧
    ∀ mint, (ofUnsortedRecord.series 11 mint 25).result = .error .invalidSize := by
  have hwide : (ofUnsortedRecord.series 0 0 25).result =
      .ok (.found ⟨[], [⟨7, 20, 30⟩, ⟨5, 0, 10⟩, ⟨9, 5, 6⟩]⟩) := by rfl
  have hnarrow : (ofUnsortedRecord.series 0 8 25).result =
      .ok (.found ⟨[], [⟨7, 20, 30⟩, ⟨5, 0, 10⟩]⟩) := by rfl
  obtain ⟨-, hnarrower⟩ := narrower_ranges ofUnsortedRecord 0 0 25
  refine ⟨hwide, hnarrow, ?_, ?_, ?_⟩
  · obtain ⟨s, hs, hchunks⟩ := hnarrower _ hwide 8 25 (by decide)
    rw [hnarrow, Except.ok.injEq] at hs
    subst hs
    exact (hchunks (by decide)).1
  · obtain ⟨s, hs, -⟩ := hnarrower _ hwide 8 15 (by decide)
    exact ⟨s, hs⟩
  · intro mint
    exact ((narrower_ranges ofUnsortedRecord 11 0 25).1 mint .invalidSize).1 rfl

end Index

end SeriesBlock
