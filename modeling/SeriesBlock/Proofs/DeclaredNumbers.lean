import SeriesBlock.Proofs.Record

/-!
# Declared numbers on trust

A record declares how many label offsets and how many chunks follow, and each number is checked against the bytes
after it. What these checks decide is seen from the same decoder with other readers of the two numbers
(`Series.recordWith`), above all the one that takes a number on trust (`Decoder.number`).

Whatever is read with the checks is read alike without them (`Series.refines_recordWith`). The check on the label
offsets refuses nothing that is read without it, since each label uses up two bytes at least
(`Series.refines_headWith_count`). The check on the chunks refuses a number for which there are not three bytes for
each chunk (`Series.run_record_of_head`). So it refuses no chunks that are all there; but a reading that stops
before a chunk after its range need not come to the missing ones. The main statement is
`Index.checks_refuse_no_whole_record`.
-/

set_option autoImplicit false

namespace SeriesBlock

/-! ## Decoders that accept no more than others -/

namespace Decoder

variable {α β : Type} {d d' d'' : Decoder α}

/-- A number of elements to follow, taken on trust. -/
def number : Decoder Nat := do
  let v ← uvarint
  pure v.toNat

theorem run_number_eq_ok {b rest : Bytes} {n : Nat} :
    number.run b = (.ok n, rest) ↔ ∃ u : UInt64, uvarint.run b = (.ok u, rest) ∧ u.toNat = n := by
  constructor
  · intro h
    obtain ⟨u, mid, hu, h⟩ := run_bind_eq_ok.1 h
    cases h
    exact ⟨u, hu, rfl⟩
  · rintro ⟨u, hu, rfl⟩
    exact run_bind_eq_ok.2 ⟨u, rest, hu, rfl⟩

theorem run_count_of_number {least n : Nat} {b rest : Bytes} (h : number.run b = (.ok n, rest)) :
    (count least).run b =
      if n ≤ rest.length / max least 1 then (.ok n, rest) else (.error .invalidSize, rest) := by
  obtain ⟨u, hu, rfl⟩ := run_number_eq_ok.1 h
  exact run_count_of_uvarint least hu

/-- Whatever the first decoder accepts, the second accepts alike, and leaves the same bytes. -/
def Refines (d d' : Decoder α) : Prop :=
  ∀ ⦃b rest : Bytes⦄ ⦃a : α⦄, d.run b = (.ok a, rest) → d'.run b = (.ok a, rest)

theorem refines_refl (d : Decoder α) : Refines d d :=
  fun _ _ _ h => h

theorem Refines.trans (h : Refines d d') (h' : Refines d' d'') : Refines d d'' :=
  fun _ _ _ hd => h' (h hd)

theorem refines_bind {f f' : α → Decoder β} (hd : Refines d d') (hf : ∀ a, Refines (f a) (f' a)) :
    Refines (d >>= f) (d' >>= f') := by
  intro b rest c h
  obtain ⟨a, mid, ha, hc⟩ := run_bind_eq_ok.1 h
  exact run_bind_eq_ok.2 ⟨a, mid, hd ha, hf a hc⟩

theorem refines_count (least : Nat) : Refines (count least) number := by
  intro b rest n h
  obtain ⟨u, hu, hn, -⟩ := run_count_eq_ok.1 h
  exact run_number_eq_ok.2 ⟨u, hu, hn⟩

end Decoder

/-! ## Records -/

namespace Series

open Decoder

variable {offsetCount offsetCount' chunkCount chunkCount' : Decoder Nat} {symbols b rest : Bytes}
  {labels : List Label} {n : Nat} {mint maxt : Timestamp}

/-- Reads the labels of a record and how many chunks it declares, each number by the given reader. -/
def headWith (offsetCount chunkCount : Decoder Nat) (symbols : Bytes) : Decoder (List Label × Nat) := do
  let offsets ← offsetCount
  if offsets % 2 = 1 then Decoder.fail .invalidSize
  else
    let labels ← readLabels symbols (offsets / 2)
    let declared ← chunkCount
    pure (labels, declared)

/-- Reads a record for a range as `record` does, each declared number by the given reader. -/
def recordWith (offsetCount chunkCount : Decoder Nat) (symbols : Bytes) (mint maxt : Timestamp) :
    Decoder (List Label × List ChunkMeta × Nat) := do
  let (labels, declared) ← headWith offsetCount chunkCount symbols
  let (chunks, skipped) ← readChunks mint maxt declared
  pure (labels, chunks, skipped)

/-- A record is read with both numbers checked. -/
theorem record_eq_recordWith (symbols : Bytes) (mint maxt : Timestamp) :
    record symbols mint maxt = recordWith (count 1) (count 3) symbols mint maxt := by
  rw [record, recordWith, headWith, bind_assoc]
  apply bind_congr
  intro offsets
  by_cases hodd : offsets % 2 = 1
  · rw [if_pos hodd, if_pos hodd]
    rfl
  · rw [if_neg hodd, if_neg hodd, bind_assoc]
    apply bind_congr
    intro labels
    rw [bind_assoc]
    rfl

/-- What it takes to read the head of a record. -/
theorem run_headWith_eq_ok :
    (headWith offsetCount chunkCount symbols).run b = (.ok (labels, n), rest) ↔
      ∃ offsets b₁, offsetCount.run b = (.ok offsets, b₁) ∧ ¬ offsets % 2 = 1 ∧
      ∃ b₂, (readLabels symbols (offsets / 2)).run b₁ = (.ok labels, b₂) ∧
      chunkCount.run b₂ = (.ok n, rest) := by
  constructor
  · intro h
    obtain ⟨offsets, b₁, h₁, h⟩ := run_bind_eq_ok.1 h
    split at h
    · cases h
    · next heven =>
      obtain ⟨labels', b₂, h₂, h⟩ := run_bind_eq_ok.1 h
      obtain ⟨n', b₃, h₃, h⟩ := run_bind_eq_ok.1 h
      cases h
      exact ⟨offsets, b₁, h₁, heven, b₂, h₂, h₃⟩
  · rintro ⟨offsets, b₁, h₁, heven, b₂, h₂, h₃⟩
    refine run_bind_eq_ok.2 ⟨offsets, b₁, h₁, ?_⟩
    rw [if_neg heven]
    exact run_bind_eq_ok.2 ⟨labels, b₂, h₂, run_bind_eq_ok.2 ⟨n, rest, h₃, rfl⟩⟩

/-! ## What the checks decide -/

/-- Readers of numbers that accept more make a reader of records that accepts more. -/
theorem refines_recordWith (hoffsets : Refines offsetCount offsetCount')
    (hchunks : Refines chunkCount chunkCount') (symbols : Bytes) (mint maxt : Timestamp) :
    Refines (recordWith offsetCount chunkCount symbols mint maxt)
      (recordWith offsetCount' chunkCount' symbols mint maxt) := by
  apply refines_bind _ fun _ => refines_refl _
  rintro b rest ⟨labels, n⟩ h
  obtain ⟨offsets, b₁, h₁, heven, b₂, h₂, h₃⟩ := run_headWith_eq_ok.1 h
  exact run_headWith_eq_ok.2 ⟨offsets, b₁, hoffsets h₁, heven, b₂, h₂, hchunks h₃⟩

/-- **The check on the label offsets refuses nothing** that is read without it. -/
theorem refines_headWith_count (chunkCount : Decoder Nat) (symbols : Bytes) :
    Refines (headWith number chunkCount symbols) (headWith (count 1) chunkCount symbols) := by
  rintro b rest ⟨labels, n⟩ h
  obtain ⟨offsets, b₁, h₁, heven, b₂, h₂, h₃⟩ := run_headWith_eq_ok.1 h
  obtain ⟨u, hu, rfl⟩ := run_number_eq_ok.1 h₁
  -- the labels that were read have used up the bytes that the check asks for
  exact run_headWith_eq_ok.2 ⟨_, b₁, run_count_of_readLabels hu heven h₂, heven, b₂, h₂, h₃⟩

theorem refines_recordWith_count (chunkCount : Decoder Nat) (symbols : Bytes) (mint maxt : Timestamp) :
    Refines (recordWith number chunkCount symbols mint maxt) (recordWith (count 1) chunkCount symbols mint maxt) :=
  refines_bind (refines_headWith_count chunkCount symbols) fun _ => refines_refl _

/-- The check on the chunks comes after the head has been read. -/
theorem run_headWith_count (h : (headWith offsetCount number symbols).run b = (.ok (labels, n), rest)) :
    (headWith offsetCount (count 3) symbols).run b =
      if n ≤ rest.length / 3 then (.ok (labels, n), rest) else (.error .invalidSize, rest) := by
  obtain ⟨offsets, b₁, h₁, heven, b₂, h₂, h₃⟩ := run_headWith_eq_ok.1 h
  have hcount : (count 3).run b₂ =
      if n ≤ rest.length / 3 then (.ok n, rest) else (.error .invalidSize, rest) := run_count_of_number h₃
  rw [headWith, run_bind_ok h₁, if_neg heven, run_bind_ok h₂]
  by_cases hn : n ≤ rest.length / 3
  · rw [if_pos hn] at hcount
    rw [if_pos hn, run_bind_ok hcount, run_pure]
  · rw [if_neg hn] at hcount
    rw [if_neg hn, run_bind_error hcount]

/-- **What the check on the chunks decides.** The record is read as without it, unless the bytes that are left are
too few for the declared chunks. -/
theorem run_record_of_head (h : (headWith (count 1) number symbols).run b = (.ok (labels, n), rest)) :
    (record symbols mint maxt).run b =
      if n ≤ rest.length / 3 then (recordWith (count 1) number symbols mint maxt).run b
      else (.error .invalidSize, rest) := by
  have hchecked := run_headWith_count h
  rw [record_eq_recordWith, recordWith, recordWith, run_bind_ok h]
  by_cases hn : n ≤ rest.length / 3
  · rw [if_pos hn] at hchecked
    rw [if_pos hn, run_bind_ok hchecked]
  · rw [if_neg hn] at hchecked
    rw [if_neg hn, run_bind_error hchecked]

/-- The number of chunks in a record is refused: its labels are read and then a number `n` of chunks, for which
`rest`, the bytes after that number, is too short. -/
def RefusesChunks (symbols b : Bytes) (n : Nat) (rest : Bytes) : Prop :=
  ∃ labels, (headWith (count 1) number symbols).run b = (.ok (labels, n), rest) ∧ rest.length / 3 < n

theorem RefusesChunks.run_record (h : RefusesChunks symbols b n rest) :
    (record symbols mint maxt).run b = (.error .invalidSize, rest) := by
  obtain ⟨labels, hhead, hlt⟩ := h
  rw [run_record_of_head hhead, if_neg (Nat.not_le.2 hlt)]

/-- Chunks that are refused are not all there. -/
theorem RefusesChunks.run_entries_ne (h : RefusesChunks symbols b n rest) (cs : List ChunkMeta) (left : Bytes) :
    (entries n).run rest ≠ (.ok cs, left) := by
  intro hentries
  obtain ⟨labels, -, hlt⟩ := h
  have hused := uses_entries n hentries
  omega

/-- A record that is read without the check on the chunks is read alike with it, or its chunks are refused. -/
theorem run_record_or_refusesChunks {r : List Label × List ChunkMeta × Nat}
    (h : (recordWith (count 1) number symbols mint maxt).run b = (.ok r, rest)) :
    (record symbols mint maxt).run b = (.ok r, rest) ∨ ∃ n mid, RefusesChunks symbols b n mid := by
  obtain ⟨⟨labels, n⟩, mid, hhead, -⟩ := run_bind_eq_ok.1 h
  rw [run_record_of_head hhead]
  by_cases hn : n ≤ mid.length / 3
  · rw [if_pos hn]
    exact .inl h
  · exact .inr ⟨n, mid, labels, hhead, Nat.lt_of_not_le hn⟩

/-! ## Readings that go to the end -/

/-- Entries that are read to the last moment are all read, and use up three bytes each. -/
theorem uses_readChunks_maxValue (mint : Timestamp) (n : Nat) :
    Uses (readChunks mint Int64.maxValue n) (3 * n) := by
  induction n with
  | zero => exact uses_pure _
  | succ n ih =>
      have h : Uses (readChunks mint Int64.maxValue (n + 1)) (1 + (1 + (1 + (3 * n + 0)))) := by
        apply uses_bind uses_varint
        intro first
        have hgo : ¬ Int64.maxValue < first := Int64.not_lt.2 (Int64.le_maxValue first)
        rw [if_neg hgo]
        apply uses_bind uses_varint
        intro last
        apply uses_bind uses_uvarint32
        intro ref
        apply uses_bind ih
        rintro ⟨kept, skipped⟩
        -- the entry has been read, whether it is kept or not
        show Uses (if last < mint then pure (kept, skipped + 1)
          else pure (⟨ref, first, last⟩ :: kept, skipped)) 0
        split
        · exact uses_pure _
        · exact uses_pure _
      have e : 1 + (1 + (1 + (3 * n + 0))) = 3 * (n + 1) := by omega
      rwa [e] at h

/-- **The check on the chunks refuses nothing** that is read to the end of time without it. -/
theorem refines_record_maxValue (symbols : Bytes) (mint : Timestamp) :
    Refines (recordWith (count 1) number symbols mint Int64.maxValue) (record symbols mint Int64.maxValue) := by
  intro b rest r h
  obtain ⟨⟨labels, n⟩, mid, hhead, hchunks⟩ := run_bind_eq_ok.1 h
  obtain ⟨kept, left, hchunks, -⟩ := run_bind_eq_ok.1 hchunks
  have hused := uses_readChunks_maxValue mint n hchunks
  rw [run_record_of_head hhead, if_pos (by omega)]
  exact h

end Series

/-! ## Look-ups -/

namespace Index

open Decoder

variable (i : Index) (ref : SeriesRef) {offsetCount chunkCount offsetCount' chunkCount' : Decoder Nat}
  {mint maxt : Timestamp} {s : SeriesLookup} {j : Journal}

/-- Looks a series up as `series` does, with each declared number of its record read by the given reader. -/
def seriesWith (offsetCount chunkCount : Decoder Nat) (i : Index) (ref : SeriesRef) (mint maxt : Timestamp) :
    Recorded SeriesLookup :=
  match i.buffer.tailFrom ref.toNat >>=
      (Series.recordWith offsetCount chunkCount i.buffer mint maxt).eval with
  | .ok (labels, chunks, skipped) =>
    ⟨.ok (if chunks.isEmpty then .notInRange else .found ⟨labels, chunks⟩),
      recordEntries chunks.length skipped⟩
  | .error e =>
    ⟨.error e, [.increment .decodeErrors 1, .event (.seriesDecodeFailed ref e.message)]⟩

/-- A series is looked up with both numbers checked. -/
theorem series_eq_seriesWith (mint maxt : Timestamp) :
    i.series ref mint maxt = i.seriesWith (count 1) (count 3) ref mint maxt := by
  rw [series, Series.record_eq_recordWith]
  rfl

/-- A look-up succeeds with what the record at its reference gives. -/
theorem seriesWith_eq_ok_iff :
    i.seriesWith offsetCount chunkCount ref mint maxt = ⟨.ok s, j⟩ ↔
      ∃ tail labels chunks skipped rest, i.buffer.tailFrom ref.toNat = .ok tail ∧
        (Series.recordWith offsetCount chunkCount i.buffer mint maxt).run tail =
          (.ok (labels, chunks, skipped), rest) ∧
        s = (if chunks.isEmpty then .notInRange else .found ⟨labels, chunks⟩) ∧
        j = recordEntries chunks.length skipped := by
  constructor
  · intro h
    unfold seriesWith at h
    split at h
    · next labels chunks skipped hread =>
      obtain ⟨tail, htail, heval⟩ := except_bind_eq_ok.1 hread
      obtain ⟨rest, hrun⟩ := eval_eq_ok.1 heval
      cases h
      exact ⟨tail, labels, chunks, skipped, rest, htail, hrun, rfl, rfl⟩
    · cases h
  · rintro ⟨tail, labels, chunks, skipped, rest, htail, hrun, rfl, rfl⟩
    have hread : (i.buffer.tailFrom ref.toNat >>=
        (Series.recordWith offsetCount chunkCount i.buffer mint maxt).eval) = .ok (labels, chunks, skipped) :=
      except_bind_eq_ok.2 ⟨tail, htail, eval_of_run hrun⟩
    rw [seriesWith, hread]

/-- Where a reader of records accepts more, so does the look-up. -/
theorem seriesWith_of_refines
    (h : Refines (Series.recordWith offsetCount chunkCount i.buffer mint maxt)
      (Series.recordWith offsetCount' chunkCount' i.buffer mint maxt))
    (hs : i.seriesWith offsetCount chunkCount ref mint maxt = ⟨.ok s, j⟩) :
    i.seriesWith offsetCount' chunkCount' ref mint maxt = ⟨.ok s, j⟩ := by
  obtain ⟨tail, labels, chunks, skipped, rest, htail, hrun, hlookup, hjournal⟩ :=
    (i.seriesWith_eq_ok_iff ref).1 hs
  exact (i.seriesWith_eq_ok_iff ref).2
    ⟨tail, labels, chunks, skipped, rest, htail, h hrun, hlookup, hjournal⟩

/-- The look-up at a reference is refused for the `n` chunks that its record declares, with `rest` to follow. -/
def RefusesChunks (n : Nat) (rest : Bytes) : Prop :=
  ∃ tail, i.buffer.tailFrom ref.toNat = .ok tail ∧ Series.RefusesChunks i.buffer tail n rest

theorem series_of_refusesChunks {n : Nat} {rest : Bytes} (h : i.RefusesChunks ref n rest) :
    (i.series ref mint maxt).result = .error .invalidSize := by
  obtain ⟨tail, htail, hrefuses⟩ := h
  have hread : (i.buffer.tailFrom ref.toNat >>= (Series.record i.buffer mint maxt).eval) =
      .error .invalidSize := by
    rw [htail]
    exact eval_of_run hrefuses.run_record
  rw [series, hread]

/-- A look-up that succeeds without the check on the chunks does so with it, or its chunks are refused. -/
theorem series_or_refusesChunks (h : i.seriesWith (count 1) number ref mint maxt = ⟨.ok s, j⟩) :
    i.series ref mint maxt = ⟨.ok s, j⟩ ∨ ∃ n rest, i.RefusesChunks ref n rest := by
  obtain ⟨tail, labels, chunks, skipped, rest, htail, hrun, hlookup, hjournal⟩ :=
    (i.seriesWith_eq_ok_iff ref).1 h
  rcases Series.run_record_or_refusesChunks hrun with hrecord | ⟨n, mid, hrefuses⟩
  · rw [Series.record_eq_recordWith] at hrecord
    left
    rw [series_eq_seriesWith]
    exact (i.seriesWith_eq_ok_iff ref).2
      ⟨tail, labels, chunks, skipped, rest, htail, hrecord, hlookup, hjournal⟩
  · exact .inr ⟨n, mid, tail, htail, hrefuses⟩

/-- **Checks of declared numbers refuse no whole record.** For a range to the end of time, looking a series up
with its declared numbers checked and with these taken on trust succeed on the same records, with the same
outcome. For any range, what succeeds with checks succeeds alike on trust. The check on the label offsets makes no
difference to what succeeds. What succeeds without the check on the chunks also succeeds with it, unless it refuses
them; then the look-up fails for that, and the bytes after the number of chunks are not as many entries. -/
theorem checks_refuse_no_whole_record :
    (∀ mint s j, i.series ref mint Int64.maxValue = ⟨.ok s, j⟩ ↔
      i.seriesWith number number ref mint Int64.maxValue = ⟨.ok s, j⟩) ∧
    ∀ mint maxt,
      (∀ s j, i.series ref mint maxt = ⟨.ok s, j⟩ →
        i.seriesWith number number ref mint maxt = ⟨.ok s, j⟩) ∧
      (∀ s j, i.seriesWith number number ref mint maxt = ⟨.ok s, j⟩ ↔
        i.seriesWith (count 1) number ref mint maxt = ⟨.ok s, j⟩) ∧
      (∀ s j, i.seriesWith (count 1) number ref mint maxt = ⟨.ok s, j⟩ →
        i.series ref mint maxt = ⟨.ok s, j⟩ ∨ ∃ n rest, i.RefusesChunks ref n rest) ∧
      ∀ n rest, i.RefusesChunks ref n rest →
        (i.series ref mint maxt).result = .error .invalidSize ∧
          ∀ cs left, (Series.entries n).run rest ≠ (.ok cs, left) := by
  have htrust : ∀ mint maxt s j, i.series ref mint maxt = ⟨.ok s, j⟩ →
      i.seriesWith number number ref mint maxt = ⟨.ok s, j⟩ := by
    intro mint maxt s j h
    rw [series_eq_seriesWith] at h
    exact i.seriesWith_of_refines ref
      (Series.refines_recordWith (refines_count 1) (refines_count 3) i.buffer mint maxt) h
  refine ⟨fun mint s j => ⟨htrust mint Int64.maxValue s j, ?_⟩,
    fun mint maxt => ⟨htrust mint maxt, fun s j => ⟨?_, ?_⟩, ?_, ?_⟩⟩
  · intro h
    have hend := (Series.refines_recordWith_count number i.buffer mint Int64.maxValue).trans
      (Series.refines_record_maxValue i.buffer mint)
    rw [Series.record_eq_recordWith] at hend
    rw [series_eq_seriesWith]
    exact i.seriesWith_of_refines ref hend h
  · exact i.seriesWith_of_refines ref (Series.refines_recordWith_count number i.buffer mint maxt)
  · exact i.seriesWith_of_refines ref
      (Series.refines_recordWith (refines_count 1) (refines_refl number) i.buffer mint maxt)
  · exact fun s j => i.series_or_refusesChunks ref
  · rintro n rest hrefuses
    refine ⟨i.series_of_refusesChunks ref hrefuses, ?_⟩
    obtain ⟨tail, -, hrefuses⟩ := hrefuses
    exact hrefuses.run_entries_ne

/-- An index that starts with the record of a series. -/
def ofRecord (b : Bytes) : Index :=
  ⟨b, ⟨[]⟩, .empty, .empty, {}⟩

/-- Two chunks that end where the buffer does are read to the end, checked or not. If the record declares a third, it
is refused, though a range that ends before the second chunk starts can be read on trust. -/
theorem checks_refuse_no_whole_record_cutShort :
    let whole := ofRecord [0, 2, 40, 60, 7, 80, 10, 9]
    let cut := ofRecord [0, 3, 40, 60, 7, 80, 10, 9]
    whole.seriesWith number number 0 0 Int64.maxValue =
        ⟨.ok (.found ⟨[], [⟨7, 20, 30⟩, ⟨9, 40, 5⟩]⟩), recordEntries 2 0⟩ ∧
      whole.series 0 0 Int64.maxValue =
        ⟨.ok (.found ⟨[], [⟨7, 20, 30⟩, ⟨9, 40, 5⟩]⟩), recordEntries 2 0⟩ ∧
      cut.seriesWith number number 0 0 25 = ⟨.ok (.found ⟨[], [⟨7, 20, 30⟩]⟩), recordEntries 1 2⟩ ∧
      (∃ n rest, cut.RefusesChunks 0 n rest) ∧
      (cut.series 0 0 25).result = .error .invalidSize ∧
      ∀ cs left, (Series.entries 3).run [40, 60, 7, 80, 10, 9] ≠ (.ok cs, left) := by
  intro whole cut
  have hwhole : whole.seriesWith number number 0 0 Int64.maxValue =
      ⟨.ok (.found ⟨[], [⟨7, 20, 30⟩, ⟨9, 40, 5⟩]⟩), recordEntries 2 0⟩ := by rfl
  have hcut : cut.seriesWith number number 0 0 25 =
      ⟨.ok (.found ⟨[], [⟨7, 20, 30⟩]⟩), recordEntries 1 2⟩ := by rfl
  have hrefuses : cut.RefusesChunks 0 3 [40, 60, 7, 80, 10, 9] :=
    ⟨cut.buffer, rfl, [], rfl, by decide⟩
  obtain ⟨hend, hrange⟩ := checks_refuse_no_whole_record whole 0
  have hread := (hend 0 _ _).2 hwhole
  have htrust := (hrange 0 Int64.maxValue).1 _ _ hread
  obtain ⟨-, hoffsets, hexcept, hfails⟩ := (checks_refuse_no_whole_record cut 0).2 0 25
  obtain ⟨hsize, hentries⟩ := hfails 3 _ hrefuses
  refine ⟨htrust, hread, hcut, ?_, hsize, hentries⟩
  rcases hexcept _ _ ((hoffsets _ _).1 hcut) with hok | hrefused
  · rw [hok] at hsize
    cases hsize
  · exact hrefused

end Index

end SeriesBlock
