import SeriesBlock.Proofs.Building

/-!
# Reading a layout back

An index that was laid out opens, with checksums verified or not, and gives back what was put into it
(`read_back`): the figures, the lists of names in ascending order, the tuples and the references in
the order in which they were written, and each series with all its chunks.
-/

set_option autoImplicit false

namespace SeriesBlock.Layout

open Bytes Decoder Varint

variable {l : Layout}

/-! ## Opening -/

/-- The frames of the figures and of the two maps. -/
theorem framed_stats (hl : l.WellFormed) :
    Index.Framed l.bytes BlockStats.offset l.stats.toPayload := by
  have hsplit : l.bytes = (ofWord32 Index.magic ++ l.padding) ++
      (Section.write Section.standardFlag l.stats.toPayload ++
        (l.pieces.flatMap (Piece.bytes l.place) ++ (l.labelsSection ++ (l.postingsSection ++
          (ofWord32 l.labelsOffset ++ (ofWord32 l.postingsOffset ++ [])))))) := by
    simp only [bytes, front, head, headOf, List.append_assoc]
  have hp : (ofWord32 Index.magic ++ l.padding).length = BlockStats.offset.toNat := by
    rw [List.length_append, length_ofWord32, hl.padding]
    rfl
  have hsmall := hl.small
  rw [hsplit] at hsmall ⊢
  exact Index.framed_append hp hsmall

theorem framed_labels (hl : l.WellFormed) :
    Index.Framed l.bytes l.labelsOffset (OffsetMap.payload l.labels) := by
  have hsmall := hl.small
  have hp : l.front.length = l.labelsOffset.toNat := by
    rw [bytes, List.length_append] at hsmall
    exact (UInt32.toNat_ofNat_of_lt' (by
      show l.front.length < 2 ^ 32
      omega)).symm
  exact Index.framed_append hp hsmall

theorem framed_postings (hl : l.WellFormed) :
    Index.Framed l.bytes l.postingsOffset (OffsetMap.payload l.postings) := by
  have hsmall := hl.small
  have hsplit : l.bytes = (l.front ++ l.labelsSection) ++ (l.postingsSection ++
      (ofWord32 l.labelsOffset ++ (ofWord32 l.postingsOffset ++ []))) := by
    rw [bytes, List.append_assoc]
  have hp : (l.front ++ l.labelsSection).length = l.postingsOffset.toNat := by
    rw [hsplit, List.length_append] at hsmall
    rw [postingsOffset, ← List.length_append]
    exact (UInt32.toNat_ofNat_of_lt' (by
      show (l.front ++ l.labelsSection).length < 2 ^ 32
      omega)).symm
  rw [hsplit] at hsmall ⊢
  exact Index.framed_append hp hsmall

/-- The ends of the buffer lead to the two maps. -/
theorem readEnds_bytes (hl : l.WellFormed) :
    Index.readEnds l.bytes = .ok (l.labelsOffset, l.postingsOffset) := by
  have hsplit : l.bytes = ofWord32 Index.magic ++ ((l.padding ++
      (Section.write Section.standardFlag l.stats.toPayload ++
        (l.pieces.flatMap (Piece.bytes l.place) ++ (l.labelsSection ++ l.postingsSection)))) ++
      (ofWord32 l.labelsOffset ++ (ofWord32 l.postingsOffset ++ []))) := by
    simp only [bytes, front, head, headOf, List.append_assoc]
  rw [hsplit, Index.readEnds_of_words (by
    rw [List.length_append, hl.padding]
    omega), if_pos rfl]

/-- The index that a layout is opened as. -/
def opened (l : Layout) (options : ReaderOptions) (store : ChunkStore) : Index :=
  ⟨l.bytes, store, OffsetMap.ofList l.labels, OffsetMap.ofList l.postings, options⟩

theorem ofBytes_bytes (hl : l.WellFormed) (options : ReaderOptions) (store : ChunkStore) :
    (Index.ofBytes options store l.bytes).result = .ok (l.opened options store) := by
  rw [Index.result_ofBytes, readEnds_bytes hl]
  show ((Index.readMap options l.bytes l.labelsOffset).result >>= fun labels =>
    (Index.readMap options l.bytes l.postingsOffset).result >>= fun postings =>
      .ok (⟨l.bytes, store, labels, postings, options⟩ : Index)) = _
  rw [Index.readMap_of_framed options (framed_labels hl), Index.readMap_of_framed options (framed_postings hl)]
  rfl

/-! ## The maps -/

theorem ne_nil_of_mem_nameLists (hl : l.WellFormed) {names : List String}
    (h : names ∈ l.nameLists) : names ≠ [] := by
  obtain ⟨p, hp, hnames⟩ := List.mem_filterMap.1 h
  cases p with
  | labelIndex names' tuples =>
      cases hnames
      exact (hl.arity names tuples hp).1
  | symbol text => cases hnames
  | series labels chunks => cases hnames
  | postings name value refs => cases hnames

/-- The keys of the label indices are those of the lists of names. -/
theorem map_fst_labelEntries (l : Layout) :
    l.labelEntries.map Prod.fst = l.nameLists.map Index.keyOf := by
  have hpieces : l.pieces = l.placed.map Prod.snd := (Piece.map_snd_positions _ _).symm
  rw [labelEntries, nameLists, hpieces, List.filterMap_map, List.map_filterMap, List.map_filterMap]
  congr 1
  funext e
  rw [Option.map_map]
  rfl

theorem map_fst_postingsEntries (l : Layout) :
    l.postingsEntries.map Prod.fst = l.pairs.map fun p => Index.keyOf [p.1, p.2] := by
  have hpieces : l.pieces = l.placed.map Prod.snd := (Piece.map_snd_positions _ _).symm
  rw [postingsEntries, pairs, hpieces, List.filterMap_map, List.map_filterMap, List.map_filterMap]
  congr 1
  funext e
  rw [Option.map_map]
  rfl

theorem nodup_labels (hl : l.WellFormed) : (l.labels.map Prod.fst).Nodup := by
  rw [(hl.labels.map Prod.fst).nodup_iff, map_fst_labelEntries]
  refine List.pairwise_map.2 (hl.nameLists.imp_of_mem ?_)
  -- different lists of names have different keys
  intro a b ha hb hab hkey
  exact hab (Index.keyOf_injective (ne_nil_of_mem_nameLists hl ha)
    (ne_nil_of_mem_nameLists hl hb) hkey)

theorem nodup_postings (hl : l.WellFormed) : (l.postings.map Prod.fst).Nodup := by
  rw [(hl.postings.map Prod.fst).nodup_iff, map_fst_postingsEntries]
  refine List.pairwise_map.2 (hl.pairs.imp ?_)
  rintro ⟨name, value⟩ ⟨name', value'⟩ hab hkey
  have hpair := Index.keyOf_injective (List.cons_ne_nil _ _) (List.cons_ne_nil _ _) hkey
  cases hpair
  exact hab rfl

/-- The map of label indices leads from the key of a list of names to its section. -/
theorem get?_labels (hl : l.WellFormed) {n : Nat} {names : List String}
    {tuples : List (List String)} (h : (n, .labelIndex names tuples) ∈ l.placed) :
    (OffsetMap.ofList l.labels).get? (Index.keyOf names) = some (UInt32.ofNat n) := by
  refine OffsetMap.get?_of_mem ?_
  rw [OffsetMap.entries_ofList (nodup_labels hl), hl.labels.mem_iff]
  exact List.mem_filterMap.2 ⟨_, h, rfl⟩

/-- The map of postings leads from the key of a label to its section. -/
theorem get?_postings (hl : l.WellFormed) {n : Nat} {name value : String} {refs : List SeriesRef}
    (h : (n, .postings name value refs) ∈ l.placed) :
    (OffsetMap.ofList l.postings).get? (Index.keyOf [name, value]) = some (UInt32.ofNat n) := by
  refine OffsetMap.get?_of_mem ?_
  rw [OffsetMap.entries_ofList (nodup_postings hl), hl.postings.mem_iff]
  exact List.mem_filterMap.2 ⟨_, h, rfl⟩

/-! ## Operations -/

variable {options : ReaderOptions} {store : ChunkStore}

theorem stats_opened (hl : l.WellFormed) :
    (l.opened options store).stats.result = .ok l.stats := by
  obtain ⟨s, hs, hpayload⟩ := Index.readSection_of_framed options (framed_stats hl)
  rw [Index.stats, Recorded.result_countCorruption, Recorded.result_bind, Index.sectionAt]
  show ((Index.readSection options l.bytes BlockStats.offset).result >>= _) = _
  rw [hs]
  show (s.standardPayload >>= BlockStats.ofPayload) = _
  rw [hpayload]
  exact BlockStats.ofPayload_toPayload l.stats

theorem labelIndices_opened (hl : l.WellFormed) :
    ∃ listed, (l.opened options store).labelIndices.result = .ok listed ∧
      listed.Perm l.nameLists ∧ listed.Pairwise fun a b => Text.leFields a b = true := by
  have hkeys : (OffsetMap.ofList l.labels).keys = l.labels.map Prod.fst := by
    rw [OffsetMap.keys, OffsetMap.entries_ofList (nodup_labels hl)]
  have hperm : (l.labels.map Prod.fst).Perm (l.nameLists.map Index.keyOf) := by
    rw [← map_fst_labelEntries]
    exact hl.labels.map Prod.fst
  rw [Index.labelIndices, Recorded.result_ofExcept]
  show ∃ listed, Index.listing (OffsetMap.ofList l.labels).keys = .ok listed ∧ _
  rw [hkeys]
  exact Index.listing_of_perm hperm fun names => ne_nil_of_mem_nameLists hl

/-- The number of names of a label index fits the machine word that declares it. -/
theorem length_names_le (hl : l.WellFormed) {n : Nat} {names : List String}
    {tuples : List (List String)} (h : (n, .labelIndex names tuples) ∈ l.placed) :
    names.length ≤ 2 ^ 32 := by
  have hentry : (Index.keyOf names, UInt32.ofNat n) ∈ l.labels := by
    rw [hl.labels.mem_iff]
    exact List.mem_filterMap.2 ⟨_, h, rfl⟩
  have hkey : (Index.keyOf names).length < 2 ^ 32 :=
    Index.length_key_lt_of_framed (framed_labels hl) hentry
  have hnames := Index.length_le_keyOf names
  omega

theorem labelValues_opened (hl : l.WellFormed) {names : List String}
    {tuples : List (List String)} (h : .labelIndex names tuples ∈ l.pieces) :
    ∃ t, ((l.opened options store).labelValues names).result = .ok t ∧
      t.toList = tuples.map .ok := by
  obtain ⟨n, hn⟩ := exists_position h
  obtain ⟨hne, harity⟩ := hl.arity names tuples h
  have hframed := framed_of_placed hl hn (Piece.tuplesPayload l.place names tuples) rfl
  obtain ⟨s, hs, hpayload⟩ := Index.readSection_of_framed options hframed
  have hpos : 0 < names.length := List.length_pos_iff.2 hne
  have hlen := length_names_le hl hn
  -- what was framed is short enough to be counted
  have hsize : (StoredTuples.written l.place tuples).length < 2 ^ 64 := by
    obtain ⟨pre, post, -, -, hp⟩ := hframed
    rw [Piece.tuplesPayload, List.length_append] at hp
    omega
  obtain ⟨t, ht, htuples⟩ := Index.tuplesOf_written l.bytes hpos (by omega) harity
    (fun x hx s hs => text_place hl h (List.mem_flatten.2 ⟨x, hx, hs⟩)) hsize
  refine ⟨.stored t, ?_, htuples⟩
  -- the key leads to the section, the section to the tuples
  have hget : (l.opened options store).labels.get? (Index.keyOf names) = some (UInt32.ofNat n) :=
    get?_labels hl hn
  rw [Index.labelValues, Recorded.result_countCorruption, hget]
  show ((Index.readSection options l.bytes _).mapError _ >>= _).result = _
  rw [Recorded.result_bind, Recorded.result_mapError, hs]
  show (s.standardPayload >>= Index.tuplesOf l.bytes) = _
  rw [hpayload]
  exact ht

theorem postings_opened (hl : l.WellFormed) {name value : String} {refs : List SeriesRef}
    (h : .postings name value refs ∈ l.pieces) :
    ((l.opened options store).postings name value).result = .ok (Postings.ofList refs) := by
  obtain ⟨n, hn⟩ := exists_position h
  have hframed := framed_of_placed hl hn (refs.flatMap ofWord32) rfl
  exact Index.result_postings_of_framed (get?_postings hl hn) hframed

/-- Each series is read back at its position, for the range of all times. -/
theorem series_opened (hl : l.WellFormed) {n : Nat} {labels : List Label}
    {chunks : List ChunkMeta} (h : (n, .series labels chunks) ∈ l.placed) :
    ((l.opened options store).series (UInt32.ofNat n) Int64.minValue Int64.maxValue).result =
      .ok (if chunks.isEmpty then .notInRange else .found ⟨labels, chunks⟩) := by
  have htext : ∀ lb ∈ labels, Symbol.text l.bytes (l.place lb.name) = .ok lb.name ∧
      Symbol.text l.bytes (l.place lb.value) = .ok lb.value := by
    intro lb hlb
    have hmem : ∀ s ∈ [lb.name, lb.value], s ∈ (Piece.series labels chunks).strings := by
      intro s hs
      exact List.mem_flatMap.2 ⟨lb, hlb, hs⟩
    exact ⟨text_place hl (mem_pieces h) (hmem _ (by simp)),
      text_place hl (mem_pieces h) (hmem _ (by simp))⟩
  obtain ⟨pre, post, hsplit, hn⟩ := exists_split h
  have hsize : (Series.write l.place labels chunks).length < 2 ^ 64 := by
    have hsmall := hl.small
    rw [hsplit, List.length_append, List.length_append] at hsmall
    show (Piece.bytes l.place (.series labels chunks)).length < 2 ^ 64
    omega
  -- the record stands at its position
  have hrecord : (l.opened options store).buffer.tailFrom (UInt32.ofNat n).toNat >>=
      (Series.record (l.opened options store).buffer Int64.minValue Int64.maxValue).eval =
      .ok (labels, chunks, 0) := by
    have hrun := Series.run_record_write htext hsize post
    show l.bytes.tailFrom (UInt32.ofNat n).toNat >>= _ = _
    have htail : l.bytes.tailFrom n = .ok (Series.write l.place labels chunks ++ post) := by
      rw [hsplit]
      exact tailFrom_append hn
    rw [toNat_ofNat_position hl h, htail]
    exact eval_of_run hrun
  rw [Index.series, hrecord]

/-! ## The whole index -/

/-- What an opened index gives back of a layout. -/
structure ReadBack (l : Layout) (i : Index) : Prop where
  stats : i.stats.result = .ok l.stats
  labelIndices : ∃ listed, i.labelIndices.result = .ok listed ∧ listed.Perm l.nameLists ∧
    listed.Pairwise fun a b => Text.leFields a b = true
  labelValues : ∀ names tuples, .labelIndex names tuples ∈ l.pieces →
    ∃ t, (i.labelValues names).result = .ok t ∧ t.toList = tuples.map .ok
  postings : ∀ name value refs, .postings name value refs ∈ l.pieces →
    ∃ p, (i.postings name value).result = .ok p ∧ p.toList = refs
  series : ∀ n labels chunks, (n, .series labels chunks) ∈ l.placed →
    (i.series (UInt32.ofNat n) Int64.minValue Int64.maxValue).result =
      .ok (if chunks.isEmpty then .notInRange else .found ⟨labels, chunks⟩)

/-- **A layout is read back**: the index opens, with checksums verified or not, and gives back the
figures, the lists of names in ascending order, the tuples and the references in the order in which
they were written, and each series with all its chunks. -/
theorem read_back (hl : l.WellFormed) (options : ReaderOptions) (store : ChunkStore) :
    ∃ i, (Index.ofBytes options store l.bytes).result = .ok i ∧ l.ReadBack i := by
  refine ⟨l.opened options store, ofBytes_bytes hl options store, ?_⟩
  exact {
    stats := stats_opened hl
    labelIndices := labelIndices_opened hl
    labelValues := fun _ _ h => labelValues_opened hl h
    postings := fun _ _ refs h => ⟨Postings.ofList refs, postings_opened hl h, rfl⟩
    series := fun _ _ _ h => series_opened hl h }

/-- A block of one series with two labels and two chunks. -/
def ofOneJob : Layout :=
  build ⟨-5, 1000, 1, 2, 3⟩ [0, 0, 0, 0]
    [.symbol "job", .symbol "api",
      .labelIndex ["job"] [["api"]],
      .symbol "env", .symbol "prod",
      .postings "job" "api" [116],
      .series [⟨"env", "prod"⟩, ⟨"job", "api"⟩] [⟨4, -5, 0⟩, ⟨300, 1, 1000⟩],
      .labelIndex ["env", "job"] [["prod", "api"]]]

theorem read_back_of_one_job : ofOneJob.WellFormed ∧
    ∃ i, (Index.ofBytes { verifyChecksums := true } ⟨[]⟩ ofOneJob.bytes).result = .ok i ∧
      ofOneJob.ReadBack i := by
  have harity : ∀ names tuples, Piece.labelIndex names tuples ∈ ofOneJob.pieces →
      names ≠ [] ∧ ∀ t ∈ tuples, t.length = names.length := by
    intro names tuples h
    simp only [ofOneJob, build, List.mem_cons, List.not_mem_nil, or_false, reduceCtorEq, false_or,
      Piece.labelIndex.injEq] at h
    rcases h with ⟨rfl, rfl⟩ | ⟨rfl, rfl⟩
    · decide
    · decide
  have hl : ofOneJob.WellFormed :=
    build_wellFormed rfl (by decide) harity (by decide) (by decide) (by decide +kernel)
  exact ⟨hl, read_back hl _ _⟩

end SeriesBlock.Layout
