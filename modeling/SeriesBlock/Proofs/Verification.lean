import SeriesBlock.Proofs.Answers

/-!
# Verifying checksums

A reader that verifies checksums beside one over the same buffers that does not. `Verified` relates
their outcomes: they are the same, or the verifying one is the mismatch of a section that is in the
buffer, with a trailer other than the checksum of its contents. The relation passes through whatever
follows a read (`Verified.bind`), so a mismatch takes the place of what the operation would have
given and nothing else changes: neither a success nor a fault of framing.

The two readers have an order of the keys each, and each its own pool of threads. So of keys that are broken
differently they may report different ones, and of look-ups that fail differently they may fail on different ones,
whether or not checksums are verified (`verified_answers_meet_chance`). Everything else only gains mismatches
(`verification_only_adds_mismatches`).
-/

set_option autoImplicit false

namespace SeriesBlock

open Bytes

variable {α β : Type}

/-! ## Outcomes with and without verification -/

/-- What an outcome may become under verification, with `report` for the form in which the operation
names a mismatch in the section at an offset. -/
inductive Verified (b : Bytes) (report : UInt32 → BlockError → BlockError)
    (plain : Except BlockError α) : Except BlockError α → Prop where
  | same : Verified b report plain plain
  | mismatch (offset : UInt32) (s : Section) :
      Section.read b offset = .ok s → s.checksum ≠ Checksum.ofSection s.flag s.payload →
      Verified b report plain (.error (report offset
        (.checksumMismatch offset s.checksum (Checksum.ofSection s.flag s.payload))))

/-- The form of most operations: the mismatch itself. -/
def bare (_ : UInt32) (e : BlockError) : BlockError := e

namespace Verified

variable {b : Bytes} {report : UInt32 → BlockError → BlockError}

/-- **What follows a verified step** is as verified as the step and itself. -/
theorem bind {r r' : Except BlockError α} {f f' : α → Except BlockError β}
    (h : Verified b report r r') (hf : ∀ a, Verified b report (f a) (f' a)) :
    Verified b report (r >>= f) (r' >>= f') := by
  cases h with
  | same =>
      cases r with
      | ok a => exact hf a
      | error e => exact .same
  | mismatch offset s hread hne => exact .mismatch offset s hread hne

/-- The same steps follow with and without verification. -/
theorem bind_same {r r' : Except BlockError α} (h : Verified b report r r')
    (f : α → Except BlockError β) : Verified b report (r >>= f) (r' >>= f) :=
  h.bind fun _ => .same

/-- A success under verification is the success without. -/
theorem eq_of_ok {r r' : Except BlockError α} {a : α} (h : Verified b report r r')
    (ha : r' = .ok a) : r = .ok a := by
  cases h with
  | same => exact ha
  | mismatch offset s hread hne => cases ha

end Verified

namespace Request

/-- The form in which a request names a mismatch: a look-up of label values names the section as
well. -/
def report : Request → UInt32 → BlockError → BlockError
  | .labelValues _ | .valueAt _ _ | .values _ => .within
  | _ => bare

/-- Whether answering a request reads a section. -/
def readsSection : Request → Bool
  | .stats | .labelValues _ | .valueAt _ _ | .values _ | .postings _ _ | .select _ _ _ _ => true
  | .labelIndices | .series _ _ _ | .chunk _ | .symbol _ | .symbolText _ => false

end Request

namespace Index

variable {listener listener' : Listener}

/-! ## Sections and maps -/

theorem result_readSection_false (listener : Listener) (b : Bytes) (offset : UInt32) :
    (readSection ⟨false, listener⟩ b offset).result = Section.read b offset := by
  rcases readSection_cases ⟨false, listener⟩ b offset with ⟨hr, hp⟩ | ⟨s, hr, ⟨-, hp⟩ | ⟨hv, -⟩⟩
  · rw [hp, hr]
  · rw [hp, hr]
  · cases hv

/-- Under verification a section is read the same, or its trailer is wrong. -/
theorem result_readSection_true (listener : Listener) (b : Bytes) (offset : UInt32) :
    (readSection ⟨true, listener⟩ b offset).result = Section.read b offset ∨
      ∃ s, Section.read b offset = .ok s ∧ s.checksum ≠ Checksum.ofSection s.flag s.payload ∧
        (readSection ⟨true, listener⟩ b offset).result = .error
          (.checksumMismatch offset s.checksum (Checksum.ofSection s.flag s.payload)) := by
  rcases readSection_cases ⟨true, listener⟩ b offset with
    ⟨hr, hp⟩ | ⟨s, hr, ⟨-, hp⟩ | ⟨-, hne, hp⟩⟩
  · left
    rw [hp, hr]
  · left
    rw [hp, hr]
  · right
    refine ⟨s, hr, Ne.symm hne, ?_⟩
    rw [hp]

theorem verified_readSection (listener listener' : Listener) (b : Bytes) (offset : UInt32) :
    Verified b bare (readSection ⟨false, listener'⟩ b offset).result
      (readSection ⟨true, listener⟩ b offset).result := by
  rw [result_readSection_false]
  rcases result_readSection_true listener b offset with h | ⟨s, hread, hne, h⟩
  · rw [h]
    exact .same
  · rw [h]
    exact .mismatch offset s hread hne

/-- A mismatch that is tied to its section names it twice. -/
theorem verified_readSection_within (listener listener' : Listener) (b : Bytes)
    (offset : UInt32) :
    Verified b .within
      ((readSection ⟨false, listener'⟩ b offset).mapError (.inSection offset)).result
      ((readSection ⟨true, listener⟩ b offset).mapError (.inSection offset)).result := by
  rw [Recorded.result_mapError, Recorded.result_mapError, result_readSection_false]
  rcases result_readSection_true listener b offset with h | ⟨s, hread, hne, h⟩
  · rw [h]
    exact .same
  · rw [h]
    exact .mismatch offset s hread hne

theorem verified_readMap (listener listener' : Listener) (b : Bytes) (offset : UInt32) :
    Verified b bare (readMap ⟨false, listener'⟩ b offset).result
      (readMap ⟨true, listener⟩ b offset).result := by
  rw [readMap, readMap, Recorded.result_bind, Recorded.result_bind]
  exact (verified_readSection listener listener' b offset).bind_same _

/-! ## Opening -/

/-- What an index was opened to: everything but the options it reads under. -/
def contents (i : Index) : Bytes × ChunkStore × OffsetMap × OffsetMap :=
  (i.buffer, i.chunks, i.labels, i.postingsMap)

theorem result_ofBytes_contents (options : ReaderOptions) (store : ChunkStore) (b : Bytes) :
    (ofBytes options store b).result.map contents = readEnds b >>= fun ends =>
      (readMap options b ends.1).result >>= fun labels =>
        (readMap options b ends.2).result >>= fun postings =>
          .ok (b, store, labels, postings) := by
  rw [result_ofBytes]
  cases readEnds b with
  | error e => rfl
  | ok ends =>
      show Except.map contents ((readMap options b ends.1).result >>= _) =
        ((readMap options b ends.1).result >>= _)
      cases (readMap options b ends.1).result with
      | error e => rfl
      | ok labels =>
          show Except.map contents ((readMap options b ends.2).result >>= _) =
            ((readMap options b ends.2).result >>= _)
          cases (readMap options b ends.2).result with
          | error e => rfl
          | ok postings => rfl

theorem verified_ofBytes (listener listener' : Listener) (store : ChunkStore) (b : Bytes) :
    Verified b bare ((ofBytes ⟨false, listener'⟩ store b).result.map contents)
      ((ofBytes ⟨true, listener⟩ store b).result.map contents) := by
  rw [result_ofBytes_contents, result_ofBytes_contents]
  -- the ends are the same, and the second map is read only if the first was
  refine Verified.same.bind fun ends => ?_
  refine (verified_readMap listener listener' b ends.1).bind fun labels => ?_
  exact (verified_readMap listener listener' b ends.2).bind_same _

/-! ## Requests -/

/-- The same opened index under other options. -/
def under (i : Index) (options : ReaderOptions) : Index :=
  { i with options }

variable (i : Index)

theorem verified_stats (listener listener' : Listener) :
    Verified i.buffer bare (i.under ⟨false, listener'⟩).stats.result
      (i.under ⟨true, listener⟩).stats.result := by
  rw [stats, stats, Recorded.result_countCorruption, Recorded.result_countCorruption,
    Recorded.result_bind, Recorded.result_bind]
  exact (verified_readSection listener listener' i.buffer BlockStats.offset).bind_same _

theorem verified_labelValues (listener listener' : Listener) (names : List String) :
    Verified i.buffer .within ((i.under ⟨false, listener'⟩).labelValues names).result
      ((i.under ⟨true, listener⟩).labelValues names).result := by
  rw [labelValues, labelValues, Recorded.result_countCorruption, Recorded.result_countCorruption]
  simp only [under]
  cases i.labels.get? (keyOf names) with
  | none => exact .same
  | some offset =>
      simp only [Recorded.result_bind]
      exact (verified_readSection_within listener listener' i.buffer offset).bind_same _

theorem verified_postings (listener listener' : Listener) (name value : String) :
    Verified i.buffer bare ((i.under ⟨false, listener'⟩).postings name value).result
      ((i.under ⟨true, listener⟩).postings name value).result := by
  rw [postings, postings, Recorded.result_countCorruption, Recorded.result_countCorruption]
  simp only [under]
  cases i.postingsMap.get? (keyOf [name, value]) with
  | none => exact .same
  | some offset =>
      simp only [Recorded.result_bind]
      exact (verified_readSection listener listener' i.buffer offset).bind_same _

/-- Decoding series reads no section. -/
theorem seriesAll_under (options : ReaderOptions) (mint maxt : Timestamp) (refs : List SeriesRef) :
    (i.under options).seriesAll mint maxt refs = i.seriesAll mint maxt refs := by
  induction refs with
  | nil => rfl
  | cons ref more ih =>
      rw [seriesAll, seriesAll, ih]
      rfl

theorem verified_select (listener listener' : Listener) (name value : String)
    (mint maxt : Timestamp) :
    Verified i.buffer bare ((i.under ⟨false, listener'⟩).select name value mint maxt).result
      ((i.under ⟨true, listener⟩).select name value mint maxt).result := by
  rw [select, select, Recorded.result_bind, Recorded.result_bind]
  -- the two differ in their postings only
  simp only [seriesAll_under]
  exact (verified_postings i listener listener' name value).bind_same _

/-- Two outcomes of a selection, each the failure of one of its look-ups, which fail differently. -/
def FailApart (mint maxt : Timestamp) (name value : String) (r r' : Except BlockError (List Series)) : Prop :=
  ∃ p, (i.postings name value).result = .ok p ∧ ∃ ref ∈ p.toList, ∃ ref' ∈ p.toList, ∃ e e',
    (i.series ref mint maxt).result = .error e ∧ (i.series ref' mint maxt).result = .error e' ∧ e ≠ e' ∧
      r = .error e ∧ r' = .error e'

/-- **However the look-ups are made**, a selection under verification is that without or a mismatch, unless the two
fail on different look-ups. -/
theorem verified_selectBy (listener listener' : Listener) (name value : String) (mint maxt : Timestamp)
    (c c' : Collector SeriesRef SeriesLookup) :
    Verified i.buffer bare ((i.under ⟨false, listener'⟩).selectBy mint maxt c' name value)
        ((i.under ⟨true, listener⟩).selectBy mint maxt c name value) ∨
      (i.under ⟨false, listener'⟩).FailApart mint maxt name value
        ((i.under ⟨true, listener⟩).selectBy mint maxt c name value)
        ((i.under ⟨false, listener'⟩).selectBy mint maxt c' name value) := by
  have hverified := verified_postings i listener listener' name value
  generalize hv : ((i.under ⟨true, listener⟩).postings name value).result = r at hverified
  cases hverified with
  | mismatch offset s hread hne =>
      rw [selectBy_of_postings_error hv]
      exact .inl (.mismatch offset s hread hne)
  | same =>
      cases hp : ((i.under ⟨false, listener'⟩).postings name value).result with
      | error e =>
          rw [hp] at hv
          rw [selectBy_of_postings_error hp, selectBy_of_postings_error hv]
          exact .inl .same
      | ok p =>
          rw [hp] at hv
          rw [selectBy_of_postings hp, selectBy_of_postings hv]
          -- the look-ups read no section, and both readers make the same
          show Verified i.buffer bare _ ((c.collect (i.outcome mint maxt) p.toList).map _) ∨ _
          rcases c.collect_eq_or_fail c' (i.outcome mint maxt) p.toList with
            hsame | ⟨ref, hmem, ref', hmem', e, e', hfails, hfails', hne, hc, hc'⟩
          · rw [hsame]
            exact .inl .same
          · exact .inr ⟨p, hp, ref, hmem, ref', hmem', e, e', hfails, hfails', hne,
              congrArg (Except.map _) hc, congrArg (Except.map _) hc'⟩

/-- What answers a request under verification. -/
theorem verified_answer (listener listener' : Listener) (request : Request) :
    Verified i.buffer request.report ((i.under ⟨false, listener'⟩).answer request).result
      ((i.under ⟨true, listener⟩).answer request).result := by
  cases request with
  | stats =>
      simp only [answer, Recorded.result_bind]
      exact (verified_stats i listener listener').bind_same _
  | labelIndices => exact .same
  | labelValues names =>
      simp only [answer, Recorded.result_bind]
      exact (verified_labelValues i listener listener' names).bind_same _
  | valueAt names k =>
      simp only [answer, Recorded.result_bind]
      exact (verified_labelValues i listener listener' names).bind_same _
  | values names =>
      simp only [answer, Recorded.result_bind]
      exact (verified_labelValues i listener listener' names).bind_same _
  | postings name value =>
      simp only [answer, Recorded.result_bind]
      exact (verified_postings i listener listener' name value).bind_same _
  | series ref mint maxt => exact .same
  | select name value mint maxt =>
      simp only [answer, Recorded.result_bind]
      exact (verified_select i listener listener' name value mint maxt).bind_same _
  | chunk ref => exact .same
  | symbol offset => exact .same
  | symbolText offset => exact .same

/-- A request that reads no section is answered alike under all options, with the same journal. -/
theorem answer_under {request : Request} (h : request.readsSection = false)
    (options : ReaderOptions) : (i.under options).answer request = i.answer request := by
  cases request with
  | labelIndices => rfl
  | series ref mint maxt => rfl
  | chunk ref => rfl
  | symbol offset => rfl
  | symbolText offset => rfl
  | stats => cases h
  | labelValues names => cases h
  | valueAt names k => cases h
  | values names => cases h
  | postings name value => cases h
  | select name value mint maxt => cases h

/-! ## Both readers -/

/-- Readers of the same contents differ in their options only. -/
theorem eq_under_of_contents {i j : Index} (h : i.contents = j.contents) :
    i = j.under i.options := by
  obtain ⟨buffer, chunks, labels, postingsMap, options⟩ := i
  obtain ⟨buffer', chunks', labels', postingsMap', options'⟩ := j
  simp only [contents, Prod.mk.injEq] at h
  obtain ⟨rfl, rfl, rfl, rfl⟩ := h
  rfl

/-- What two readers are that are opened over one buffer, with and without verification: one index under two
options. -/
theorem exists_under_of_opened {listener listener' : Listener} {store : ChunkStore} {b : Bytes}
    {verifying plain : Index} (hv : (ofBytes ⟨true, listener⟩ store b).result = .ok verifying)
    (hp : (ofBytes ⟨false, listener'⟩ store b).result = .ok plain) :
    ∃ i : Index, i.buffer = b ∧ verifying = i.under ⟨true, listener⟩ ∧
      plain = i.under ⟨false, listener'⟩ := by
  have hopen := verified_ofBytes listener listener' store b
  rw [hv, hp] at hopen
  have hcontents : plain.contents = verifying.contents := Except.ok.inj (hopen.eq_of_ok rfl)
  obtain ⟨hbuffer, -, hoptions⟩ := of_result_ofBytes hv
  obtain ⟨-, -, hoptions'⟩ := of_result_ofBytes hp
  refine ⟨verifying, hbuffer, ?_, ?_⟩
  · rw [← hoptions]
    rfl
  · rw [← hoptions']
    exact eq_under_of_contents hcontents

/-- **Verification only adds mismatches.** Opening gives the same contents or the same error, or a mismatch. Where
both readers open, each with the keys of its maps in an order of its own, each request but a selection or a listing of
label indices is answered the same, or by the mismatch of a section of the buffer; if it reads no section it is
answered the same in every case, and so are reads of tuples that both readers gave. A selection is answered so on one
thread, and on any threads unless the two fail on different look-ups. Label indices are listed the same unless the two
report keys that are broken differently, each the first in its own order. -/
theorem verification_only_adds_mismatches (listener listener' : Listener) (store : ChunkStore)
    (b : Bytes) :
    Verified b bare ((ofBytes ⟨false, listener'⟩ store b).result.map contents)
        ((ofBytes ⟨true, listener⟩ store b).result.map contents) ∧
      ∀ verifying plain, (ofBytes ⟨true, listener⟩ store b).result = .ok verifying →
        (ofBytes ⟨false, listener'⟩ store b).result = .ok plain →
        ∀ v p, verifying.Rekeyed v → plain.Rekeyed p →
        (∀ request, request ≠ .labelIndices →
          Verified b request.report (p.answer request).result (v.answer request).result) ∧
        (∀ request, request ≠ .labelIndices → request.readsSection = false →
          v.answer request = p.answer request) ∧
        (∀ name value mint maxt c c',
          Verified b bare (p.selectBy mint maxt c' name value) (v.selectBy mint maxt c name value) ∨
            p.FailApart mint maxt name value (v.selectBy mint maxt c name value)
              (p.selectBy mint maxt c' name value)) ∧
        (v.labelIndices = p.labelIndices ∨
          ∃ fault fault', FirstBroken v.labels.keys fault ∧ FirstBroken p.labels.keys fault' ∧
            fault.message ≠ fault'.message ∧ v.labelIndices = ⟨.error (.invalidUtf8 fault.message), []⟩ ∧
            p.labelIndices = ⟨.error (.invalidUtf8 fault'.message), []⟩) ∧
        ∀ names t t', (v.labelValues names).result = .ok t → (p.labelValues names).result = .ok t' →
          t.arity = t'.arity ∧ t.length = t'.length ∧ (∀ k, t.at? k = t'.at? k) ∧
            t.toList = t'.toList := by
  refine ⟨verified_ofBytes listener listener' store b, ?_⟩
  intro verifying plain hv hp v p hrekeyed hrekeyed'
  obtain ⟨i, rfl, rfl, rfl⟩ := exists_under_of_opened hv hp
  refine ⟨?_, ?_, ?_, ?_, ?_⟩
  · intro request hne
    rw [hrekeyed.answer hne, hrekeyed'.answer hne]
    exact verified_answer i listener listener' request
  · intro request hne hr
    rw [hrekeyed.answer hne, hrekeyed'.answer hne, answer_under i hr, answer_under i hr]
  · intro name value mint maxt c c'
    rw [hrekeyed.selectBy, hrekeyed'.selectBy, FailApart, hrekeyed'.postings]
    simp only [hrekeyed'.series]
    exact verified_selectBy i listener listener' name value mint maxt c c'
  -- the keys of the two are those of one index
  · have hkeys : v.labels.keys.Perm p.labels.keys :=
      (hrekeyed.labels_perm.trans hrekeyed'.labels_perm.symm).map Prod.fst
    exact (labelIndices_eq_or_broken hkeys).imp_left Eq.symm
  · intro names t t' ht ht'
    rw [hrekeyed.labelValues] at ht
    rw [hrekeyed'.labelValues, (verified_labelValues i listener listener' names).eq_of_ok ht] at ht'
    cases ht'
    exact ⟨rfl, rfl, fun _ => rfl, rfl⟩

/-- An index whose figures are stored with a trailer of zero, and whose two maps are one section
without entries. -/
def withWrongTrailer : Bytes :=
  ofWord32 magic ++ ([0, 0, 0, 0] ++ 1 :: 0 :: 0 :: 0 :: 64 :: List.replicate 68 0 ++
    (Section.write Section.standardFlag [] ++ (ofWord32 81 ++ (ofWord32 81 ++ []))))

theorem ofBytes_withWrongTrailer (options : ReaderOptions) (store : ChunkStore) :
    (ofBytes options store withWrongTrailer).result =
      .ok ⟨withWrongTrailer, store, .empty, .empty, options⟩ := by
  have hends : readEnds withWrongTrailer = .ok (81, 81) := by rfl
  have hmap : (readMap options withWrongTrailer 81).result = .ok .empty := by
    rw [readMap, Recorded.result_bind, withWrongTrailer, ← List.append_assoc,
      readSection_write options (by decide) (by decide)]
    show (OffsetMap.readEntries []).map OffsetMap.ofList = _
    rw [OffsetMap.readEntries_nil]
    rfl
  rw [result_ofBytes, hends]
  show ((readMap options withWrongTrailer 81).result >>= _) = _
  rw [hmap]
  rfl

/-- A reader that verifies does not give its figures. -/
theorem stats_withWrongTrailer (listener : Listener) (store : ChunkStore) :
    (stats ⟨withWrongTrailer, store, .empty, .empty, ⟨true, listener⟩⟩).result =
      .error (.checksumMismatch 8 0 4200698175) := by
  have hread : Section.read withWrongTrailer 8 = .ok ⟨8, 1, List.replicate 64 0, 0⟩ := by rfl
  have hsum : Checksum.ofSection 1 (List.replicate 64 0) = 4200698175 := by decide +kernel
  rw [stats, Recorded.result_countCorruption, Recorded.result_bind, sectionAt, readSection]
  simp only [BlockStats.offset, hread, if_true, Section.verify, hsum]
  rfl

/-- Both readers open it, and only the one that does not verify gives its figures. -/
theorem verification_only_adds_mismatches_withWrongTrailer :
    ∃ verifying plain : Index,
      (ofBytes ⟨true, .none⟩ ⟨[]⟩ withWrongTrailer).result = .ok verifying ∧
      (ofBytes ⟨false, .none⟩ ⟨[]⟩ withWrongTrailer).result = .ok plain ∧
      (∀ request, request ≠ .labelIndices →
        Verified withWrongTrailer request.report (plain.answer request).result (verifying.answer request).result) ∧
      plain.stats.result = .ok ⟨0, 0, 0, 0, 0⟩ ∧
      verifying.stats.result = .error (.checksumMismatch 8 0 4200698175) := by
  have hv := ofBytes_withWrongTrailer ⟨true, .none⟩ ⟨[]⟩
  have hp := ofBytes_withWrongTrailer ⟨false, .none⟩ ⟨[]⟩
  have hplain : (stats ⟨withWrongTrailer, ⟨[]⟩, .empty, .empty, ⟨false, .none⟩⟩).result =
      .ok ⟨0, 0, 0, 0, 0⟩ := by cbv
  obtain ⟨-, h⟩ := verification_only_adds_mismatches .none .none ⟨[]⟩ withWrongTrailer
  obtain ⟨hanswers, -⟩ := h _ _ hv hp _ _ (.refl _) (.refl _)
  exact ⟨_, _, hv, hp, hanswers, hplain, stats_withWrongTrailer .none ⟨[]⟩⟩

/-- Two readers of one buffer, with and without verification, that list its label indices by different errors, and
two ways to make the look-ups of a selection that fail differently. None of the errors is a mismatch. -/
theorem verified_answers_meet_chance :
    ∃ verifying plain v p : Index,
      (ofBytes ⟨true, .none⟩ ⟨[]⟩ withTwoFaults).result = .ok verifying ∧
      (ofBytes ⟨false, .none⟩ ⟨[]⟩ withTwoFaults).result = .ok plain ∧
      verifying.Rekeyed v ∧ plain.Rekeyed p ∧
      v.labelIndices.result = .error (.invalidUtf8 "invalid utf-8 sequence of 1 bytes from index 1") ∧
      p.labelIndices.result = .error (.invalidUtf8 "invalid utf-8 sequence of 1 bytes from index 0") ∧
      ∃ c c', v.selectBy 0 9 c "a" "b" = .error .invalidLength ∧
        p.selectBy 0 9 c' "a" "b" = .error .invalidSize := by
  have hcollected (options : ReaderOptions) (labels : List (Bytes × UInt32)) {e : BlockError}
      (h : ∃ ref ∈ [1000, 4], (twoFaults options ⟨[]⟩ labels).outcome 0 9 ref = .error e) :
      (twoFaults options ⟨[]⟩ labels).selectBy 0 9 (.preferring (.error e)) "a" "b" = .error e := by
    rw [selectBy_of_postings (postings_twoFaults options ⟨[]⟩ labels)]
    exact congrArg (Except.map _) (Collector.collect_preferring (collects_error_iff.2 h))
  have hreported := labelIndices_twoFaults
  refine ⟨_, _, twoFaults ⟨true, .none⟩ ⟨[]⟩ brokenKeys.reverse, twoFaults ⟨false, .none⟩ ⟨[]⟩ brokenKeys,
    ofBytes_withTwoFaults _ _, ofBytes_withTwoFaults _ _, rekeyed_twoFaults _ _, .refl _,
    congrArg _ (hreported _ _).2, congrArg _ (hreported _ _).1, .preferring (.error .invalidLength),
    .preferring (.error .invalidSize), hcollected _ _ ⟨4, by decide, (series_twoFaults _ _ _).2⟩,
    hcollected _ _ ⟨1000, by decide, (series_twoFaults _ _ _).1⟩⟩

end Index

end SeriesBlock
