import SeriesBlock.Proofs.Nesting
import SeriesBlock.Proofs.Trace

/-!
# Classes of errors

Into which class the failures of every operation fall (`Classified`). Most are plain: they mean that the
block is corrupt and are not tied to a section (`BlockError.IsPlain`). What is wrong with the contents of a
section, with the record of a series or with a buffer that is opened is plain, and so is what keeps a section
from being read (`Index.SectionFault`).

The two other kinds come from look-ups. A key that is not in its map is missed, by whatever looks it up, and
the section of label values is named in the error if it cannot be read (`Index.classified_labelValues`). The
main statement is `Index.errors_are_classified`.
-/

set_option autoImplicit false

namespace SeriesBlock

variable {α : Type}

/-- A look-up misses: there is nothing under its key. -/
def IsMissing (r : Except BlockError α) : Prop :=
  ∃ e, r = .error e ∧ e.isNotFound = true

/-! ## Plain errors -/

namespace BlockError

/-- An error that means that the block is corrupt and is not tied to a section. -/
structure IsPlain (e : BlockError) : Prop where
  isCorruption : e.isCorruption = true
  ne_within : ∀ offset source, e ≠ .within offset source

/-- A plain error is no miss. -/
theorem IsPlain.isNotFound {e : BlockError} (h : e.IsPlain) : e.isNotFound = false := by
  have hclasses := not_isCorruption_and_isNotFound e
  rwa [h.isCorruption, Bool.true_and] at hclasses

end BlockError

theorem ContentFault.isPlain {e : BlockError} (h : ContentFault e) : e.IsPlain := by
  refine ⟨h.isCorruption, ?_⟩
  cases h with
  | flag f => exact nofun
  | size => exact nofun

theorem RecordFault.isPlain {e : BlockError} (h : RecordFault e) : e.IsPlain := by
  refine ⟨h.isCorruption, ?_⟩
  cases h with
  | size => exact nofun
  | length => exact nofun
  | text t => exact nofun

theorem ChunkStore.isPlain_of_ofBytes {b : Bytes} {e : BlockError} (h : ofBytes b = .error e) :
    e.IsPlain := by
  rcases except_bind_eq_error.1 h with hword | ⟨found, -, hmagic⟩
  · rw [Bytes.eq_invalidSize_of_word32At hword]
    exact ⟨rfl, nofun⟩
  · split at hmagic
    · cases hmagic
    · cases hmagic
      exact ⟨rfl, nofun⟩

namespace Index

theorem Refused.isPlain {options : ReaderOptions} {b : Bytes} {e : BlockError}
    (h : Refused options b e) : e.IsPlain :=
  ⟨h.isCorruption, h.ne_within⟩

/-- What keeps the section at an offset from being read: no frame ends in the buffer, or the trailer is
verified and is not the checksum of the contents. -/
inductive SectionFault (options : ReaderOptions) (b : Bytes) (offset : UInt32) : BlockError → Prop where
  | frame : ¬ Section.Fits b offset → SectionFault options b offset .invalidSize
  | checksum {s : Section} : s.offset = offset → Section.At b s → options.verifyChecksums = true →
      Checksum.ofSection s.flag s.payload ≠ s.checksum →
      SectionFault options b offset
        (.checksumMismatch offset s.checksum (Checksum.ofSection s.flag s.payload))

section SectionFault

variable {options : ReaderOptions} {b : Bytes} {offset : UInt32} {e : BlockError}

theorem SectionFault.isPlain (h : SectionFault options b offset e) : e.IsPlain := by
  cases h with
  | frame hfits => exact ⟨rfl, nofun⟩
  | checksum hoffset hat hverify hne => exact ⟨rfl, nofun⟩

theorem readSection_fails_iff :
    (readSection options b offset).result = .error e ↔ SectionFault options b offset e := by
  rw [result_readSection_eq_error_iff]
  constructor
  · rintro (⟨hfits, rfl⟩ | ⟨s, hoffset, hat, hverify, hne, rfl⟩)
    · exact .frame hfits
    · exact .checksum hoffset hat hverify hne
  · intro h
    cases h with
    | frame hfits => exact Or.inl ⟨hfits, rfl⟩
    | @checksum s hoffset hat hverify hne => exact Or.inr ⟨s, hoffset, hat, hverify, hne, rfl⟩

/-- A plain error is tied to the section it arose in. -/
theorem inSection_of_isPlain (h : e.IsPlain) : e.inSection offset = .within offset e := by
  cases e with
  | within o source => exact absurd rfl (h.ne_within o source)
  | _ => rfl

/-- **A section that cannot be read is named in the error.** -/
theorem readSection_inSection_fails_iff :
    ((readSection options b offset).mapError (.inSection offset)).result = .error e ↔
      ∃ source, SectionFault options b offset source ∧ e = .within offset source := by
  rw [Recorded.result_mapError]
  cases hr : (readSection options b offset).result with
  | ok s =>
      constructor
      · nofun
      · rintro ⟨source, hfault, -⟩
        rw [readSection_fails_iff.2 hfault] at hr
        cases hr
  | error source =>
      have hfault := readSection_fails_iff.1 hr
      rw [Except.mapError, inSection_of_isPlain hfault.isPlain, Except.error.injEq]
      constructor
      · rintro rfl
        exact ⟨source, hfault, rfl⟩
      · rintro ⟨source', hfault', rfl⟩
        rw [readSection_fails_iff.2 hfault', Except.error.injEq] at hr
        rw [hr]

end SectionFault

end Index

/-! ## Classified failures -/

/-- How an operation fails. Every error is of exactly one class; the look-up misses exactly if its map
lacks the key; and an error is tied to a section exactly if that section is `unread`, for the reason in the
error. -/
structure Classified (lacksKey : Prop) (unread : UInt32 → BlockError → Prop)
    (r : Except BlockError α) : Prop where
  one_class : ∀ e, r = .error e → e.isNotFound = !e.isCorruption
  missing_iff : IsMissing r ↔ lacksKey
  tied_iff : ∀ offset source, r = .error (.within offset source) ↔ unread offset source

namespace Classified

variable {lacksKey : Prop} {unread : UInt32 → BlockError → Prop} {r : Except BlockError α}

/-- A key that is not there is missed, whatever else may fail. -/
theorem of_missing (text : String) (hkey : lacksKey) (hread : ∀ offset source, ¬ unread offset source) :
    Classified lacksKey unread (.error (.notFound text) : Except BlockError α) where
  one_class := by
    rintro e ⟨⟩
    rfl
  missing_iff := iff_of_true ⟨_, rfl, rfl⟩ hkey
  tied_iff offset source := iff_of_false nofun (hread offset source)

/-- What has its key fails plainly, or on a section that it names. -/
theorem of_fails (contents : BlockError → Prop) (hkey : ¬ lacksKey)
    (h : ∀ e, r = .error e ↔
      contents e ∨ ∃ offset source, unread offset source ∧ e = .within offset source)
    (hcontents : ∀ e, contents e → e.IsPlain)
    (hunread : ∀ offset source, unread offset source → source.IsPlain) :
    Classified lacksKey unread r where
  one_class e he := by
    rcases (h e).1 he with hplain | ⟨offset, source, hread, rfl⟩
    · have hplain := hcontents e hplain
      rw [hplain.isNotFound, hplain.isCorruption]
      rfl
    -- an error in a section is of the class of its cause
    · rw [BlockError.isCorruption, (hunread offset source hread).isCorruption]
      rfl
  missing_iff := by
    apply iff_of_false _ hkey
    rintro ⟨e, he, hmissing⟩
    rcases (h e).1 he with hplain | ⟨offset, source, -, rfl⟩
    · rw [(hcontents e hplain).isNotFound] at hmissing
      cases hmissing
    · cases hmissing
  tied_iff offset source := by
    rw [h]
    constructor
    · rintro (hplain | ⟨offset', source', hread, he⟩)
      · exact absurd rfl ((hcontents _ hplain).ne_within offset source)
      · cases he
        exact hread
    · intro hread
      exact Or.inr ⟨offset, source, hread, rfl⟩

/-- What has its key and fails plainly neither misses nor names a section. -/
theorem of_isPlain (hkey : ¬ lacksKey) (h : ∀ e, r = .error e → e.IsPlain) :
    Classified lacksKey (fun _ _ => False) r :=
  of_fails (fun e => r = .error e) hkey (fun e => by simp) h (fun _ _ => False.elim)

/-- A failure that is passed on is classified as it was. -/
theorem passed_on {β : Type} {e : BlockError}
    (h : Classified lacksKey unread (.error e : Except BlockError α)) :
    Classified lacksKey unread (.error e : Except BlockError β) where
  one_class := by
    rintro _ ⟨⟩
    exact h.one_class e rfl
  missing_iff := by
    rw [← h.missing_iff, IsMissing, IsMissing]
    simp
  tied_iff offset source := by
    rw [← h.tied_iff offset source]
    simp

/-- An operation that looks nothing up and fails plainly. -/
theorem of_plain (h : ∀ e, r = .error e → e.IsPlain) : Classified False (fun _ _ => False) r :=
  of_isPlain id h

end Classified

/-! ## Operations -/

namespace Index

variable (i : Index)

theorem classified_ofBytes (options : ReaderOptions) (store : ChunkStore) (b : Bytes) :
    Classified False (fun _ _ => False) (ofBytes options store b).result := by
  apply Classified.of_plain
  intro e he
  exact (result_ofBytes_eq_error_iff.1 he).isPlain

/-- What reads a section and then its payload fails plainly. -/
theorem isPlain_of_contents {f : Bytes → Except BlockError α}
    (hf : ∀ payload e, f payload = .error e → e = .invalidSize) {offset : UInt32} {e : BlockError}
    (h : ((i.sectionAt offset).result >>= fun s => s.standardPayload >>= f) = .error e) :
    e.IsPlain := by
  rcases except_bind_eq_error.1 h with hread | ⟨s, -, hcontents⟩
  · exact (readSection_fails_iff.1 hread).isPlain
  · exact (contentFault_of_standardPayload hf hcontents).isPlain

theorem classified_stats : Classified False (fun _ _ => False) i.stats.result := by
  apply Classified.of_plain
  intro e he
  rw [stats, Recorded.result_countCorruption, Recorded.result_bind] at he
  exact isPlain_of_contents i (fun _ _ h => BlockStats.eq_invalidSize_of_ofPayload h) he

theorem classified_series (ref : SeriesRef) (mint maxt : Timestamp) :
    Classified False (fun _ _ => False) (i.series ref mint maxt).result := by
  apply Classified.of_plain
  intro e he
  exact (recordFault_of_series he).isPlain

/-- **A look-up of label values misses if its key is not there, and names a section that cannot be
read.** Whatever else it fails with is plain. -/
theorem classified_labelValues (names : List String) :
    Classified (i.labels.get? (keyOf names) = none)
      (fun offset source => i.labels.get? (keyOf names) = some offset ∧
        SectionFault i.options i.buffer offset source)
      (i.labelValues names).result := by
  rw [labelValues, Recorded.result_countCorruption]
  cases i.labels.get? (keyOf names) with
  | none =>
      apply Classified.of_missing _ rfl
      rintro offset source ⟨⟨⟩, -⟩
  | some offset =>
      rw [Recorded.result_bind]
      apply Classified.of_fails fun e => ∃ s,
        ((i.sectionAt offset).mapError (.inSection offset)).result = .ok s ∧
          (s.standardPayload >>= tuplesOf i.buffer) = .error e
      · rintro ⟨⟩
      · intro e
        rw [except_bind_eq_error, or_comm, sectionAt, readSection_inSection_fails_iff]
        apply or_congr Iff.rfl
        constructor
        · rintro ⟨source, hfault, rfl⟩
          exact ⟨offset, source, ⟨rfl, hfault⟩, rfl⟩
        · rintro ⟨_, source, ⟨⟨⟩, hfault⟩, rfl⟩
          exact ⟨source, hfault, rfl⟩
      · rintro e ⟨s, -, he⟩
        exact (contentFault_of_standardPayload (fun _ _ h => eq_invalidSize_of_tuplesOf h) he).isPlain
      · rintro _ source ⟨-, hfault⟩
        exact hfault.isPlain

theorem classified_postings (name value : String) :
    Classified (i.postingsMap.get? (keyOf [name, value]) = none) (fun _ _ => False)
      (i.postings name value).result := by
  rw [postings, Recorded.result_countCorruption]
  cases i.postingsMap.get? (keyOf [name, value]) with
  | none => exact .of_missing _ rfl (fun _ _ => id)
  | some offset =>
      apply Classified.of_isPlain
      · rintro ⟨⟩
      · intro e he
        rw [Recorded.result_bind] at he
        rcases except_bind_eq_error.1 he with hread | ⟨s, -, he⟩
        · exact (readSection_fails_iff.1 hread).isPlain
        · rw [Recorded.result_bind] at he
          rcases except_bind_eq_error.1 he with hcontents | ⟨refs, -, hnote⟩
          · exact (contentFault_of_standardPayload (fun _ _ h => eq_invalidSize_of_refsOf h)
              hcontents).isPlain
          · cases hnote

/-- In whatever order the references of a selection are decoded, it misses exactly as its postings do. -/
theorem classified_selectBy (mint maxt : Timestamp) (c : Collector SeriesRef SeriesLookup)
    (name value : String) :
    Classified (i.postingsMap.get? (keyOf [name, value]) = none) (fun _ _ => False)
      (i.selectBy mint maxt c name value) := by
  have hpostings := classified_postings i name value
  cases hp : (i.postings name value).result with
  | error e =>
      rw [hp] at hpostings
      rw [selectBy_of_postings_error hp]
      exact hpostings.passed_on
  | ok p =>
      apply Classified.of_isPlain
      -- postings that were found were not missed
      · intro hkey
        obtain ⟨e, he, -⟩ := hpostings.missing_iff.2 hkey
        rw [hp] at he
        cases he
      · intro e he
        obtain ⟨ref, -, hfails⟩ := exists_of_selectBy_error hp he
        exact (recordFault_of_series hfails).isPlain

/-- **Errors are classified.** Every error of opening an index, of the figures, label values and postings of
a block, and of the look-up or selection of series is of exactly one class. A look-up of label values, of
postings or of a selection misses exactly if its key is not in the map of the index, and nothing else
misses. Only label values fail in a section: exactly if the section that their key leads to is not framed or
has a wrong trailer under verification, and its error is then tied to that section, once. -/
theorem errors_are_classified :
    (∀ options store b, Classified False (fun _ _ => False) (ofBytes options store b).result) ∧
    (∀ i : Index,
      Classified False (fun _ _ => False) i.stats.result ∧
      (∀ names, Classified (i.labels.get? (keyOf names) = none)
        (fun offset source => i.labels.get? (keyOf names) = some offset ∧
          SectionFault i.options i.buffer offset source)
        (i.labelValues names).result) ∧
      (∀ name value, Classified (i.postingsMap.get? (keyOf [name, value]) = none) (fun _ _ => False)
        (i.postings name value).result) ∧
      (∀ ref mint maxt, Classified False (fun _ _ => False) (i.series ref mint maxt).result) ∧
      ∀ name value mint maxt,
        Classified (i.postingsMap.get? (keyOf [name, value]) = none) (fun _ _ => False)
          (i.select name value mint maxt).result ∧
        ∀ c, Classified (i.postingsMap.get? (keyOf [name, value]) = none) (fun _ _ => False)
          (i.selectBy mint maxt c name value)) ∧
    ∀ options b offset source, SectionFault options b offset source →
      ∀ offset' source', source ≠ .within offset' source' := by
  refine ⟨classified_ofBytes, ?_, fun _ _ _ _ h => h.isPlain.ne_within⟩
  intro i
  refine ⟨i.classified_stats, i.classified_labelValues, i.classified_postings, i.classified_series, ?_⟩
  intro name value mint maxt
  refine ⟨?_, fun c => i.classified_selectBy mint maxt c name value⟩
  rw [result_select]
  exact i.classified_selectBy mint maxt _ name value

/-- An index in which the values of one name are in a section with a wrong trailer, and those of another lead
past the end. -/
def ofUnreadValues : Index :=
  { Operation.ofWrongSum with labels := .ofList [(keyOf ["a"], 4), (keyOf ["b"], 200)] }

/-- Each of the two names its section in the error, a third name is missed. -/
theorem errors_are_classified_ofUnreadValues :
    (ofUnreadValues.labelValues ["a"]).result =
        .error (.within 4 (.checksumMismatch 4 9 4215463597)) ∧
      SectionFault ⟨true, .recorder⟩ ofUnreadValues.buffer 4 (.checksumMismatch 4 9 4215463597) ∧
      (ofUnreadValues.labelValues ["b"]).result = .error (.within 200 .invalidSize) ∧
      (∀ offset source, .invalidSize ≠ BlockError.within offset source) ∧
      IsMissing (ofUnreadValues.labelValues ["c"]).result := by
  obtain ⟨-, hclassified, hplain⟩ := errors_are_classified
  obtain ⟨-, hvalues, -⟩ := hclassified ofUnreadValues
  have hsum : SectionFault ⟨true, .recorder⟩ ofUnreadValues.buffer 4
      (.checksumMismatch 4 9 4215463597) :=
    readSection_fails_iff.1 (by decide +kernel)
  have hframe : SectionFault ⟨true, .recorder⟩ ofUnreadValues.buffer 200 .invalidSize :=
    readSection_fails_iff.1 (by decide +kernel)
  exact ⟨((hvalues ["a"]).tied_iff 4 _).2 ⟨by decide +kernel, hsum⟩, hsum,
    ((hvalues ["b"]).tied_iff 200 _).2 ⟨by decide +kernel, hframe⟩, hplain _ _ _ _ hframe,
    (hvalues ["c"]).missing_iff.2 (by decide +kernel)⟩

end Index

end SeriesBlock
