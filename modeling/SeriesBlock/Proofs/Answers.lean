import SeriesBlock.Proofs.KeyOrder
import SeriesBlock.Proofs.Pool
import SeriesBlock.Proofs.Written

/-!
# Answers that are left to chance

Two things are left to chance in a reader that is opened: the order in which it visits the keys of its maps, which is
its own (`Index.Rekeyed`), and the order in which a pool of threads makes the look-ups of a selection
(`Index.Selects`). `Index.Answers` says what a request may be answered.

A map leads its keys to the same offsets in every order, so the order of the keys is met by the listing of label
indices alone (`Rekeyed.answer`), and that of the look-ups by selections alone (`Answers.eq_answer`). Any two answers
to one request, of readers that differ in nothing but their keys' order, are alike (`Rekeyed.alike`): the results,
what is heard and what is counted are the same, or a listing meets keys that are broken differently, or a selection
fails on look-ups (`Index.Alike`).
-/

set_option autoImplicit false

namespace SeriesBlock

/-- Whether a request is a selection. -/
def Request.isSelection : Request → Bool
  | .select _ _ _ _ => true
  | _ => false

namespace Index

/-! ## Readers with their keys in another order -/

/-- The same index with the keys of its maps in another order. -/
inductive Rekeyed (i : Index) : Index → Prop where
  | maps {labels postingsMap : OffsetMap} : labels.entries.Perm i.labels.entries →
      postingsMap.entries.Perm i.postingsMap.entries → Rekeyed i { i with labels, postingsMap }

section Rekeyed

variable {i j j' : Index} {mint maxt : Timestamp} {name value : String}

theorem Rekeyed.refl (i : Index) : i.Rekeyed i :=
  .maps (.refl _) (.refl _)

theorem Rekeyed.labels_perm (h : i.Rekeyed j) : j.labels.entries.Perm i.labels.entries := by
  cases h with
  | maps hlabels _ => exact hlabels

/-- Two readers have the keys that either has. -/
theorem Rekeyed.keys_perm (h : i.Rekeyed j) (h' : i.Rekeyed j') : j.labels.keys.Perm j'.labels.keys :=
  (h.labels_perm.trans h'.labels_perm.symm).map Prod.fst

theorem Rekeyed.series (h : i.Rekeyed j) (ref : SeriesRef) (mint maxt : Timestamp) :
    j.series ref mint maxt = i.series ref mint maxt := by
  cases h
  rfl

/-- **Keys lead where they did.** -/
theorem Rekeyed.labelValues (h : i.Rekeyed j) (names : List String) : j.labelValues names = i.labelValues names := by
  cases h with
  | maps hlabels _ =>
      rw [Index.labelValues, OffsetMap.get?_of_perm hlabels]
      rfl

theorem Rekeyed.postings (h : i.Rekeyed j) (name value : String) : j.postings name value = i.postings name value := by
  cases h with
  | maps _ hpostings =>
      rw [Index.postings, OffsetMap.get?_of_perm hpostings]
      rfl

theorem Rekeyed.outcome (h : i.Rekeyed j) (mint maxt : Timestamp) : j.outcome mint maxt = i.outcome mint maxt := by
  funext ref
  rw [Index.outcome, h.series]
  rfl

theorem Rekeyed.selectBy (h : i.Rekeyed j) (c : Collector SeriesRef SeriesLookup) :
    j.selectBy mint maxt c name value = i.selectBy mint maxt c name value := by
  rw [Index.selectBy, h.postings, h.outcome]
  rfl

theorem Rekeyed.select (h : i.Rekeyed j) : j.select name value mint maxt = i.select name value mint maxt := by
  have hall (refs : List SeriesRef) : j.seriesAll mint maxt refs = i.seriesAll mint maxt refs := by
    induction refs with
    | nil => rfl
    | cons ref refs ih => rw [seriesAll, seriesAll, h.series, ih]
  rw [Index.select, Index.select, h.postings]
  simp only [hall]

theorem Rekeyed.lookUpJournal (h : i.Rekeyed j) (done : List SeriesRef) :
    j.lookUpJournal mint maxt name value done = i.lookUpJournal mint maxt name value done := by
  rw [Index.lookUpJournal, Index.lookUpJournal, h.postings]
  simp only [h.series]

/-- So selections may come to the same. -/
theorem Rekeyed.selects {r : Recorded (List Series)} (h : i.Rekeyed j) (hr : j.Selects mint maxt name value r) :
    i.Selects mint maxt name value r := by
  cases hr with
  | missed hp =>
      rw [h.postings] at hp ⊢
      exact .missed hp
  | lookedUp hp hrounds hends =>
      rw [h.postings] at hp
      rw [h.outcome] at hrounds
      rw [h.lookUpJournal]
      exact .lookedUp hp hrounds hends

/-- **The order of the keys is met by the listing of label indices alone.** -/
theorem Rekeyed.answer (h : i.Rekeyed j) {request : Request} (hne : request ≠ .labelIndices) :
    j.answer request = i.answer request := by
  cases request with
  | labelIndices => exact absurd rfl hne
  | labelValues names => rw [Index.answer, Index.answer, h.labelValues]
  | valueAt names k => rw [Index.answer, Index.answer, h.labelValues]
  | values names => rw [Index.answer, Index.answer, h.labelValues]
  | postings name value => rw [Index.answer, Index.answer, h.postings]
  | select name value mint maxt => rw [Index.answer, Index.answer, h.select]
  -- the others look at no map
  | _ =>
      cases h
      rfl

end Rekeyed

/-! ## Answers -/

/-- What a request may be answered: what one thread answers, and to a selection also what a pool may. -/
inductive Answers (i : Index) : Request → Recorded Reply → Prop where
  | alone (request : Request) : Answers i request (i.answer request)
  | pool {mint maxt : Timestamp} {name value : String} {r : Recorded (List Series)} :
      i.Selects mint maxt name value r → Answers i (.select name value mint maxt) (do pure (.select (← r)))

/-- Two answers to one request, told apart by what they owe to chance. -/
inductive Alike (i : Index) : Request → Recorded Reply → Recorded Reply → Prop where
  /-- The result is the same, and so is what is heard and counted. -/
  | same {request : Request} {r r' : Recorded Reply} : r.result = r'.result →
      r.journal.events = r'.journal.events → (∀ c, r.journal.count c = r'.journal.count c) →
      Alike i request r r'
  /-- A listing meets keys that are broken differently: each order reports one of them. -/
  | broken {key key' : Bytes} {fault fault' : Utf8.Fault} : key ∈ i.labels.keys → key' ∈ i.labels.keys →
      BrokenBy key fault → BrokenBy key' fault' → fault.message ≠ fault'.message →
      Alike i .labelIndices ⟨.error (.invalidUtf8 fault.message), []⟩ ⟨.error (.invalidUtf8 fault'.message), []⟩
  /-- A selection fails on look-ups: each order of them fails as one that it makes. -/
  | failed {mint maxt : Timestamp} {name value : String} {p : Postings} {done done' : List SeriesRef}
      {r r' : Recorded (List Series)} : (i.postings name value).result = .ok p →
      i.FailsOn mint maxt name value p done r → i.FailsOn mint maxt name value p done' r' →
      Alike i (.select name value mint maxt) (do pure (.select (← r))) (do pure (.select (← r')))

section Answers

variable {i j j' : Index} {request : Request} {mint maxt : Timestamp} {name value : String} {p : Postings}
  {done done' : List SeriesRef}

/-- **The order of look-ups is met by selections alone.** -/
theorem Answers.eq_answer {r : Recorded Reply} (h : i.Answers request r) (hne : request.isSelection = false) :
    r = i.answer request := by
  cases h with
  | alone request => rfl
  | pool hr => cases hne

theorem Answers.exists_selects {r : Recorded Reply} (h : i.Answers (.select name value mint maxt) r) :
    ∃ found, i.Selects mint maxt name value found ∧ r = (do pure (.select (← found))) := by
  cases h with
  | alone => exact ⟨_, selects_select i mint maxt name value, rfl⟩
  | pool hr => exact ⟨_, hr, rfl⟩

/-- No selection makes every look-up and fails on one. -/
theorem LooksUp.not_failsOn {r r' : Recorded (List Series)} (h : i.LooksUp mint maxt name value p done r) :
    ¬ i.FailsOn mint maxt name value p done' r' := by
  intro h'
  obtain ⟨ref, hmem, e, hfails, -⟩ := h'.fails
  obtain ⟨s, hs⟩ := h.succeed ref (h'.made.subset hmem)
  rw [hfails] at hs
  cases hs

/-- Answers of one form that come from the same are the same. -/
theorem alike_of_eq {r r' : Recorded Reply} (h : r = r') : i.Alike request r r' :=
  .same (congrArg _ h) (by rw [h]) fun _ => by rw [h]

/-- **Two selections are alike**: both fail on the postings, or both find all series, or both fail on look-ups. -/
theorem Selects.alike {r r' : Recorded (List Series)} (h : i.Selects mint maxt name value r)
    (h' : i.Selects mint maxt name value r') :
    i.Alike (.select name value mint maxt) (do pure (.select (← r))) (do pure (.select (← r'))) := by
  rcases h.cases with ⟨e, he, rfl⟩ | ⟨p, done, hp, hmade⟩
  · rcases h'.cases with ⟨e', he', rfl⟩ | ⟨p', done', hp', -⟩
    · rw [he] at he'
      cases he'
      exact alike_of_eq rfl
    · rw [he] at hp'
      cases hp'
  · rcases h'.cases with ⟨e', he', rfl⟩ | ⟨p', done', hp', hmade'⟩
    · rw [hp] at he'
      cases he'
    · rw [hp] at hp'
      cases hp'
      rcases hmade with hall | hfails
      · rcases hmade' with hall' | hfails'
        · rw [Recorded.bind_pure_eq, Recorded.bind_pure_eq]
          refine .same (congrArg (Except.map Reply.select) (hall.found.trans hall'.found.symm)) ?_ fun c => ?_
          · exact (hall.events hp).trans (hall'.events hp).symm
          · exact (hall.count c).trans (hall'.count c).symm
        · exact absurd hfails' hall.not_failsOn
      · rcases hmade' with hall' | hfails'
        · exact absurd hfails hall'.not_failsOn
        · exact .failed hp hfails hfails'

/-- Two listings are alike. -/
theorem Rekeyed.alike_labelIndices (h : i.Rekeyed j) (h' : i.Rekeyed j') :
    i.Alike .labelIndices (j.answer .labelIndices) (j'.answer .labelIndices) := by
  rcases labelIndices_eq_or_broken (h.keys_perm h') with hsame | ⟨fault, fault', hfirst, hfirst', hne, hr, hr'⟩
  · apply alike_of_eq
    rw [Index.answer, Index.answer, hsame]
  · obtain ⟨key, hkey, hbroken⟩ := hfirst.exists_mem
    obtain ⟨key', hkey', hbroken'⟩ := hfirst'.exists_mem
    have hmem : key ∈ i.labels.keys := (h.keys_perm (.refl i)).mem_iff.1 hkey
    have hmem' : key' ∈ i.labels.keys := (h'.keys_perm (.refl i)).mem_iff.1 hkey'
    rw [Index.answer, Index.answer, hr, hr']
    exact .broken hmem hmem' hbroken hbroken' hne

/-- **Any two answers to a request are alike**, of readers that differ in the order of their keys only. -/
theorem Rekeyed.alike {r r' : Recorded Reply} (h : i.Rekeyed j) (h' : i.Rekeyed j') (hr : j.Answers request r)
    (hr' : j'.Answers request r') : i.Alike request r r' := by
  cases hselection : request.isSelection with
  | false =>
      rw [hr.eq_answer hselection, hr'.eq_answer hselection]
      by_cases hlisting : request = .labelIndices
      · rw [hlisting]
        exact h.alike_labelIndices h'
      · rw [h.answer hlisting, h'.answer hlisting]
        exact alike_of_eq rfl
  | true =>
      cases request with
      | select name value mint maxt =>
          obtain ⟨found, hfound, rfl⟩ := hr.exists_selects
          obtain ⟨found', hfound', rfl⟩ := hr'.exists_selects
          exact (h.selects hfound).alike (h'.selects hfound')
      | _ => cases hselection

end Answers

/-! ## A reader in which chance decides -/

/-- The entries of two keys that are broken differently. -/
def brokenKeys : List (Bytes × UInt32) :=
  [([128], 4), ([97, 128], 4)]

/-- An index with these label indices, and a list of postings that leads past the end and to a record whose first name
is no symbol. -/
def withTwoFaults : Bytes :=
  Bytes.ofWord32 magic ++ ([2, 127, 127] ++
    (Section.write Section.standardFlag (OffsetMap.payload brokenKeys) ++
      (Section.write Section.standardFlag ([1000, 4].flatMap Bytes.ofWord32) ++
        (Section.write Section.standardFlag (OffsetMap.payload [(keyOf ["a", "b"], 23)]) ++
          (Bytes.ofWord32 7 ++ (Bytes.ofWord32 40 ++ []))))))

/-- What it is opened as, with its label indices in some order. -/
def twoFaults (options : ReaderOptions) (store : ChunkStore) (labels : List (Bytes × UInt32)) : Index :=
  ⟨withTwoFaults, store, .ofList labels, .ofList [(keyOf ["a", "b"], 23)], options⟩

section TwoFaults

variable (options : ReaderOptions) (store : ChunkStore) (labels : List (Bytes × UInt32))

theorem ofBytes_withTwoFaults :
    (ofBytes options store withTwoFaults).result = .ok (twoFaults options store brokenKeys) := by
  have hends : readEnds withTwoFaults = .ok (7, 40) := by decide +kernel
  have hlabels : Framed withTwoFaults 7 (OffsetMap.payload brokenKeys) :=
    ⟨withTwoFaults.take 7, withTwoFaults.drop 23, by decide +kernel, by decide +kernel, by decide +kernel⟩
  have hpostings : Framed withTwoFaults 40 (OffsetMap.payload [(keyOf ["a", "b"], 23)]) :=
    ⟨withTwoFaults.take 40, withTwoFaults.drop 54, by decide +kernel, by decide +kernel, by decide +kernel⟩
  rw [result_ofBytes, hends]
  show ((readMap options withTwoFaults 7).result >>= fun labels =>
    (readMap options withTwoFaults 40).result >>= fun postings =>
      .ok (⟨withTwoFaults, store, labels, postings, options⟩ : Index)) = _
  rw [readMap_of_framed options hlabels, readMap_of_framed options hpostings]
  rfl

theorem rekeyed_twoFaults :
    (twoFaults options store brokenKeys).Rekeyed (twoFaults options store brokenKeys.reverse) :=
  have hperm : (OffsetMap.ofList brokenKeys.reverse).entries.Perm (OffsetMap.ofList brokenKeys).entries := by
    decide +kernel
  .maps hperm (.refl _)

/-- The key that comes first is reported. -/
theorem labelIndices_twoFaults :
    (twoFaults options store brokenKeys).labelIndices =
        ⟨.error (.invalidUtf8 "invalid utf-8 sequence of 1 bytes from index 0"), []⟩ ∧
      (twoFaults options store brokenKeys.reverse).labelIndices =
        ⟨.error (.invalidUtf8 "invalid utf-8 sequence of 1 bytes from index 1"), []⟩ := by
  have hfirst : listing (OffsetMap.ofList brokenKeys).keys =
      .error (.invalidUtf8 "invalid utf-8 sequence of 1 bytes from index 0") := by decide +kernel
  have hsecond : listing (OffsetMap.ofList brokenKeys.reverse).keys =
      .error (.invalidUtf8 "invalid utf-8 sequence of 1 bytes from index 1") := by decide +kernel
  exact ⟨congrArg Recorded.ofExcept hfirst, congrArg Recorded.ofExcept hsecond⟩

theorem postings_twoFaults :
    ((twoFaults options store labels).postings "a" "b").result = .ok (.ofList [1000, 4]) := by
  have hkey : (OffsetMap.ofList [(keyOf ["a", "b"], 23)]).get? (keyOf ["a", "b"]) = some 23 := by decide +kernel
  have hrefs : Framed withTwoFaults 23 ([1000, 4].flatMap Bytes.ofWord32) :=
    ⟨withTwoFaults.take 23, withTwoFaults.drop 40, by decide +kernel, by decide +kernel, by decide +kernel⟩
  exact result_postings_of_framed hkey hrefs

/-- Its two look-ups fail differently. -/
theorem series_twoFaults :
    ((twoFaults options store labels).series 1000 0 9).result = .error .invalidSize ∧
      ((twoFaults options store labels).series 4 0 9).result = .error .invalidLength := by
  have hpast : withTwoFaults.tailFrom (UInt32.toNat 1000) >>= (Series.record withTwoFaults 0 9).eval =
      .error .invalidSize := by decide +kernel
  have hrecord : withTwoFaults.tailFrom (UInt32.toNat 4) >>= (Series.record withTwoFaults 0 9).eval =
      .error .invalidLength := by decide +kernel
  constructor
  · rw [series, twoFaults, hpast]
  · rw [series, twoFaults, hrecord]

end TwoFaults

end Index

end SeriesBlock
