import SeriesBlock.Proofs.Collecting
import SeriesBlock.Proofs.Request

/-!
# Selections

A selection against the look-ups it is made of. Its references may be decoded in any order, by any
`Collector` (`Index.selectBy`): what it gives then is what the look-ups of its postings give one by
one (`selectBy_eq_ok_iff`). One thread decodes the references up to the first that fails (`tried`), and
the journal of the selection is that of its postings and of these look-ups (`select_of_postings`).
-/

set_option autoImplicit false

namespace SeriesBlock.Index

variable (i : Index) (mint maxt : Timestamp)

/-- The outcome of looking a series up. -/
def outcome (ref : SeriesRef) : Except BlockError SeriesLookup :=
  (i.series ref mint maxt).result

/-- The series at a reference, if its record can be read and has a chunk in range. -/
def seriesAt? (ref : SeriesRef) : Option Series :=
  match i.outcome mint maxt ref with
  | .ok s => s.toOption
  | .error _ => none

/-- A selection whose references are decoded by a collector. -/
def selectBy (c : Collector SeriesRef SeriesLookup) (name value : String) :
    Except BlockError (List Series) := do
  let p ← (i.postings name value).result
  let found ← c.collect (i.outcome mint maxt) p.toList
  pure (found.filterMap SeriesLookup.toOption)

/-- The references that one thread decodes: those up to the first that fails, or all. -/
def tried : List SeriesRef → List SeriesRef
  | [] => []
  | ref :: more =>
    match i.outcome mint maxt ref with
    | .ok _ => ref :: tried more
    | .error _ => [ref]

variable {i mint maxt}

/-! ## In any order -/

/-- The series found by look-ups that all succeed. -/
theorem filterMap_seriesAt? {refs : List SeriesRef} {lookups : List SeriesLookup}
    (h : refs.map (i.outcome mint maxt) = lookups.map .ok) :
    refs.filterMap (i.seriesAt? mint maxt) = lookups.filterMap SeriesLookup.toOption := by
  induction refs generalizing lookups with
  | nil =>
      cases lookups with
      | nil => rfl
      | cons s lookups => cases h
  | cons ref refs ih =>
      cases lookups with
      | nil => cases h
      | cons s lookups =>
          rw [List.map_cons, List.map_cons, List.cons.injEq] at h
          have hat : i.seriesAt? mint maxt ref = s.toOption := by
            rw [seriesAt?, h.1]
          rw [List.filterMap_cons, List.filterMap_cons, hat, ih h.2]

/-- **A selection succeeds exactly when its postings and all their look-ups do**, in whatever order
they are made, and then gives the series that were found, in the order of the postings. -/
theorem selectBy_eq_ok_iff {c : Collector SeriesRef SeriesLookup} {name value : String}
    {found : List Series} :
    i.selectBy mint maxt c name value = .ok found ↔
      ∃ p, (i.postings name value).result = .ok p ∧
        (∀ ref ∈ p.toList, ∃ s, i.outcome mint maxt ref = .ok s) ∧
        found = p.toList.filterMap (i.seriesAt? mint maxt) := by
  constructor
  -- what was collected are the values of the look-ups, each in its place
  · intro h
    obtain ⟨p, hp, h⟩ := except_bind_eq_ok.1 h
    obtain ⟨lookups, hc, h⟩ := except_bind_eq_ok.1 h
    have hcollects := c.collects (i.outcome mint maxt) p.toList
    rw [hc, collects_ok_iff] at hcollects
    cases h
    refine ⟨p, hp, exists_map_eq_iff.1 ⟨lookups, hcollects⟩, ?_⟩
    exact (filterMap_seriesAt? hcollects).symm
  · rintro ⟨p, hp, hall, rfl⟩
    refine except_bind_eq_ok.2 ⟨p, hp, ?_⟩
    have hcollects := c.collects (i.outcome mint maxt) p.toList
    cases hc : c.collect (i.outcome mint maxt) p.toList with
    | ok lookups =>
        rw [hc, collects_ok_iff] at hcollects
        rw [filterMap_seriesAt? hcollects]
        rfl
    -- a failure would be that of one of the look-ups
    | error e =>
        rw [hc, collects_error_iff] at hcollects
        obtain ⟨ref, hmem, he⟩ := hcollects
        obtain ⟨s, hs⟩ := hall ref hmem
        rw [he] at hs
        cases hs

/-- In whatever order the look-ups are made, a failure is that of one of them. -/
theorem exists_of_selectBy_error {c : Collector SeriesRef SeriesLookup} {name value : String}
    {p : Postings} {e : BlockError} (hp : (i.postings name value).result = .ok p)
    (h : i.selectBy mint maxt c name value = .error e) :
    ∃ ref ∈ p.toList, i.outcome mint maxt ref = .error e := by
  rcases except_bind_eq_error.1 h with h | ⟨p', hp', h⟩
  · rw [hp] at h
    cases h
  · rw [hp] at hp'
    cases hp'
    rcases except_bind_eq_error.1 h with hc | ⟨found, -, h⟩
    · have hcollects := c.collects (i.outcome mint maxt) p.toList
      rw [hc, collects_error_iff] at hcollects
      exact hcollects
    · cases h

theorem selectBy_of_postings_error {c : Collector SeriesRef SeriesLookup} {name value : String}
    {e : BlockError} (h : (i.postings name value).result = .error e) :
    i.selectBy mint maxt c name value = .error e := by
  rw [selectBy, h]
  rfl

theorem selectBy_of_postings {c : Collector SeriesRef SeriesLookup} {name value : String} {p : Postings}
    (h : (i.postings name value).result = .ok p) :
    i.selectBy mint maxt c name value =
      (c.collect (i.outcome mint maxt) p.toList).map (List.filterMap SeriesLookup.toOption) := by
  rw [selectBy, h]
  show (c.collect (i.outcome mint maxt) p.toList >>= _) = _
  cases c.collect (i.outcome mint maxt) p.toList with
  | ok found => rfl
  | error e => rfl

/-! ## On one thread -/

/-- One thread makes the look-ups of `tried`, and its journal is theirs. -/
theorem seriesAll_eq (refs : List SeriesRef) :
    i.seriesAll mint maxt refs = ⟨refs.mapM (i.outcome mint maxt),
      (i.tried mint maxt refs).flatMap fun ref => (i.series ref mint maxt).journal⟩ := by
  induction refs with
  | nil => rfl
  | cons ref more ih =>
      -- the first look-up goes on to the others, or is the last
      cases hs : i.outcome mint maxt ref with
      | ok s =>
          rw [seriesAll, Recorded.bind_of_ok hs, Recorded.bind_pure_eq, ih, List.mapM_cons, hs, tried,
            hs, List.flatMap_cons]
          rfl
      | error e =>
          rw [seriesAll, Recorded.bind_of_error hs, List.mapM_cons, hs, tried, hs,
            List.flatMap_singleton]
          rfl

/-- **The journal of a selection** is that of its postings and of the look-ups that are tried. -/
theorem select_of_postings {name value : String} {p : Postings}
    (h : (i.postings name value).result = .ok p) :
    i.select name value mint maxt =
      ⟨(p.toList.mapM (i.outcome mint maxt)).map (List.filterMap SeriesLookup.toOption),
        (i.postings name value).journal ++
          (i.tried mint maxt p.toList).flatMap fun ref => (i.series ref mint maxt).journal⟩ := by
  rw [select, Recorded.bind_of_ok h, Recorded.bind_pure_eq, seriesAll_eq]

theorem select_of_postings_error {name value : String} {e : BlockError}
    (h : (i.postings name value).result = .error e) :
    i.select name value mint maxt = ⟨.error e, (i.postings name value).journal⟩ := by
  rw [select, Recorded.bind_of_error h]

/-- What a selection on one thread gives is what the collector with one thread gives. -/
theorem result_select (name value : String) :
    (i.select name value mint maxt).result =
      i.selectBy mint maxt (Collector.inOrder SeriesRef SeriesLookup) name value := by
  cases hp : (i.postings name value).result with
  | ok p =>
      rw [select_of_postings hp, selectBy, hp]
      rfl
  | error e => rw [select_of_postings_error hp, selectBy_of_postings_error hp]

theorem tried_of_firstFails {refs before : List SeriesRef} {ref : SeriesRef} {e : BlockError}
    (h : FirstFails (i.outcome mint maxt) refs before ref e) :
    i.tried mint maxt refs = before ++ [ref] := by
  obtain ⟨⟨after, rfl⟩, hsucceed, hfails⟩ := h
  rw [List.append_assoc, List.singleton_append]
  induction before with
  | nil => rw [List.nil_append, tried, hfails, List.nil_append]
  | cons r before ih =>
      obtain ⟨s, hs⟩ := hsucceed r List.mem_cons_self
      rw [List.cons_append, tried, hs, ih fun b hb => hsucceed b (List.mem_cons_of_mem r hb)]
      rfl

theorem tried_of_ok {refs : List SeriesRef} (h : ∀ ref ∈ refs, ∃ s, i.outcome mint maxt ref = .ok s) :
    i.tried mint maxt refs = refs := by
  induction refs with
  | nil => rfl
  | cons ref refs ih =>
      obtain ⟨s, hs⟩ := h ref List.mem_cons_self
      rw [tried, hs, ih fun r hr => h r (List.mem_cons_of_mem ref hr)]

/-- **One thread ends with the first failure**, and its journal with the look-up that failed. -/
theorem select_of_firstFails {name value : String} {p : Postings} {before : List SeriesRef}
    {ref : SeriesRef} {e : BlockError} (hp : (i.postings name value).result = .ok p)
    (h : FirstFails (i.outcome mint maxt) p.toList before ref e) :
    i.select name value mint maxt = ⟨.error e, (i.postings name value).journal ++
      (before ++ [ref]).flatMap fun r => (i.series r mint maxt).journal⟩ := by
  rw [select_of_postings hp, mapM_of_firstFails h, tried_of_firstFails h]
  rfl

/-! ## Selections and look-ups -/

variable (i mint maxt)

/-- **A selection refines its look-ups.** In whatever order its references are decoded, it succeeds
exactly when its postings and every look-up do, with the series found in the order of the postings, and
otherwise fails as its postings or one of the look-ups. One thread fails as the first look-up
that does, and its journal is that of the postings and of the look-ups up to this one. -/
theorem select_refines_lookups (name value : String) :
    (∀ c : Collector SeriesRef SeriesLookup,
      (∀ found, i.selectBy mint maxt c name value = .ok found ↔
        ∃ p, (i.postings name value).result = .ok p ∧
          (∀ ref ∈ p.toList, ∃ s, (i.series ref mint maxt).result = .ok s) ∧
          found = p.toList.filterMap (i.seriesAt? mint maxt)) ∧
      (∀ e, (i.postings name value).result = .error e →
        i.selectBy mint maxt c name value = .error e) ∧
      ∀ p e, (i.postings name value).result = .ok p →
        i.selectBy mint maxt c name value = .error e →
        ∃ ref ∈ p.toList, (i.series ref mint maxt).result = .error e) ∧
    (i.select name value mint maxt).result = i.selectBy mint maxt (.inOrder _ _) name value ∧
    ∀ p, (i.postings name value).result = .ok p →
      (∃ ref ∈ p.toList, ∃ e, (i.series ref mint maxt).result = .error e) →
      ∃ before ref e, before ++ [ref] <+: p.toList ∧
        (∀ r ∈ before, ∃ s, (i.series r mint maxt).result = .ok s) ∧
        (i.series ref mint maxt).result = .error e ∧
        i.select name value mint maxt = ⟨.error e, (i.postings name value).journal ++
          (before ++ [ref]).flatMap fun r => (i.series r mint maxt).journal⟩ := by
  refine ⟨?_, result_select name value, ?_⟩
  · intro c
    exact ⟨fun _ => selectBy_eq_ok_iff, fun _ h => selectBy_of_postings_error h,
      fun _ _ hp h => exists_of_selectBy_error hp h⟩
  · rintro p hp ⟨ref, hmem, e, he⟩
    rcases firstFails_or_ok (i.outcome mint maxt) p.toList with ⟨before, r, e', hfirst⟩ | hok
    -- some reference fails, so one of them is the first
    · exact ⟨before, r, e', hfirst.ahead, hfirst.succeed, hfirst.fails, select_of_firstFails hp hfirst⟩
    · obtain ⟨s, hs⟩ := exists_map_eq_iff.1 hok ref hmem
      rw [outcome, he] at hs
      cases hs

/-- Three records, of which the first has a chunk from time 0 to 10, the second one from 20 to 30, and
the third a label that is no symbol. The list under `b` leads to the first, the second and the first,
and that under `c` to the second, past the end, and to the third. -/
def ofThreeRecords : Index where
  buffer := [0, 1, 0, 20, 5] ++ [0, 1, 40, 60, 9] ++ [2, 127, 127] ++
    [1, 0, 0, 0, 12, 0, 0, 0, 0, 0, 0, 0, 5, 0, 0, 0, 0, 0, 0, 0, 0] ++
    [1, 0, 0, 0, 12, 0, 0, 0, 5, 0, 0, 0, 200, 0, 0, 0, 10, 0, 0, 0, 0]
  chunks := ⟨[]⟩
  labels := .empty
  postingsMap := .ofList [(keyOf ["a", "b"], 13), (keyOf ["a", "c"], 34)]
  options := ⟨false, .none⟩

theorem select_refines_lookups_ofThreeRecords :
    (∀ c, ofThreeRecords.selectBy 0 9 c "a" "b" = .ok [⟨[], [⟨5, 0, 10⟩]⟩, ⟨[], [⟨5, 0, 10⟩]⟩]) ∧
      ∃ before ref e, before ++ [ref] <+: [5, 200, 10] ∧
        (∀ r ∈ before, ∃ s, (ofThreeRecords.series r 0 9).result = .ok s) ∧
        (ofThreeRecords.series ref 0 9).result = .error e ∧
        ofThreeRecords.select "a" "c" 0 9 = ⟨.error e, .increment .postingsLookups 1 ::
          (before ++ [ref]).flatMap fun r => (ofThreeRecords.series r 0 9).journal⟩ := by
  have hb : (ofThreeRecords.postings "a" "b").result = .ok (.ofList [0, 5, 0]) := by rfl
  have hc : ofThreeRecords.postings "a" "c" =
      ⟨.ok (.ofList [5, 200, 10]), [.increment .postingsLookups 1]⟩ := by rfl
  have hfound : (ofThreeRecords.series 0 0 9).result = .ok (.found ⟨[], [⟨5, 0, 10⟩]⟩) := by rfl
  have hpast : (ofThreeRecords.series 5 0 9).result = .ok .notInRange := by rfl
  have hfails : (ofThreeRecords.series 10 0 9).result = .error .invalidLength := by rfl
  refine ⟨?_, ?_⟩
  · intro c
    refine (((select_refines_lookups ofThreeRecords 0 9 "a" "b").1 c).1 _).2 ⟨_, hb, ?_, by rfl⟩
    intro ref hmem
    simp only [Postings.toList, Postings.ofList, List.mem_cons, List.not_mem_nil, or_false] at hmem
    rcases hmem with rfl | rfl | rfl
    · exact ⟨_, hfound⟩
    · exact ⟨_, hpast⟩
    · exact ⟨_, hfound⟩
  · have h := (select_refines_lookups ofThreeRecords 0 9 "a" "c").2.2
    rw [hc] at h
    exact h _ rfl ⟨10, by decide, _, hfails⟩

end SeriesBlock.Index
