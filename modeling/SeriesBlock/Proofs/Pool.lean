import SeriesBlock.Proofs.Trace

/-!
# Selections on a pool of threads

What a selection may come to, with its journal, when any number of threads decode its references: it writes what its
postings write and then what the look-ups write that were finished, in the order in which they were (`Selects`). What
it gives is what some `Collector` gives (`exists_selects_iff`), and one thread is a pool (`selects_select`).

A selection that succeeds has finished every look-up, so that any other order of them would have been heard and
counted alike (`LooksUp.events`, `LooksUp.count`). One that fails has finished some of them, with the one whose
failure it gives (`FailsOn`). It does the one or the other whatever the order (`Selects.cases`).
-/

set_option autoImplicit false

namespace SeriesBlock

variable {α : Type}

/-! ## Journals in any order -/

namespace Journal

/-- Counts do not depend on the order of the entries. -/
theorem count_perm {j j' : Journal} (h : j.Perm j') (c : Counter) : count c j = count c j' := by
  induction h with
  | nil => rfl
  | cons entry _ ih =>
      cases entry with
      | event e => exact ih
      | increment c' n => rw [count, count, ih]
  | swap entry entry' j =>
      cases entry with
      | event e => cases entry' <;> rfl
      | increment c' n =>
          cases entry' with
          | event e => rfl
          | increment c'' m => exact Nat.add_left_comm _ _ _
  | trans _ _ ih ih' => exact ih.trans ih'

end Journal

namespace Index

/-! ## Selections -/

/-- What a selection writes that has read its postings and then made these look-ups. -/
def lookUpJournal (i : Index) (mint maxt : Timestamp) (name value : String) (done : List SeriesRef) : Journal :=
  (i.postings name value).journal ++ done.flatMap fun ref => (i.series ref mint maxt).journal

/-- What a selection may come to on a pool of threads: the failure of its postings, or what is collected from the
look-ups, with what was written by those that were finished. -/
inductive Selects (i : Index) (mint maxt : Timestamp) (name value : String) : Recorded (List Series) → Prop where
  | missed {e : BlockError} : (i.postings name value).result = .error e →
      Selects i mint maxt name value ⟨.error e, (i.postings name value).journal⟩
  | lookedUp {p : Postings} {done : List SeriesRef} {slots : Slots SeriesLookup}
      {r : Except BlockError (List SeriesLookup)} : (i.postings name value).result = .ok p →
      Rounds (i.outcome mint maxt) p.toList done slots → SeriesBlock.Ends slots r →
      Selects i mint maxt name value
        ⟨r.map (List.filterMap SeriesLookup.toOption), i.lookUpJournal mint maxt name value done⟩

/-- A selection that makes every look-up of its postings, in some order, and finds all series. -/
structure LooksUp (i : Index) (mint maxt : Timestamp) (name value : String) (p : Postings) (done : List SeriesRef)
    (r : Recorded (List Series)) : Prop where
  all : done.Perm p.toList
  succeed : ∀ ref ∈ p.toList, ∃ s, (i.series ref mint maxt).result = .ok s
  found : r.result = .ok (p.toList.filterMap (i.seriesAt? mint maxt))
  writes : r.journal = i.lookUpJournal mint maxt name value done

/-- A selection that makes some look-ups of its postings and fails as one of these. -/
structure FailsOn (i : Index) (mint maxt : Timestamp) (name value : String) (p : Postings) (done : List SeriesRef)
    (r : Recorded (List Series)) : Prop where
  /-- No look-up is made more often than its reference is in the postings. -/
  made : done.Subperm p.toList
  fails : ∃ ref ∈ done, ∃ e, (i.series ref mint maxt).result = .error e ∧ r.result = .error e
  writes : r.journal = i.lookUpJournal mint maxt name value done

section Selects

variable {i : Index} {mint maxt : Timestamp} {name value : String} {r : Recorded (List Series)} {p : Postings}
  {done : List SeriesRef}

/-- **A selection fails on its postings, or makes every look-up, or fails on one that it makes.** -/
theorem Selects.cases (h : i.Selects mint maxt name value r) :
    (∃ e, (i.postings name value).result = .error e ∧ r = ⟨.error e, (i.postings name value).journal⟩) ∨
    ∃ p done, (i.postings name value).result = .ok p ∧
      (i.LooksUp mint maxt name value p done r ∨ i.FailsOn mint maxt name value p done r) := by
  cases h with
  | missed hp => exact .inl ⟨_, hp, rfl⟩
  | @lookedUp p done slots _ hp hrounds hends =>
      refine .inr ⟨p, done, hp, ?_⟩
      cases hends with
      | values lookups =>
          have hall := hrounds.sound.map_eq
          refine .inl ⟨hrounds.perm_of_values, exists_map_eq_iff.1 ⟨lookups, hall⟩, ?_, rfl⟩
          rw [filterMap_seriesAt? hall]
          rfl
      | failure hmem =>
          obtain ⟨ref, hdone, hfails⟩ := hrounds.exists_of_error hmem
          exact .inr ⟨hrounds.subperm, ⟨ref, hdone, _, hfails, rfl⟩, rfl⟩

/-- **What a selection may give is what a collector may give.** -/
theorem exists_selects_iff {found : Except BlockError (List Series)} :
    (∃ j, i.Selects mint maxt name value ⟨found, j⟩) ↔ ∃ c, i.selectBy mint maxt c name value = found := by
  constructor
  · rintro ⟨j, h⟩
    cases h with
    | missed hp => exact ⟨Collector.inOrder _ _, selectBy_of_postings_error hp⟩
    | @lookedUp p done slots outcome hp hrounds hends =>
        have hcollects : Collects (i.outcome mint maxt) p.toList outcome :=
          ⟨slots, rounds_iff_run.1 ⟨done, hrounds⟩, hends⟩
        refine ⟨Collector.preferring outcome, ?_⟩
        rw [selectBy_of_postings hp, Collector.collect_preferring hcollects]
  · rintro ⟨c, rfl⟩
    cases hp : (i.postings name value).result with
    | error e =>
        rw [selectBy_of_postings_error hp]
        exact ⟨_, .missed hp⟩
    | ok p =>
        obtain ⟨slots, hrun, hends⟩ := c.collects (i.outcome mint maxt) p.toList
        obtain ⟨done, hrounds⟩ := rounds_iff_run.2 hrun
        rw [selectBy_of_postings hp]
        exact ⟨_, .lookedUp hp hrounds hends⟩

/-- The look-ups that one thread makes are finished in the order of the references. -/
theorem exists_rounds_tried (i : Index) (mint maxt : Timestamp) (refs : List SeriesRef) :
    ∃ slots, Rounds (i.outcome mint maxt) refs (i.tried mint maxt refs) slots ∧
      SeriesBlock.Ends slots (refs.mapM (i.outcome mint maxt)) := by
  rcases firstFails_or_ok (i.outcome mint maxt) refs with ⟨before, ref, e, hfirst⟩ | ⟨lookups, hall⟩
  · obtain ⟨slots, hrounds, hmem⟩ := hfirst.rounds
    rw [tried_of_firstFails hfirst, mapM_of_firstFails hfirst]
    exact ⟨slots, hrounds, .failure hmem⟩
  · rw [tried_of_ok (exists_map_eq_iff.1 ⟨lookups, hall⟩), except_mapM_eq_ok_iff.2 hall]
    exact ⟨_, rounds_of_ok hall, .values lookups⟩

/-- **One thread is a pool.** -/
theorem selects_select (i : Index) (mint maxt : Timestamp) (name value : String) :
    i.Selects mint maxt name value (i.select name value mint maxt) := by
  cases hp : (i.postings name value).result with
  | error e =>
      rw [select_of_postings_error hp]
      exact .missed hp
  | ok p =>
      obtain ⟨slots, hrounds, hends⟩ := exists_rounds_tried i mint maxt p.toList
      rw [select_of_postings hp]
      exact .lookedUp hp hrounds hends

/-- Any look-up that fails may be the only one that is made. -/
theorem selects_of_error {ref : SeriesRef} {e : BlockError} (hp : (i.postings name value).result = .ok p)
    (hmem : ref ∈ p.toList) (he : (i.series ref mint maxt).result = .error e) :
    i.Selects mint maxt name value ⟨.error e, i.lookUpJournal mint maxt name value [ref]⟩ := by
  obtain ⟨q, hq⟩ := List.mem_iff_getElem?.1 hmem
  obtain ⟨hlt, -⟩ := List.getElem?_eq_some_iff.1 hq
  have hopen : (Slots.start SeriesLookup p.toList.length)[q]? = some none := by
    rw [Slots.start, List.getElem?_replicate, if_pos hlt]
  have hrounds : Rounds (i.outcome mint maxt) p.toList [ref] _ := Rounds.start.finish hq hopen
  refine .lookedUp hp hrounds (.failure ?_)
  rw [outcome, he]
  exact List.mem_set (by rwa [Slots.start, List.length_replicate]) _

/-! ## What is heard and counted -/

/-- Of look-ups are heard those that fail, and of postings that were read nothing. -/
theorem events_lookUpJournal (hp : (i.postings name value).result = .ok p) (mint maxt : Timestamp)
    (done : List SeriesRef) :
    (i.lookUpJournal mint maxt name value done).events = done.flatMap (i.seriesTrace mint maxt) := by
  rw [lookUpJournal, Journal.events_append, Journal.events_flatMap, events_postings, hp]
  simp only [events_series]
  rfl

/-- **Nothing is heard of look-ups that succeed.** -/
theorem LooksUp.events (hp : (i.postings name value).result = .ok p)
    (h : i.LooksUp mint maxt name value p done r) : r.journal.events = [] := by
  rw [h.writes, events_lookUpJournal hp, List.flatMap_eq_nil_iff]
  intro ref hmem
  obtain ⟨s, hs⟩ := h.succeed ref (h.all.mem_iff.1 hmem)
  rw [seriesTrace, hs]
  rfl

/-- **Look-ups are counted alike in every order.** -/
theorem LooksUp.count (h : i.LooksUp mint maxt name value p done r) (c : Counter) :
    r.journal.count c = (i.lookUpJournal mint maxt name value p.toList).count c := by
  rw [h.writes]
  exact Journal.count_perm ((h.all.flatMap_right _).append_left _) c

end Selects

end Index

end SeriesBlock
