import SeriesBlock.Error

/-!
# What an operation reports

Beside its result an operation leaves a journal: what happened, in order. An entry is an event for whoever listens
or an increment of a counter. The events of a run are those of its steps one after another, and a counter's value
is the sum of its increments, so both are read off the journal (`Journal.events`, `Journal.count`).

`Recorded` pairs a result with its journal. Steps in sequence write one journal; a failed step is the last.
-/

set_option autoImplicit false

namespace SeriesBlock

/-- What a listener hears of. -/
inductive Event where
  /-- An index was opened, with so many label indices and postings lists. -/
  | indexOpened (labelIndices postings : Nat)
  /-- An index could not be opened. -/
  | indexOpenFailed (text : String)
  /-- A file of chunks could not be opened. -/
  | seriesReaderOpenFailed (text : String)
  /-- The section at `offset` has another checksum than its trailer says. -/
  | checksumMismatch (offset expected actual : UInt32)
  /-- The record of a series could not be decoded. -/
  | seriesDecodeFailed (ref : UInt32) (text : String)
deriving DecidableEq, Repr

/-- What is counted. -/
inductive Counter where
  /-- Series that were decoded and have a chunk in range. -/
  | seriesDecoded
  /-- Series that were decoded and have none. -/
  | seriesNotInRange
  /-- Chunks of decoded series that are out of range. -/
  | chunksSkipped
  /-- Postings lists that were found and read. -/
  | postingsLookups
  /-- Chunks whose frame was read. -/
  | chunkReads
  /-- Operations that failed on malformed bytes. -/
  | decodeErrors
deriving DecidableEq, Repr

namespace Counter

/-- All counters. -/
def all : List Counter :=
  [seriesDecoded, seriesNotInRange, chunksSkipped, postingsLookups, chunkReads, decodeErrors]

/-- The name under which a counter is published. -/
def name : Counter → String
  | seriesDecoded => "tsblock_series_decoded"
  | seriesNotInRange => "tsblock_series_not_in_range"
  | chunksSkipped => "tsblock_chunks_skipped"
  | postingsLookups => "tsblock_postings_lookups"
  | chunkReads => "tsblock_chunk_reads"
  | decodeErrors => "tsblock_decode_errors"

/-- What a counter counts, for people. -/
def about : Counter → String
  | seriesDecoded => "Series records decoded with at least one chunk in the queried range."
  | seriesNotInRange => "Series records decoded with no chunk in the queried range."
  | chunksSkipped => "Chunk metas dropped by time filtering (before or after the queried range)."
  | postingsLookups => "Postings lists resolved from the postings hashmap."
  | chunkReads => "Chunks read from the series-data buffer and handed to the codec."
  | decodeErrors => "Index or chunk decode operations that failed on malformed input."

end Counter

/-- One entry of a journal. -/
inductive Entry where
  | event (e : Event)
  | increment (c : Counter) (n : Nat)
deriving DecidableEq, Repr

/-- What happened, in order. -/
abbrev Journal := List Entry

namespace Journal

/-- The events of a journal, in order. -/
def events (j : Journal) : List Event :=
  j.filterMap fun
    | .event e => some e
    | .increment _ _ => none

/-- By how much a journal increments a counter. -/
def count (c : Counter) : Journal → Nat
  | [] => 0
  | .event _ :: j => count c j
  | .increment c' n :: j => (if c' = c then n else 0) + count c j

@[simp]
theorem events_append (i j : Journal) : events (i ++ j) = events i ++ events j :=
  List.filterMap_append

@[simp]
theorem count_append (c : Counter) (i j : Journal) : count c (i ++ j) = count c i + count c j := by
  induction i with
  | nil => simp [count]
  | cons e i ih => cases e <;> simp [count, ih, Nat.add_assoc]

end Journal

/-- The result of an operation and the journal it leaves. -/
structure Recorded (α : Type) where
  result : Except BlockError α
  journal : Journal := []

namespace Recorded

variable {α β : Type}

/-- One operation after another; the first failure ends both. -/
def andThen (r : Recorded α) (f : α → Recorded β) : Recorded β :=
  match r.result with
  | .ok a => ⟨(f a).result, r.journal ++ (f a).journal⟩
  | .error e => ⟨.error e, r.journal⟩

instance : Monad Recorded where
  pure a := ⟨.ok a, []⟩
  bind := andThen

/-- A result that leaves no journal. -/
def ofExcept (r : Except BlockError α) : Recorded α := ⟨r, []⟩

/-- Writes into the journal. -/
def note (j : Journal) : Recorded Unit := ⟨.ok (), j⟩

/-- Adds an error's own entries to the journal of a failed operation. -/
def onError (r : Recorded α) (f : BlockError → Journal) : Recorded α :=
  match r.result with
  | .ok _ => r
  | .error e => ⟨.error e, r.journal ++ f e⟩

/-- Replaces the error of a failed operation. -/
def mapError (r : Recorded α) (f : BlockError → BlockError) : Recorded α :=
  ⟨r.result.mapError f, r.journal⟩

/-- Counts a failed operation, unless it failed on an expected miss. -/
def countCorruption (r : Recorded α) : Recorded α :=
  r.onError fun e => if e.isCorruption then [.increment .decodeErrors 1] else []

theorem pure_def (a : α) : (pure a : Recorded α) = ⟨.ok a, []⟩ :=
  rfl

/-- After an operation that succeeds comes the next one. -/
theorem andThen_ok {r : Recorded α} {a : α} (h : r.result = .ok a) (f : α → Recorded β) :
    r.andThen f = ⟨(f a).result, r.journal ++ (f a).journal⟩ := by
  rw [andThen, h]

/-- An operation that fails is the last one. -/
theorem andThen_error {r : Recorded α} {e : BlockError} (h : r.result = .error e) (f : α → Recorded β) :
    r.andThen f = ⟨.error e, r.journal⟩ := by
  rw [andThen, h]

end Recorded

end SeriesBlock
