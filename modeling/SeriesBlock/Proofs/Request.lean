import SeriesBlock.Index
import SeriesBlock.Proofs.Recorded

/-!
# Requests to an index

Every operation of an index as a value (`Request`), what it gives back (`Reply`), and the operation
that a value stands for (`Index.answer`). `Index.session` opens both buffers of a block and answers
one request.
-/

set_option autoImplicit false

namespace SeriesBlock

/-- An operation of an opened index with its arguments. -/
inductive Request where
  | stats
  | labelIndices
  /-- How many values there are for a list of label names, and their arity. -/
  | labelValues (names : List String)
  /-- The tuple of values at a position. -/
  | valueAt (names : List String) (i : UInt64)
  /-- All tuples of values, each with its own outcome. -/
  | values (names : List String)
  | postings (name value : String)
  | series (ref : SeriesRef) (mint maxt : Timestamp)
  | select (name value : String) (mint maxt : Timestamp)
  | chunk (ref : ChunkRef)
  | symbol (offset : UInt32)
  | symbolText (offset : UInt32)

/-- What an operation gives back. -/
inductive Reply where
  | stats (s : BlockStats)
  | labelIndices (names : List (List String))
  | labelValues (arity : UInt64) (length : Nat)
  | valueAt (tuple : List String)
  | values (tuples : List (Except BlockError (List String)))
  | postings (p : Postings)
  | series (s : SeriesLookup)
  | select (found : List Series)
  | chunk (c : Chunk)
  | symbol (w : Bytes)
  | symbolText (s : String)

namespace Index

/-- The operation that a request stands for. -/
def answer (i : Index) : Request → Recorded Reply
  | .stats => do pure (.stats (← i.stats))
  | .labelIndices => do pure (.labelIndices (← i.labelIndices))
  | .labelValues names => do
    let t ← i.labelValues names
    pure (.labelValues t.arity t.length)
  | .valueAt names k => do
    let t ← i.labelValues names
    pure (.valueAt (← Recorded.ofExcept (t.at? k)))
  | .values names => do
    let t ← i.labelValues names
    pure (.values t.toList)
  | .postings name value => do pure (.postings (← i.postings name value))
  | .series ref mint maxt => do pure (.series (← i.series ref mint maxt))
  | .select name value mint maxt => do pure (.select (← i.select name value mint maxt))
  | .chunk ref => do pure (.chunk (← i.chunk ref))
  | .symbol offset => do pure (.symbol (← Recorded.ofExcept (Symbol.lookup i.buffer offset)))
  | .symbolText offset => do
    pure (.symbolText (← Recorded.ofExcept (Symbol.text i.buffer offset)))

/-- Opens the buffer of chunks and the index buffer of a block and answers a request. -/
def session (options : ReaderOptions) (index chunks : Bytes) (request : Request) :
    Except BlockError Reply := do
  let store ← ChunkStore.ofBytes chunks
  let i ← (ofBytes options store index).result
  (i.answer request).result

/-- Decoding all references, each on its own, and taking the first failure is decoding them up to the
first that fails. -/
theorem result_seriesAll (i : Index) (mint maxt : Timestamp) (refs : List SeriesRef) :
    (i.seriesAll mint maxt refs).result = refs.mapM fun ref => (i.series ref mint maxt).result := by
  induction refs with
  | nil => rfl
  | cons ref more ih =>
      rw [seriesAll, Recorded.result_bind, List.mapM_cons]
      congr 1
      funext s
      rw [Recorded.result_bind, ih]
      rfl

end Index

end SeriesBlock
