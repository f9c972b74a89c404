import SeriesBlock.Index

/-!
# Blocks

A block is a directory with two files: the chunks and the index. Both files are read before either is opened, the
chunks first, and the chunks are opened first.
-/

set_option autoImplicit false

namespace SeriesBlock

/-- The contents of a block's two files, or why they could not be read. -/
structure BlockFiles where
  index : Except IoFault Bytes
  chunks : Except IoFault Bytes

namespace BlockFiles

/-- The name of the index file. -/
def indexName : String := "index"

/-- The name of the file of chunks. -/
def chunksName : String := "series"

/-- Both contents, or the first failure. -/
def read (f : BlockFiles) : Except BlockError (Bytes × Bytes) := do
  let chunks ← f.chunks.mapError .io
  let index ← f.index.mapError .io
  pure (chunks, index)

end BlockFiles

/-- An opened block: its index and its chunks. -/
structure Block where
  index : Index
  chunks : ChunkStore

namespace Block

/-- Opens the chunks and reports a failure. -/
def openChunks (b : Bytes) : Recorded ChunkStore :=
  (Recorded.ofExcept (ChunkStore.ofBytes b)).onError fun e =>
    [.increment .decodeErrors 1, .event (.seriesReaderOpenFailed e.message)]

/-- Opens a block: its chunks, and its index over them. -/
def load (options : ReaderOptions) (files : BlockFiles) : Recorded Block := do
  let (chunkBytes, indexBytes) ← Recorded.ofExcept files.read
  let chunks ← openChunks chunkBytes
  let index ← Index.ofBytes options chunks indexBytes
  pure ⟨index, chunks⟩

/-- Opens a block for its index. -/
def ofFiles (options : ReaderOptions) (files : BlockFiles) : Recorded Index := do
  let b ← load options files
  pure b.index

end Block

end SeriesBlock
