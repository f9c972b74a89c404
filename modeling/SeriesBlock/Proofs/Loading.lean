import SeriesBlock.Block
import SeriesBlock.Proofs.Accounting
import SeriesBlock.Proofs.Answers

/-!
# Loading blocks

Loading the two files of a block goes in one of four ways (`Block.loads_load`): the first file that cannot
be read decides, then the chunks, and what is left is to open the index over them. From these four follows
that a failure of a reader is told once and counted once, by the reader that fails (`Block.Loads.told`,
`Block.Loads.count`), and that a failure of a file is neither.

A session opens a block or its two readers and asks for answers. Some of these are left to chance, so what there is
to compare are all the sessions that may be had (`Session.Goes`). They are the same with a block as with its two
readers (`Block.sessions_iff`), and any two of them agree but for what is left to chance
(`Session.Goes.agree`), as two sessions with one block do. That is not nothing: of two sessions one may report what
the other does not (`Block.sessions_meet_chance`).

The main statement is `Block.loading_agrees_with_readers`.
-/

set_option autoImplicit false

namespace SeriesBlock

/-! ## Files -/

namespace BlockFiles

variable {files : BlockFiles} {fault : IoFault}

/-- A file cannot be read, for this reason: that of the chunks or, if they can be read, that of the index. -/
inductive Lacks (files : BlockFiles) (fault : IoFault) : Prop where
  | chunks : files.chunks = .error fault → Lacks files fault
  | index {b : Bytes} : files.chunks = .ok b → files.index = .error fault → Lacks files fault

theorem read_of_lacks (h : files.Lacks fault) : files.read = .error (.io fault) := by
  cases h with
  | chunks hchunks =>
      rw [read, hchunks]
      rfl
  | index hchunks hindex =>
      rw [read, hchunks, hindex]
      rfl

/-- Either a file cannot be read, or both are. -/
theorem read_cases (files : BlockFiles) :
    (∃ fault, files.Lacks fault) ∨ ∃ b c, files = ⟨.ok b, .ok c⟩ := by
  rcases files with ⟨index, chunks⟩
  cases chunks with
  | error fault => exact Or.inl ⟨fault, .chunks rfl⟩
  | ok c =>
      cases index with
      | error fault => exact Or.inl ⟨fault, .index rfl rfl⟩
      | ok b => exact Or.inr ⟨b, c, rfl⟩

/-- Files that are read lack nothing. -/
theorem not_lacks_of_read {b c : Bytes} : ¬ Lacks ⟨.ok b, .ok c⟩ fault := by
  rintro (⟨⟨⟩⟩ | ⟨-, ⟨⟩⟩)

end BlockFiles

/-! ## Sessions -/

/-- What a caller asks of an opened block: of its index, of its chunks on their own, or the size of one of
the two. -/
inductive BlockRequest where
  | index (request : Request)
  | indexSize
  | chunk (ref : ChunkRef)
  | chunksSize

/-- What a caller gets. -/
inductive BlockReply where
  | index (reply : Reply)
  | chunk (c : Chunk)
  | size (n : Nat)

namespace BlockRequest

/-- The answer of an index and a buffer of chunks on one thread. -/
def answer (i : Index) (store : ChunkStore) : BlockRequest → Recorded BlockReply
  | index request => do pure (.index (← i.answer request))
  | indexSize => pure (.size i.size)
  | chunk ref => do pure (.chunk (← store.chunk ref))
  | chunksSize => pure (.size store.size)

/-- What a request may be answered. -/
inductive Answers (i : Index) (store : ChunkStore) : BlockRequest → Recorded BlockReply → Prop where
  | index {request : Request} {r : Recorded Reply} : i.Answers request r →
      Answers i store (.index request) (do pure (.index (← r)))
  | indexSize : Answers i store .indexSize (pure (.size i.size))
  | chunk (ref : ChunkRef) : Answers i store (.chunk ref) (do pure (.chunk (← store.chunk ref)))
  | chunksSize : Answers i store .chunksSize (pure (.size store.size))

/-- Two answers to one request that are the same, or differ in what an index leaves to chance. -/
inductive Alike (i : Index) : BlockRequest → Recorded BlockReply → Recorded BlockReply → Prop where
  | index {request : Request} {r r' : Recorded Reply} : i.Alike request r r' →
      Alike i (.index request) (do pure (.index (← r))) (do pure (.index (← r')))
  | same {request : BlockRequest} (r : Recorded BlockReply) : Alike i request r r

/-- Answers to the same requests, one by one. -/
inductive AllAlike (i : Index) :
    List BlockRequest → List (Recorded BlockReply) → List (Recorded BlockReply) → Prop where
  | nil : AllAlike i [] [] []
  | cons {request : BlockRequest} {requests : List BlockRequest} {r r' : Recorded BlockReply}
      {rs rs' : List (Recorded BlockReply)} : request.Alike i r r' → AllAlike i requests rs rs' →
      AllAlike i (request :: requests) (r :: rs) (r' :: rs')

section Answers

variable {i j j' : Index} {store : ChunkStore} {request : BlockRequest} {requests : List BlockRequest}

theorem answers_answer (i : Index) (store : ChunkStore) (request : BlockRequest) :
    request.Answers i store (request.answer i store) := by
  cases request with
  | index request => exact .index (.alone request)
  | indexSize => exact .indexSize
  | chunk ref => exact .chunk ref
  | chunksSize => exact .chunksSize

/-- Two answers of readers that differ in the order of their keys are alike. -/
theorem Answers.alike {r r' : Recorded BlockReply} (h : i.Rekeyed j) (h' : i.Rekeyed j')
    (hr : request.Answers j store r) (hr' : request.Answers j' store r') : request.Alike i r r' := by
  cases hr with
  | index hr =>
      cases hr' with
      | index hr' => exact .index (h.alike h' hr hr')
  -- the order of its keys is not seen in the size of an index
  | indexSize =>
      cases hr'
      cases h
      cases h'
      exact .same _
  | chunk ref =>
      cases hr'
      exact .same _
  | chunksSize =>
      cases hr'
      exact .same _

theorem allAlike {rs rs' : List (Recorded BlockReply)} (h : i.Rekeyed j) (h' : i.Rekeyed j')
    (hrs : List.Forall₂ (Answers j store) requests rs) (hrs' : List.Forall₂ (Answers j' store) requests rs') :
    AllAlike i requests rs rs' := by
  induction hrs generalizing rs' with
  | nil =>
      cases hrs'
      exact .nil
  | cons hr _ ih =>
      cases hrs' with
      | cons hr' hrest' => exact .cons (hr.alike h h' hr') (ih hrest')

end Answers

end BlockRequest

/-- How opening went and the answers to requests, each with what it wrote. -/
structure Session where
  opening : Recorded Unit
  answers : List (Recorded BlockReply)

namespace Session

/-- The session on one thread with what is opened, if it is. -/
def of {α : Type} (opened : Recorded α) (answer : α → BlockRequest → Recorded BlockReply)
    (requests : List BlockRequest) : Session where
  opening := ⟨opened.result.map fun _ => (), opened.journal⟩
  answers :=
    match opened.result with
    | .ok a => requests.map (answer a)
    | .error _ => []

/-- A session depends on what is opened only through its answers. -/
theorem of_map {α β : Type} (opened : Recorded α) (f : α → β)
    (answer : β → BlockRequest → Recorded BlockReply) (requests : List BlockRequest) :
    of ⟨opened.result.map f, opened.journal⟩ answer requests =
      of opened (fun a => answer (f a)) requests := by
  rcases opened with ⟨result, journal⟩
  cases result with
  | ok a => rfl
  | error e => rfl

/-- How a session may go with what is opened, which has an index and a buffer of chunks: the index has its keys in
an order of its own, the same throughout, and each request has an answer. -/
inductive Goes {α : Type} (opened : Recorded α) (index : α → Index) (store : α → ChunkStore)
    (requests : List BlockRequest) : Session → Prop where
  | refused {e : BlockError} : opened.result = .error e →
      Goes opened index store requests ⟨⟨.error e, opened.journal⟩, []⟩
  | opened {a : α} {j : Index} {answers : List (Recorded BlockReply)} : opened.result = .ok a →
      (index a).Rekeyed j → List.Forall₂ (BlockRequest.Answers j (store a)) requests answers →
      Goes opened index store requests ⟨⟨.ok (), opened.journal⟩, answers⟩

section Goes

variable {α β : Type} {opened : Recorded α} {index : α → Index} {store : α → ChunkStore}
  {requests : List BlockRequest} {s s' : Session}

/-- A session on one thread is one that may be had. -/
theorem goes_of (opened : Recorded α) (index : α → Index) (store : α → ChunkStore)
    (requests : List BlockRequest) :
    Goes opened index store requests (of opened (fun a => BlockRequest.answer (index a) (store a)) requests) := by
  rcases opened with ⟨result, journal⟩
  cases result with
  | error e => exact .refused rfl
  | ok a =>
      refine .opened rfl (.refl _) ?_
      rw [List.forall₂_map_right_iff, List.forall₂_same]
      exact fun request _ => BlockRequest.answers_answer _ _ request

/-- Sessions depend on what is opened only through its index and its chunks. -/
theorem goes_map {f : α → β} {index : β → Index} {store : β → ChunkStore} :
    Goes ⟨opened.result.map f, opened.journal⟩ index store requests s ↔
      Goes opened (fun a => index (f a)) (fun a => store (f a)) requests s := by
  rcases opened with ⟨result, journal⟩
  cases result with
  | error e =>
      constructor
      · rintro (⟨⟨⟩⟩ | ⟨⟨⟩, -, -⟩)
        exact .refused rfl
      · rintro (⟨⟨⟩⟩ | ⟨⟨⟩, -, -⟩)
        exact .refused rfl
  | ok a =>
      constructor
      · rintro (⟨⟨⟩⟩ | ⟨⟨⟩, hrekeyed, hanswers⟩)
        exact .opened rfl hrekeyed hanswers
      · rintro (⟨⟨⟩⟩ | ⟨⟨⟩, hrekeyed, hanswers⟩)
        exact .opened rfl hrekeyed hanswers

/-- **Two sessions with what is opened agree**: they are the same if it is refused, and otherwise alike. -/
theorem Goes.agree (h : Goes opened index store requests s) (h' : Goes opened index store requests s') :
    s = s' ∨ ∃ a, opened.result = .ok a ∧ s.opening = s'.opening ∧
      BlockRequest.AllAlike (index a) requests s.answers s'.answers := by
  rcases opened with ⟨result, journal⟩
  cases result with
  | error e =>
      obtain ⟨⟨⟩⟩ | ⟨⟨⟩, -, -⟩ := h
      obtain ⟨⟨⟩⟩ | ⟨⟨⟩, -, -⟩ := h'
      exact .inl rfl
  | ok a =>
      obtain ⟨⟨⟩⟩ | ⟨⟨⟩, hrekeyed, hanswers⟩ := h
      obtain ⟨⟨⟩⟩ | ⟨⟨⟩, hrekeyed', hanswers'⟩ := h'
      exact .inr ⟨a, rfl, rfl, BlockRequest.allAlike hrekeyed hrekeyed' hanswers hanswers'⟩

end Goes

end Session

/-- Whether an event is the failure of a reader to open. -/
def Event.isRefusal : Event → Bool
  | indexOpenFailed _ | seriesReaderOpenFailed _ => true
  | _ => false

/-- A mismatch is told apart from the failure to open. -/
theorem BlockError.countP_mismatch (e : BlockError) : e.mismatch.countP Event.isRefusal = 0 := by
  cases e with
  | checksumMismatch offset expected actual => rfl
  | within offset source => cases source <;> rfl
  | _ => rfl

namespace Block

variable (options : ReaderOptions)

/-- The session on one thread with a block that is loaded. -/
def session (files : BlockFiles) (requests : List BlockRequest) : Session :=
  Session.of (load options files) (fun b => BlockRequest.answer b.index b.chunks) requests

/-- The session on one thread with an index that is opened over chunks, and with these. -/
def readerSession (store : ChunkStore) (b : Bytes) (requests : List BlockRequest) : Session :=
  Session.of (Index.ofBytes options store b) (fun i => BlockRequest.answer i store) requests

/-- The sessions that may be had with a block that is loaded. -/
def Sessions (files : BlockFiles) (requests : List BlockRequest) : Session → Prop :=
  Session.Goes (load options files) index chunks requests

/-- The sessions that may be had with an index that is opened over chunks, and with these. -/
def ReaderSessions (store : ChunkStore) (b : Bytes) (requests : List BlockRequest) : Session → Prop :=
  Session.Goes (Index.ofBytes options store b) id (fun _ => store) requests

/-! ## Loading -/

/-- The four ways in which loading goes, with what is written: a file cannot be read, the chunks are refused,
the index is refused, or both are opened. -/
inductive Loads (options : ReaderOptions) : BlockFiles → Recorded Block → Prop where
  | file {files : BlockFiles} {fault : IoFault} : files.Lacks fault →
      Loads options files ⟨.error (.io fault), []⟩
  | chunks {b c : Bytes} {e : BlockError} : ChunkStore.ofBytes c = .error e →
      Loads options ⟨.ok b, .ok c⟩
        ⟨.error e, [.increment .decodeErrors 1, .event (.seriesReaderOpenFailed e.message)]⟩
  | index {b c : Bytes} {store : ChunkStore} {e : BlockError} : ChunkStore.ofBytes c = .ok store →
      (Index.ofBytes options store b).result = .error e →
      Loads options ⟨.ok b, .ok c⟩
        ⟨.error e, e.report ++ [.increment .decodeErrors 1, .event (.indexOpenFailed e.message)]⟩
  | both {b c : Bytes} {store : ChunkStore} {i : Index} : ChunkStore.ofBytes c = .ok store →
      (Index.ofBytes options store b).result = .ok i →
      Loads options ⟨.ok b, .ok c⟩
        ⟨.ok ⟨i, store⟩, [.event (.indexOpened i.labels.size i.postingsMap.size)]⟩

section Loading

variable {options : ReaderOptions} {files : BlockFiles} {fault : IoFault} {e : BlockError}
  {store : ChunkStore} {b c : Bytes} {r : Recorded Block}

theorem load_of_lacks (h : files.Lacks fault) : load options files = ⟨.error (.io fault), []⟩ := by
  rw [load, BlockFiles.read_of_lacks h]
  rfl

/-- Both files are read before either is opened. -/
theorem load_of_read (options : ReaderOptions) (b c : Bytes) :
    load options ⟨.ok b, .ok c⟩ = openChunks c >>= fun store =>
      Index.ofBytes options store b >>= fun i => pure ⟨i, store⟩ :=
  rfl

theorem openChunks_of_error (h : ChunkStore.ofBytes c = .error e) :
    openChunks c =
      ⟨.error e, [.increment .decodeErrors 1, .event (.seriesReaderOpenFailed e.message)]⟩ := by
  rw [openChunks, h]
  rfl

theorem openChunks_of_ok (h : ChunkStore.ofBytes c = .ok store) : openChunks c = pure store := by
  rw [openChunks, h]
  rfl

/-- **Chunks that are refused** end the loading, whatever is in the file of the index. -/
theorem load_of_refused (h : ChunkStore.ofBytes c = .error e) :
    load options ⟨.ok b, .ok c⟩ =
      ⟨.error e, [.increment .decodeErrors 1, .event (.seriesReaderOpenFailed e.message)]⟩ := by
  rw [load_of_read, openChunks_of_error h]
  rfl

/-- **Over chunks that are opened**, loading is opening the index. -/
theorem load_of_opened (h : ChunkStore.ofBytes c = .ok store) :
    load options ⟨.ok b, .ok c⟩ = ⟨(Index.ofBytes options store b).result.map (⟨·, store⟩),
      (Index.ofBytes options store b).journal⟩ := by
  rw [load_of_read, openChunks_of_ok h, ← Recorded.bind_pure_eq]
  rfl

/-- **Loading goes in one of the four ways.** -/
theorem loads_load (options : ReaderOptions) (files : BlockFiles) :
    Loads options files (load options files) := by
  rcases files.read_cases with ⟨fault, hlacks⟩ | ⟨b, c, rfl⟩
  · rw [load_of_lacks hlacks]
    exact .file hlacks
  · cases hc : ChunkStore.ofBytes c with
    | error e =>
        rw [load_of_refused hc]
        exact .chunks hc
    | ok store =>
        rw [load_of_opened hc, Index.journal_ofBytes]
        cases hr : (Index.ofBytes options store b).result with
        | error e => exact .index hc hr
        | ok i => exact .both hc hr

/-- Loading fails on a file exactly if one of the two cannot be read: the readers fail on bytes. -/
theorem Loads.io_iff (h : Loads options files r) :
    r.result = .error (.io fault) ↔ files.Lacks fault := by
  cases h with
  | @file _ fault' hlacks =>
      constructor
      · rintro ⟨⟩
        exact hlacks
      · intro hfault
        have hload : load options files = _ := load_of_lacks hlacks
        rw [load_of_lacks hfault] at hload
        cases hload
        rfl
  | chunks hrefused =>
      refine iff_of_false ?_ BlockFiles.not_lacks_of_read
      rintro ⟨⟩
      cases (ChunkStore.isPlain_of_ofBytes hrefused).isCorruption
  | index hopened hrefused =>
      refine iff_of_false ?_ BlockFiles.not_lacks_of_read
      rintro ⟨⟩
      cases (Index.result_ofBytes_eq_error_iff.1 hrefused).isCorruption
  | both hopened hindex =>
      exact iff_of_false nofun BlockFiles.not_lacks_of_read

/-- **A failure of a reader is counted once**, that of a file is not. -/
theorem Loads.count (h : Loads options files r) (c : Counter) :
    r.journal.count c = Tally.contents r.result c := by
  cases h with
  | file hlacks => cases c <;> rfl
  | chunks hrefused =>
      have hcorrupt := (ChunkStore.isPlain_of_ofBytes hrefused).isCorruption
      cases c <;> simp [Journal.count, Tally.contents, isCorrupt, hcorrupt]
  | index hopened hrefused =>
      have hcorrupt := (Index.result_ofBytes_eq_error_iff.1 hrefused).isCorruption
      rw [Journal.count_append, Journal.count_report]
      cases c <;> simp [Journal.count, Tally.contents, isCorrupt, hcorrupt]
  | both hopened hindex => cases c <;> rfl

/-- **A failure of a reader is told once**, by the reader that fails. -/
theorem Loads.told (h : Loads options files r) :
    r.journal.events.countP Event.isRefusal = if isCorrupt r.result then 1 else 0 := by
  cases h with
  | file hlacks => rfl
  | chunks hrefused =>
      rw [isCorrupt, (ChunkStore.isPlain_of_ofBytes hrefused).isCorruption]
      rfl
  | @index _ _ _ e hopened hrefused =>
      rw [isCorrupt, (Index.result_ofBytes_eq_error_iff.1 hrefused).isCorruption,
        Journal.events_append, Journal.events_report, List.countP_append, e.countP_mismatch]
      rfl
  | both hopened hindex => rfl

/-- The index of a block that is loaded reads the chunks of the block. -/
theorem Loads.shared (h : Loads options files r) {block : Block} (hblock : r.result = .ok block) :
    block.index.chunks = block.chunks := by
  cases h with
  | file hlacks => cases hblock
  | chunks hrefused => cases hblock
  | index hopened hrefused => cases hblock
  | both hopened hindex =>
      cases hblock
      obtain ⟨lo, po, labels, postings, -, -, -, rfl⟩ := Index.result_ofBytes_eq_ok_iff.1 hindex
      rfl

/-- The index of a block that is loaded reads under the options of the block. -/
theorem Loads.options_of_ok (h : Loads options files r) {block : Block} (hblock : r.result = .ok block) :
    block.index.options = options := by
  cases h with
  | file hlacks => cases hblock
  | chunks hrefused => cases hblock
  | index hopened hrefused => cases hblock
  | both hopened hindex =>
      cases hblock
      obtain ⟨lo, po, labels, postings, -, -, -, rfl⟩ := Index.result_ofBytes_eq_ok_iff.1 hindex
      rfl

/-- A block that is loaded is told as its index, which is opened. -/
theorem Loads.journal_of_ok (h : Loads options files r) {block : Block} (hblock : r.result = .ok block) :
    r.journal = [.event (.indexOpened block.index.labels.size block.index.postingsMap.size)] := by
  cases h with
  | file hlacks => cases hblock
  | chunks hrefused => cases hblock
  | index hopened hrefused => cases hblock
  | both hopened hindex =>
      cases hblock
      rfl

/-- A session with a block is one with its two readers. -/
theorem session_of_opened (h : ChunkStore.ofBytes c = .ok store) (requests : List BlockRequest) :
    session options ⟨.ok b, .ok c⟩ requests = readerSession options store b requests := by
  rw [session, load_of_opened h, Session.of_map]
  rfl

/-- **The sessions with a block are those with its two readers.** -/
theorem sessions_iff (h : ChunkStore.ofBytes c = .ok store) {requests : List BlockRequest} {s : Session} :
    Sessions options ⟨.ok b, .ok c⟩ requests s ↔ ReaderSessions options store b requests s := by
  rw [Sessions, load_of_opened h, Session.goes_map]
  rfl

end Loading

/-- **Loading agrees with the two readers.** If a file cannot be read, the first of the two decides, and
nothing is told or counted. Chunks that are refused are told with the wording of the error and counted once,
whatever is in the file of the index. Over chunks that are opened, the session on one thread with the block is that
with the index and the chunks: opening and the answer to every request have the same results and write the same.
With any threads, and the keys of each index in an order of its own, the same sessions may be had with the block and
with the two readers, and any one with the block agrees with any one with the readers but for what is left to chance:
which of several broken keys a listing reports, and on which of several failing look-ups a selection ends and what
look-ups it has made until then. The index of a block reads the chunks of the block, and no failure of a reader is
told or counted twice or lost. -/
theorem loading_agrees_with_readers (options : ReaderOptions) :
    (∀ files fault, ((load options files).result = .error (.io fault) ↔ files.Lacks fault) ∧
      (files.Lacks fault → (load options files).journal = [])) ∧
    (∀ b c e, ChunkStore.ofBytes c = .error e →
      (load options ⟨.ok b, .ok c⟩).result = .error e ∧
      (load options ⟨.ok b, .ok c⟩).journal.events = [.seriesReaderOpenFailed e.message] ∧
      ∀ counter, (load options ⟨.ok b, .ok c⟩).journal.count counter =
        if counter = .decodeErrors then 1 else 0) ∧
    (∀ b c store, ChunkStore.ofBytes c = .ok store →
      (load options ⟨.ok b, .ok c⟩ = do
        let i ← Index.ofBytes options store b
        pure ⟨i, store⟩) ∧
      ∀ requests, session options ⟨.ok b, .ok c⟩ requests = readerSession options store b requests ∧
        Sessions options ⟨.ok b, .ok c⟩ requests (session options ⟨.ok b, .ok c⟩ requests) ∧
        (∀ s, Sessions options ⟨.ok b, .ok c⟩ requests s ↔ ReaderSessions options store b requests s) ∧
        ∀ s s', Sessions options ⟨.ok b, .ok c⟩ requests s → ReaderSessions options store b requests s' →
          s = s' ∨ ∃ i, (Index.ofBytes options store b).result = .ok i ∧ s.opening = s'.opening ∧
            BlockRequest.AllAlike i requests s.answers s'.answers) ∧
    ∀ files,
      (∀ block, (load options files).result = .ok block → block.index.chunks = block.chunks) ∧
      (load options files).journal.events.countP Event.isRefusal =
        (if isCorrupt (load options files).result then 1 else 0) ∧
      ∀ counter, (load options files).journal.count counter =
        Tally.contents (load options files).result counter := by
  refine ⟨?_, ?_, ?_, ?_⟩
  · intro files fault
    refine ⟨(loads_load options files).io_iff, ?_⟩
    intro hlacks
    rw [load_of_lacks hlacks]
  · intro b c e hrefused
    rw [load_of_refused hrefused]
    refine ⟨rfl, rfl, ?_⟩
    intro counter
    cases counter <;> rfl
  · intro b c store hopened
    refine ⟨?_, fun requests => ⟨session_of_opened hopened requests, Session.goes_of _ _ _ _,
      fun s => sessions_iff hopened, fun s s' hs hs' => ((sessions_iff hopened).1 hs).agree hs'⟩⟩
    rw [load_of_opened hopened, Recorded.bind_pure_eq]
  · intro files
    have hloads := loads_load options files
    exact ⟨fun _ => hloads.shared, hloads.told, hloads.count⟩

/-- A buffer with one chunk. -/
def withOneChunk : Bytes :=
  Bytes.ofWord32 ChunkStore.magic ++ [1, 0, 7]

/-- Of two files that cannot be read the chunks decide, a buffer that is no index is not looked at behind
chunks that are refused, and the one chunk is read alike from a block and from its reader. -/
theorem loading_agrees_with_readers_withOneChunk :
    (load {} ⟨.error .notFound, .error .isADirectory⟩).result = .error (.io .isADirectory) ∧
      (load {} ⟨.error .notFound, .error .isADirectory⟩).journal = [] ∧
      (load {} ⟨.ok [], .ok [0, 0, 0, 9]⟩).journal.events =
        [.seriesReaderOpenFailed "invalid magic number 0x00000009 (expected 0x85bd40dd)"] ∧
      session {} ⟨.ok Index.withOneMap, .ok withOneChunk⟩ [.chunk 4, .index (.chunk 4)] =
        ⟨⟨.ok (), [.event (.indexOpened 1 1)]⟩,
          [⟨.ok (.chunk ⟨.none, [7]⟩), [.increment .chunkReads 1]⟩,
            ⟨.ok (.index (.chunk ⟨.none, [7]⟩)), [.increment .chunkReads 1]⟩]⟩ := by
  obtain ⟨hfiles, hrefused, hopened, -⟩ := loading_agrees_with_readers {}
  obtain ⟨hio, hsilent⟩ := hfiles ⟨.error .notFound, .error .isADirectory⟩ .isADirectory
  obtain ⟨-, htold, -⟩ := hrefused [] [0, 0, 0, 9] (.invalidMagic ChunkStore.magic 9) (by decide)
  obtain ⟨-, hsessions⟩ := hopened Index.withOneMap withOneChunk ⟨withOneChunk⟩ (by decide)
  obtain ⟨hsession, -⟩ := hsessions [.chunk 4, .index (.chunk 4)]
  refine ⟨hio.2 (.chunks rfl), hsilent (.chunks rfl), htold.trans (by decide +kernel), ?_⟩
  have hmap := Index.mapAt_withOneMap {}
  have hindex : (Index.ofBytes {} ⟨withOneChunk⟩ Index.withOneMap).result = .ok _ :=
    Index.result_ofBytes_eq_ok_iff.2 ⟨4, 4, _, _, Index.ends_withOneMap, hmap, hmap, rfl⟩
  rw [hsession, readerSession, Session.of, Index.journal_ofBytes, hindex]
  rfl

/-- A session with a block and one with its two readers that list label indices by different errors and end a
selection on different look-ups, of which either writes what it failed on. -/
theorem sessions_meet_chance :
    ∃ s s' : Session,
      Sessions {} ⟨.ok Index.withTwoFaults, .ok withOneChunk⟩
        [.index .labelIndices, .index (.select "a" "b" 0 9)] s ∧
      ReaderSessions {} ⟨withOneChunk⟩ Index.withTwoFaults
        [.index .labelIndices, .index (.select "a" "b" 0 9)] s' ∧
      s.answers.map Recorded.result =
        [.error (.invalidUtf8 "invalid utf-8 sequence of 1 bytes from index 0"), .error .invalidSize] ∧
      s'.answers.map Recorded.result =
        [.error (.invalidUtf8 "invalid utf-8 sequence of 1 bytes from index 1"), .error .invalidLength] ∧
      s.answers.map (fun r => r.journal.events) = [[], [.seriesDecodeFailed 1000 "invalid size"]] ∧
      s'.answers.map (fun r => r.journal.events) = [[], [.seriesDecodeFailed 4 "invalid length"]] := by
  have hgoes (labels : List (Bytes × UInt32)) {text : String} {ref : SeriesRef} {e : BlockError}
      (hrekeyed : (Index.twoFaults {} ⟨withOneChunk⟩ Index.brokenKeys).Rekeyed
        (Index.twoFaults {} ⟨withOneChunk⟩ labels))
      (hlisted : (Index.twoFaults {} ⟨withOneChunk⟩ labels).labelIndices = ⟨.error (.invalidUtf8 text), []⟩)
      (hmem : ref ∈ [1000, 4])
      (hfails : ((Index.twoFaults {} ⟨withOneChunk⟩ labels).series ref 0 9).result = .error e) :
      ∃ s : Session,
        ReaderSessions {} ⟨withOneChunk⟩ Index.withTwoFaults
          [.index .labelIndices, .index (.select "a" "b" 0 9)] s ∧
        s.answers.map Recorded.result = [.error (.invalidUtf8 text), .error e] ∧
        s.answers.map (fun r => r.journal.events) = [[], [.seriesDecodeFailed ref e.message]] := by
    have hp := Index.postings_twoFaults {} ⟨withOneChunk⟩ labels
    have hselects := Index.selects_of_error hp hmem hfails
    refine ⟨_, .opened (Index.ofBytes_withTwoFaults _ _) hrekeyed
      (.cons (.index (.alone .labelIndices)) (.cons (.index (.pool hselects)) .nil)), ?_, ?_⟩
    · rw [Index.answer, hlisted]
      rfl
    · have hheard := Index.events_lookUpJournal hp 0 9 [ref]
      rw [List.flatMap_singleton, Index.seriesTrace, hfails] at hheard
      rw [Index.answer, hlisted]
      exact congrArg (fun events => [[], events]) hheard
  have hreported := Index.labelIndices_twoFaults {} ⟨withOneChunk⟩
  have hrefs := Index.series_twoFaults {} ⟨withOneChunk⟩
  obtain ⟨s, hs, hresults, hevents⟩ := hgoes _ (.refl _) hreported.1 (by decide) (hrefs _).1
  obtain ⟨s', hs', hresults', hevents'⟩ :=
    hgoes _ (Index.rekeyed_twoFaults _ _) hreported.2 (by decide) (hrefs _).2
  exact ⟨s, s', (sessions_iff (by decide)).2 hs, hs', hresults, hresults', hevents, hevents'⟩

end Block

end SeriesBlock
