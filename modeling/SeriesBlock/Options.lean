import SeriesBlock.Document
import SeriesBlock.Journal

/-!
# Options of a reader

Whether checksums are verified before a section is used, and whether anyone listens to the events. Options may be
layered: a partial setting overwrites only what it sets.
-/

set_option autoImplicit false

namespace SeriesBlock

/-- Who hears of a reader's events. -/
inductive Listener where
  /-- Nobody. -/
  | none
  /-- Someone who keeps all of them. -/
  | recorder
deriving DecidableEq, Repr

/-- What a listener hears of a journal. -/
def Listener.hear : Listener → Journal → List Event
  | .none, _ => []
  | .recorder, j => j.events

/-- How a reader works. -/
structure ReaderOptions where
  /-- Compare every section's checksum with its trailer before the section is used. -/
  verifyChecksums : Bool := false
  listener : Listener := .none
deriving DecidableEq, Repr

/-- Settings for a reader of which each may be left out. -/
structure PartialReaderOptions where
  verifyChecksums : Option Bool := none
deriving DecidableEq, Repr

/-- The options with the settings of a partial one where it has them. -/
def ReaderOptions.merge (o : ReaderOptions) (p : PartialReaderOptions) : ReaderOptions :=
  { o with verifyChecksums := p.verifyChecksums.getD o.verifyChecksums }

/-- Partial settings from a document: an object, or a list of the settings in order. -/
def PartialReaderOptions.ofDocument? (d : Document) : Option PartialReaderOptions := do
  let fields ← d.fields? ["verify_checksums"]
  match fields with
  | [v] =>
    match v with
    | none | some .null => some {}
    | some (.boolean b) => some { verifyChecksums := some b }
    | some _ => none
  | _ => none

end SeriesBlock
