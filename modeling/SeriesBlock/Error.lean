import SeriesBlock.Text.Hex
import SeriesBlock.Text.Quoted

/-!
# What can go wrong

One type of error for every operation on a block. Most causes mean that the block is corrupt or was written in
another format (`isCorruption`); `notFound` is an expected miss on a look-up key. An error may be tied to the
section it arose in (`inSection`), once: an error that already names its section keeps that one.

`message` is the wording for people, `debug` the form that names each part, and `sources` lists the messages of
the errors inside, outermost first.
-/

set_option autoImplicit false

namespace SeriesBlock

/-- Why a chunk's payload was refused. -/
inductive CodecFault where
  /-- The encoding tag is none of the known ones. -/
  | unknownEncoding (tag : UInt8)
  /-- A refusal in a codec's own words. -/
  | other (text : String)
deriving DecidableEq, Repr

/-- Why a file could not be read. -/
inductive IoFault where
  /-- The system refused, with its number and name for the cause. -/
  | system (code : Nat) (kind text : String)
  /-- A request that is not put to the system, with the name of its cause. -/
  | refused (kind text : String)
  /-- A refusal in other words. -/
  | other (text : String)
deriving DecidableEq, Repr

/-- Why an operation on a block failed. -/
inductive BlockError where
  /-- A region does not fit its buffer, or its contents do not fit the region. -/
  | invalidSize
  /-- A section has an encoding flag other than the standard one. -/
  | invalidFlag (flag : UInt8)
  /-- A symbol does not fit the index buffer. -/
  | invalidLength
  /-- A buffer starts with another word than its kind demands. -/
  | invalidMagic (expected found : UInt32)
  /-- Bytes that should be text are not, for the stated reason. -/
  | invalidUtf8 (text : String)
  /-- The stored trailer of the section at `offset` differs from the checksum of its contents. -/
  | checksumMismatch (offset expected actual : UInt32)
  /-- An error that arose in the section at `offset`. -/
  | within (offset : UInt32) (source : BlockError)
  /-- There is nothing under the given key. -/
  | notFound (text : String)
  /-- A chunk's payload was refused. -/
  | codec (fault : CodecFault)
  /-- A file could not be read. -/
  | io (fault : IoFault)
  /-- The settings are unusable. -/
  | config (text : String)
deriving DecidableEq, Repr

/-! ## Wording -/

/-- The wording of a codec's refusal. -/
def CodecFault.message : CodecFault → String
  | .unknownEncoding tag => s!"unknown chunk encoding {tag}"
  | .other text => text

/-- A codec's refusal, part by part. -/
def CodecFault.debug : CodecFault → String
  | .unknownEncoding tag => s!"UnknownEncoding({tag})"
  | .other text => Text.quoted text

/-- The wording of a file failure. -/
def IoFault.message : IoFault → String
  | .system code _ text => s!"{text} (os error {code})"
  | .refused _ text => text
  | .other text => text

/-- There is no such file. -/
def IoFault.notFound : IoFault := .system 2 "NotFound" "No such file or directory"

/-- A path leads through something that is not a directory. -/
def IoFault.notADirectory : IoFault := .system 20 "NotADirectory" "Not a directory"

/-- A directory stands where a file should. -/
def IoFault.isADirectory : IoFault := .system 21 "IsADirectory" "Is a directory"

/-- A name on a path is longer than the system allows. -/
def IoFault.nameTooLong : IoFault := .system 36 "InvalidFilename" "File name too long"

/-- A path has a character on it that no path may have. -/
def IoFault.nulInName : IoFault := .refused "InvalidInput" "file name contained an unexpected NUL byte"

/-- A file failure, part by part. -/
def IoFault.debug : IoFault → String
  | .system code kind text =>
    s!"Os \x7b code: {code}, kind: {kind}, message: {Text.quoted text} \x7d"
  | .refused kind text => s!"Error \x7b kind: {kind}, message: {Text.quoted text} \x7d"
  | .other text => s!"Custom \x7b kind: Other, error: {Text.quoted text} \x7d"

namespace BlockError

/-- The wording of an error. -/
def message : BlockError → String
  | invalidSize => "invalid size"
  | invalidFlag flag => "invalid flag " ++ Text.hex 2 flag.toNat
  | invalidLength => "invalid length"
  | invalidMagic expected found =>
    s!"invalid magic number {Text.hex 8 found.toNat} (expected {Text.hex 8 expected.toNat})"
  | invalidUtf8 text => "invalid UTF-8: " ++ text
  | checksumMismatch offset expected actual =>
    s!"checksum mismatch in section at offset {offset}: " ++
      s!"expected={Text.hex 8 expected.toNat}, actual={Text.hex 8 actual.toNat}"
  | within offset source => s!"section at offset {offset}: " ++ source.message
  | notFound text => "not found: " ++ text
  | codec fault => "chunk codec: " ++ fault.message
  | io fault => "I/O Error: " ++ fault.message
  | config text => "Configuration Error: " ++ text

/-- An error, part by part. -/
def debug : BlockError → String
  | invalidSize => "InvalidSize"
  | invalidFlag flag => s!"InvalidFlag({flag})"
  | invalidLength => "InvalidLength"
  | invalidMagic expected found => s!"InvalidMagic \x7b expected: {expected}, found: {found} \x7d"
  | invalidUtf8 text => s!"InvalidUtf8({Text.quoted text})"
  | checksumMismatch offset expected actual =>
    s!"ChecksumMismatch \x7b offset: {offset}, expected: {expected}, actual: {actual} \x7d"
  | within offset source => s!"Section \x7b offset: {offset}, source: {source.debug} \x7d"
  | notFound text => s!"NotFound({Text.quoted text})"
  | codec fault => s!"Codec({fault.debug})"
  | io fault => s!"Io({fault.debug})"
  | config text => s!"Config({Text.quoted text})"

/-- The messages of the errors inside an error, outermost first. -/
def sources : BlockError → List String
  | within _ source => source.message :: source.sources
  | codec fault => [fault.message]
  | io fault => [fault.message]
  | _ => []

/-! ## Classes -/

/-- Whether an error is an expected miss on a look-up key. -/
def isNotFound : BlockError → Bool
  | notFound _ => true
  | _ => false

/-- Whether an error means that the block is corrupt or in another format. An error inside a section is of the
class of its cause. -/
def isCorruption : BlockError → Bool
  | invalidSize | invalidFlag _ | invalidLength | invalidMagic _ _ | invalidUtf8 _
  | checksumMismatch _ _ _ => true
  | within _ source => source.isCorruption
  | notFound _ | codec _ | io _ | config _ => false

/-- Ties an error to the section at `offset`, unless it already names one. -/
def inSection (offset : UInt32) : BlockError → BlockError
  | within inner source => within inner source
  | e => within offset e

end BlockError

end SeriesBlock
