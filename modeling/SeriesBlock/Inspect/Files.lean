import SeriesBlock.Error
import SeriesBlock.Text.Utf8

/-!
# Files as the inspection tool sees them

The tool asks two things of a file system: what a path leads to, and what a file holds. It works over any answer to
these (`FileAccess`), so that the same program runs over the real file system and over a `FileTree`, a list of
files by their paths.
-/

set_option autoImplicit false

namespace SeriesBlock.Inspect

/-- What a path may lead to. -/
inductive EntryKind where
  | file
  | directory
  /-- Something to read or write that is no file. -/
  | device
deriving DecidableEq, Repr

/-- The questions to a file system. -/
structure FileAccess (m : Type → Type) where
  /-- The path of the working directory. -/
  here : m String
  /-- What a path leads to, if to anything. -/
  kind? : String → m (Option EntryKind)
  /-- The contents of the file at a path. -/
  read : String → m (Except IoFault Bytes)

/-! ## Paths -/

/-- The path that a second one means from a directory. -/
def pathIn (directory path : String) : String :=
  if path.startsWith "/" then path
  else if directory.isEmpty || directory.endsWith "/" then directory ++ path
  else directory ++ "/" ++ path

/-- The parts of a path between its slashes. -/
def pathParts (path : String) : List String :=
  (path.toList.splitOn '/').map String.ofList

/-- Whether a part of a path leads nowhere else. -/
def isHere (part : String) : Bool :=
  part.isEmpty || part = "."

/-! ## Trees of files -/

/-- What stands at the end of a path. -/
inductive FileEntry where
  | file (contents : Bytes)
  | directory
  | device
deriving DecidableEq, Repr

/-- What kind of entry it is. -/
def FileEntry.kind : FileEntry → EntryKind
  | file _ => .file
  | directory => .directory
  | device => .device

/-- Entries with their paths from the root of the file system, each path as the names on it, and the working
directory. Directories above an entry or above the working directory need no entries of their own. -/
structure FileTree where
  here : List String
  entries : List (List String × FileEntry)

namespace FileTree

/-- The longest name that a path may have on it, in bytes. -/
def nameLimit : Nat := 255

/-- The longest path, in bytes. -/
def pathLimit : Nat := 4095

/-- Directories that are there on every machine. -/
def usualDirectories : List String :=
  ["/bin", "/dev/shm", "/etc", "/home", "/lib", "/media", "/mnt", "/opt", "/proc/self", "/root", "/run", "/sbin",
    "/srv", "/sys", "/tmp", "/usr/bin", "/usr/lib", "/usr/local", "/usr/sbin", "/usr/share", "/var/lib", "/var/log",
    "/var/tmp"]

/-- Files that are there on every machine; what they hold does not matter. -/
def usualFiles : List String :=
  ["/bin/sh", "/etc/group", "/etc/hostname", "/etc/hosts", "/etc/passwd", "/proc/version", "/usr/bin/env"]

/-- Devices that are there on every machine. -/
def usualDevices : List String :=
  ["/dev/full", "/dev/null", "/dev/random", "/dev/tty", "/dev/urandom", "/dev/zero"]

/-- The names on a path. -/
def names (path : String) : List String :=
  (pathParts path).filter (!isHere ·)

/-- What is there on every machine. -/
def surroundings : List (List String × FileEntry) :=
  usualDirectories.map (names ·, .directory) ++ usualFiles.map (names ·, .file []) ++
    usualDevices.map (names ·, .device)

/-- The tree of the given files in an otherwise empty working directory. -/
def ofList (files : List (String × Bytes)) : FileTree :=
  let here := ["tmp", "inspection"]
  ⟨here, files.map (fun (path, contents) => (here ++ names path, .file contents)) ++ surroundings⟩

/-- What a path of names leads to. -/
def entry? (t : FileTree) (path : List String) : Option FileEntry :=
  match t.entries.lookup path with
  | some e => some e
  | none =>
    if path.isPrefixOf t.here || t.entries.any fun e => path.isPrefixOf e.1 then some .directory else none

/-- Walks along the parts of a path from a directory. Two points lead back up, but not beyond the root. Only from a
directory does anything lead on, be it a slash at the end. -/
def walk (t : FileTree) (place : List String) : List String → Except IoFault FileEntry
  | [] => .ok .directory
  | part :: more =>
    if isHere part then walk t place more
    else if part = ".." then walk t place.dropLast more
    else if nameLimit < part.utf8ByteSize then .error .nameTooLong
    else
      match t.entry? (place ++ [part]) with
      | none => .error .notFound
      | some .directory => walk t (place ++ [part]) more
      | some e => if more.isEmpty then .ok e else .error .notADirectory

/-- What a path leads to. -/
def resolve (t : FileTree) (path : String) : Except IoFault FileEntry :=
  if path.contains '\x00' then .error .nulInName
  else if pathLimit < path.utf8ByteSize then .error .nameTooLong
  else if path.isEmpty then .error .notFound
  else t.walk (if path.startsWith "/" then [] else t.here) (pathParts path)

/-- The contents of the file at a path. Nothing comes from a device. -/
def read (t : FileTree) (path : String) : Except IoFault Bytes :=
  match t.resolve path with
  | .ok (.file contents) => .ok contents
  | .ok .device => .ok []
  | .ok .directory => .error .isADirectory
  | .error fault => .error fault

/-- The answers of a tree. -/
def access (t : FileTree) : FileAccess Id where
  here := "/" ++ "/".intercalate t.here
  kind? path := (t.resolve path).toOption.map FileEntry.kind
  read := t.read

end FileTree

end SeriesBlock.Inspect
