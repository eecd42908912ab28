import TypeSuite.Path.Basic

/-!
# File stores

A store holds files and directories under one root, together with the directory that relative paths
start from. Reading and writing follow a path name by name, so a path may only pass through
directories that are there. Links and permissions are left out: a file lies at one place and has
nothing else that leads to it, and everything may be read and written.
-/

namespace TypeSuite

/-- A place in a store: the names that lead to it from the root. -/
abbrev Location := List String

/-- What is at a place. -/
inductive Entry where
  | file (content : ByteArray)
  | directory

instance : DecidableEq Entry
  | .file a, .file b =>
    match ByteArray.instDecidableEq a b with
    | isTrue h => isTrue (congrArg Entry.file h)
    | isFalse h => isFalse fun e => h (Entry.file.inj e)
  | .directory, .directory => isTrue rfl
  | .file _, .directory => isFalse fun e => nomatch e
  | .directory, .file _ => isFalse fun e => nomatch e

/-- A store of files, without links and permissions. -/
structure Store where
  entries : List (Location × Entry)
  /-- Where relative paths start. This directory and those above it are always there. -/
  home : Location

/-- Why a path cannot be used. -/
inductive FileFault where
  | notFound
  | alreadyExists
  | notDirectory
  | isDirectory
  | nameTooLong
  /-- A name holds the null character, which no file system admits. -/
  | nullInName
deriving DecidableEq, Repr

/-- The most bytes that a name may have. -/
def maxNameSize : Nat := 255

namespace Store

/-- The store without files, with its root as the home. -/
def empty : Store := ⟨[], []⟩

/-- What is at a place. -/
def entryAt? (s : Store) (l : Location) : Option Entry :=
  if l.isPrefixOf s.home then some .directory else s.entries.lookup l

/-- A store with an entry put at a place. -/
def put (s : Store) (l : Location) (e : Entry) : Store :=
  { s with entries := (l, e) :: s.entries.filter fun old => !(old.1 == l) }

/-- The place that a name leads to from a directory. -/
def step (l : Location) (name : String) : Location :=
  if name == ".." then l.dropLast else l ++ [name]

/-- The place that names lead to from a directory. All but the last have to lead to directories. -/
def walk (s : Store) (l : Location) : List String → Except FileFault Location
  | [] => .ok l
  | name :: rest =>
    if maxNameSize < name.utf8ByteSize then .error .nameTooLong
    else if rest.isEmpty then .ok (step l name)
    else match s.entryAt? (step l name) with
      | none => .error .notFound
      | some (.file _) => .error .notDirectory
      | some .directory => walk s (step l name) rest

/-- The place of a path. -/
def locate (s : Store) (p : Path) : Except FileFault Location :=
  if p.parts.any fun name => name.toList.contains '\x00' then .error .nullInName
  else s.walk (if p.root.isEmpty then s.home else []) p.parts

/-- What is at a path. -/
def find (s : Store) (p : Path) : Except FileFault Entry := do
  match s.entryAt? (← s.locate p) with
  | some entry => return entry
  | none => throw .notFound

/-- Whether there is a directory at a path. -/
def isDirectory (s : Store) (p : Path) : Bool :=
  match s.find p with
  | .ok .directory => true
  | _ => false

/-- The content of the file at a path. -/
def read (s : Store) (p : Path) : Except FileFault ByteArray := do
  match ← s.find p with
  | .file content => return content
  | .directory => throw .isDirectory

/-- Changes the content of the file at a path, or makes the file from nothing. -/
def alter (s : Store) (p : Path) (change : ByteArray → ByteArray) : Except FileFault Store := do
  let l ← s.locate p
  match s.entryAt? l with
  | some .directory => throw .isDirectory
  | some (.file content) => return s.put l (.file (change content))
  | none => return s.put l (.file (change .empty))

/-- Writes a file. -/
def write (s : Store) (p : Path) (content : ByteArray) : Except FileFault Store :=
  s.alter p fun _ => content

/-- Adds to the end of a file. -/
def append (s : Store) (p : Path) (content : ByteArray) : Except FileFault Store :=
  s.alter p (· ++ content)

/-- Makes the directory at a path, inside one that is there. -/
def makeDirectory (s : Store) (p : Path) : Except FileFault Store := do
  let l ← s.locate p
  match s.entryAt? l with
  | some _ => throw .alreadyExists
  | none => return s.put l .directory

end Store

/-- A fault with the path that was to be used. -/
structure FileError where
  fault : FileFault
  path : Path
deriving DecidableEq, Repr

/-- Work on a store, which keeps what was done before it fails. -/
abbrev StoreWork := ExceptT FileError (StateM Store)

namespace StoreWork

/-- A change of the store by way of a path. -/
def change (path : Path) (f : Store → Except FileFault Store) : StoreWork Unit := do
  match f (← get) with
  | .ok s => set s
  | .error fault => throw ⟨fault, path⟩

/-- Makes the directory at a path unless it is there. -/
def ensureDirectory (p : Path) : StoreWork Unit :=
  change p fun s =>
    match s.makeDirectory p with
    | .ok made => .ok made
    | .error fault => if s.isDirectory p then .ok s else .error fault

/-- Makes the directory that names lead to from a root, with all directories above it. The names
are given from the last to the first. -/
def makeAll (root : String) : List String → StoreWork Unit
  | [] => ensureDirectory ⟨root, []⟩
  | name :: above => do
    let p : Path := ⟨root, (name :: above).reverse⟩
    if (← get).makeDirectory p matches .error .notFound then makeAll root above
    ensureDirectory p

/-- Makes the directory at a path with all directories above it. -/
def makeDirectories (p : Path) : StoreWork Unit :=
  makeAll p.root p.parts.reverse

/-- Writes a file with all directories above it. -/
def writeWithParents (p : Path) (content : ByteArray) : StoreWork Unit := do
  makeDirectories p.parent
  change p (·.write p content)

/-- Opens a file for adding to it, with all directories above it. -/
def openWithParents (p : Path) : StoreWork Unit := do
  makeDirectories p.parent
  change p (·.append p .empty)

end StoreWork

namespace Store

/-- The files of a store. -/
def files (s : Store) : List (Location × ByteArray) :=
  s.entries.filterMap fun e =>
    match e.2 with
    | .file content => some (e.1, content)
    | .directory => none

/-- The files of a store that are new or differ from those of an earlier one. -/
def changedFiles (s earlier : Store) : List (Location × ByteArray) :=
  s.files.filter fun f => earlier.entryAt? f.1 != some (.file f.2)

/-- The directories that an earlier store lacks, outer ones first. -/
def newDirectories (s earlier : Store) : List Location :=
  s.entries.reverse.filterMap fun e =>
    if e.2 matches .directory && earlier.entryAt? e.1 matches none then some e.1 else none

/-- The places that names lead through from a directory. -/
def passed (l : Location) : List String → List Location
  | [] => []
  | name :: rest => step l name :: passed (step l name) rest

/-- The places that a path leads through in a store with a given home. -/
def placesOf (home : Location) (p : Path) : List Location :=
  passed (if p.root.isEmpty then home else []) p.parts

/-- The text of a place as a path from the home, or from the root if it lies outside. -/
def placeText (s : Store) (l : Location) : String :=
  if s.home.isPrefixOf l then "/".intercalate (l.drop s.home.length)
  else "/" ++ "/".intercalate l

end Store

end TypeSuite
