import ObjectRuntime.Host.Descriptor
import ObjectRuntime.Text.Utf8

/-! A file system in memory, as a host. There is one tree of directories and files, and a current
directory in it from which paths go that do not begin with a slash. Descriptors are numbered from a first
number upwards, the least free number first; each has an offset of its own, and several may be open on
one file. -/

namespace ObjectRuntime

/-- The names from the root down. -/
abbrev Path := List (List UInt8)

inductive Entry where
  | directory
  /-- A file, by the place of its contents. -/
  | file (index : Nat)
  /-- The null device, which is always empty whatever is written to it. -/
  | sink
deriving DecidableEq, Repr

structure Opened where
  entry : Entry
  offset : Nat
  access : Access
  append : Bool
deriving DecidableEq, Repr

structure FileSystem where
  current : Path
  entries : List (Path × Entry)
  contents : Array (List UInt8)
  opened : List (Int × Opened)
  firstDescriptor : Nat
deriving Repr

namespace FileSystem

/-- An empty current directory among those for temporary files. -/
def empty (firstDescriptor : Nat) : FileSystem :=
  let temporary := [Text.bytes "tmp"]
  let current := temporary ++ [Text.bytes "work"]
  let devices := [Text.bytes "dev"]
  { current := current
    entries := [(current, .directory), (temporary, .directory), (devices, .directory),
      (devices ++ [Text.bytes "null"], .sink)]
    contents := #[]
    opened := []
    firstDescriptor := firstDescriptor }

def entry? (fs : FileSystem) (p : Path) : Option Entry :=
  if p.isEmpty then some .directory else fs.entries.lookup p

def content (fs : FileSystem) (index : Nat) : List UInt8 := fs.contents.getD index []

/-- Adds a file at the path `p` from the root. -/
def addFile (fs : FileSystem) (p : Path) (bytes : List UInt8) : FileSystem :=
  { fs with
    entries := (p, .file fs.contents.size) :: fs.entries
    contents := fs.contents.push bytes }

def addDirectory (fs : FileSystem) (p : Path) : FileSystem :=
  { fs with entries := (p, .directory) :: fs.entries }

/-- The parts between slashes. -/
def parts : List UInt8 → Path
  | [] => [[]]
  | b :: bs =>
    if b = 0x2F then [] :: parts bs
    else match parts bs with
      | [] => [[b]]
      | n :: ns => (b :: n) :: ns

def isDot (name : List UInt8) : Bool := name == [0x2E]

def isDotDot (name : List UInt8) : Bool := name == [0x2E, 0x2E]

def maxName : Nat := 255

def maxPath : Nat := 4095

/-- Walks from the directory `here` through names all of which must be directories. The root is its own
parent. -/
def walk (fs : FileSystem) (here : Path) : Path → Except Errno Path
  | [] => .ok here
  | name :: rest =>
    if isDot name then walk fs here rest
    else if isDotDot name then walk fs here.dropLast rest
    else if maxName < name.length then .error .nameTooLong
    else match fs.entry? (here ++ [name]) with
      | some .directory => walk fs (here ++ [name]) rest
      | some _ => .error .notDirectory
      | none => .error .noEntry

/-- A path taken apart: the directory that it goes to, the last name, if that is a proper name, and
whether a slash follows. -/
structure Target where
  directory : Path
  name : Option (List UInt8)
  slash : Bool
deriving Repr

def target (fs : FileSystem) (path : List UInt8) : Except Errno Target :=
  if path.isEmpty then .error .noEntry
  else if maxPath < path.length then .error .nameTooLong
  else
    let start := if path.head? = some 0x2F then [] else fs.current
    let names := (parts path).filter (!·.isEmpty)
    let slash := path.getLast? = some 0x2F
    match names.getLast? with
    | none => .ok ⟨start, none, slash⟩
    | some last =>
      if isDot last || isDotDot last then (fs.walk start names).map (⟨·, none, slash⟩)
      else (fs.walk start names.dropLast).map (⟨·, some last, slash⟩)

def Target.path (t : Target) : Path := t.directory ++ t.name.toList

def wantsWrite (mode : OpenMode) : Bool := mode.access != .readOnly || mode.truncate

/-- Checks that something existing may be opened this way. -/
def permit (mode : OpenMode) (slash : Bool) : Entry → Except Errno Unit
  | .directory =>
    if mode.create && mode.exclusive then .error .alreadyExists
    else if mode.create || wantsWrite mode then .error .isDirectory
    else .ok ()
  | .file _ | .sink =>
    if mode.create && mode.exclusive then .error .alreadyExists
    else if mode.directory || slash then .error .notDirectory
    else .ok ()

def truncateEntry (fs : FileSystem) (mode : OpenMode) : Entry → FileSystem
  | .file index =>
    if mode.truncate then { fs with contents := fs.contents.setIfInBounds index [] } else fs
  | .directory | .sink => fs

/-- The entry that a path opens, created if the mode says so. A file cannot be created under a name with a
slash behind it, whatever that name is; only then is its length looked at. -/
def resolve (fs : FileSystem) (path : List UInt8) (mode : OpenMode) :
    Except Errno (Entry × FileSystem) := do
  if mode.create && mode.directory then throw .invalid
  let t ← fs.target path
  if mode.create && t.slash && t.name.isSome then throw .isDirectory
  if t.name.any (maxName < ·.length) then throw .nameTooLong
  match fs.entry? t.path with
  | some e => do
    permit mode t.slash e
    return (e, fs.truncateEntry mode e)
  | none =>
    if mode.create then return (.file fs.contents.size, fs.addFile t.path [])
    else throw .noEntry

/-- The least free number among `fuel` numbers from `n` on. -/
def freeFrom (fs : FileSystem) : Nat → Nat → Int
  | 0, n => n
  | fuel + 1, n => if (fs.opened.lookup (n : Int)).isSome then freeFrom fs fuel (n + 1) else n

def openFile (path : List UInt8) (mode : OpenMode) (fs : FileSystem) :
    Except Errno Int × FileSystem :=
  match fs.resolve path mode with
  | .error e => (.error e, fs)
  | .ok (entry, fs) =>
    let fd := fs.freeFrom fs.opened.length fs.firstDescriptor
    (.ok fd, { fs with opened := (fd, ⟨entry, 0, mode.access, mode.append⟩) :: fs.opened })

def close (fd : Int) (fs : FileSystem) : Except Errno Unit × FileSystem :=
  if (fs.opened.lookup fd).isSome then
    (.ok (), { fs with opened := fs.opened.filter (·.1 != fd) })
  else (.error .badDescriptor, fs)

/-- Moves the offset of a descriptor. -/
def seek (fs : FileSystem) (fd : Int) (offset : Nat) : FileSystem :=
  { fs with opened := fs.opened.map fun d =>
      if d.1 = fd then (d.1, { d.2 with offset := offset }) else d }

def read (fd : Int) (n : Nat) (fs : FileSystem) : Except Errno (List UInt8) × FileSystem :=
  match fs.opened.lookup fd with
  | none => (.error .badDescriptor, fs)
  | some d =>
    if !d.access.reads then (.error .badDescriptor, fs)
    else match d.entry with
      | .directory => (.error .isDirectory, fs)
      | .sink => (.ok [], fs)
      | .file index =>
        let bytes := ((fs.content index).drop d.offset).take n
        (.ok bytes, fs.seek fd (d.offset + bytes.length))

/-- `old` with `data` written over it from `offset` on; a gap is filled with zeros. -/
def overwrite (old : List UInt8) (offset : Nat) (data : List UInt8) : List UInt8 :=
  let head := old.take offset
  head ++ List.replicate (offset - head.length) 0 ++ data ++ old.drop (offset + data.length)

def write (fd : Int) (data : List UInt8) (fs : FileSystem) : Except Errno Nat × FileSystem :=
  match fs.opened.lookup fd with
  | none => (.error .badDescriptor, fs)
  | some d =>
    if !d.access.writes then (.error .badDescriptor, fs)
    else match d.entry with
      | .directory => (.error .isDirectory, fs)
      | .sink => (.ok data.length, fs)
      | .file index =>
        if data.isEmpty then (.ok 0, fs)
        else
          let old := fs.content index
          let offset := if d.append then old.length else d.offset
          let fs := { fs with
            contents := fs.contents.setIfInBounds index (overwrite old offset data) }
          (.ok data.length, fs.seek fd (offset + data.length))

/-- The most bytes that are reserved for one buffer. -/
def reservable : Nat := 1 <<< 34

theorem read_ne_interrupted (fd : Int) (n : Nat) (fs : FileSystem) :
    (fs.read fd n).1 ≠ .error .interrupted := by
  rw [read]
  split
  · exact mt Except.error.inj (by decide)
  · split
    · exact mt Except.error.inj (by decide)
    · split
      · exact mt Except.error.inj (by decide)
      · nofun
      · nofun

def host : Host FileSystem where
  openFile := openFile
  close := close
  read := read
  write := write
  reserves n := n ≤ reservable
  interruptions _ := 0
  interruptions_lt h := absurd (congrArg Prod.fst h) (read_ne_interrupted _ _ _)

/-- Why a file cannot be read or written as a whole. -/
inductive FileError where
  | errno (e : Errno)
  /-- The path holds a zero byte. -/
  | zeroByte
deriving DecidableEq, Repr

/-- Resolves a path that may hold any bytes. -/
def locate (fs : FileSystem) (path : List UInt8) (mode : OpenMode) :
    Except FileError (Entry × FileSystem) :=
  if path.contains 0 then .error .zeroByte else (fs.resolve path mode).mapError .errno

/-- The contents of a file as a whole. -/
def contentsOf (fs : FileSystem) (path : List UInt8) : Except FileError (List UInt8) := do
  let (e, _) ← fs.locate path ⟨.readOnly, false, false, false, false, false⟩
  match e with
  | .directory => .error (.errno .isDirectory)
  | .sink => return []
  | .file index => return fs.content index

/-- Makes a file hold exactly these bytes. -/
def setContents (fs : FileSystem) (path bytes : List UInt8) : Except FileError FileSystem := do
  match ← fs.locate path ⟨.writeOnly, true, false, true, false, false⟩ with
  | (.directory, _) => .error (.errno .isDirectory)
  | (.sink, fs) => return fs
  | (.file index, fs) => return { fs with contents := fs.contents.setIfInBounds index bytes }

end FileSystem
end ObjectRuntime
