import Std.Data.TreeMap
import BootImage.Bytes
import BootImage.File.Error
import BootImage.File.Path

/-!
# File trees

A file tree maps locations to files and directories; the root is always a directory.  A path is walked from
the root or the working directory: every piece but the last must name a directory.  The operations on a tree
either fail and change nothing or give the changed tree.
-/

namespace BootImage

/-- The names from an entry up to the root. -/
abbrev Location := List String

inductive Entry
  | file (contents : Bytes)
  | directory
  deriving DecidableEq, Repr

structure FileTree where
  entries : Std.TreeMap Location Entry := ∅
  workingDirectory : Location := []

/-- What the last piece of a path names, seen from the directory that the pieces before it lead to. -/
inductive Last
  | self
  | parent
  | named (name : String)
  deriving DecidableEq, Repr

structure Target where
  directory : Location
  last : Last
  /-- Whether slashes stand behind the last piece. -/
  slashed : Bool
  deriving DecidableEq, Repr

def nameLimit : Nat := 255

def pathLimit : Nat := 4096

namespace FileTree

def get? (t : FileTree) : Location → Option Entry
  | [] => some .directory
  | location => t.entries[location]?

def put (t : FileTree) (location : Location) (e : Entry) : FileTree :=
  { t with entries := t.entries.insert location e }

def erase (t : FileTree) (location : Location) : FileTree := { t with entries := t.entries.erase location }

theorem get?_put (t : FileTree) {location : Location} (h : location ≠ []) (e : Entry) (other : Location) :
    (t.put location e).get? other = if location = other then some e else t.get? other := by
  cases other with
  | nil => simp [get?, h]
  | cons name rest =>
    simp only [get?, put, Std.TreeMap.getElem?_insert]
    by_cases h : location = name :: rest <;> simp [h, Std.LawfulEqCmp.compare_eq_iff_eq]

theorem get?_erase (t : FileTree) {location : Location} (h : location ≠ []) (other : Location) :
    (t.erase location).get? other = if location = other then none else t.get? other := by
  cases other with
  | nil => simp [get?, h]
  | cons name rest =>
    simp only [get?, erase, Std.TreeMap.getElem?_erase]
    by_cases h : location = name :: rest <;> simp [h, Std.LawfulEqCmp.compare_eq_iff_eq]

def child? (t : FileTree) (directory : Location) (name : String) :
    Except SystemFault (Location × Option Entry) :=
  if name.utf8ByteSize ≤ nameLimit then .ok (name :: directory, t.get? (name :: directory))
  else .error .nameTooLong

def enter (t : FileTree) (directory : Location) (piece : String) : Except SystemFault Location :=
  if Path.isVoid piece then .ok directory
  else if piece = ".." then .ok directory.tail
  else
    match t.child? directory piece with
    | .error e => .error e
    | .ok (location, some .directory) => .ok location
    | .ok (_, some (.file _)) => .error .notDirectory
    | .ok (_, none) => .error .notFound

def lastOf (piece : String) : Last :=
  if piece = "." then .self else if piece = ".." then .parent else .named piece

def walk (t : FileTree) (p : Path) : Except SystemFault Target :=
  let start := if p.anchor = .root then [] else t.workingDirectory
  match p.pieces.reverse.dropWhile (· = "") with
  | [] => .ok ⟨start, .self, true⟩
  | last :: before =>
    (before.reverse.foldlM t.enter start).map fun directory =>
      ⟨directory, lastOf last, p.pieces.getLast? = some ""⟩

/-- Finds where a path leads. The path must be neither empty nor too long, and without NUL. -/
def locate (t : FileTree) (p : Path) : Except FileError Target :=
  if p.text.toList.contains '\x00' then .error .nulInPath
  else if p.text = "" then .error (.system .notFound)
  else if pathLimit ≤ p.text.utf8ByteSize then .error (.system .nameTooLong)
  else (t.walk p).mapError .system

def entryAt (t : FileTree) (target : Target) : Except SystemFault (Location × Entry) :=
  match target.last with
  | .self => .ok (target.directory, .directory)
  | .parent => .ok (target.directory.tail, .directory)
  | .named name =>
    match t.child? target.directory name with
    | .error e => .error e
    | .ok (_, none) => .error .notFound
    | .ok (location, some e) =>
      match e with
      | .file _ => if target.slashed then .error .notDirectory else .ok (location, e)
      | .directory => .ok (location, e)

def lookup (t : FileTree) (p : Path) : Except FileError (Location × Entry) :=
  t.locate p >>= fun target => (t.entryAt target).mapError .system

def isDirectory (t : FileTree) (p : Path) : Bool :=
  match t.lookup p with
  | .ok (_, .directory) => true
  | _ => false

/-- The target's name in its directory; a target without a name is the given fault. -/
def nameAt (target : Target) (unnamed : SystemFault) : Except SystemFault String :=
  match target.last with
  | .named name => .ok name
  | _ => .error unnamed

/-- Creates a file with the given contents, or replaces the contents of the file that is there. -/
def createFile (t : FileTree) (p : Path) (contents : Bytes) : Except FileError FileTree := do
  let target ← t.locate p
  .mapError .system do
    let name ← nameAt target .isDirectory
    if target.slashed then throw .isDirectory
    match ← t.child? target.directory name with
    | (_, some .directory) => throw .isDirectory
    | (location, _) => return t.put location (.file contents)

def makeDirectory (t : FileTree) (p : Path) : Except FileError FileTree := do
  let target ← t.locate p
  .mapError .system do
    let name ← nameAt target .alreadyExists
    match ← t.child? target.directory name with
    | (_, some _) => throw .alreadyExists
    | (location, none) => return t.put location .directory

/-- Moves a file to another name, where it replaces a file but not a directory. -/
def renameFile (t : FileTree) (source destination : Path) : Except FileError FileTree := do
  let old ← t.locate source
  let new ← t.locate destination
  .mapError .system do
    let oldName ← nameAt old .busy
    let newName ← nameAt new .busy
    match ← t.child? old.directory oldName with
    | (_, none) => throw .notFound
    | (_, some .directory) => throw .isDirectory
    | (oldLocation, some (.file contents)) =>
      let (newLocation, there) ← t.child? new.directory newName
      if old.slashed || new.slashed then throw .notDirectory
      if there = some .directory then throw .isDirectory
      return (t.erase oldLocation).put newLocation (.file contents)

def removeFile (t : FileTree) (p : Path) : Except FileError FileTree := do
  let target ← t.locate p
  .mapError .system do
    let name ← nameAt target .isDirectory
    match ← t.child? target.directory name with
    | (_, none) => throw .notFound
    | (_, some .directory) => throw .isDirectory
    | (location, some (.file _)) => if target.slashed then throw .notDirectory else return t.erase location

end FileTree

end BootImage
