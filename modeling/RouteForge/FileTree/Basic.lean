import RouteForge.FileTree.Refusal
import RouteForge.Path

/-! Files and directories by their locations below one root, and the medium that holds them. A path is
walked segment by segment from the root or from the working directory, and what stands behind a name
is asked of the tree, never of the text. There are no links, so a place has one location, and no
owners: where nothing may be made or written, the medium refuses it, and whatever stands can be read. -/
namespace RouteForge

abbrev Location := List (List Char)

inductive Entry where
  | directory
  | file (bytes : ByteArray) (executable : Bool)
  /-- reads as empty and takes whatever is written to it -/
  | sink

instance : DecidableEq Entry
  | .directory, .directory => isTrue rfl
  | .sink, .sink => isTrue rfl
  | .file x m, .file y n => decidable_of_iff (x.data = y.data ∧ m = n) (by simp [ByteArray.ext_iff])
  | .directory, .file .. | .directory, .sink | .file .., .directory | .file .., .sink
  | .sink, .directory | .sink, .file .. => isFalse nofun

/-- A write that ends before its bytes do: how many of them got through, and why no more did. -/
structure Interruption where
  taken : Nat
  reason : Refusal
  deriving DecidableEq, Repr

/-- What holds the files: the places where it lets nothing be made or opened for writing, and the
writes that it breaks off. -/
structure Medium where
  refuses : Location → Option Refusal := fun _ => none
  interrupts : Location → ByteArray → Option Interruption := fun _ _ => none

namespace Medium

/-- As much of the bytes as gets through. -/
def part (m : Medium) (l : Location) (bytes : ByteArray) : ByteArray :=
  match m.interrupts l bytes with
  | some i => bytes.extract 0 i.taken
  | none => bytes

/-- Every write that begins goes through. -/
def Steady (m : Medium) : Prop := ∀ l bytes, m.interrupts l bytes = none

end Medium

structure FileTree where
  entries : List (Location × Entry)
  here : Location
  medium : Medium := {}

namespace FileTree

def put (l : Location) (e : Entry) : List (Location × Entry) → List (Location × Entry)
  | [] => [(l, e)]
  | (m, x) :: rest => if m = l then (l, e) :: rest else (m, x) :: put l e rest

theorem find?_put_self (l : Location) (e : Entry) (entries : List (Location × Entry)) :
    (put l e entries).find? (·.1 = l) = some (l, e) := by
  induction entries with
  | nil => simp [put]
  | cons p rest ih =>
    by_cases h : p.1 = l
    · simp [put, h]
    · simp [put, h, ih]

theorem find?_put_other {l m : Location} (h : m ≠ l) (e : Entry)
    (entries : List (Location × Entry)) :
    (put l e entries).find? (·.1 = m) = entries.find? (·.1 = m) := by
  induction entries with
  | nil => simp [put, Ne.symm h]
  | cons p rest ih =>
    obtain ⟨n, x⟩ := p
    by_cases k : n = l
    · simp [put, k, Ne.symm h]
    · by_cases j : n = m
      · subst j
        simp [put, k]
      · simp [put, k, j, ih]

/-- The root is a directory without being listed. -/
def get? (t : FileTree) (l : Location) : Option Entry :=
  if l = [] then some .directory else (t.entries.find? (·.1 = l)).map (·.2)

def set (t : FileTree) (l : Location) (e : Entry) : FileTree :=
  { t with entries := put l e t.entries }

theorem get?_set_self (t : FileTree) {l : Location} (h : l ≠ []) (e : Entry) :
    (t.set l e).get? l = some e := by
  simp [set, get?, h, find?_put_self]

theorem get?_set_other (t : FileTree) {l m : Location} (h : m ≠ l) (e : Entry) :
    (t.set l e).get? m = t.get? m := by
  simp [set, get?, find?_put_other h]

/-- Drops a location and all that lies below it. -/
def drop (t : FileTree) (l : Location) : FileTree :=
  { t with entries := t.entries.filter (fun e => !l.isPrefixOf e.1) }

def isDirectoryAt (t : FileTree) (l : Location) : Bool := t.get? l = some .directory

def nameLimit : Nat := 255

def pathLimit : Nat := 4096

def octets (cs : List Char) : Nat := cs.foldr (fun c n => c.utf8Size + n) 0

/-- One segment further. Every place that is walked through is a directory. -/
def enter (t : FileTree) (l : Location) (segment : List Char) : Except Refusal Location :=
  if !t.isDirectoryAt l then .error .notADirectory
  else if segment = [] ∨ segment = ['.'] then .ok l
  else if segment = ['.', '.'] then .ok l.dropLast
  else if nameLimit < octets segment then .error .nameTooLong
  else if (t.get? (l ++ [segment])).isNone then .error .notFound
  else .ok (l ++ [segment])

/-- Texts that are refused before anything is looked up. -/
def accept (p : Path) : Except Refusal Unit :=
  if p.chars.contains '\x00' then .error .nulInPath
  else if p.chars = [] then .error .notFound
  else if pathLimit ≤ octets p.chars then .error .nameTooLong
  else .ok ()

def start (t : FileTree) (p : Path) : Location := if p.isAbsolute then [] else t.here

/-- The location of a path that leads somewhere. -/
def locate (t : FileTree) (p : Path) : Except Refusal Location := do
  accept p
  p.segments.foldlM t.enter (t.start p)

def lookup (t : FileTree) (p : Path) : Except Refusal Entry := do
  match t.get? (← t.locate p) with
  | some e => return e
  | none => throw .notFound

def isDirectory (t : FileTree) (p : Path) : Bool :=
  match t.lookup p with
  | .ok .directory => true
  | _ => false

def read (t : FileTree) (p : Path) : Except Refusal ByteArray := do
  match ← t.lookup p with
  | .file bytes _ => return bytes
  | .sink => return .empty
  | .directory => throw .isADirectory

/-- The directory that a path ends in, and the last segment that says something. Slashes at the
end are left out. -/
def aim (t : FileTree) (p : Path) : Except Refusal (Location × List Char) := do
  accept p
  let segments := (p.segments.reverse.dropWhile (· = [])).reverse
  let l ← segments.dropLast.foldlM t.enter (t.start p)
  if !t.isDirectoryAt l then throw .notADirectory
  return (l, segments.getLast?.getD [])

def isDots (segment : List Char) : Bool := segment = [] ∨ segment = ['.'] ∨ segment = ['.', '.']

def endsInSlash (p : Path) : Bool := p.chars.getLast? = some '/'

def makeDirectory (t : FileTree) (p : Path) : Except Refusal FileTree := do
  let (l, name) ← t.aim p
  if isDots name then throw .alreadyThere
  if nameLimit < octets name then throw .nameTooLong
  match t.get? (l ++ [name]), t.medium.refuses (l ++ [name]) with
  | some _, _ => throw .alreadyThere
  | none, some reason => throw reason
  | none, none => return t.set (l ++ [name]) .directory

/-- The place that a path is to be written at. -/
def openToWrite (t : FileTree) (p : Path) : Except Refusal Location := do
  let (l, name) ← t.aim p
  if isDots name || endsInSlash p then throw .isADirectory
  if nameLimit < octets name then throw .nameTooLong
  if t.isDirectoryAt (l ++ [name]) then throw .isADirectory
  match t.medium.refuses (l ++ [name]) with
  | some reason => throw reason
  | none => return l ++ [name]

/-- Replaces the bytes of a file and leaves its mode, or makes a new file. A device shows nothing. -/
def fill (t : FileTree) (l : Location) (bytes : ByteArray) : FileTree :=
  match t.get? l with
  | some .sink => t
  | some (.file _ executable) => t.set l (.file bytes executable)
  | _ => t.set l (.file bytes false)

/-- Opens a file, which empties it, and writes. A write that breaks off leaves the bytes that got
through, and none of those that the file held before. -/
def write (t : FileTree) (p : Path) (bytes : ByteArray) : FileTree × Except Refusal Unit :=
  match t.openToWrite p with
  | .error reason => (t, .error reason)
  | .ok l => (t.fill l (t.medium.part l bytes),
      match t.medium.interrupts l bytes with
      | some i => .error i.reason
      | none => .ok ())

/-- The directories of a list that goes upward, each made after those above it. What was made
stays when a later one is refused. -/
def makeUpward (t : FileTree) : List Path → FileTree × Except Refusal Unit
  | [] => (t, .error .notFound)
  | p :: above =>
    if p.chars = [] then (t, .ok ())
    else match t.makeDirectory p with
      | .ok made => (made, .ok ())
      | .error .notFound =>
        match t.makeUpward above with
        | (t, .error e) => (t, .error e)
        | (t, .ok ()) =>
          match t.makeDirectory p with
          | .ok made => (made, .ok ())
          | .error e => (t, if t.isDirectory p then .ok () else .error e)
      | .error e => (t, if t.isDirectory p then .ok () else .error e)

/-- Makes a directory and whatever is missing above it. -/
def makeDirectories (t : FileTree) (p : Path) : FileTree × Except Refusal Unit :=
  t.makeUpward p.ancestors

end FileTree
end RouteForge
