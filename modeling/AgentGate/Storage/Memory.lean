import AgentGate.Storage.Basic
import AgentGate.Table

/-!
# Files in memory

A small file system as a value: the texts of files and the directories, by their paths below one
directory. A path may step through existing directories only, and nothing outside of that directory
exists.

- `Memory.walk`: the place that a path leads to.
- `Memory.storage`: the operations.
-/

namespace AgentGate

/-- The texts of files and the directories there are, by their places. -/
structure Memory where
  files : Table String := ∅
  directories : Table Unit := ∅
  deriving Inhabited

namespace Memory

/-- A place: the names on the way to it. -/
abbrev Place := List String

/-- The key of a place. -/
def key (place : Place) : String :=
  "/".intercalate place

/-! ## Faults -/

/-- There is nothing at the place. -/
def notFound : String := "No such file or directory (os error 2)"

/-- There is a file where a directory is to be. -/
def notDirectory : String := "Not a directory (os error 20)"

/-- There is a directory where a file is to be. -/
def isDirectory : String := "Is a directory (os error 21)"

/-! ## Places -/

/-- Whether a place is a directory. -/
def hasDirectory (memory : Memory) (place : Place) : Bool :=
  place.isEmpty || memory.directories.contains (key place)

/-- The text of the file at a place. -/
def file? (memory : Memory) (place : Place) : Option String :=
  memory.files.get? (key place)

/-- A place has to be a directory. -/
def checkDirectory (memory : Memory) (place : Place) : Except String Unit :=
  if memory.hasDirectory place then .ok ()
  else .error (if (memory.file? place).isSome then notDirectory else notFound)

/-- The place behind one piece of a path. -/
def advance (place : Place) (piece : String) : Except String Place :=
  if piece = "" ∨ piece = "." then .ok place
  else if piece = ".." then if place.isEmpty then .error notFound else .ok place.dropLast
  else .ok (place ++ [piece])

/-- The place that a path leads to. -/
def walk (memory : Memory) (path : String) : Except String Place :=
  if path = "" ∨ Path.isRooted path then .error notFound
  else
    (Text.pieces '/' path).foldlM
      (fun place piece => do
        memory.checkDirectory place
        advance place piece)
      []

/-! ## Operations -/

/-- Whether there is anything at a path. -/
def isPresent (memory : Memory) (path : String) : Bool :=
  match memory.walk path with
  | .ok place => memory.hasDirectory place || (memory.file? place).isSome
  | .error _ => false

/-- The text of the file at a path. -/
def read (memory : Memory) (path : String) : Except String String := do
  let place ← memory.walk path
  if memory.hasDirectory place then .error isDirectory
  else
    match memory.file? place with
    | some text => .ok text
    | none => .error notFound

/-- The files with the text of one of them given. -/
def write (memory : Memory) (path text : String) : Except String Memory := do
  let place ← memory.walk path
  if memory.hasDirectory place then .error isDirectory
  else .ok { memory with files := memory.files.insert (key place) text }

/-- The files with a directory and those it lies in. -/
def createDirectories (memory : Memory) (path : String) : Except String Memory := do
  if path = "" ∨ Path.isRooted path then .error notFound
  else
    let (_, memory) ← (Text.pieces '/' path).foldlM
      (fun (step : Place × Memory) piece => do
        let place ← advance step.1 piece
        if (step.2.file? place).isSome then .error notDirectory
        else .ok (place, { step.2 with directories := step.2.directories.insert (key place) () }))
      (([], memory) : Place × Memory)
    return memory

/-- The files with one of them moved in the stead of another. -/
def rename (memory : Memory) (source target : String) : Except String Memory := do
  let text ← memory.read source
  let sourcePlace ← memory.walk source
  let moved ← memory.write target text
  let targetPlace ← memory.walk target
  if sourcePlace = targetPlace then return memory
  else
    let others := moved.files.entries.filter fun entry => entry.1 ≠ key sourcePlace
    return { moved with files := Table.ofList others }

/-- Run an operation that changes the files unless it fails. -/
def change (operation : Memory → Except String Memory) : StateM Memory (Except String Unit) := do
  match operation (← get) with
  | .ok memory =>
    set memory
    return .ok ()
  | .error description => return .error description

/-- The operations on files in memory. -/
def storage : Storage (StateM Memory) where
  isPresent path := return (← get).isPresent path
  read path := return (← get).read path
  createDirectories path := change fun memory => memory.createDirectories path
  write path text := change fun memory => memory.write path text
  rename source target := change fun memory => memory.rename source target

/-- Files with given texts, in the directories that their paths name. -/
def ofFiles (files : List (String × String)) : Except String Memory :=
  files.foldlM
    (fun memory entry => do
      let memory ←
        match Path.parent? entry.1 with
        | none | some "" => pure memory
        | some parent => memory.createDirectories parent
      memory.write entry.1 entry.2)
    {}

/-- The files whose text is not the one that they had in another memory. -/
def changedSince (memory before : Memory) : Table String :=
  Table.ofList <| memory.files.entries.filter fun entry =>
    before.files.get? entry.1 ≠ some entry.2

end Memory

end AgentGate
