import AgentGate.Failure
import AgentGate.Text.Blank

/-!
# Storage of files

What the compiler asks of a file system, and the one way in which it puts files in place: the text
is written to a file beside the old one, which is then replaced as a whole. The same operations run
on the file system of the machine and on files in memory.

- `Path.parent?`: the directory that a path lies in.
- `Storage.replace`: put a file in place.
-/

namespace AgentGate

/-! ## Paths -/

namespace Path

/-- Pieces of a path without the last ones that are empty or a single dot. -/
def trimEnd (pieces : List String) : List String :=
  (pieces.reverse.dropWhile fun piece => piece = "" ∨ piece = ".").reverse

/-- Whether a path starts at the root. -/
def isRooted (path : String) : Bool :=
  path.toList.head? = some '/'

/-- The directory that a path lies in, empty for a path with one piece. The empty path and the root
lie in none. -/
def parent? (path : String) : Option String :=
  match Text.pieces '/' path with
  | [] => none
  | first :: rest =>
    match trimEnd rest with
    | [] => if first = "" then none else some ""
    | pieces =>
      match trimEnd pieces.dropLast with
      | [] => some (if isRooted path then "/" else first)
      | kept => some ("/".intercalate (first :: kept))

end Path

/-! ## Operations -/

/-- The operations of a file system. An operation that fails gives a description. -/
structure Storage (m : Type → Type) where
  isPresent : String → m Bool
  read : String → m (Except String String)
  createDirectories : String → m (Except String Unit)
  write : String → String → m (Except String Unit)
  rename : String → String → m (Except String Unit)

/-- A computation on files that may fail. -/
abbrev Session (m : Type → Type) := ExceptT Failure m

namespace Session

variable {m : Type → Type} [Monad m] {α : Type}

/-- A computation whose failures happen within a larger one. -/
def within (doing : String) (session : Session m α) : Session m α :=
  ExceptT.mk do return (← session.run).mapError (Failure.within doing)

/-- An operation of the storage, with what it is for. -/
def ofStorage (doing : String) (operation : m (Except String α)) : Session m α :=
  ExceptT.mk do
    return (← operation).mapError fun description => ⟨[doing], .storage description⟩

/-- A result that needs no storage. -/
def ofResult (result : Except Failure α) : Session m α :=
  ExceptT.mk (pure result)

end Session

namespace Storage

variable {m : Type → Type} [Monad m]

/-- Put a file in place, with the directories that it lies in. -/
def replace (storage : Storage m) (path text : String) : Session m Unit := do
  match Path.parent? path with
  | none => throw (.ofCause (.noParent path))
  | some parent =>
    if parent ≠ "" then
      Session.ofStorage ("create directory " ++ parent) (storage.createDirectories parent)
    let draft := path ++ ".tmp"
    Session.ofStorage ("write temp file " ++ draft) (storage.write draft text)
    Session.ofStorage ("replace " ++ path) (storage.rename draft path)

end Storage

end AgentGate
