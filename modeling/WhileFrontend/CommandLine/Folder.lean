import WhileFrontend.CommandLine.Disk

/-!
# A working directory in memory

A folder holds the files and directories at and below a working directory. A path is followed part
by part: empty parts and `.` stay, `..` goes up, and every part but the last has to lead to a
directory. What lies above the working directory is taken to hold nothing else.

## Places

A place is the list of names that lead to it from the working directory, with a `..` at its front
for each level above it; an absolute path starts at the place `/`.
-/

namespace WhileFrontend

/-- The way from the working directory to a file or directory. -/
abbrev Place := List String

/-- What is found at a place. -/
inductive Entry where
  | file (content : Bytes)
  | directory
  deriving DecidableEq, Repr

/-- The files and directories at and below the working directory. -/
structure Folder where
  entries : List (Place × Entry) := []
  deriving DecidableEq, Repr

/-- The parts of a path that are not empty. -/
def pathParts (path : String) : List String :=
  ((path.toList.splitOn '/').filter (· ≠ [])).map String.ofList

/-- The place where following a path starts. -/
def startOf (path : String) : Place :=
  if path.startsWith "/" then ["/"] else []

/-- The place one part further. -/
def Place.enter (place : Place) (part : String) : Place :=
  if part = "." then place
  else if part = ".." then
    if place = ["/"] then place
    else if place.all (· = "..") then ".." :: place
    else place.dropLast
  else place ++ [part]

namespace Folder

/-- The folder that holds the given entries, each under its path. -/
def ofEntries (entries : List (String × Entry)) : Folder :=
  ⟨entries.map fun e => (pathParts e.1, e.2)⟩

/-- What is at a place. A place that leads to another entry is a directory, and so are the working
directory and those above it. -/
def entryAt? (f : Folder) (place : Place) : Option Entry :=
  match f.entries.find? fun e => e.1 = place with
  | some e => some e.2
  | none =>
    if place = ["/"] ∨ place.all (· = "..") ∨ f.entries.any (fun e => place.isPrefixOf e.1) then
      some .directory
    else none

/-- Follows the parts of a path; each starts from a directory. -/
def follow (f : Folder) (place : Place) : List String → Except FileFault Place
  | [] => .ok place
  | part :: rest =>
    match f.entryAt? place with
    | some .directory => f.follow (place.enter part) rest
    | some (.file _) => .error .notDirectory
    | none => .error .notFound

/-- The bytes of the file at a path. -/
def read (f : Folder) (path : String) : Except FileFault Bytes :=
  if path.contains '\x00' then .error .nullCharacter
  else do
    let place ← f.follow (startOf path) (pathParts path)
    match f.entryAt? place with
    | none => .error .notFound
    | some .directory => .error .isDirectory
    | some (.file content) =>
      if path.endsWith "/" then .error .notDirectory else .ok content

/-- The folder with bytes in the file at a place. -/
def put (f : Folder) (place : Place) (content : Bytes) : Folder :=
  ⟨f.entries.filter (fun e => e.1 ≠ place) ++ [(place, .file content)]⟩

/-- The folder with bytes in the file at a path. A path that ends in a slash is none of a file. -/
def write (f : Folder) (path : String) (content : Bytes) : Except FileFault Folder :=
  if path.contains '\x00' then .error .nullCharacter
  else if path = "" then .error .notFound
  else do
    let place ← f.follow (startOf path) (pathParts path)
    match f.entryAt? place with
    | some .directory => .error .isDirectory
    | _ => if path.endsWith "/" then .error .isDirectory else .ok (f.put place content)

/-- Access to a folder that is kept as state. -/
def disk : Disk (StateM Folder) where
  read path := do return (← get).read path
  write path content := do
    match (← get).write path content with
    | .ok f =>
      set f
      return .ok ()
    | .error e => return .error e

/-- The files that stand directly in the folder and are not the same in `before`. -/
def changedFiles (f before : Folder) : List (String × Bytes) :=
  f.entries.filterMap fun e =>
    match e with
    | ([name], .file content) =>
      if before.entryAt? [name] = some (.file content) then none else some (name, content)
    | _ => none

end Folder

end WhileFrontend
