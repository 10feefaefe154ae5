/-!
# Reading and writing files

What the program needs of a file system: the bytes of a file by its path, and a file's bytes
replaced as a whole. Both can be refused, and a refusal names its cause.
-/

namespace WhileFrontend

/-- The contents of a file. -/
abbrev Bytes := List UInt8

/-- Why a path cannot be opened. -/
inductive FileFault where
  /-- There is nothing at the path. -/
  | notFound
  /-- A part of the path before its last is not a directory. -/
  | notDirectory
  /-- The path leads to a directory. -/
  | isDirectory
  /-- The path holds the character U+0000. -/
  | nullCharacter
  deriving DecidableEq, Repr

/-- Access to files from within a monad. -/
structure Disk (m : Type → Type) where
  /-- The bytes of the file at a path. -/
  read : String → m (Except FileFault Bytes)
  /-- Puts bytes into the file at a path, which is created if it does not exist. -/
  write : String → Bytes → m (Except FileFault Unit)

end WhileFrontend
