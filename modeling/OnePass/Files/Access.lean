/-! # Access to files

    What the assembler needs of a file system, and why it may be refused. -/

namespace OnePass

/-- The reasons why a file cannot be read or written. -/
inductive FileFault where
  | notFound
  | notDirectory
  | isDirectory
  /-- The content is not text. -/
  | notText
  /-- Anything else that a system reports. -/
  | other (message : String)
  deriving DecidableEq, Repr

/-- The wording of a fault. -/
def FileFault.message : FileFault → String
  | notFound     => "No such file or directory (os error 2)"
  | notDirectory => "Not a directory (os error 20)"
  | isDirectory  => "Is a directory (os error 21)"
  | notText      => "stream did not contain valid UTF-8"
  | other s      => s

/-- A monad in which files can be read, written and removed. -/
class FileAccess (m : Type → Type) where
  /-- Does the path lead to a file? -/
  isFile : String → m Bool
  /-- The content of a file. -/
  read : String → m (Except FileFault (List UInt8))
  /-- Create or replace a file. -/
  write : String → List UInt8 → m (Except FileFault Unit)
  /-- Remove a file. -/
  remove : String → m (Except FileFault Unit)

/-- The text that a byte sequence encodes. -/
def decodeText? (bs : List UInt8) : Option String :=
  String.fromUTF8? ⟨bs.toArray⟩

/-- A text as a byte sequence. -/
def encodeText (s : String) : List UInt8 :=
  s.toUTF8.data.toList

end OnePass
