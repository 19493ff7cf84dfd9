/-! # Paths

    A path is a text; names are divided by `/`.  The file name of a path is
    its last name, where slashes and `.` names at the end do not count.  A
    file name splits into a stem and an extension at its last dot, unless
    that dot is its first character.

    * `fileName?`, `splitExtension` : the parts of a path.
    * `withExtension` : the path of a file that stands beside another. -/

namespace OnePass.Path

/-- Drop slashes and `.` names from the front of a reversed path. -/
def trimReversed : List Char → List Char
  | '/' :: cs        => trimReversed cs
  | '.' :: '/' :: cs => trimReversed cs
  | cs               => cs

/-- A path without slashes and `.` names at its end. -/
def trimEnd (cs : List Char) : List Char :=
  (trimReversed cs.reverse).reverse

/-- What stands after the last slash, once the end is trimmed. -/
def lastName (cs : List Char) : List Char :=
  ((trimEnd cs).reverse.takeWhile (· != '/')).reverse

/-- What stands before the last name, up to and with its slash. -/
def directoryPart (cs : List Char) : List Char :=
  ((trimEnd cs).reverse.dropWhile (· != '/')).reverse

/-- The last name of a path, if it names a file rather than a place relative
    to another. -/
def fileName? (cs : List Char) : Option (List Char) :=
  let name := lastName cs
  if name = [] ∨ name = ['.'] ∨ name = ['.', '.'] then none else some name

/-- Stem and extension of a file name. -/
def splitExtension (name : List Char) : List Char × Option (List Char) :=
  let ext := (name.reverse.takeWhile (· != '.')).reverse
  match name.reverse.dropWhile (· != '.') with
  | _ :: c :: stem => ((c :: stem).reverse, some ext)
  | _              => (name, none)

/-- The extension of the file name of a path. -/
def extension? (cs : List Char) : Option (List Char) :=
  match fileName? cs with
  | some name => (splitExtension name).2
  | none      => none

/-- The size of a text in UTF-8. -/
def byteSize : List Char → Nat
  | []      => 0
  | c :: cs => c.utf8Size + byteSize cs

/-- Drop `n` bytes worth of characters from the front.  A character that
    would only go in part stays. -/
def dropBytes (n : Nat) : List Char → List Char
  | []      => []
  | c :: cs => if c.utf8Size ≤ n then dropBytes (n - c.utf8Size) cs else c :: cs

/-- Drop `n` bytes worth of characters from the end. -/
def dropLastBytes (n : Nat) (cs : List Char) : List Char :=
  (dropBytes n cs.reverse).reverse

/-- The path without the bytes of its extension.  They are taken from the
    very end of the text, whether or not the extension stands there. -/
def withoutExtension (cs : List Char) : List Char :=
  match extension? cs with
  | some ext => dropLastBytes (byteSize ext) cs
  | none     => cs

/-- Replace the extension: the text is shortened by the old extension, cut
    after the stem it then has, and continued by a dot and the new one.  A
    text without a file name is not continued. -/
def replaceExtension (cs ext : List Char) : List Char :=
  let short := withoutExtension cs
  match fileName? short with
  | some name => directoryPart short ++ (splitExtension name).1 ++ '.' :: ext
  | none      => short

/-- The path of the file beside `path` that has the extension `ext`. -/
def withExtension (path ext : String) : String :=
  String.ofList (replaceExtension path.toList ext.toList)

end OnePass.Path
