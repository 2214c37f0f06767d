import GateBench.Text.Utf8

/-!
Files by their paths, as far as they have been read.
-/

namespace GateBench

/-- What comes of reading a file: its text, or why there is none.  A file that cannot be read may be
there all the same. -/
inductive FileReading where
  | text (contents : String)
  | unreadable (reason : String)
  | absent (reason : String)
deriving DecidableEq, Repr

/-- The outcome of reading every path. -/
abbrev Files := String → FileReading

namespace FileReading

/-- The text of a file, or the reason why it cannot be read. -/
def contents : FileReading → Except String String
  | .text contents => .ok contents
  | .unreadable reason | .absent reason => .error reason

/-- Whether something is there at the path. -/
def isPresent : FileReading → Bool
  | .absent _ => false
  | _ => true

/-- No file. -/
def missing : FileReading :=
  .absent "No such file or directory (os error 2)"

/-- A path that goes on behind a file. -/
def behindFile : FileReading :=
  .absent "Not a directory (os error 20)"

/-- A folder. -/
def folder : FileReading :=
  .unreadable "Is a directory (os error 21)"

/-- A file that holds bytes: it must be UTF-8. -/
def ofBytes (bytes : ByteArray) : FileReading :=
  match String.fromUTF8? bytes with
  | some contents => .text contents
  | none => .unreadable "stream did not contain valid UTF-8"

end FileReading

namespace Files

/-- The names that a path leads through, without those that stay where they are. -/
def steps (path : String) : List String :=
  ((path.splitOn "/").filter fun name => name ≠ "" && name ≠ ".").foldl (fun taken name =>
      if name = ".." then taken.dropLast else taken ++ [name])
    []

/-- The files below the current folder, given by their paths and texts. -/
def ofList (listed : List (String × String)) : Files := fun path =>
  let sought := steps path
  let known := listed.map fun (path, contents) => (steps path, contents)
  if path = "" || path.startsWith "/" then .missing
  else
    match known.lookup sought with
    | some contents => if path.endsWith "/" then .behindFile else .text contents
    | none =>
      if sought = [] || known.any (sought.isPrefixOf ·.1) then .folder
      else if known.any (·.1.isPrefixOf sought) then .behindFile
      else .missing

end Files

end GateBench
