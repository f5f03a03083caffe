import Warrant.Text.Parts

/-!
# Files

A directory with files, which configurations and schemas are read from. A path is looked up name by
name: every name but the last must be a directory, and nothing is found above the top. The empty
name and the dot lead nowhere, and two dots lead up.

## Main definitions

- `Files` — texts by path
- `Files.read?` — the text under a path
- `Files.beside` — a path as it is meant in a file
- `Files.trimmed` — a path as it is shown
-/

namespace Warrant

/-- The names that a path is made of. -/
def Files.names (path : String) : List String :=
  (Text.parts '/' path.toList).map String.ofList

/-- A directory with files. -/
structure Files where
  /-- The files by their names from the top down. -/
  entries : List (List String × String)
  /-- The directories below the top, by their names from the top down. -/
  directories : List (List String)

namespace Files

/-- Whether a name leads nowhere. -/
def isIdle (name : String) : Bool :=
  name == "" || name == "."

/-- Where a name leads from a directory. -/
def step? (here : List String) (name : String) : Option (List String) :=
  if isIdle name then some here
  else if name == ".." then
    if here.isEmpty then none else some here.dropLast
  else some (here ++ [name])

/-- The directory with the given files and the directories on the way to them. Of two files in one
    place the later one is kept. -/
def ofList (files : List (String × String)) : Files where
  entries := files.reverse.filterMap fun f =>
    ((names f.1).foldlM step? []).map fun place => (place, f.2)
  directories := files.flatMap fun f =>
    (List.range (names f.1).length).filterMap fun n => ((names f.1).take n).foldlM step? []

/-- No files at all. -/
def empty : Files := ⟨[], []⟩

/-- Whether there is a directory under the given names. -/
def isDirectory (files : Files) (names : List String) : Bool :=
  names.isEmpty || files.directories.contains names

/-- Where names lead, if they lead from directory to directory. -/
def walk? (files : Files) (here : List String) : List String → Option (List String)
  | [] => some here
  | name :: rest =>
    if files.isDirectory here then step? here name >>= fun next => files.walk? next rest
    else none

/-- Whether a path starts outside of every directory. -/
def isAbsolute (path : String) : Bool :=
  path.toList.head? = some '/'

/-- **The text under a path**, if the path leads to a file. -/
def read? (files : Files) (path : String) : Option String :=
  if isAbsolute path then none
  else files.walk? [] (names path) >>= fun found => files.entries.lookup found

/-- The path that is made of names. -/
def ofNames (names : List String) : String :=
  String.intercalate "/" names

/-- Names without those at the end that lead nowhere. -/
def trimEnd (names : List String) : List String :=
  (names.reverse.dropWhile isIdle).reverse

/-- Names without those at both ends that lead nowhere. -/
def trimEnds (names : List String) : List String :=
  trimEnd (names.dropWhile isIdle)

/-- A path that a file mentions, seen from the top: it starts in the directory of the file. -/
def beside (file path : String) : String :=
  let directory := trimEnd (names file).dropLast
  if isAbsolute path || directory.isEmpty then path else ofNames (directory ++ names path)

/-- A path as it is shown. Names that lead nowhere are left out at both ends and stay between
    other names. -/
def trimmed (path : String) : String :=
  if isAbsolute path then path else ofNames (trimEnds (names path))

end Files

end Warrant
