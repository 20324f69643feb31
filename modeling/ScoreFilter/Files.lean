import ScoreFilter.Text.Bytes

namespace ScoreFilter

inductive FileError where
  | notFound
  | alreadyExists
  | notDirectory
  | isDirectory
  | nameTooLong
  | nulInName
  | denied
  | notText
deriving DecidableEq

def FileError.message : FileError → String
  | .notFound => "No such file or directory (os error 2)"
  | .alreadyExists => "File exists (os error 17)"
  | .notDirectory => "Not a directory (os error 20)"
  | .isDirectory => "Is a directory (os error 21)"
  | .nameTooLong => "File name too long (os error 36)"
  | .nulInName => "file name contained an unexpected NUL byte"
  | .denied => "Permission denied (os error 13)"
  | .notText => "stream did not contain valid UTF-8"

-- A file is text or it is not, or it cannot be opened at all.
inductive Entry where
  | text (content : String)
  | binary
  | locked
  | directory
deriving DecidableEq

-- The steps from the root to a place, without detours.
abbrev Path := List String

namespace Path

def segments : List Char → List Char × List (List Char)
  | [] => ([], [])
  | c :: cs =>
    let (first, rest) := segments cs
    if c = '/' then ([], first :: rest) else (c :: first, rest)

-- The steps a file name spells. A slash at the end asks for a directory, as a point does.
def steps (name : String) : List String :=
  let cs := name.toList
  let (first, rest) := segments cs
  ((first :: rest).filter (· ≠ [])).map String.ofList ++
    (if cs.getLast? = some '/' then ["."] else [])

def step (path : Path) (name : String) : Path :=
  if name = "." then path
  else if name = ".." then path.dropLast
  else path ++ [name]

def trimmed : List Char → List Char
  | '/' :: rest => trimmed rest
  | '.' :: '/' :: rest => trimmed rest
  | rest => rest

def parentLength (name : String) : Nat :=
  Text.byteLength (trimmed ((trimmed name.toList.reverse).dropWhile (· ≠ '/')))

def join (base name : String) : String :=
  if base = "" then name
  else if base.toList.getLast? = some '/' then base ++ name
  else base ++ "/" ++ name

end Path

def longestStep : Nat := 255

def nameLimit : Nat := 4096

-- All files, seen from a working directory.
structure Files where
  directory : Path
  entries : List (Path × Entry)
deriving DecidableEq

namespace Files

-- The way from the root to the working directory is always there.
def get? (files : Files) (path : Path) : Option Entry :=
  if path <+: files.directory then some .directory
  else (files.entries.find? (·.1 == path)).map (·.2)

def put (files : Files) (path : Path) (entry : Entry) : Files :=
  { files with
    entries :=
      if files.entries.any (·.1 == path) then
        files.entries.map fun old => if old.1 = path then (path, entry) else old
      else files.entries ++ [(path, entry)] }

def origin (files : Files) (name : String) : Path :=
  if name.toList.head? = some '/' then [] else files.directory

-- Every step but the last has to lead to a directory.
def walk (files : Files) : List String → Path → Except FileError Path
  | [], path => .ok path
  | name :: rest, path =>
    match files.get? path with
    | none => .error .notFound
    | some .directory =>
      if longestStep < Text.byteLength name.toList then .error .nameTooLong
      else files.walk rest (path.step name)
    | some _ => .error .notDirectory

def nameFault? (name : String) : Option FileError :=
  if name.toList.contains '\x00' then some .nulInName
  else if name = "" then some .notFound
  else if nameLimit ≤ Text.byteLength name.toList then some .nameTooLong
  else none

def locate (files : Files) (name : String) : Except FileError Path :=
  match nameFault? name with
  | some fault => .error fault
  | none => files.walk (Path.steps name) (files.origin name)

def contains (files : Files) (name : String) : Bool :=
  match files.locate name with
  | .ok path => (files.get? path).isSome
  | .error _ => false

def read (files : Files) (name : String) : Except FileError String :=
  match files.locate name with
  | .error fault => .error fault
  | .ok path =>
    match files.get? path with
    | none => .error .notFound
    | some .directory => .error .isDirectory
    | some .locked => .error .denied
    | some .binary => .error .notText
    | some (.text content) => .ok content

def makeDirectory (files : Files) (origin : Path) (above : List String) (name : String) :
    Except FileError Files :=
  match files.walk (above ++ ["."]) origin with
  | .error fault => .error fault
  | .ok path =>
    if name = ".." then .error .alreadyExists
    else if longestStep < Text.byteLength name.toList then .error .nameTooLong
    else if (files.get? (path ++ [name])).isSome then .error .alreadyExists
    else .ok (files.put (path ++ [name]) .directory)

def ensureDirectory (files : Files) (origin : Path) (above : List String) (name : String) :
    Except FileError Files :=
  match files.makeDirectory origin above name with
  | .error .alreadyExists =>
    match files.walk (above ++ [name, "."]) origin with
    | .ok _ => .ok files
    | .error _ => .error .alreadyExists
  | result => result

-- Makes a directory, given by its steps from the last to the first. When the one above is missing
-- that one is made first. Directories made before a fault stay.
def ensureDirectories (files : Files) (origin : Path) : List String → Files × Option FileError
  | [] => (files, none)
  | name :: above =>
    match files.ensureDirectory origin above.reverse name with
    | .ok files => (files, none)
    | .error .notFound =>
      match files.ensureDirectories origin above with
      | (files, some fault) => (files, some fault)
      | (files, none) =>
        match files.ensureDirectory origin above.reverse name with
        | .ok files => (files, none)
        | .error fault => (files, some fault)
    | .error fault => (files, some fault)

def makeParents (files : Files) (name : String) : Files × Option FileError :=
  if nameLimit ≤ Path.parentLength name then (files, some .nameTooLong)
  else
    files.ensureDirectories (files.origin name)
      ((Path.steps name).filter (· ≠ ".")).reverse.tail

-- A name with a slash at its end is no name for a file, whatever stands before the slash.
def writePath (files : Files) (name : String) : Except FileError Path :=
  match nameFault? name with
  | some fault => .error fault
  | none =>
    if name.toList.getLast? = some '/' then
      match files.walk ((Path.steps name).dropLast.dropLast ++ ["."]) (files.origin name) with
      | .error fault => .error fault
      | .ok _ => .error .isDirectory
    else files.walk (Path.steps name) (files.origin name)

def writeFault? : Option Entry → Option FileError
  | some .directory => some .isDirectory
  | some .locked => some .denied
  | _ => none

def write (files : Files) (name content : String) : Except FileError Files :=
  match files.writePath name with
  | .error fault => .error fault
  | .ok path =>
    match writeFault? (files.get? path) with
    | some fault => .error fault
    | none => .ok (files.put path (.text content))

end Files

end ScoreFilter
