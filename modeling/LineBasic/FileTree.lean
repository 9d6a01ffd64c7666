import LineBasic.Text

namespace LineBasic

inductive Entry where
  | file (content : Bytes)
  | directory
  | missing
  | notDirectory
  | nameTooLong
  | invalidName
  | denied
  deriving DecidableEq, Repr

namespace Entry

def read (path : Bytes) : Entry → Except Bytes Bytes
  | .file content => .ok content
  | .directory => .error (Bytes.ofString "read " ++ path ++ Bytes.ofString ": is a directory")
  | .missing =>
    .error (Bytes.ofString "open " ++ path ++ Bytes.ofString ": no such file or directory")
  | .notDirectory => .error (Bytes.ofString "open " ++ path ++ Bytes.ofString ": not a directory")
  | .nameTooLong => .error (Bytes.ofString "open " ++ path ++ Bytes.ofString ": file name too long")
  | .invalidName => .error (Bytes.ofString "open " ++ path ++ Bytes.ofString ": invalid argument")
  | .denied => .error (Bytes.ofString "open " ++ path ++ Bytes.ofString ": permission denied")

end Entry

-- The files below a working directory by the components of their paths. The directories are those
-- that the files need.
structure FileTree where
  files : List (List Bytes × Bytes)

namespace FileTree

def components (path : Bytes) : List Bytes :=
  (Bytes.splitOn 47 path).filter fun part => !part.isEmpty && part != [46]

def commonDirectories : List Bytes :=
  ["bin", "dev", "etc", "home", "lib", "lib64", "media", "mnt", "opt", "proc", "root", "run",
    "sbin", "srv", "sys", "tmp", "usr", "var"].map Bytes.ofString

-- The place of the working directory below the root directory. Its own name is known to nobody, so
-- no component of a path is equal to it.
def workingPath : List Bytes :=
  [Bytes.ofString "tmp", []]

def nullDevice : List Bytes :=
  [Bytes.ofString "dev", Bytes.ofString "null"]

def ofPaths (files : List (Bytes × Bytes)) : FileTree :=
  ⟨(nullDevice, []) :: files.map fun (path, content) => (workingPath ++ components path, content)⟩

def file? (t : FileTree) (parts : List Bytes) : Option Bytes :=
  t.files.lookup parts

def isDirectory (t : FileTree) (parts : List Bytes) : Bool :=
  parts.isPrefixOf workingPath
    || commonDirectories.any (fun name => parts == [name])
    || t.files.any fun (path, _) => parts.isPrefixOf path && path != parts

-- Follows components from the directory or file that the first ones, in reverse, have led to. The
-- root directory is its own parent.
def follow (t : FileTree) : List Bytes → List Bytes → Entry
  | here, [] =>
    match t.file? here.reverse with
    | some content => .file content
    | none => if t.isDirectory here.reverse then .directory else .missing
  | here, part :: rest =>
    if (t.file? here.reverse).isSome then .notDirectory
    else if !t.isDirectory here.reverse then .missing
    else if part = [46, 46] then follow t (here.drop 1) rest
    else if part.length > 255 then .nameTooLong
    else follow t (part :: here) rest

-- A path that ends in a slash or in a dot names a directory.
def endsInDirectory (path : Bytes) : Bool :=
  match (Bytes.splitOn 47 path).getLast? with
  | some last => last.isEmpty || last == [46]
  | none => false

-- What a path leads to, from the root directory if it starts with a slash.
def find (t : FileTree) (path : Bytes) : Entry :=
  if path.contains 0 then .invalidName
  else if path.length ≥ 4096 then .nameTooLong
  else
    match path.head? with
    | none => .missing
    | some first =>
      match t.follow (if first = 47 then [] else workingPath.reverse) (components path) with
      | .file content => if endsInDirectory path then .notDirectory else .file content
      | entry => entry

end FileTree

end LineBasic
