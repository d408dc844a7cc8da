/-!
# Paths

A path is a text whose components are separated by slashes. Nothing here looks at the file tree:
the functions take paths apart, put them together and compare them as texts.
-/

namespace HomeProvision.Path

/-- The pieces of a text between slashes, empty ones included. -/
def pieces : List Char → List (List Char)
  | [] => [[]]
  | c :: rest =>
      if c = '/' then [] :: pieces rest
      else
        match pieces rest with
        | [] => [[c]]
        | piece :: more => (c :: piece) :: more

/-- The components of a path: its pieces that are not empty. -/
def components (path : String) : List String :=
  ((pieces path.toList).filter (!·.isEmpty)).map String.ofList

/-- Whether a path starts at the root. -/
def isAbsolute (path : String) : Bool :=
  path.toList.head? = some '/'

/-- Whether a path ends in a slash. -/
def endsInSlash (path : String) : Bool :=
  path.toList.getLast? = some '/'

/-- A path below a directory. An absolute path stays as it is. -/
def join (directory path : String) : String :=
  if isAbsolute path then path
  else if directory = "" || endsInSlash directory then directory ++ path
  else directory ++ "/" ++ path

/-- The paths that lead from `current` through components, one after the other. -/
def descend (current : String) : List String → List String
  | [] => []
  | part :: rest => join current part :: descend (join current part) rest

/-- The directories on the way to a path, itself last, all of them from the root on. -/
def ancestors (path : String) : List String :=
  descend "/" (components path)

/-- A text without slashes at its end. -/
def dropFinalSlashes (cs : List Char) : List Char :=
  (cs.reverse.dropWhile (· = '/')).reverse

/-- The target of a link, moved along when it lies in a directory that is moved: a target that is
the source directory or below it points to the same place in the destination, and any other target
stays. Only whole components count. -/
def remap (target source dest : String) : String :=
  let stem := dropFinalSlashes source.toList
  let origin := if stem.isEmpty then ['/'] else stem
  let cs := target.toList
  if cs ≠ origin && !(stem ++ ['/']).isPrefixOf cs then target
  else
    let remainder := (cs.drop origin.length).dropWhile (· = '/')
    if remainder.isEmpty then dest else join dest (String.ofList remainder)

/-- The slashes that a path keeps at its start: two if it starts with exactly two, and else one. -/
def leadingSlashes (cs : List Char) : List Char :=
  match (cs.takeWhile (· = '/')).length with
  | 0 => []
  | 2 => ['/', '/']
  | _ => ['/']

/-- The plain spelling of a file's path: without empty components and those that stay in place. The
empty path is the current directory. -/
def plain (path : String) : String :=
  let root := String.ofList (leadingSlashes path.toList)
  let text := root ++ "/".intercalate ((components path).filter (· ≠ "."))
  if text = "" then "." else text

end HomeProvision.Path
