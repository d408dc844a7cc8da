import HomeProvision.Number.Numeral
import HomeProvision.Provision.Skeleton
import HomeProvision.Settings.Error
import HomeProvision.System.Program
import HomeProvision.Text.Blank
import HomeProvision.Text.Utf8

/-!
# The environment

Constants of the program may be set by environment variables, or else by a file `.env` in the
working directory. A line of that file assigns a value to a key; blank lines, comments and lines
without an equals sign are passed over, and a value may stand in quotes. An empty value is none, and
of several values for one key the last one counts.
-/

namespace HomeProvision

open HomeProvision.Text

namespace Environment

/-- A value without the quotes around it. A single quote character counts as both. -/
def unquote : List Char → List Char
  | [] => []
  | c :: rest =>
      if (c = '"' || c = '\'') && (c :: rest).getLast? = some c then rest.dropLast
      else c :: rest

/-- The key and the value that a line assigns, if it assigns any. -/
def assignment? (line : List Char) : Option (String × String) :=
  let line := trim line
  let key := line.takeWhile (· ≠ '=')
  match line.dropWhile (· ≠ '=') with
  | '=' :: value =>
      if line.head? = some '#' then none
      else some (String.ofList (trim key), String.ofList (unquote (trim value)))
  | _ => none

/-- The assignments in a text, in order. -/
def assignments (text : List Char) : List (String × String) :=
  (splitLines text).filterMap assignment?

/-- The last value for a key that is not empty. -/
def value? (assigned : List (String × String)) (key : String) : Option String :=
  ((assigned.filter fun a => a.1 = key && a.2 ≠ "").getLast?).map (·.2)

/-- The values of the requested keys. -/
def select (keys : List String) (text : List Char) : List (String × String) :=
  keys.eraseDups.filterMap fun key => (value? (assignments text) key).map (key, ·)

/-- A positive number, or the default where the text denotes none. -/
def positiveInt (text : String) (default : Int) : Int :=
  match Number.decimal? text with
  | some n => if 0 < n then n else default
  | none => default

/-- The name of the file with assignments. -/
def fileName : String := ".env"

/-- The variable for the path of the configuration file. -/
def configurationKey : String := "MKHOME_CONFIG"

/-- The variable for the number of bytes that are copied at a time. -/
def chunkSizeKey : String := "MKHOME_COPY_CHUNK_SIZE"

/-- The path of the configuration file unless another one is set. -/
def defaultConfiguration : String := "/etc/mkhome.yaml"

end Environment

/-- What the environment settles before any work. -/
structure Constants where
  configuration : String := Environment.defaultConfiguration
  chunkSize : Int := defaultChunkSize
  deriving Repr, DecidableEq

/-- The value of an environment variable, or of the file where the variable is missing or empty. -/
def Environment.lookup (assigned file : List (String × String)) (key default : String) : String :=
  match assigned.lookup key with
  | none | some "" => (file.lookup key).getD default
  | some value => value

/-- The constants that environment variables and the file settle. -/
def Constants.ofEnvironment (assigned file : List (String × String)) : Constants where
  configuration :=
    Path.plain (Environment.lookup assigned file Environment.configurationKey
      Environment.defaultConfiguration)
  chunkSize :=
    Environment.positiveInt
      (Environment.lookup assigned file Environment.chunkSizeKey (toString defaultChunkSize))
      defaultChunkSize

namespace Program

/-- The values of the requested keys in the file of a directory. A file that the system does not let
us read has none. -/
def readEnvironment (directory : String) (keys : List String) :
    Program (List (String × String)) := do
  match ← attempt (readFile (Path.plain (Path.join directory Environment.fileName))) with
  | .error _ => return []
  | .ok content =>
      let text ← ofExcept ((readText content).mapError fun e => .settings (.encoding e))
      return Environment.select keys text

/-- The constants for a run in a directory. -/
def readConstants (assigned : List (String × String)) (directory : String) :
    Program Constants := do
  let file ← readEnvironment directory [Environment.configurationKey, Environment.chunkSizeKey]
  return Constants.ofEnvironment assigned file

end Program

end HomeProvision
