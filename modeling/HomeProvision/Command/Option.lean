import HomeProvision.Text.Digit
import HomeProvision.Text.Quoted

/-!
# Options of the command

Every argument of the command is put into one class before anything is done with it: a word, the
mark that ends the options, an option, or something that looks like an option and is none. A long
option may be cut short as long as it stays clear which one it is, and a value may be joined to it
by an equals sign. Negative numbers and texts with spaces are words.
-/

namespace HomeProvision.Command

open HomeProvision.Text

/-- The options. -/
inductive OptionName where
  | help
  | user
  | uid
  | gid
  | configuration
  | enable
  | skeleton
  | mode
  | intermediateMode
  deriving Repr, DecidableEq

/-- Every spelling of an option, in the order of declaration. -/
def spellings : List (String × OptionName) :=
  [("-h", .help), ("--help", .help), ("--user", .user), ("--uid", .uid), ("--gid", .gid),
    ("--config", .configuration), ("--enable", .enable), ("--skel", .skeleton), ("--mode", .mode),
    ("--dirmode", .intermediateMode)]

/-- The name of an option in messages: all its spellings. -/
def OptionName.text (o : OptionName) : String :=
  "/".intercalate ((spellings.filter fun s => s.2 = o).map (·.1))

/-- What is joined to an option in the same argument. -/
inductive Joined where
  | nothing
  /-- A value after an equals sign. -/
  | value (text : String)
  /-- Further characters after a short option, perhaps behind an equals sign. -/
  | tail (text : String)
  deriving Repr, DecidableEq

/-- An argument with its class. -/
inductive Item where
  | word (text : String)
  /-- The mark that ends the options. -/
  | mark
  | option (name : OptionName) (joined : Joined)
  /-- What looks like an option and is none. -/
  | stray (text : String)
  deriving Repr, DecidableEq

/-- The mark that ends the options. -/
def endMark : String := "--"

/-- The text of an argument before its first equals sign, and the value after it. -/
def splitValue (text : String) : String × Option String :=
  let key := text.toList.takeWhile (· ≠ '=')
  match text.toList.drop key.length with
  | _ :: value => (String.ofList key, some (String.ofList value))
  | [] => (text, none)

/-- A value that may be joined to an option. -/
def Joined.ofValue : Option String → Joined
  | some text => .value text
  | none => .nothing

/-- What follows an equals sign after a spelling of an option: more characters of a short one, if
there are any, and else a value. -/
def Joined.after (key : String) (value : Option String) : Joined :=
  match value with
  | some text => if key = "-h" && text ≠ "" then .tail text else .value text
  | none => .nothing

/-- Whether a character is a digit of any script. -/
def isDigit (c : Char) : Bool :=
  (digitValue? c).isSome

/-- Whether a text looks like a negative number: a minus sign and digits, with a point in front of
some of them perhaps. A line feed may follow. -/
def looksNegative (cs : List Char) : Bool :=
  match cs with
  | '-' :: rest =>
      let body := if rest.getLast? = some '\n' then rest.dropLast else rest
      let whole := body.takeWhile isDigit
      match body.drop whole.length with
      | [] => !whole.isEmpty
      | c :: fraction => c = '.' && !fraction.isEmpty && fraction.all isDigit
  | _ => false

/-- The class of a text that starts with a dash and is no option. -/
def classifyOther (text : String) : Item :=
  if looksNegative text.toList || text.toList.contains ' ' then .word text else .stray text

/-- The spellings of long options that start with a text. -/
def completions (start : String) : List (String × OptionName) :=
  spellings.filter fun s => start.toList.isPrefixOf s.1.toList

/-- An argument that could be several options: the argument and the options. -/
structure Ambiguous where
  text : String
  options : List String
  deriving Repr, DecidableEq

/-- The class of an argument before the mark. -/
def classify (text : String) : Except Ambiguous Item :=
  if text.toList.head? ≠ some '-' then .ok (.word text)
  else
    let (key, value) := splitValue text
    match spellings.lookup text, spellings.lookup key with
    | some name, _ => .ok (.option name .nothing)
    | none, some name => .ok (.option name (.after key value))
    | none, none =>
        if text = "-" then .ok (.word text)
        else if ['-', '-'].isPrefixOf text.toList then
          match completions key with
          | [] => .ok (classifyOther text)
          | [(_, name)] => .ok (.option name (.ofValue value))
          | several => .error ⟨text, several.map (·.1)⟩
        else if ['-', 'h'].isPrefixOf text.toList then
          .ok (.option .help (.tail (String.ofList (text.toList.drop 2))))
        else .ok (classifyOther text)

/-- The classes of all arguments. After the first mark everything is a word. -/
def classifyAll : List String → Except Ambiguous (List Item)
  | [] => .ok []
  | text :: rest =>
      if text = endMark then .ok (.mark :: rest.map .word)
      else do
        let item ← classify text
        return item :: (← classifyAll rest)

end HomeProvision.Command
