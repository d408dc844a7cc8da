import HomeProvision.Text.Digit

/-!
# Writing JSON

Results are handed on as JSON in ASCII: every other character is escaped, those beyond the sixteen
bit range as two units. A value is written on one line, or spread over lines that are indented by
depth.
-/

namespace HomeProvision.Text

/-- A JSON value. Numbers are integers only. -/
inductive Json where
  | null
  | bool (b : Bool)
  | int (n : Int)
  | text (s : String)
  | list (items : List Json)
  | object (entries : List (String × Json))
  deriving Repr

namespace Json

/-- The escape of a unit of sixteen bits. -/
def unitEscape (n : Nat) : List Char :=
  '\\' :: 'u' :: hexDigits 4 n

/-- The escape of a character by its code. -/
def codeEscapes (c : Char) : List Char :=
  let n := c.toNat
  if n < 0x10000 then unitEscape n
  else
    unitEscape (0xd800 + (n - 0x10000) / 0x400) ++ unitEscape (0xdc00 + (n - 0x10000) % 0x400)

/-- A character as it stands in a JSON text. -/
def escape (c : Char) : List Char :=
  if c = '"' || c = '\\' then ['\\', c]
  else if c = '\n' then ['\\', 'n']
  else if c = '\r' then ['\\', 'r']
  else if c = '\t' then ['\\', 't']
  else if c = '\x0c' then ['\\', 'f']
  else if c = '\x08' then ['\\', 'b']
  else if ' ' ≤ c && c ≤ '~' then [c]
  else codeEscapes c

/-- A text as JSON. -/
def quote (s : String) : String :=
  String.ofList ('"' :: s.toList.flatMap escape ++ ['"'])

/-- How a value is spread over lines: the text that one level is indented by, or none for a value
on one line. -/
abbrev Layout := Option String

/-- The start of a new line at a depth. -/
def Layout.newLine (layout : Layout) (depth : Nat) : String :=
  match layout with
  | none => ""
  | some step => "\n" ++ String.join (List.replicate depth step)

/-- What stands between two items at a depth. -/
def Layout.between (layout : Layout) (depth : Nat) : String :=
  match layout with
  | none => ", "
  | some _ => "," ++ layout.newLine depth

/-- Written items between brackets. -/
def Layout.enclose (layout : Layout) (depth : Nat) (opening closing : String)
    (items : List String) : String :=
  if items.isEmpty then opening ++ closing
  else
    opening ++ layout.newLine (depth + 1) ++ (layout.between (depth + 1)).intercalate items ++
      layout.newLine depth ++ closing

mutual

/-- A value as text, at a depth. -/
def write (layout : Layout) (depth : Nat) : Json → String
  | null => "null"
  | bool b => if b then "true" else "false"
  | int n => toString n
  | text s => quote s
  | list items => layout.enclose depth "[" "]" (writeItems layout (depth + 1) items)
  | object entries =>
      layout.enclose depth "\x7b" "\x7d" (writeEntries layout (depth + 1) entries)

/-- Each item as text. -/
def writeItems (layout : Layout) (depth : Nat) : List Json → List String
  | [] => []
  | item :: rest => write layout depth item :: writeItems layout depth rest

/-- Each entry as text. -/
def writeEntries (layout : Layout) (depth : Nat) : List (String × Json) → List String
  | [] => []
  | (key, value) :: rest =>
      (quote key ++ ": " ++ write layout depth value) :: writeEntries layout depth rest

end

/-- A value on one line. -/
def line (v : Json) : String :=
  write none 0 v

/-- A value over lines that are indented by two spaces for every level. -/
def page (v : Json) : String :=
  write (some "  ") 0 v

/-- A text or null. -/
def ofOption (s : Option String) : Json :=
  (s.map text).getD null

end Json

end HomeProvision.Text
