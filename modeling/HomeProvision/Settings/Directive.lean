import HomeProvision.Number.Numeral
import HomeProvision.Settings.Error
import HomeProvision.Text.CaseFold

/-!
# The directive

Settings in one line: a switch, then optionally the mode of the home, then any number of pairs of a
keyword and its value, `skel` with the skeleton's path and `dirmode` with the mode of directories
above the home. Words may be quoted. Switch and keywords are read in any case, modes in base eight,
and of a repeated keyword the last one counts.
-/

namespace HomeProvision

open HomeProvision.Data HomeProvision.Text

namespace Directive

/-- The words that switch the creation of homes on. -/
def onWords : List String := ["on", "yes", "true", "1"]

/-- The words that switch it off. -/
def offWords : List String := ["off", "no", "false", "0"]

/-- A word, and how messages show it. -/
structure Word where
  text : String
  shown : String := quoted text
  deriving Repr, DecidableEq

/-- A text as a word. -/
def Word.ofText (s : String) : Word where
  text := s

/-- Code points as a word. Half of a surrogate pair is no character, so U+FFFD stands in its place in
the text, which makes no difference to switches, modes and keywords: there a half is refused just as
U+FFFD is. But a skeleton path with a half is a text that the program keeps as it is, and here the path
with U+FFFD is stored instead. -/
def Word.ofPoints (ps : List CodePoint) : Word where
  text := CodePoint.seenText ps
  shown := quotedPoints ps

/-- ASCII bytes as a word, which no other bytes are. -/
def Word.ofBytes (bs : List UInt8) : Word where
  text := if bs.all (· < 0x80) then String.ofList (bs.map charOfByte) else ""
  shown := quotedBytes bs

/-- The truth value of a switch. -/
def readSwitch (word : Word) : Except SettingsError Bool :=
  if onWords.contains (lowerCase word.text) then .ok true
  else if offWords.contains (lowerCase word.text) then .ok false
  else .error (.notSwitch word.shown)

/-- The mode that a word denotes in base eight. -/
def readOctal (word : Word) : Except SettingsError Int :=
  match Number.octal? word.text with
  | some n => .ok n
  | none => .error (.badMode word.shown)

/-- The mode that a value denotes: a number itself, texts and bytes in base eight. Truth values are
refused, and values of other types have no reading. -/
def readModeValue : Value → Except SettingsError Int
  | .bool b => .error (.badMode (Value.boolText b))
  | .int n => .ok n
  | .text s => readOctal (.ofText s)
  | .illFormed ps => readOctal (.ofPoints ps)
  | .bytes bs => readOctal (.ofBytes bs)
  | _ => .error .modeType

/-- The keywords of a directive. -/
inductive Keyword where
  | skeleton
  | intermediateMode
  deriving Repr, DecidableEq

/-- The keyword that a word is, in any case. -/
def Keyword.ofWord? (word : Word) : Option Keyword :=
  if lowerCase word.text = "skel" then some .skeleton
  else if lowerCase word.text = "dirmode" then some .intermediateMode
  else none

/-- A draft with the value of one keyword set. -/
def Keyword.apply (k : Keyword) (value : Word) (d : Draft) : Except SettingsError Draft :=
  match k with
  | .skeleton => .ok { d with skeleton := some value.text }
  | .intermediateMode => (readOctal value).map fun n => { d with intermediateMode := n }

/-- Reads pairs of a keyword and its value. -/
def readPairs (d : Draft) : List Word → Except SettingsError Draft
  | [] => .ok d
  | [word] =>
      match Keyword.ofWord? word with
      | some _ => .error (.noValue word.text)
      | none => .error (.unknownWord word.shown)
  | word :: value :: rest =>
      match Keyword.ofWord? word with
      | some k => k.apply value d >>= fun d => readPairs d rest
      | none => .error (.unknownWord word.shown)

/-- Reads what follows the switch: a mode unless the first word is a keyword, then pairs. -/
def readParameters (d : Draft) : List Word → Except SettingsError Draft
  | [] => .ok d
  | word :: rest =>
      match Keyword.ofWord? word with
      | some _ => readPairs d (word :: rest)
      | none => readOctal word >>= fun n => readPairs { d with finalMode := n } rest

/-- The draft that the words of a directive give. -/
def readWords : List Word → Except SettingsError Draft
  | [] => .error .noSwitch
  | switch :: rest =>
      readSwitch switch >>= fun enabled => readParameters { enabled } rest

end Directive

/-- A draft's settings, or the refusal of its modes. -/
def Draft.settings (d : Draft) : Except SettingsError Settings :=
  d.check.mapError .invalid

/-- The settings that a directive gives. -/
def Settings.ofDirective (line : String) : Except SettingsError Settings := do
  let words ← (splitWords line).mapError .words
  let draft ← Directive.readWords (words.map .ofText)
  draft.settings

/-- The settings that an ill-formed directive gives. -/
def Settings.ofPoints (line : List CodePoint) : Except SettingsError Settings := do
  let words ← (splitPoints line).mapError .words
  let draft ← Directive.readWords (words.map .ofPoints)
  draft.settings

/-- The settings that a mapping gives: `enabled` by truth or by a switch word, `mode` and `dirmode`
in base eight, `skel` as text. Null is the same as no entry. -/
def Settings.ofMapping (entries : List (Value × Value)) : Except SettingsError Settings := do
  let known := ["enabled", "mode", "dirmode", "skel"]
  let unknown := entries.filter fun entry =>
    match entry.1 with
    | .text key => !known.contains key
    | _ => true
  if !unknown.isEmpty then
    let keys ← (Value.sortKeys (unknown.map (·.1))).mapError .unorderedKeys
    throw (.unknownKeys (keys.map Value.shown))
  let entry (key : String) : Value := (Value.lookup? (.text key) entries).getD .null
  let enabled ←
    match entry "enabled" with
    | .text word => Directive.readSwitch (.ofText word)
    | .illFormed word => Directive.readSwitch (.ofPoints word)
    | v => pure v.truthy
  let mode (key : String) (default : Int) : Except SettingsError Int :=
    match entry key with
    | .null => pure default
    | v => Directive.readModeValue v
  let finalMode ← mode "mode" Mode.home.toInt
  let intermediateMode ← mode "dirmode" Mode.intermediate.toInt
  let skeleton := if (entry "skel").truthy then some (entry "skel").plain else none
  Draft.settings { enabled, finalMode, intermediateMode, skeleton }

end HomeProvision
