import HomeProvision.Text.Digit
import HomeProvision.Text.Utf8
import HomeProvision.Yaml.Scanner

/-!
# Putting together the text of scalars

A scalar may run over several lines. A single line end inside a plain or quoted scalar is a space,
further ones are kept; a literal block keeps its lines, a folded one joins them, and its header says
what becomes of the line ends at its close.
-/

namespace HomeProvision.Yaml.Scan

open HomeProvision HomeProvision.Text

/-! ## Quoted scalars -/

/-- What a letter after a backslash stands for. -/
def escapeValue? : Char → Option Char
  | '0' => some '\x00'
  | 'a' => some '\x07'
  | 'b' => some '\x08'
  | 't' => some '\t'
  | '\t' => some '\t'
  | 'n' => some '\n'
  | 'v' => some '\x0b'
  | 'f' => some '\x0c'
  | 'r' => some '\r'
  | 'e' => some '\x1b'
  | ' ' => some ' '
  | '"' => some '"'
  | '\\' => some '\\'
  | '/' => some '/'
  | 'N' => some '\u0085'
  | '_' => some '\u00a0'
  | 'L' => some '\u2028'
  | 'P' => some '\u2029'
  | _ => none

/-- How many digits follow a letter that introduces a code. -/
def escapeWidth? : Char → Option Nat
  | 'x' => some 2
  | 'u' => some 4
  | 'U' => some 8
  | _ => none

/-- The number that hexadecimal digits denote. -/
def hexNumber (cs : List Char) : Nat :=
  cs.foldl (fun n c => n * 16 + (hexValue? c).getD 0) 0

/-- The code point with a code. Codes above the last code point are refused, and codes beyond the
machine's range in another way. -/
def codePoint (code : Nat) : Scan CodePoint :=
  if 0xd800 ≤ code && code < 0xe000 then pure (.half code)
  else if code < 0x110000 then pure (.char (Char.ofNat code))
  else if code < 0x80000000 then throw .codePointTooLarge
  else throw .codePointOverflow

/-- The line ends at the start of a line inside quotes. A mark between documents is refused. -/
def quotedBreaks : (fuel : Nat) → Scan (List Char)
  | 0 => refuse
  | fuel + 1 => do
      if ← atDocumentMark then refuse
      let _ ← takeRun fun c => c = ' ' || c = '\t'
      if isBreak (← peek) then
        let b ← lineBreak
        return b ++ (← quotedBreaks fuel)
      else return []

/-- What a backslash and the characters after it stand for; the position is after the backslash. -/
def escape : Scan (List CodePoint) := do
  let c ← peek
  match escapeValue? c, escapeWidth? c with
  | some value, _ => forward 1; return [.char value]
  | none, some width =>
      forward 1
      let digits ← take width
      demand (digits.length = width && digits.all fun d => (hexValue? d).isSome)
      return [← codePoint (hexNumber digits)]
  | none, none =>
      demand (isBreak c)
      let _ ← lineBreak
      return CodePoint.ofChars (← quotedBreaks (← steps))

/-- The characters up to white space or the closing quote. -/
def quotedRun (double : Bool) : (fuel : Nat) → Scan (List CodePoint)
  | 0 => refuse
  | fuel + 1 => do
      let run := CodePoint.ofChars
        (← takeRun fun c => !(c = '\'' || c = '"' || c = '\\' || isGap c))
      let c ← peek
      if !double && c = '\'' && (← peekAt 1) = '\'' then
        forward 2
        return run ++ .char '\'' :: (← quotedRun double fuel)
      else if (double && c = '\'') || (!double && (c = '"' || c = '\\')) then
        forward 1
        return run ++ .char c :: (← quotedRun double fuel)
      else if double && c = '\\' then
        forward 1
        let e ← escape
        return run ++ e ++ (← quotedRun double fuel)
      else return run

/-- The white space inside quotes: a line end takes the blanks around it along. -/
def quotedSpaces : Scan (List Char) := do
  let blanks ← takeRun fun c => c = ' ' || c = '\t'
  let c ← peek
  if c = '\x00' then refuse
  else if isBreak c then
    let b ← lineBreak
    let more ← quotedBreaks (← steps)
    if b ≠ ['\n'] then return b ++ more
    else if more.isEmpty then return [' ']
    else return more
  else return blanks

/-- The rest of a quoted scalar, after its first run of characters. -/
def quotedRest (quote : Char) : (fuel : Nat) → Scan (List CodePoint)
  | 0 => refuse
  | fuel + 1 => do
      if (← peek) = quote then return []
      else
        let spaces := CodePoint.ofChars (← quotedSpaces)
        let run ← quotedRun (quote = '"') (← steps)
        return spaces ++ run ++ (← quotedRest quote fuel)

/-- A scalar in quotes. -/
def quotedScalar (quote : Char) : Scan Token := do
  forward 1
  let first ← quotedRun (quote = '"') (← steps)
  let more ← quotedRest quote (← steps)
  forward 1
  return .scalar (first ++ more) false

/-! ## Plain scalars -/

/-- Whether a plain scalar ends before `c`, which `next` follows. -/
def endsPlain (inFlow : Bool) (c next : Char) : Bool :=
  isGap c ||
    (c = ':' && (isGap next || (inFlow && ",[]\x7b\x7d".toList.contains next))) ||
    (inFlow && ",?[]\x7b\x7d".toList.contains c)

/-- The characters of a plain scalar before it ends or white space follows. -/
def plainRun (inFlow : Bool) : List Char → List Char
  | [] => []
  | c :: rest =>
      if endsPlain inFlow c (rest.headD '\x00') then [] else c :: plainRun inFlow rest

/-- The line ends at the start of a line inside a plain scalar, unless a mark between documents
follows one of them. -/
def plainBreaks : (fuel : Nat) → Scan (Option (List Char))
  | 0 => refuse
  | fuel + 1 => do
      let c ← peek
      if c = ' ' then
        forward 1
        plainBreaks fuel
      else if isBreak c then
        let b ← lineBreak
        if ← atDocumentMark then return none
        return (← plainBreaks fuel).map (b ++ ·)
      else return some []

/-- The white space after a run of a plain scalar, empty where the scalar is over. Tabs do not
count. -/
def plainSpaces : Scan (List Char) := do
  let blanks ← takeRun (· = ' ')
  if isBreak (← peek) then
    let b ← lineBreak
    allowKey true
    if ← atDocumentMark then return []
    match ← plainBreaks (← steps) with
    | none => return []
    | some more =>
        if b ≠ ['\n'] then return b ++ more
        else if more.isEmpty then return [' ']
        else return more
  else return blanks

/-- The text of a plain scalar; `spaces` is the white space before the next run. -/
def plainText (indent : Int) : (fuel : Nat) → (spaces : List Char) → Scan (List Char)
  | 0, _ => refuse
  | fuel + 1, spaces => do
      if (← peek) = '#' then return []
      let s ← get
      let run := plainRun (s.flow ≠ 0) s.rest
      if run.isEmpty then return []
      allowKey false
      forward run.length
      let next ← plainSpaces
      let s ← get
      if next.isEmpty || (← peek) = '#' || (s.flow = 0 && (s.column : Int) < indent) then
        return spaces ++ run
      else return spaces ++ run ++ (← plainText indent fuel next)

/-- A scalar without quotes. -/
def plainScalar : Scan Token := do
  let indent := (← get).indent + 1
  let text ← plainText indent (← steps) []
  return .scalar (CodePoint.ofChars text) true

/-! ## Block scalars -/

/-- What becomes of the line ends at the close of a block. -/
inductive Chomping where
  | strip
  | clip
  | keep
  deriving Repr, DecidableEq

/-- A sign in the header of a block. -/
def chomping? : Char → Option Chomping
  | '+' => some .keep
  | '-' => some .strip
  | _ => none

/-- A number in the header of a block: how far its lines are indented. -/
def increment : Scan (Option Nat) := do
  let c ← peek
  if c.isDigit then
    demand (c ≠ '0')
    forward 1
    return some (c.toNat - '0'.toNat)
  else return none

/-- The header of a block: a sign and a number, in either order, and both may be missing. -/
def blockHeader : Scan (Chomping × Option Nat) := do
  let result ←
    match chomping? (← peek) with
    | some chomping =>
        forward 1
        pure (chomping, ← increment)
    | none =>
        let number ← increment
        match number, chomping? (← peek) with
        | some _, some chomping => forward 1; pure (chomping, number)
        | _, _ => pure (.clip, number)
  demand (isSpaceOrEnd (← peek))
  return result

/-- The rest of a line that may hold only a comment. -/
def ignoredLine : Scan Unit := do
  skipSpaces
  skipComment
  demand (isBreakOrEnd (← peek))
  let _ ← lineBreak

/-- The empty lines at the start of a block and the furthest column that spaces reach there. -/
def blockIndentation : (fuel : Nat) → (furthest : Nat) → Scan (List Char × Nat)
  | 0, _ => refuse
  | fuel + 1, furthest => do
      let c ← peek
      if c = ' ' then
        forward 1
        blockIndentation fuel (max furthest (← get).column)
      else if isBreak c then
        let b ← lineBreak
        let (more, furthest) ← blockIndentation fuel furthest
        return (b ++ more, furthest)
      else return ([], furthest)

/-- Passes over spaces up to a column. -/
def skipIndent (column : Nat) : Scan Unit := do
  let s ← get
  forward (min (column - s.column) (s.rest.takeWhile (· = ' ')).length)

/-- The empty lines inside a block; the position is then in the column of its text. -/
def blockBreaks (column : Nat) : (fuel : Nat) → Scan (List Char)
  | 0 => refuse
  | fuel + 1 => do
      skipIndent column
      if isBreak (← peek) then
        let b ← lineBreak
        return b ++ (← blockBreaks column fuel)
      else return []

/-- The lines of a block from the current one on. `breaks` are the empty lines before it; the result
is the text, the last line end and the empty lines after it. -/
def blockLines (folded : Bool) (column : Nat) :
    (fuel : Nat) → (breaks : List Char) → Scan (List Char × List Char × List Char)
  | 0, _ => refuse
  | fuel + 1, breaks => do
      let c ← peek
      let flush := !(c = ' ' || c = '\t')
      let line ← takeRun (!isBreakOrEnd ·)
      let b ← lineBreak
      let after ← blockBreaks column (← steps)
      let next ← peek
      if (← get).column = column && next ≠ '\x00' then
        let joint :=
          if folded && b = ['\n'] && flush && !(next = ' ' || next = '\t') then
            if after.isEmpty then [' '] else []
          else b
        let (text, final) ← blockLines folded column fuel after
        return (breaks ++ line ++ joint ++ text, final)
      else return (breaks ++ line, b, after)

/-- A literal or folded block. -/
def blockScalar (folded : Bool) : Scan Token := do
  forward 1
  let (chomping, number) ← blockHeader
  ignoredLine
  let least := max ((← get).indent + 1).toNat 1
  let (breaks, column) ←
    match number with
    | none =>
        let (breaks, furthest) ← blockIndentation (← steps) 0
        pure (breaks, max least furthest)
    | some n =>
        let column := least + n - 1
        pure (← blockBreaks column (← steps), column)
  let (text, final, after) ←
    if (← get).column = column && (← peek) ≠ '\x00' then
      blockLines folded column (← steps) breaks
    else pure ([], [], breaks)
  let tail :=
    match chomping with
    | .strip => []
    | .clip => final
    | .keep => final ++ after
  return .scalar (CodePoint.ofChars (text ++ tail)) false

end HomeProvision.Yaml.Scan
