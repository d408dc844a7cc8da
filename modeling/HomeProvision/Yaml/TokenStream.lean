import HomeProvision.Yaml.ScalarText

/-!
# From text to tokens

Each step passes over white space and comments and takes one token, with the marks that its
indentation or its colon calls for. The tokens that are settled before a mistake are kept, so that a
mistake counts only if the reader of the tokens gets that far.
-/

namespace HomeProvision.Yaml

open HomeProvision HomeProvision.Text

namespace Scan

/-! ## Tags, anchors and directives -/

/-- The bytes that `%` and two hexadecimal digits each stand for, and the text they encode. -/
def uriEscapes : (fuel : Nat) → (bytes : List UInt8) → Scan (List Char)
  | 0, _ => refuse
  | fuel + 1, bytes => do
      if (← peek) = '%' then
        forward 1
        let digits ← take 2
        demand (digits.length = 2 && digits.all fun d => (hexValue? d).isSome)
        uriEscapes fuel (bytes ++ [UInt8.ofNat (hexNumber digits)])
      else
        match decodeUtf8 bytes with
        | .ok cs => return cs
        | .error _ => refuse

/-- The characters of tags. -/
def isTagChar (c : Char) : Bool :=
  c.isAlphanum || "-;/?:@&=+$,_.!~*'()[]".toList.contains c

/-- The text of a tag. -/
def tagText : (fuel : Nat) → Scan (List Char)
  | 0 => refuse
  | fuel + 1 => do
      let run ← takeRun isTagChar
      if (← peek) = '%' then
        let cs ← uriEscapes (← steps) []
        return run ++ cs ++ (← tagText fuel)
      else return run

/-- The text of a tag, of which there must be some. -/
def someTagText : Scan String := do
  let c ← peek
  demand (isTagChar c || c = '%')
  return String.ofList (← tagText (← steps))

/-- The short form at the start of a tag, from its first mark to its second. A space right after
the first mark makes that mark the whole form. -/
def tagHandle : Scan String := do
  demand ((← peek) = '!')
  forward 1
  if (← peek) = ' ' then return "!"
  let name ← takeRun isNameChar
  if (← peek) = '!' then
    forward 1
    return String.ofList ('!' :: name ++ ['!'])
  else
    demand false
    return ""

/-- A tag. -/
def tag : Scan Token := do
  let next ← peekAt 1
  let token ←
    if next = '<' then
      forward 2
      let suffix ← someTagText
      demand ((← peek) = '>')
      forward 1
      pure (Token.tag none suffix)
    else if isGap next then
      forward 1
      pure (Token.tag none "!")
    else
      let ahead := (← get).rest.drop 1
      if (ahead.takeWhile (!isSpaceOrEnd ·)).contains '!' then
        let handle ← tagHandle
        pure (Token.tag (some handle) (← someTagText))
      else
        forward 1
        pure (Token.tag (some "!") (← someTagText))
  demand (isSpaceOrEnd (← peek))
  return token

/-- The name after the mark of an anchor or an alias. -/
def anchorName : Scan String := do
  forward 1
  let name ← takeRun isNameChar
  demand (!name.isEmpty)
  let c ← peek
  demand (isGap c || "?:,]\x7d%@\x60".toList.contains c)
  return String.ofList name

/-- A decimal number in a directive. -/
def directiveNumber : Scan Nat := do
  let digits ← takeRun Char.isDigit
  demand (!digits.isEmpty)
  if Number.decimalDigitLimit < digits.length then throw (.longNumber digits.length)
  return Number.ofDigits 10 (digits.map fun d => (hexValue? d).getD 0)

/-- A directive. -/
def directive : Scan Token := do
  forward 1
  let name ← takeRun isNameChar
  demand (!name.isEmpty && isSpaceOrEnd (← peek))
  let result ←
    match String.ofList name with
    | "YAML" =>
        skipSpaces
        let major ← directiveNumber
        demand ((← peek) = '.')
        forward 1
        let _ ← directiveNumber
        demand (isSpaceOrEnd (← peek))
        pure (Directive.version major)
    | "TAG" =>
        skipSpaces
        let handle ← tagHandle
        demand ((← peek) = ' ')
        skipSpaces
        let stem ← someTagText
        demand (isSpaceOrEnd (← peek))
        pure (Directive.tagHandle handle stem)
    | _ =>
        let _ ← takeRun (!isBreakOrEnd ·)
        pure Directive.other
  ignoredLine
  return .directive result

/-! ## One token -/

/-- Passes over white space and comments. A line end outside flow collections allows a key. -/
def toNextToken : (fuel : Nat) → Scan Unit
  | 0 => refuse
  | fuel + 1 => do
      skipSpaces
      skipComment
      let b ← lineBreak
      if !b.isEmpty then
        if (← get).flow = 0 then allowKey true
        toNextToken fuel

/-- A mark at the start of a line that ends every open collection. -/
def documentLevel : Scan Unit := do
  unwind (-1)
  dropKey
  allowKey false

/-- The end of the text. -/
def fetchEnd : Scan Unit := do
  documentLevel
  modify fun s => { s with keys := [] }
  emit .streamEnd

/-- A mark between documents. -/
def fetchDocumentMark (t : Token) : Scan Unit := do
  documentLevel
  forward 3
  emit t

/-- The start of a flow collection, which may be a key itself. -/
def fetchFlowStart (t : Token) : Scan Unit := do
  saveKey
  modify fun s => { s with flow := s.flow + 1 }
  allowKey true
  forward 1
  emit t

/-- The end of a flow collection. -/
def fetchFlowEnd (t : Token) : Scan Unit := do
  dropKey
  modify fun s => { s with flow := s.flow - 1 }
  allowKey false
  forward 1
  emit t

/-- The comma of a flow collection. -/
def fetchFlowEntry : Scan Unit := do
  allowKey true
  dropKey
  forward 1
  emit .flowEntry

/-- The mark of an entry of a block sequence. -/
def fetchBlockEntry : Scan Unit := do
  let s ← get
  if s.flow = 0 then
    demand s.keyAllowed
    if ← deepen s.column then emit .blockSequenceStart
  allowKey true
  dropKey
  forward 1
  emit .blockEntry

/-- The mark of a key. -/
def fetchKey : Scan Unit := do
  let s ← get
  if s.flow = 0 then
    demand s.keyAllowed
    if ← deepen s.column then emit .blockMappingStart
  allowKey (s.flow = 0)
  dropKey
  forward 1
  emit .key

/-- The colon before a value. If a key without a mark precedes it, the marks of the key, and of a
mapping that it opens, go before the key. -/
def fetchValue : Scan Unit := do
  let s ← get
  match s.keys.lookup s.flow with
  | some place =>
      set { s with keys := s.keys.filter fun entry => entry.1 ≠ s.flow }
      emitAt place.token .key
      if s.flow = 0 then
        if ← deepen place.column then emitAt place.token .blockMappingStart
      allowKey false
  | none =>
      if s.flow = 0 then
        demand s.keyAllowed
        if ← deepen s.column then emit .blockMappingStart
      allowKey (s.flow = 0)
      dropKey
  forward 1
  emit .value

/-- A token that may be a key and that no key follows. -/
def fetchAtom (scan : Scan Token) : Scan Unit := do
  saveKey
  allowKey false
  emit (← scan)

/-- A block scalar, after which a key may follow. -/
def fetchBlockScalar (folded : Bool) : Scan Unit := do
  allowKey true
  dropKey
  emit (← blockScalar folded)

/-- Whether a plain scalar may begin with `c`, which `next` follows. -/
def startsPlain (inFlow : Bool) (c next : Char) : Bool :=
  !(isGap c || "-?:,[]\x7b\x7d#&*!|>'\"%@\x60".toList.contains c) ||
    (!isGap next && (c = '-' || (!inFlow && (c = '?' || c = ':'))))

/-- Takes the next token, and says whether it was the end. -/
def fetchToken : Scan Bool := do
  toNextToken (← steps)
  dropStaleKeys
  unwind (← get).column
  let s ← get
  let c ← peek
  let next ← peekAt 1
  let inFlow := s.flow ≠ 0
  let atMark := s.column = 0 && (← atDocumentMark)
  if c = '\x00' then fetchEnd
  else if c = '%' && s.column = 0 then
    documentLevel
    emit (← directive)
  else if c = '-' && atMark then fetchDocumentMark .documentStart
  else if c = '.' && atMark then fetchDocumentMark .documentEnd
  else if c = '[' then fetchFlowStart .flowSequenceStart
  else if c = '\x7b' then fetchFlowStart .flowMappingStart
  else if c = ']' then fetchFlowEnd .flowSequenceEnd
  else if c = '\x7d' then fetchFlowEnd .flowMappingEnd
  else if c = ',' then fetchFlowEntry
  else if c = '-' && isGap next then fetchBlockEntry
  else if c = '?' && (inFlow || isGap next) then fetchKey
  else if c = ':' && (inFlow || isGap next) then fetchValue
  else if c = '*' then fetchAtom (return .alias (← anchorName))
  else if c = '&' then fetchAtom (return .anchor (← anchorName))
  else if c = '!' then fetchAtom tag
  else if c = '|' && !inFlow then fetchBlockScalar false
  else if c = '>' && !inFlow then fetchBlockScalar true
  else if c = '\'' || c = '"' then fetchAtom (quotedScalar c)
  else if startsPlain inFlow c next then fetchAtom plainScalar
  else refuse
  return c = '\x00'

end Scan

/-- The tokens of a text, and the mistake that ends them if there is one. -/
structure TokenStream where
  tokens : List Token
  mistake : DocumentError := .malformed

/-- How many tokens can be handed out: those before the first place where a key may have begun,
because the mark of that key may still have to be put in. -/
def Scanner.ready (s : Scanner) : Nat :=
  s.keys.foldl (fun n entry => min n entry.2.token) s.tokens.size

namespace TokenStream

/-- The tokens that were handed out before a mistake. -/
def upTo (s : Scanner) (ready : Nat) (mistake : DocumentError) : TokenStream where
  tokens := s.tokens.toList.take ready
  mistake := mistake

/-- Takes tokens until the end or a mistake; `ready` of them have been handed out so far. -/
def collect (s : Scanner) (ready : Nat) : (fuel : Nat) → TokenStream
  | 0 => upTo s ready .malformed
  | fuel + 1 =>
      match Scan.dropStaleKeys s with
      | .error mistake => upTo s ready mistake
      | .ok (_, s) =>
          match Scan.fetchToken s with
          | .error mistake => upTo s s.ready mistake
          | .ok (true, s) => { tokens := s.tokens.toList }
          | .ok (false, next) => collect next s.ready fuel

/-- The tokens of a text. A byte order mark at its start is passed over. -/
def ofText (text : List Char) : TokenStream :=
  let start : Scanner := { rest := text }
  let start := if text.head? = some '\ufeff' then Scan.pass start else start
  collect start 0 (text.length + 2)

end TokenStream

end HomeProvision.Yaml
