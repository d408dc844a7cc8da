import HomeProvision.Text.Digit

/-!
# Strict UTF-8

Decoding either gives the text or names the first bytes that belong to none, with the reason. The
reader of a text file then turns every return, alone or before a line feed, into a line feed.
-/

namespace HomeProvision.Text

/-- Why bytes belong to no text. -/
inductive Utf8Problem where
  | invalidStart
  | invalidContinuation
  | unexpectedEnd
  deriving Repr, DecidableEq

/-- The wording of a reason. -/
def Utf8Problem.text : Utf8Problem → String
  | .invalidStart => "invalid start byte"
  | .invalidContinuation => "invalid continuation byte"
  | .unexpectedEnd => "unexpected end of data"

/-- The first bytes that belong to no text: where they start, how many they are and which is the
first. -/
structure Utf8Error where
  position : Nat
  count : Nat
  first : UInt8
  problem : Utf8Problem
  deriving Repr, DecidableEq

/-- The message for undecodable bytes: a single byte is shown, several are given by position. -/
def Utf8Error.message (e : Utf8Error) : String :=
  let place :=
    if e.count = 1 then
      "byte 0x" ++ String.ofList (hexDigits 2 e.first.toNat) ++ " in position " ++
        toString e.position
    else
      "bytes in position " ++ toString e.position ++ "-" ++ toString (e.position + e.count - 1)
  "'utf-8' codec can't decode " ++ place ++ ": " ++ e.problem.text

/-- A byte that may follow the first byte of a character. -/
def isContinuation (b : UInt8) : Bool :=
  0x80 ≤ b && b < 0xc0

/-- A byte that may follow `lead`: the shortest form is required, surrogates and code points above
the last one are refused. -/
def isSecond (lead b : UInt8) : Bool :=
  isContinuation b &&
    (if lead = 0xe0 then 0xa0 ≤ b
    else if lead = 0xed then b < 0xa0
    else if lead = 0xf0 then 0x90 ≤ b
    else if lead = 0xf4 then b < 0x90
    else true)

/-- How many bytes a character takes, by its first byte. -/
def encodedLength? (lead : UInt8) : Option Nat :=
  if lead < 0x80 then some 1
  else if 0xc2 ≤ lead && lead < 0xe0 then some 2
  else if 0xe0 ≤ lead && lead < 0xf0 then some 3
  else if 0xf0 ≤ lead && lead < 0xf5 then some 4
  else none

/-- The six bits that a continuation byte carries. -/
def payload (b : UInt8) : Nat :=
  b.toNat % 64

/-- Decodes bytes that start at `position` of the whole. -/
def decodeUtf8From (position : Nat) : List UInt8 → Except Utf8Error (List Char)
  | [] => .ok []
  | lead :: rest =>
      let refuse (count : Nat) (problem : Utf8Problem) : Except Utf8Error (List Char) :=
        .error ⟨position, count, lead, problem⟩
      match encodedLength? lead with
      | none => refuse 1 .invalidStart
      | some 1 => (decodeUtf8From (position + 1) rest).map (Char.ofNat lead.toNat :: ·)
      | some size =>
          match rest with
          | [] => refuse 1 .unexpectedEnd
          | b₁ :: rest₁ =>
              if !isSecond lead b₁ then refuse 1 .invalidContinuation
              else if size = 2 then
                (decodeUtf8From (position + 2) rest₁).map
                  (Char.ofNat (lead.toNat % 32 * 64 + payload b₁) :: ·)
              else
                match rest₁ with
                | [] => refuse 2 .unexpectedEnd
                | b₂ :: rest₂ =>
                    if !isContinuation b₂ then refuse 2 .invalidContinuation
                    else if size = 3 then
                      (decodeUtf8From (position + 3) rest₂).map
                        (Char.ofNat ((lead.toNat % 16 * 64 + payload b₁) * 64 + payload b₂) :: ·)
                    else
                      match rest₂ with
                      | [] => refuse 3 .unexpectedEnd
                      | b₃ :: rest₃ =>
                          if !isContinuation b₃ then refuse 3 .invalidContinuation
                          else
                            (decodeUtf8From (position + 4) rest₃).map
                              (Char.ofNat
                                (((lead.toNat % 8 * 64 + payload b₁) * 64 + payload b₂) * 64 +
                                  payload b₃) :: ·)

/-- The text that the bytes encode. -/
def decodeUtf8 (bytes : List UInt8) : Except Utf8Error (List Char) :=
  decodeUtf8From 0 bytes

/-- The text with every kind of line end turned into a line feed. -/
def unifyLineEnds : List Char → List Char
  | [] => []
  | '\r' :: '\n' :: rest => '\n' :: unifyLineEnds rest
  | '\r' :: rest => '\n' :: unifyLineEnds rest
  | c :: rest => c :: unifyLineEnds rest

/-- The content of a text file. -/
def readText (bytes : List UInt8) : Except Utf8Error (List Char) :=
  (decodeUtf8 bytes).map unifyLineEnds

end HomeProvision.Text
