import Harvest.Json.Draft
import Harvest.Text.Blank

/-! The words of a JSON text. The scanner is a machine that looks at one character at a time;
it stops at the first character that starts no word, for nothing behind it can matter.
-/

namespace Harvest.Json

open Decimal

/-- A word of a text. -/
inductive Token where
  | openList
  | closeList
  | openRecord
  | closeRecord
  | comma
  | colon
  | null
  | bool (value : Bool)
  | number (value : Option Number)
  | string (value : Except SyntaxError String)
  /-- A word that starts as a string and is damaged. -/
  | badString (breach : Breach)
  /-- A word that starts as another value and is damaged. -/
  | badValue (breach : Breach)
  /-- A character that starts no word. -/
  | stray

/-- Characters that may stand between words. -/
def isSpace (c : Char) : Bool :=
  c == ' ' || c == '\n' || c == '\t' || c == '\r'

/-- A piece of a string between its quotes: a character, or sixteen bits given in
hexadecimal digits.
-/
inductive Piece where
  | char (value : Char)
  | bits (value : Nat)

/-- How the text of a string ends. -/
inductive StringEnd where
  | closed
  | cut
  | badEscape
  | badHex
  | control
deriving DecidableEq

/-- The fault of a string that does not close. -/
def StringEnd.fault : StringEnd → SyntaxError
  | .closed => .stringCut
  | .cut => .stringCut
  | .badEscape => .invalidEscape
  | .badHex => .invalidEscape
  | .control => .controlCharacter

/-- The fault of a leading surrogate right before the end of a string. -/
def StringEnd.faultAfterSurrogate : StringEnd → SyntaxError
  | .cut => .stringCut
  | .badHex => .invalidEscape
  | _ => .hexEscapeCut

/-- The characters that pieces name, surrogates joined in pairs. -/
def Piece.join (ending : StringEnd) : List Piece → Except SyntaxError (List Char)
  | [] => return []
  | .char c :: rest => return c :: (← join ending rest)
  | .bits n :: rest =>
      if 0xDC00 ≤ n && n ≤ 0xDFFF then throw .loneSurrogate
      else if n < 0xD800 || 0xDBFF < n then
        return Char.ofNat n :: (← join ending rest)
      else
        match rest with
        | .bits m :: rest =>
            if 0xDC00 ≤ m && m ≤ 0xDFFF then
              return Char.ofNat ((n - 0xD800) * 0x400 + (m - 0xDC00) + 0x10000)
                :: (← join ending rest)
            else throw .loneSurrogate
        | .char _ :: _ => throw .hexEscapeCut
        | [] => throw ending.faultAfterSurrogate

/-- The token of a string from its pieces, the last one first. -/
def stringToken (pieces : List Piece) (ending : StringEnd) : Token :=
  let joined := Piece.join ending pieces.reverse
  match ending with
  | .closed => .string (joined.map String.ofList)
  | _ =>
      let used := match joined with
        | .ok _ => ending.fault
        | .error e => e
      .badString ⟨used, ending.fault⟩

/-- Where the scanner stands inside a number. -/
inductive NumberPart where
  | sign
  | zero
  | whole
  | point
  | fraction
  | mark
  | markSign
  | exponent
deriving DecidableEq

/-- A number as far as it has been scanned, the last digits first. -/
structure NumberText where
  part : NumberPart
  negative : Bool
  wholeDigits : List Nat
  fractionDigits : List Nat
  exponentNegative : Bool
  exponentDigits : List Nat

namespace NumberText

/-- A number that starts with a minus sign. -/
def minus : NumberText := ⟨.sign, true, [], [], false, []⟩

/-- A number that has its first digit. -/
def addWhole (t : NumberText) (d : Nat) : NumberText :=
  { t with part := if t.wholeDigits.isEmpty && d == 0 then .zero else .whole,
           wholeDigits := d :: t.wholeDigits }

/-- The next state of the scanner inside a number, if the character goes on with it. -/
def step (t : NumberText) (c : Char) : Option NumberText :=
  let digit := c.toNat - 48
  match t.part with
  | .sign => if Text.isDigit c then some (t.addWhole digit) else none
  | .zero =>
      if c == '.' then some { t with part := .point }
      else if c == 'e' || c == 'E' then some { t with part := .mark }
      else none
  | .whole =>
      if Text.isDigit c then some (t.addWhole digit)
      else if c == '.' then some { t with part := .point }
      else if c == 'e' || c == 'E' then some { t with part := .mark }
      else none
  | .point =>
      if Text.isDigit c then some { t with part := .fraction, fractionDigits := [digit] }
      else none
  | .fraction =>
      if Text.isDigit c then some { t with fractionDigits := digit :: t.fractionDigits }
      else if c == 'e' || c == 'E' then some { t with part := .mark }
      else none
  | .mark =>
      if c == '+' then some { t with part := .markSign }
      else if c == '-' then some { t with part := .markSign, exponentNegative := true }
      else if Text.isDigit c then some { t with part := .exponent, exponentDigits := [digit] }
      else none
  | .markSign =>
      if Text.isDigit c then some { t with part := .exponent, exponentDigits := [digit] }
      else none
  | .exponent =>
      if Text.isDigit c then some { t with exponentDigits := digit :: t.exponentDigits }
      else none

/-- Takes digits into a significand as long as it fits 64 bits; the rest is left over. -/
def absorb (significand : Nat) : List Nat → Nat × List Nat
  | [] => (significand, [])
  | d :: ds =>
      if significand * 10 + d < 18446744073709551616 then absorb (significand * 10 + d) ds
      else (significand, d :: ds)

/-- The number that a complete text stands for, or nothing when it is too large. -/
def value (t : NumberText) : Option Number :=
  let (significand, left) := absorb 0 t.wholeDigits.reverse
  let isWhole := left.isEmpty && (t.part == .zero || t.part == .whole)
  if isWhole then
    if !t.negative then some (.whole significand)
    else if significand != 0 && significand ≤ 9223372036854775808 then some (.whole (-significand))
    else (Magnitude.nearest significand 1).map fun m => .real ⟨true, m⟩
  else
    let (significand, unread) := absorb significand t.fractionDigits.reverse
    let taken : Int := (t.fractionDigits.length : Int) - unread.length
    let power := (t.exponentDigits.reverse.foldl (fun n d => n * 10 + d) 0 : Nat)
    let exponent : Int := if t.exponentNegative then -power else power
    (Magnitude.ofDecimal significand (left.length - taken + exponent)).map
      fun m => .real ⟨t.negative, m⟩

/-- The token of a number whose text goes on with `next`, or ends the whole text. -/
def token (t : NumberText) (next : Option Char) : Token :=
  let cutOr : SyntaxError := if next.isNone then .valueCut else .invalidNumber
  match t.part with
  | .sign | .point | .mark | .markSign => .badValue ⟨cutOr, .invalidNumber⟩
  | .zero =>
      if next.any Text.isDigit then .badValue (.both .invalidNumber)
      else .number t.value
  | _ => .number t.value

end NumberText

/-- Where the scanner stands. -/
inductive Scan where
  | between
  | word (expected : List Char) (token : Token)
  | number (text : NumberText)
  | string (pieces : List Piece)
  | escape (pieces : List Piece)
  | hex (pieces : List Piece) (digits : List Char)

/-- What the scanner gives out at one character, and where it stands after it; nowhere when
the rest of the text cannot matter.
-/
structure Scanned where
  tokens : List Token
  next : Option Scan

namespace Scan

/-- The step at a character that starts a word or stands between words. -/
def start (c : Char) : Scanned :=
  if isSpace c then ⟨[], some between⟩
  else if c == '[' then ⟨[.openList], some between⟩
  else if c == ']' then ⟨[.closeList], some between⟩
  else if c == '\x7b' then ⟨[.openRecord], some between⟩
  else if c == '\x7d' then ⟨[.closeRecord], some between⟩
  else if c == ',' then ⟨[.comma], some between⟩
  else if c == ':' then ⟨[.colon], some between⟩
  else if c == '"' then ⟨[], some (string [])⟩
  else if c == 'n' then ⟨[], some (word "ull".toList .null)⟩
  else if c == 't' then ⟨[], some (word "rue".toList (.bool true))⟩
  else if c == 'f' then ⟨[], some (word "alse".toList (.bool false))⟩
  else if c == '-' then ⟨[], some (number .minus)⟩
  else if Text.isDigit c then
    let text : NumberText := { NumberText.minus with negative := false }
    ⟨[], some (number (text.addWhole (c.toNat - 48)))⟩
  else ⟨[.stray], none⟩

/-- The character that a one-letter escape names. -/
def simpleEscape? (c : Char) : Option Char :=
  if c == '"' || c == '\\' || c == '/' then some c
  else if c == 'b' then some '\x08'
  else if c == 'f' then some '\x0c'
  else if c == 'n' then some '\n'
  else if c == 'r' then some '\r'
  else if c == 't' then some '\t'
  else none

/-- The step at a character with the rest of the text behind it. -/
def step (c : Char) (rest : List Char) : Scan → Scanned
  | between => start c
  | word [] token =>
      let after := start c
      ⟨token :: after.tokens, after.next⟩
  | word (x :: xs) token =>
      if c != x then ⟨[.badValue (.both .expectedIdent)], none⟩
      else if xs.isEmpty then ⟨[token], some between⟩
      else ⟨[], some (word xs token)⟩
  | number text =>
      match text.step c with
      | some text => ⟨[], some (number text)⟩
      | none =>
          match text.token (some c) with
          | .number value =>
              let after := start c
              ⟨.number value :: after.tokens, after.next⟩
          | token => ⟨[token], none⟩
  | string pieces =>
      if c == '"' then ⟨[stringToken pieces .closed], some between⟩
      else if c == '\\' then ⟨[], some (escape pieces)⟩
      else if c.toNat < 0x20 then ⟨[stringToken pieces .control], none⟩
      else ⟨[], some (string (.char c :: pieces))⟩
  | escape pieces =>
      if c == 'u' then
        if Text.byteCount (rest.take 4) < 4 then ⟨[stringToken pieces .cut], none⟩
        else ⟨[], some (hex pieces [])⟩
      else
        match simpleEscape? c with
        | some value => ⟨[], some (string (.char value :: pieces))⟩
        | none => ⟨[stringToken pieces .badEscape], none⟩
  | hex pieces digits =>
      match Text.hexNumber? (c :: digits).reverse with
      | none => ⟨[stringToken pieces .badHex], none⟩
      | some n =>
          if digits.length < 3 then ⟨[], some (hex pieces (c :: digits))⟩
          else ⟨[], some (string (.bits n :: pieces))⟩

/-- What the scanner gives out where the text ends. -/
def finish : Scan → List Token
  | between => []
  | word [] token => [token]
  | word _ _ => [.badValue (.both .valueCut)]
  | number text => [text.token none]
  | string pieces => [stringToken pieces .cut]
  | escape pieces => [stringToken pieces .cut]
  | hex pieces _ => [stringToken pieces .cut]

end Scan

/-- The words of a text from where the scanner stands. -/
def scan (here : Scan) : List Char → List Token
  | [] => here.finish
  | c :: rest =>
      let ⟨tokens, next⟩ := here.step c rest
      match next with
      | none => tokens
      | some after => tokens ++ scan after rest

/-- The words of a text. -/
def tokens (text : String) : List Token :=
  scan .between text.toList

end Harvest.Json
