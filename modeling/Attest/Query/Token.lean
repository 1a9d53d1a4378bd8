import Attest.Text.CharClass
import Attest.Value.Display

/-!
# Tokens of queries

A query is made of names, numbers, named operators between backquotes and signs. Names may be put
between quotes, in which a backslash takes the meaning from the character after it.

## Main definitions

* `Query.Token`, `Query.Token.label` — a token and how messages show it
* `Query.Mark` — a token with its line and column
* `Query.scan` — the tokens of a text, and what ended them

## Implementation notes

Columns are counted from the last line feed itself, so they start at 0 on the first line and at 1
on the others. A quoted token has the position of its closing quote.
-/

namespace Attest

namespace Query

/-- Words that cannot be names. -/
inductive Keyword where
  | parent
  | whereHolds
  | whereFails
  deriving DecidableEq, Repr, Inhabited

inductive Token where
  | name (text : String)
  | number (n : Int)
  | operator (text : String)
  | keyword (word : Keyword)
  | doubleDot
  | sign (c : Char)
  deriving DecidableEq, Repr, Inhabited

def Keyword.text : Keyword → String
  | .parent => "parent"
  | .whereHolds => "where"
  | .whereFails => "wherenot"

/-- The value of a token and the class of its kind. -/
def Token.label : Token → String
  | .name text => s!"{text} (ID)"
  | .number n => s!"{n} (NUMBER)"
  | .operator text => s!"{text} (NAMED_OPERATOR)"
  | .keyword word => s!"{word.text} ({word.text.toUpper})"
  | .doubleDot => ".. (DOUBLEDOT)"
  | .sign c => s!"{c} ({c})"

/-- A token and its position. -/
structure Mark where
  token : Token
  line : Nat
  column : Nat
  /-- The position from the start of the text. -/
  place : Nat
  deriving Repr, Inhabited

/-- What ends the tokens before the text ends. -/
inductive Trouble where
  | message (text : String)
  | tooManyDigits (count : Nat)
  deriving DecidableEq, Repr, Inhabited

/-! ### Characters -/

def isNameStart (c : Char) : Bool :=
  'a' ≤ c && c ≤ 'z' || 'A' ≤ c && c ≤ 'Z' || c = '_' || c = '@'
    || 0x4E00 ≤ c.toNat && c.toNat ≤ 0x9FA5 || 0x1F600 ≤ c.toNat && c.toNat ≤ 0x1F64F

def isNameRest (c : Char) : Bool := isNameStart c || '0' ≤ c && c ≤ '9' || c = '-'

def signs : List Char := ['*', '.', '[', ']', '(', ')', '$', ',', ':', '|', '&', '~']

def ofWord (text : String) : Token :=
  match [Keyword.parent, .whereHolds, .whereFails].find? (·.text == text) with
  | some word => .keyword word
  | none => .name text

/-- The integer that digits of any script stand for. -/
def numberOf (negative : Bool) (digits : List Char) : Int :=
  let n := digits.foldl (fun n c => 10 * n + Boundaries.digitValue c) 0
  if negative then -(n : Int) else n

/-! ### Scanning -/

/-- Between which marks a scanner is. -/
inductive Mode where
  | plain
  | quoted (quote : Char) (found : List Char)
  deriving Repr, Inhabited

/-- Where a scanner is: the line, the position of its start, the position in the text. -/
structure Here where
  line : Nat
  lineStart : Nat
  place : Nat

def Here.mark (h : Here) (token : Token) : Mark := ⟨token, h.line, h.place - h.lineStart, h.place⟩

def Here.ahead (h : Here) (count : Nat) : Here := { h with place := h.place + count }

/-- What a scanner says about a character between the given quotes, or outside of quotes. -/
def unexpected (h : Here) (quote : Option Char) (c : Char) : Trouble :=
  let inside := match quote with
    | some '\'' => " while lexing singlequoted field"
    | some '"' => " while lexing doublequoted field"
    | some _ => " while lexing backquoted operator"
    | none => ""
  .message s!"Error on line {h.line}, col {h.place - h.lineStart}{inside}: Unexpected character: {c} "

def closeQuote (quote : Char) (text : String) : Token :=
  if quote = '`' then .operator text else .name text

/-- The tokens of a text, up to the first trouble. Every call takes a character at least. -/
def scanFrom : Nat → Here → Mode → List Char → List Mark × Option Trouble
  | 0, _, _, _ => ([], none)
  | _ + 1, _, .plain, [] => ([], none)
  | _ + 1, _, .quoted .., [] =>
    ([], some (.message "Unexpected EOF in string literal or identifier"))
  | bound + 1, h, .quoted quote found, c :: rest =>
    if c = quote then
      let (marks, trouble) := scanFrom bound (h.ahead 1) .plain rest
      (h.mark (closeQuote quote (String.ofList found)) :: marks, trouble)
    else if c = '\\' then
      match rest with
      | d :: rest' =>
        if d = '\n' then ([], some (unexpected h (some quote) c))
        else scanFrom bound (h.ahead 2) (.quoted quote (found ++ [d])) rest'
      | [] => ([], some (unexpected h (some quote) c))
    else
      let run := (c :: rest).takeWhile fun d => d ≠ quote && d ≠ '\\'
      scanFrom bound (h.ahead run.length) (.quoted quote (found ++ run))
        ((c :: rest).drop run.length)
  | bound + 1, h, .plain, c :: rest =>
    if c = ' ' || c = '\t' then scanFrom bound (h.ahead 1) .plain rest
    else if c = '\n' then scanFrom bound ⟨h.line + 1, h.place, h.place + 1⟩ .plain rest
    else if isNameStart c then
      let word := c :: rest.takeWhile isNameRest
      let (marks, trouble) :=
        scanFrom bound (h.ahead word.length) .plain ((c :: rest).drop word.length)
      (h.mark (ofWord (String.ofList word)) :: marks, trouble)
    else
      let digits := (if c = '-' then rest else c :: rest).takeWhile
        Boundaries.decimalDigit.contains
      if !digits.isEmpty then
        if digitLimit < digits.length then ([], some (.tooManyDigits digits.length))
        else
          let width := digits.length + (if c = '-' then 1 else 0)
          let (marks, trouble) :=
            scanFrom bound (h.ahead width) .plain ((c :: rest).drop width)
          (h.mark (.number (numberOf (c = '-') digits)) :: marks, trouble)
      else if c = '\'' || c = '"' || c = '`' then
        scanFrom bound (h.ahead 1) (.quoted c []) rest
      else if c = '.' && rest.head? == some '.' then
        let (marks, trouble) := scanFrom bound (h.ahead 2) .plain (rest.drop 1)
        (h.mark .doubleDot :: marks, trouble)
      else if signs.contains c then
        let (marks, trouble) := scanFrom bound (h.ahead 1) .plain rest
        (h.mark (.sign c) :: marks, trouble)
      else ([], some (unexpected h none c))

/-- The tokens of a text and what ended them early, if anything did. -/
def scan (text : String) : List Mark × Option Trouble :=
  scanFrom (text.length + 1) ⟨1, 0, 0⟩ .plain text.toList

end Query

end Attest
