import Attest.Text.Quoted

/-!
# Encodings of text

Bytes as text in UTF-8, UTF-16 and UTF-32, and the guess at the encoding of a JSON document. In a
JSON document a sequence that encodes a surrogate is let through; every other malformed sequence is
an error that names the bytes and their position. A text with half a pair of surrogates in it has no
bytes in UTF-8.

## Main definitions

* `Encoding`, `Encoding.detect` — the encodings and the one that a document's first bytes suggest
* `DecodeError`, `DecodeError.message` — where decoding failed
* `Encoding.decode`, `Encoding.decodeText` — the characters of a byte string
* `normalLines` — line ends in their normal form
* `EncodeError`, `EncodeError.message` — which characters have no bytes
* `Encoding.encodeText` — the bytes of a text
-/

namespace Attest

/-- The encodings of text. -/
inductive Encoding where
  | utf8
  | utf16 (bigEndian : Bool)
  | utf32 (bigEndian : Bool)
  deriving DecidableEq, Repr, Inhabited

/-- A malformed sequence: the bytes from `start` up to `stop`. -/
structure DecodeError where
  encoding : Encoding
  byte : UInt8
  start : Nat
  stop : Nat
  reason : String
  deriving DecidableEq, Repr

namespace Encoding

def name : Encoding → String
  | .utf8 => "utf-8"
  | .utf16 false => "utf-16-le"
  | .utf16 true => "utf-16-be"
  | .utf32 false => "utf-32-le"
  | .utf32 true => "utf-32-be"

end Encoding

/-- A single byte is shown, several are given by their positions. -/
def DecodeError.message (e : DecodeError) : String :=
  "'" ++ e.encoding.name ++ "' codec can't decode "
    ++ (if e.stop = e.start + 1 then
        "byte 0x" ++ String.ofList (hexDigits 2 e.byte.toNat) ++ " in position " ++ toString e.start
      else "bytes in position " ++ toString e.start ++ "-" ++ toString (e.stop - 1))
    ++ ": " ++ e.reason

namespace Encoding

/-! ### UTF-8 -/

def isContinuation (b : UInt8) : Bool := 0x80 ≤ b && b < 0xC0

/-- The number of bytes that a first byte announces; 0 if it cannot be a first byte. -/
def announced (b : UInt8) : Nat :=
  if b < 0x80 then 1 else if b < 0xC2 then 0 else if b < 0xE0 then 2 else if b < 0xF0 then 3
  else if b < 0xF5 then 4 else 0

/-- Whether the second byte fits the first: no overlong forms, nothing beyond the last plane, and no
surrogate unless it is admitted. -/
def secondFits (first second : UInt8) (surrogate : Bool) : Bool :=
  isContinuation second
    && !(first == 0xE0 && second < 0xA0)
    && !(first == 0xED && 0xA0 ≤ second && !surrogate)
    && !(first == 0xF0 && second < 0x90)
    && !(first == 0xF4 && 0x90 ≤ second)

private def utf8Error (rest : List UInt8) (start length : Nat) (reason : String) : DecodeError :=
  { encoding := .utf8, byte := rest.headD 0, start := start, stop := start + length,
    reason := reason }

/-- Decodes from position `at_` on. Surrogates may be let through, if their sequences are complete.
The fuel is the number of bytes. -/
def decodeUtf8 (surrogates : Bool) : Nat → Nat → List UInt8 → Except DecodeError (List Char)
  | 0, _, _ => .ok []
  | _, _, [] => .ok []
  | fuel + 1, at_, first :: rest =>
    let fail := fun length reason => Except.error (utf8Error (first :: rest) at_ length reason)
    let go := fun (n count : Nat) (after : List UInt8) =>
      (decodeUtf8 surrogates fuel (at_ + count) after).map (charOf n :: ·)
    let low := fun (b : UInt8) => b.toNat % 64
    match announced first, rest with
    | 0, _ => fail 1 "invalid start byte"
    | 1, _ => go first.toNat 1 rest
    | 2, second :: after =>
      if isContinuation second then go (first.toNat % 32 * 64 + low second) 2 after
      else fail 1 "invalid continuation byte"
    | 3, second :: third :: after =>
      if !secondFits first second (surrogates && isContinuation third) then
        fail 1 "invalid continuation byte"
      else if !isContinuation third then fail 2 "invalid continuation byte"
      else go ((first.toNat % 16 * 64 + low second) * 64 + low third) 3 after
    | 4, second :: third :: fourth :: after =>
      if !secondFits first second false then fail 1 "invalid continuation byte"
      else if !isContinuation third then fail 2 "invalid continuation byte"
      else if !isContinuation fourth then fail 3 "invalid continuation byte"
      else go (((first.toNat % 8 * 64 + low second) * 64 + low third) * 64 + low fourth) 4 after
    | _, second :: third :: _ =>
      if !secondFits first second false then fail 1 "invalid continuation byte"
      else if !isContinuation third then fail 2 "invalid continuation byte"
      else fail (rest.length + 1) "unexpected end of data"
    | _, [second] =>
      if !secondFits first second false then fail 1 "invalid continuation byte"
      else fail 2 "unexpected end of data"
    | _, [] => fail 1 "unexpected end of data"

/-! ### UTF-16 and UTF-32 -/

private def pair (bigEndian : Bool) (a b : UInt8) : Nat :=
  if bigEndian then a.toNat * 256 + b.toNat else b.toNat * 256 + a.toNat

private def wideError (encoding : Encoding) (rest : List UInt8) (start length : Nat)
    (reason : String) : DecodeError :=
  { encoding := encoding, byte := rest.headD 0, start := start, stop := start + length,
    reason := reason }

/-- Decodes pairs of bytes; two surrogates that belong together make one character. -/
def decodeUtf16 (bigEndian : Bool) : Nat → Nat → List UInt8 → Except DecodeError (List Char)
  | 0, _, _ => .ok []
  | _, _, [] => .ok []
  | _, at_, [a] => .error (wideError (.utf16 bigEndian) [a] at_ 1 "truncated data")
  | fuel + 1, at_, a :: b :: rest =>
    let unit := pair bigEndian a b
    let single := fun (_ : Unit) =>
      (decodeUtf16 bigEndian fuel (at_ + 2) rest).map (charOf unit :: ·)
    if 0xD800 ≤ unit ∧ unit < 0xDC00 then
      match rest with
      | c :: d :: after =>
        let next := pair bigEndian c d
        if 0xDC00 ≤ next ∧ next < 0xE000 then
          let n := 0x10000 + (unit - 0xD800) * 0x400 + (next - 0xDC00)
          (decodeUtf16 bigEndian fuel (at_ + 4) after).map (charOf n :: ·)
        else single ()
      | _ => single ()
    else single ()

def decodeUtf32 (bigEndian : Bool) : Nat → Nat → List UInt8 → Except DecodeError (List Char)
  | 0, _, _ => .ok []
  | _, _, [] => .ok []
  | fuel + 1, at_, a :: b :: c :: d :: rest =>
    let n := if bigEndian then pair true a b * 65536 + pair true c d
      else pair false c d * 65536 + pair false a b
    if 0x110000 ≤ n then
      .error (wideError (.utf32 bigEndian) (a :: b :: c :: d :: rest) at_ 4
        "code point not in range(0x110000)")
    else (decodeUtf32 bigEndian fuel (at_ + 4) rest).map (charOf n :: ·)
  | _ + 1, at_, rest =>
    .error (wideError (.utf32 bigEndian) rest at_ rest.length "truncated data")

/-! ### Choice of the encoding -/

/-- The characters of a byte string whose first byte has the position `start`, surrogates among
them. -/
def decode (encoding : Encoding) (start : Nat) (data : List UInt8) :
    Except DecodeError (List Char) :=
  match encoding with
  | .utf8 => decodeUtf8 true data.length start data
  | .utf16 bigEndian => decodeUtf16 bigEndian data.length start data
  | .utf32 bigEndian => decodeUtf32 bigEndian data.length start data

/-- The encoding of a JSON document, and how many bytes of a mark come before the text. Without a
mark the places of the zero bytes among the first four decide, as JSON text starts in ASCII. -/
def detect : List UInt8 → Encoding × Nat
  | 0x00 :: 0x00 :: 0xFE :: 0xFF :: _ => (.utf32 true, 4)
  | 0xFF :: 0xFE :: 0x00 :: 0x00 :: _ => (.utf32 false, 4)
  | 0xFE :: 0xFF :: _ => (.utf16 true, 2)
  | 0xFF :: 0xFE :: _ => (.utf16 false, 2)
  | 0xEF :: 0xBB :: 0xBF :: _ => (.utf8, 3)
  | a :: b :: c :: d :: _ =>
    if a = 0 then (if b = 0 then .utf32 true else .utf16 true, 0)
    else if b = 0 then (if c = 0 ∧ d = 0 then .utf32 false else .utf16 false, 0)
    else (.utf8, 0)
  | [a, b] => (if a = 0 then .utf16 true else if b = 0 then .utf16 false else .utf8, 0)
  | _ => (.utf8, 0)

/-- The text of a JSON document. Positions of errors count the mark, except in UTF-8. -/
def decodeDocument (data : List UInt8) : Except DecodeError (List Char) :=
  let (encoding, mark) := detect data
  decode encoding (if encoding = .utf8 then 0 else mark) (data.drop mark)

/-! ### Texts in UTF-8 -/

/-- The characters of a text in UTF-8. -/
def decodeText (data : List UInt8) : Except DecodeError (List Char) :=
  decodeUtf8 false data.length 0 data

end Encoding

/-- Line ends in their normal form. -/
def normalLines : List Char → List Char
  | '\r' :: '\n' :: rest => '\n' :: normalLines rest
  | '\r' :: rest => '\n' :: normalLines rest
  | c :: rest => c :: normalLines rest
  | [] => []

/-- Half pairs of surrogates: those from `start` up to `stop`. -/
structure EncodeError where
  char : Char
  start : Nat
  stop : Nat
  deriving DecidableEq, Repr

/-- A single character is shown, several are given by their positions. -/
def EncodeError.message (e : EncodeError) : String :=
  "'utf-8' codec can't encode "
    ++ (if e.stop = e.start + 1 then
        "character '" ++ String.ofList (numericEscape e.char) ++ "' in position " ++ toString e.start
      else "characters in position " ++ toString e.start ++ "-" ++ toString (e.stop - 1))
    ++ ": surrogates not allowed"

namespace Encoding

/-- The first half pairs of a text, unless they are spared. -/
def encodeError? (spared : Char → Bool) (text : String) : Option EncodeError :=
  let cs := text.toList
  let before := cs.takeWhile fun c => !isLone c || spared c
  match cs.drop before.length with
  | [] => none
  | c :: rest => some ⟨c, before.length, before.length + 1 + (rest.takeWhile isLone).length⟩

/-- The bytes of a text in UTF-8. -/
def encodeText (text : String) : Except EncodeError (List UInt8) :=
  match encodeError? (fun _ => false) text with
  | none => .ok text.toUTF8.toList
  | some e => .error e

end Encoding

end Attest
