import Attest.Outcome
import Attest.Text.Quoted

/-!
# Faults

What can interrupt a computation. Most trouble with a document is a failed step and hence part of
an outcome; a fault is what is left: an argument that has no meaning, a chain that was used twice,
a failed verdict at a sink that raises.

## Main definitions

* `Fault` — the causes
* `Fault.label`, `Fault.message` — the class of a cause and its text, as reports show them
-/

namespace Attest

/-- Why a file could not be used. -/
inductive FileTrouble where
  | notFound
  | notADirectory
  | isADirectory
  | alreadyExists
  | nameTooLong
  deriving DecidableEq, Repr, Inhabited

/-- A cause of an interrupted computation. -/
inductive Fault where
  /-- A value of a kind that JSON does not have. -/
  | notJson (typeName : String)
  /-- Not one of the names of the JSON kinds. -/
  | unknownKind (shown : String)
  /-- Not one of the operations of a suite. -/
  | unknownOperation (shown : String)
  /-- An argument of a type that the operation cannot work with, or too many or too few. -/
  | unsuitable (detail : String)
  /-- Something was asked of a value that it does not have. -/
  | noSuchPart (detail : String)
  /-- A required entry is absent. -/
  | absentKey (key : String)
  /-- A step without an operation. -/
  | emptyStep
  /-- An integer with more digits than are converted; the count is known when it was read. -/
  | tooManyDigits (count : Option Nat)
  /-- A value that is out of range. -/
  | outOfRange (detail : String)
  | repetitionTooLarge
  /-- A query feature that can be written but not evaluated. -/
  | unsupportedQuery
  /-- A query asked for the parent of the start. -/
  | noParent
  /-- The chain with this description was finalized before. -/
  | alreadyFinalized (description : String)
  /-- A failed verdict at a raising sink. -/
  | failedOutcome (outcome : Outcome)
  | undecodable (detail : String)
  | unencodable (detail : String)
  | file (trouble : FileTrouble) (path : String)
  /-- A text that is not YAML, or that says something in YAML that has no value. The package at hand
  says no more about it. -/
  | notYaml (detail : String := "<yaml error>")
  /-- A number without a single character. -/
  | emptyNumber
  /-- Console markup whose closing tag has no opening one. -/
  | markup (detail : String)
  deriving DecidableEq, Repr, Inhabited

namespace FileTrouble

def label : FileTrouble → String
  | .notFound => "FileNotFoundError"
  | .notADirectory => "NotADirectoryError"
  | .isADirectory => "IsADirectoryError"
  | .alreadyExists => "FileExistsError"
  | .nameTooLong => "OSError"

def text : FileTrouble → String
  | .notFound => "[Errno 2] No such file or directory"
  | .notADirectory => "[Errno 20] Not a directory"
  | .isADirectory => "[Errno 21] Is a directory"
  | .alreadyExists => "[Errno 17] File exists"
  | .nameTooLong => "[Errno 36] File name too long"

/-- The trouble with the path it concerns. -/
def message (t : FileTrouble) (path : String) : String := t.text ++ ": " ++ quoteText path

end FileTrouble

namespace Fault

/-- The class of a cause, as reports name it. -/
def label : Fault → String
  | .notJson _ | .unsuitable _ => "TypeError"
  | .unknownKind _ | .unknownOperation _ | .tooManyDigits _ | .outOfRange _ => "ValueError"
  | .noSuchPart _ => "AttributeError"
  | .absentKey _ => "KeyError"
  | .emptyStep => "StopIteration"
  | .repetitionTooLarge => "OverflowError"
  | .unsupportedQuery => "NotImplementedError"
  | .noParent => "AssertionError"
  | .alreadyFinalized _ => "ChainUsageError"
  | .failedOutcome _ => "ChainAssertionError"
  | .undecodable _ => "UnicodeDecodeError"
  | .unencodable _ => "UnicodeEncodeError"
  | .file trouble _ => trouble.label
  | .notYaml _ => "YAMLError"
  | .emptyNumber => "IndexError"
  | .markup _ => "MarkupError"

def digitLimitText (count : Option Nat) : String :=
  "Exceeds the limit (4300 digits) for integer string conversion"
    ++ (match count with
      | some n => ": value has " ++ toString n ++ " digits"
      | none => "")
    ++ "; use sys.set_int_max_str_digits() to increase the limit"

/-- The text of a cause. -/
def message : Fault → String
  | .notJson typeName => "Not a JSON value: " ++ typeName
  | .unknownKind shown => shown ++ " is not a valid JsonType"
  | .unknownOperation shown => shown ++ " is not a valid StepOp"
  | .unsuitable detail | .noSuchPart detail | .outOfRange detail => detail
  | .absentKey key => quoteText key
  | .tooManyDigits count => digitLimitText count
  | .repetitionTooLarge => "the repetition number is too large"
  | .alreadyFinalized description => description ++ " was already finalized"
  | .failedOutcome outcome => outcome.text
  | .undecodable detail | .unencodable detail | .markup detail | .notYaml detail => detail
  | .file trouble path => trouble.message path
  | .emptyNumber => "string index out of range"
  | .emptyStep | .unsupportedQuery | .noParent => ""

end Fault

end Attest
