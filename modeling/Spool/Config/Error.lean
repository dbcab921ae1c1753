import Spool.Config
import Spool.Decimal.Shortest
import Spool.Text.Quoted

/-!
# Why a configuration is not read

A configuration is written in JSON. `ParseError` lists what can be wrong with a
text; each error belongs to one of three classes: the text is no JSON
(`Class.syntaxError`), it is JSON that does not say what a configuration must say
(`Class.dataError`), or it ends too early (`Class.endOfText`). `LoadError` adds
the two ways in which a text that was never read, or was read well, is refused.
-/

namespace Spool.Config

/-- The parts of a configuration, in the order in which a list gives them. -/
inductive Field where
  /-- How many commands are retained. -/
  | capacity
  /-- The byte that ends a command. -/
  | delimiter
  /-- What happens to the bytes after a chunk's first delimiter. -/
  | trailing
  deriving DecidableEq, Repr

/-- The key of a field. -/
def Field.name : Field → String
  | capacity => "capacity"
  | delimiter => "delimiter"
  | trailing => "trailing_bytes"

/-- All fields, in order. -/
def Field.all : List Field := [capacity, delimiter, trailing]

/-- What a place in a text calls for. -/
inductive Expected where
  /-- A whole configuration. -/
  | config
  /-- A capacity. -/
  | capacity
  /-- A byte. -/
  | byte
  /-- The word that stands for nothing. -/
  | nothing
  deriving DecidableEq, Repr

/-- The name of what is called for. -/
def Expected.name : Expected → String
  | config => "struct DeviceConfig"
  | capacity => "usize"
  | byte => "u8"
  | nothing => "unit"

/-- A number as it stands in a text. -/
inductive Numeral where
  /-- A whole number that fits a 64-bit word, with or without a sign. -/
  | integer (n : Int)
  /-- Any other number: its sign and its magnitude. -/
  | decimal (negative : Bool) (magnitude : Decimal.Magnitude)
  deriving DecidableEq, Repr

/-- What stands in the place of something else. A sequence or a map is known by its
first bracket. -/
inductive Found where
  /-- The word `null`. -/
  | nothing
  /-- One of the words `true` and `false`. -/
  | truth (b : Bool)
  /-- A number. -/
  | numeral (n : Numeral)
  /-- A string. -/
  | text (t : List Char)
  /-- A list. -/
  | sequence
  /-- An object. -/
  | map
  deriving DecidableEq, Repr

/-- Numbers are written plainly from a hundred thousandth up to sixteen digits
before the point. -/
def numberLayout : Decimal.Layout := ⟨-5, 15⟩

/-- The description of what was found. -/
def Found.describe : Found → String
  | nothing => "null"
  | truth b => "boolean `" ++ toString b ++ "`"
  | numeral (.integer n) => "integer `" ++ toString n ++ "`"
  | numeral (.decimal negative m) => "floating point `" ++ numberLayout.text negative m ++ "`"
  | text t => "string " ++ Text.quoted t
  | sequence => "sequence"
  | map => "map"

/-- The kinds of parse error. -/
inductive Class where
  /-- The text is no JSON. -/
  | syntaxError
  /-- The text says something that no configuration says. -/
  | dataError
  /-- The text ends too early. -/
  | endOfText
  deriving DecidableEq, Repr

/-- What is wrong with a text. -/
inductive ParseError where
  /-- The text ends where a value is expected. -/
  | endInValue
  /-- The text ends inside an object. -/
  | endInObject
  /-- The text ends inside a list. -/
  | endInList
  /-- The text ends inside a string. -/
  | endInString
  /-- No value starts like this. -/
  | expectedValue
  /-- A word is misspelt. -/
  | expectedWord
  /-- A key is not followed by a colon. -/
  | expectedColon
  /-- A member is followed neither by a comma nor by the end of the object. -/
  | expectedCommaOrBrace
  /-- An element is followed neither by a comma nor by the end of the list. -/
  | expectedCommaOrBracket
  /-- A key does not start with a quote. -/
  | keyNotString
  /-- A comma is followed by the end. -/
  | trailingComma
  /-- Something follows the value. -/
  | trailingCharacters
  /-- A number is misspelt. -/
  | invalidNumber
  /-- A number is too large for a double. -/
  | numberOutOfRange
  /-- A control character stands inside a string. -/
  | controlCharacter
  /-- A backslash is followed by something else than an escape. -/
  | invalidEscape
  /-- A surrogate stands where it has no partner. -/
  | loneSurrogate
  /-- A leading surrogate is not followed by an escape. -/
  | unfinishedSurrogate
  /-- The bytes of a string are not UTF-8. -/
  | invalidUnicode
  /-- A value is of another type than the place calls for. -/
  | invalidType (found : Found) (expected : Expected)
  /-- A whole number is out of the range that the place calls for. -/
  | invalidValue (found : Int) (expected : Expected)
  /-- A key is not the name of a field. -/
  | unknownField (key : List Char)
  /-- A field is given twice. -/
  | duplicateField (field : Field)
  /-- A string names no policy for trailing bytes. -/
  | unknownPolicy (name : List Char)
  deriving DecidableEq, Repr

namespace ParseError

/-- The class of an error. -/
def kind : ParseError → Class
  | endInValue | endInObject | endInList | endInString => .endOfText
  | invalidType .. | invalidValue .. | unknownField _ | duplicateField _ | unknownPolicy _ =>
    .dataError
  | _ => .syntaxError

/-- The text of an error. -/
def message : ParseError → String
  | endInValue => "EOF while parsing a value"
  | endInObject => "EOF while parsing an object"
  | endInList => "EOF while parsing a list"
  | endInString => "EOF while parsing a string"
  | expectedValue => "expected value"
  | expectedWord => "expected ident"
  | expectedColon => "expected `:`"
  | expectedCommaOrBrace => "expected `,` or `\x7d`"
  | expectedCommaOrBracket => "expected `,` or `]`"
  | keyNotString => "key must be a string"
  | trailingComma => "trailing comma"
  | trailingCharacters => "trailing characters"
  | invalidNumber => "invalid number"
  | numberOutOfRange => "number out of range"
  | controlCharacter => "control character (\\u0000-\\u001F) found while parsing a string"
  | invalidEscape => "invalid escape"
  | loneSurrogate => "lone leading surrogate in hex escape"
  | unfinishedSurrogate => "unexpected end of hex escape"
  | invalidUnicode => "invalid unicode code point"
  | invalidType found expected =>
    "invalid type: " ++ found.describe ++ ", expected " ++ expected.name
  | invalidValue n expected =>
    "invalid value: " ++ (Found.numeral (.integer n)).describe ++ ", expected " ++ expected.name
  | unknownField key =>
    "unknown field `" ++ String.ofList key ++
      "`, expected one of `capacity`, `delimiter`, `trailing_bytes`"
  | duplicateField field => "duplicate field `" ++ field.name ++ "`"
  | unknownPolicy name =>
    "unknown variant `" ++ String.ofList name ++ "`, expected `discard` or `retain`"

end ParseError

/-- Why no configuration was loaded. -/
inductive LoadError where
  /-- A read failed; the text names the kind of failure. -/
  | read (kind : String)
  /-- The text is no configuration. -/
  | parse (error : ParseError)
  /-- The configuration retains no command. -/
  | zeroCapacity
  deriving DecidableEq, Repr

/-- The text of an error. -/
def LoadError.message : LoadError → String
  | read kind => "Failed to read config: " ++ kind
  | parse error => "Failed to parse config JSON: " ++ error.message
  | zeroCapacity => "capacity must be at least 1"

/-- Only a valid configuration is used. -/
def validate (c : Config) : Except LoadError Config :=
  if c.Valid then .ok c else .error .zeroCapacity

/-- What is used is what was given, and it is valid. -/
theorem validate_eq_ok_iff {c d : Config} : c.validate = .ok d ↔ c = d ∧ c.Valid := by
  grind [validate]

end Spool.Config
