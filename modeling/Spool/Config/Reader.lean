import Spool.Config.Numeral
import Spool.Config.Quote

/-!
# Reading a configuration

A configuration is an object with any of the fields, each at most once and in any
order, or a list of their values in a fixed order, of which the last ones may be
missing. A field that is not given has its standard value. The policy for trailing
bytes is a string, or an object with that string as its only key and `null` as
its value. Blanks may stand between all tokens.

A configuration is read from its beginning, and the first thing that is wrong with it is
reported: `parse` looks no further. A capacity of zero is noticed only when the
whole of it has been read (`accept`).

It is read from a text (`loadText`), or from the bytes that a medium gives in any number of
reads (`loadReads`). The second way cannot rely on the bytes being UTF-8, and looks at
those of each string.
-/

namespace Spool.Config

/-- Whether `b` may stand between tokens: a space, a tab or the bytes of a line end. -/
def isBlank (b : UInt8) : Bool := b == 0x20 || b == 0x09 || b == 0x0a || b == 0x0d

/-- What follows the blanks at the beginning. -/
def skipBlanks (input : Bytes) : Bytes := input.dropWhile isBlank

/-- Read the rest of a word: what follows it. -/
def readWord : Bytes → Bytes → Except ParseError Bytes
  | [], input => .ok input
  | _ :: _, [] => .error .endInValue
  | w :: word, b :: rest => if b = w then readWord word rest else .error .expectedWord

/-- The error of a value that stands where `expected` should: of the wrong type, or
no value at all. -/
def mismatch (medium : Medium) (expected : Expected) : Bytes → ParseError
  | [] => .endInValue
  | b :: rest =>
    let word (letters : Bytes) (found : Found) : ParseError :=
      match readWord letters rest with
      | .ok _ => .invalidType found expected
      | .error e => e
    if b = 0x6e then word [0x75, 0x6c, 0x6c] .nothing
    else if b = 0x74 then word [0x72, 0x75, 0x65] (.truth true)
    else if b = 0x66 then word [0x61, 0x6c, 0x73, 0x65] (.truth false)
    else if b = 0x2d ∨ isDigit b = true then
      match readNumeral (b :: rest) with
      | .ok (n, _) => .invalidType (.numeral n) expected
      | .error e => e
    else if b = 0x22 then
      match readString medium rest with
      | .ok (text, _) => .invalidType (.text text) expected
      | .error e => e
    else if b = 0x5b then .invalidType .sequence expected
    else if b = 0x7b then .invalidType .map expected
    else .expectedValue

/-- Read a whole number below `limit`. -/
def readBounded (medium : Medium) (expected : Expected) (limit : Nat) (input : Bytes) :
    Except ParseError (Nat × Bytes) :=
  match skipBlanks input with
  | [] => .error .endInValue
  | b :: rest =>
    if b = 0x2d ∨ isDigit b = true then
      match readNumeral (b :: rest) with
      | .error e => .error e
      | .ok (.integer n, rest) =>
        if 0 ≤ n ∧ n < limit then .ok (n.toNat, rest) else .error (.invalidValue n expected)
      | .ok (n, _) => .error (.invalidType (.numeral n) expected)
    else .error (mismatch medium expected (b :: rest))

/-- Read the word `null`. -/
def readNull (medium : Medium) (input : Bytes) : Except ParseError Bytes :=
  match skipBlanks input with
  | [] => .error .endInValue
  | b :: rest =>
    if b = 0x6e then readWord [0x75, 0x6c, 0x6c] rest
    else .error (mismatch medium .nothing (b :: rest))

/-- Read the colon after a key. -/
def readColon (input : Bytes) : Except ParseError Bytes :=
  match skipBlanks input with
  | [] => .error .endInObject
  | b :: rest => if b = 0x3a then .ok rest else .error .expectedColon

/-- The policy with this name. -/
def policyOf (name : List Char) : Except ParseError Trailing :=
  if name = "discard".toList then .ok .discard
  else if name = "retain".toList then .ok .retain
  else .error (.unknownPolicy name)

/-- Read the name of a policy after its opening quote. -/
def readPolicyName (medium : Medium) (input : Bytes) : Except ParseError (Trailing × Bytes) := do
  let (name, rest) ← readString medium input
  let policy ← policyOf name
  .ok (policy, rest)

/-- Read a policy given as an object, after its opening brace. -/
def readPolicyObject (medium : Medium) (input : Bytes) :
    Except ParseError (Trailing × Bytes) :=
  match skipBlanks input with
  | [] => .error .endInObject
  | b :: rest =>
    if b = 0x22 then do
      let (policy, rest) ← readPolicyName medium rest
      let rest ← readColon rest
      let rest ← readNull medium rest
      match skipBlanks rest with
      | [] => .error .endInObject
      | b :: rest => if b = 0x7d then .ok (policy, rest) else .error .expectedValue
    else if b = 0x7d then .error .expectedValue
    else .error .keyNotString

/-- Read the policy for trailing bytes. -/
def readPolicy (medium : Medium) (input : Bytes) : Except ParseError (Trailing × Bytes) :=
  match skipBlanks input with
  | [] => .error .endInValue
  | b :: rest =>
    if b = 0x22 then readPolicyName medium rest
    else if b = 0x7b then readPolicyObject medium rest
    else .error .expectedValue

/-- Read the value of a field into a configuration. -/
def readField (medium : Medium) (field : Field) (config : Config) (input : Bytes) :
    Except ParseError (Config × Bytes) :=
  match field with
  | .capacity => do
    let (capacity, rest) ← readBounded medium .capacity wordLimit input
    .ok ({ config with capacity }, rest)
  | .delimiter => do
    let (n, rest) ← readBounded medium .byte 256 input
    .ok ({ config with delimiter := n.toUInt8 }, rest)
  | .trailing => do
    let (trailing, rest) ← readPolicy medium input
    .ok ({ config with trailing }, rest)

/-! ### Objects -/

/-- The field with this key. -/
def fieldOf (key : List Char) : Except ParseError Field :=
  match Field.all.find? fun field => field.name.toList == key with
  | some field => .ok field
  | none => .error (.unknownField key)

/-- Go to the next member of an object: nothing after the closing brace, else the
bytes of its key after the opening quote. -/
def nextMember (first : Bool) (input : Bytes) : Except ParseError (Option Bytes × Bytes) :=
  let key : Bytes → Except ParseError (Option Bytes × Bytes)
    | [] => .error .endInValue
    | b :: rest => if b = 0x22 then .ok (some rest, rest) else .error .keyNotString
  match skipBlanks input with
  | [] => .error .endInObject
  | b :: rest =>
    if b = 0x7d then .ok (none, rest)
    else if first then key (b :: rest)
    else if b = 0x2c then
      match skipBlanks rest with
      | [] => .error .endInValue
      | c :: rest => if c = 0x7d then .error .trailingComma else key (c :: rest)
    else .error .expectedCommaOrBrace

/-- Read the members of an object, of which those in `free` have not been given
yet, up to its closing brace. -/
def readMembers (medium : Medium) (free : List Field) (first : Bool) (config : Config)
    (input : Bytes) : Except ParseError (Config × Bytes) := do
  let (member, rest) ← nextMember first input
  match member with
  | none => .ok (config, rest)
  | some key =>
    let (name, rest) ← readString medium key
    let field ← fieldOf name
    if _h : field ∈ free then
      let rest ← readColon rest
      let (config, rest) ← readField medium field config rest
      readMembers medium (free.erase field) false config rest
    else .error (.duplicateField field)
termination_by free.length
decreasing_by
  have := List.length_pos_of_mem _h
  rw [List.length_erase_of_mem _h]
  omega

/-! ### Lists -/

/-- Read the end of a list whose elements have all been read. -/
def readListEnd (input : Bytes) : Except ParseError Bytes :=
  match skipBlanks input with
  | [] => .error .endInList
  | b :: rest =>
    if b = 0x5d then .ok rest
    else if b = 0x2c then
      match skipBlanks rest with
      | c :: _ => .error (if c = 0x5d then .trailingComma else .trailingCharacters)
      | [] => .error .trailingCharacters
    else .error .trailingCharacters

/-- Go to the next element of a list: whether there is one, and the rest of the
input from it on or after the closing bracket. -/
def nextElement (first : Bool) (input : Bytes) : Except ParseError (Bool × Bytes) :=
  match skipBlanks input with
  | [] => .error .endInList
  | b :: rest =>
    if b = 0x5d then .ok (false, rest)
    else if first then .ok (true, b :: rest)
    else if b = 0x2c then
      match skipBlanks rest with
      | [] => .error .endInValue
      | c :: rest => if c = 0x5d then .error .trailingComma else .ok (true, c :: rest)
    else .error .expectedCommaOrBracket

/-- Read the elements of a list, the values of `fields` in order, up to its closing
bracket. -/
def readElements (medium : Medium) :
    List Field → Bool → Config → Bytes → Except ParseError (Config × Bytes)
  | [], _, config, input => do
    let rest ← readListEnd input
    .ok (config, rest)
  | field :: fields, first, config, input => do
    let (more, rest) ← nextElement first input
    if more then
      let (config, rest) ← readField medium field config rest
      readElements medium fields false config rest
    else .ok (config, rest)

/-! ### Texts -/

/-- Read a configuration. -/
def readConfig (medium : Medium) (input : Bytes) : Except ParseError (Config × Bytes) :=
  match skipBlanks input with
  | [] => .error .endInValue
  | b :: rest =>
    if b = 0x7b then readMembers medium Field.all true standard rest
    else if b = 0x5b then readElements medium Field.all true standard rest
    else .error (mismatch medium .config (b :: rest))

/-- Read an input that is a configuration and nothing else. -/
def parse (medium : Medium) (input : Bytes) : Except ParseError Config := do
  let (config, rest) ← readConfig medium input
  if skipBlanks rest = [] then .ok config else .error .trailingCharacters

/-- Accept what was read if it is valid. -/
def accept : Except ParseError Config → Except LoadError Config
  | .ok config => config.validate
  | .error e => .error (.parse e)

/-- What is accepted is what was read, and it is valid. -/
theorem accept_eq_ok_iff {result : Except ParseError Config} {config : Config} :
    accept result = .ok config ↔ result = .ok config ∧ config.Valid := by
  cases result with
  | error e => simp [accept]
  | ok read =>
    rw [accept, validate_eq_ok_iff, Except.ok.injEq]
    exact ⟨fun ⟨h, hv⟩ => ⟨h, h ▸ hv⟩, fun ⟨h, hv⟩ => ⟨h, h ▸ hv⟩⟩

/-- Load a configuration from a text. -/
def loadText (text : List Char) : Except LoadError Config :=
  accept (parse .text (Text.toBytes text))

/-- Load a configuration from bytes that need not be a text. -/
def load (input : Bytes) : Except LoadError Config :=
  accept (parse .bytes input)

/-! ### Reading in pieces -/

/-- The number of bytes that are read at a time. -/
def bufferSize : Nat := 1024

/-- Cut a byte string into pieces of `size` bytes, the last of which may be
shorter. Nothing can be cut into pieces of no bytes. -/
def pieces (size : Nat) (bytes : Bytes) : List Bytes :=
  if size = 0 ∨ bytes = [] then []
  else bytes.take size :: pieces size (bytes.drop size)
termination_by bytes.length
decreasing_by
  have : bytes ≠ [] := by grind
  have := List.length_pos_iff.mpr this
  simp only [List.length_drop]
  omega

/-- The reads of a medium that holds `bytes`, gives `size` of them at a time and then
none, and fails with `kind` after some number of reads if `failure` says so. -/
def reads (bytes : Bytes) (size : Nat) (failure : Option (Nat × String)) :
    List (Except String Bytes) :=
  let good := (pieces (min size bufferSize) bytes ++ [[]]).map Except.ok
  match failure with
  | none => good
  | some (count, kind) => good.take count ++ [.error kind]

/-- The bytes of successive reads, up to the first one that gives none. -/
def collect : List (Except String Bytes) → Except String Bytes
  | [] => .ok []
  | .error kind :: _ => .error kind
  | .ok piece :: rest =>
    if piece = [] then .ok []
    else match collect rest with
      | .ok bytes => .ok (piece ++ bytes)
      | .error kind => .error kind

/-- Load a configuration from successive reads. Nothing is looked at before the last
of them. -/
def loadReads (reads : List (Except String Bytes)) : Except LoadError Config :=
  match collect reads with
  | .ok bytes => load bytes
  | .error kind => .error (.read kind)

end Spool.Config
