import Mathlib.Data.List.Nodup
import Spool.Config.Error
import Spool.Proofs.Characters
import Spool.Word

/-!
# How a configuration is written

The notation of configurations, apart from any way to read it. It is given from the tokens
up: `Blank`s between them, the literals of strings (`Literal`) and of whole numbers
(`Whole`), the ways to write a policy for trailing bytes (`Policy`), the value of a field
(`Value`), a member of an object (`Member`), the inside of an object or a list (`Row`), and a
whole configuration (`Written`).

What is written is a list of `Setting`s, each the value of one field. `Gives` says which
configuration these are, given that every other field has its standard value. Which
configuration is valid is not a matter of notation: a capacity of zero can be written.

All of this is about bytes. Nothing here has a byte from 0x80 up in it but the
inside of strings, and no string that says something here needs one.
-/

namespace Spool.Config

/-! ### Settings -/

/-- The value of one field. -/
inductive Setting where
  /-- How many commands are retained. -/
  | capacity (n : Nat)
  /-- The byte that ends a command. -/
  | delimiter (b : UInt8)
  /-- What happens to the bytes after a chunk's first delimiter. -/
  | trailing (policy : Trailing)
  deriving DecidableEq, Repr

/-- The field that is set. -/
def Setting.field : Setting → Field
  | capacity _ => .capacity
  | delimiter _ => .delimiter
  | trailing _ => .trailing

/-- The value that a configuration has for a field. -/
def Field.setting (c : Config) : Field → Setting
  | capacity => .capacity c.capacity
  | delimiter => .delimiter c.delimiter
  | trailing => .trailing c.trailing

/-- `Gives settings c`: the configuration `c` has the values that the settings give, and the
standard ones for the fields that are not set. -/
def Gives (settings : List Setting) (c : Config) : Prop :=
  ∀ field : Field, field.setting c ∈ settings ∨
    field ∉ settings.map Setting.field ∧ field.setting c = field.setting standard

/-! ### Tokens -/

/-- Bytes that may stand between tokens: spaces, tabs, line feeds and carriage returns. -/
def Blank (w : Bytes) : Prop := ∀ b ∈ w, b = 0x20 ∨ b = 0x09 ∨ b = 0x0a ∨ b = 0x0d

instance (w : Bytes) : Decidable (Blank w) :=
  List.decidableBAll (fun b : UInt8 => b = 0x20 ∨ b = 0x09 ∨ b = 0x0a ∨ b = 0x0d) w

/-- The letters that may follow a backslash, and the bytes that they stand for. -/
def letters : List (UInt8 × UInt8) :=
  [(0x22, 0x22), (0x5c, 0x5c), (0x2f, 0x2f), (0x62, 0x08), (0x66, 0x0c), (0x6e, 0x0a),
    (0x72, 0x0d), (0x74, 0x09)]

/-- A hexadecimal digit and its value. -/
inductive HexDigit : UInt8 → Nat → Prop where
  /-- One of the digits `0` to `9`. -/
  | decimal {n : Nat} : n < 10 → HexDigit (UInt8.ofNat (0x30 + n)) n
  /-- One of the letters `A` to `F`. -/
  | upper {n : Nat} : n < 6 → HexDigit (UInt8.ofNat (0x41 + n)) (10 + n)
  /-- One of the letters `a` to `f`. -/
  | lower {n : Nat} : n < 6 → HexDigit (UInt8.ofNat (0x61 + n)) (10 + n)

/-- Four hexadecimal digits and the code that they are. -/
inductive Code : Bytes → Nat → Prop where
  /-- The first digit is the highest. -/
  | digits {p q r s : UInt8} {i j k l : Nat} :
      HexDigit p i → HexDigit q j → HexDigit r k → HexDigit s l →
      Code [p, q, r, s] (((i * 16 + j) * 16 + k) * 16 + l)

/-- What stands between the quotes of a string, and the bytes that it stands for. -/
inductive Spells : Bytes → Bytes → Prop where
  /-- Nothing. -/
  | nil : Spells [] []
  /-- A byte that stands for itself. Control characters, quotes and backslashes do not. -/
  | plain {b : UInt8} {body bytes : Bytes} : 0x20 ≤ b → b ≠ 0x22 → b ≠ 0x5c →
      Spells body bytes → Spells (b :: body) (b :: bytes)
  /-- An escape of one letter. -/
  | letter {l b : UInt8} {body bytes : Bytes} : (l, b) ∈ letters →
      Spells body bytes → Spells (0x5c :: l :: body) (b :: bytes)
  /-- An escape for the character with a given code. -/
  | code {digits body bytes : Bytes} {n : Nat} : Code digits n → n < 0xd800 ∨ 0xdfff < n →
      Spells body bytes →
      Spells (0x5c :: 0x75 :: (digits ++ body)) (Text.toBytes [Char.ofNat n] ++ bytes)
  /-- Two escapes for a character whose code has more than four digits. -/
  | pair {leading trailing body bytes : Bytes} {i j : Nat} :
      Code leading (0xd800 + i) → i < 0x400 → Code trailing (0xdc00 + j) → j < 0x400 →
      Spells body bytes →
      Spells (0x5c :: 0x75 :: (leading ++ 0x5c :: 0x75 :: (trailing ++ body)))
        (Text.toBytes [Char.ofNat (0x10000 + i * 0x400 + j)] ++ bytes)

/-- A string between its quotes. -/
def Literal (text : List Char) (l : Bytes) : Prop :=
  ∃ body, Spells body (Text.toBytes text) ∧ l = 0x22 :: (body ++ [0x22])

/-- A whole number: digits and nothing else, of which the first is a zero only if it is the
only one. -/
structure Whole (n : Nat) (l : Bytes) : Prop where
  /-- There is a digit. -/
  ne_nil : l ≠ []
  /-- There are only digits. -/
  digits : ∀ b ∈ l, 0x30 ≤ b ∧ b ≤ 0x39
  /-- No zero stands in front. -/
  leading : l.head? = some 0x30 → l = [0x30]
  /-- The first digit is the highest. -/
  value : l.foldl (fun value b => value * 10 + (b.toNat - 0x30)) 0 = n

instance (n : Nat) (l : Bytes) : Decidable (Whole n l) :=
  have : Decidable (∀ b ∈ l, 0x30 ≤ b ∧ b ≤ 0x39) :=
    List.decidableBAll (fun b : UInt8 => 0x30 ≤ b ∧ b ≤ 0x39) l
  decidable_of_iff (l ≠ [] ∧ (∀ b ∈ l, 0x30 ≤ b ∧ b ≤ 0x39) ∧ (l.head? = some 0x30 → l = [0x30]) ∧
      l.foldl (fun value b => value * 10 + (b.toNat - 0x30)) 0 = n)
    ⟨fun ⟨h₁, h₂, h₃, h₄⟩ => ⟨h₁, h₂, h₃, h₄⟩, fun ⟨h₁, h₂, h₃, h₄⟩ => ⟨h₁, h₂, h₃, h₄⟩⟩

/-- The word that stands for nothing. -/
def nullWord : Bytes := [0x6e, 0x75, 0x6c, 0x6c]

/-! ### Values -/

/-- The name of a policy. -/
def policyName : Trailing → List Char
  | .discard => "discard".toList
  | .retain => "retain".toList

/-- The ways to write a policy for trailing bytes. -/
inductive Policy (policy : Trailing) : Bytes → Prop where
  /-- By its name. -/
  | name {l : Bytes} : Literal (policyName policy) l → Policy policy l
  /-- As an object in which nothing is said of the name. -/
  | object {w₁ w₂ w₃ w₄ l : Bytes} : Blank w₁ → Literal (policyName policy) l → Blank w₂ →
      Blank w₃ → Blank w₄ →
      Policy policy (0x7b :: (w₁ ++ l ++ w₂ ++ 0x3a :: (w₃ ++ nullWord ++ w₄ ++ [0x7d])))

/-- The value of a field. -/
inductive Value : Setting → Bytes → Prop where
  /-- A capacity fits a 64-bit word. -/
  | capacity {n : Nat} {l : Bytes} : n < wordLimit → Whole n l → Value (.capacity n) l
  /-- A byte is written as a number. -/
  | delimiter {b : UInt8} {l : Bytes} : Whole b.toNat l → Value (.delimiter b) l
  /-- A policy. -/
  | trailing {policy : Trailing} {l : Bytes} : Policy policy l → Value (.trailing policy) l

/-- A member of an object: the key, a colon and the value. -/
inductive Member (setting : Setting) : Bytes → Prop where
  /-- Blanks may stand on both sides of the colon. -/
  | colon {key w₁ w₂ l : Bytes} : Literal setting.field.name.toList key → Blank w₁ → Blank w₂ →
      Value setting l → Member setting (key ++ w₁ ++ 0x3a :: (w₂ ++ l))

/-! ### Configurations -/

/-- What stands before an item: blanks, with a comma among them if it is not the first. -/
inductive Before : Bool → Bytes → Prop where
  /-- Before the first item. -/
  | first {w : Bytes} : Blank w → Before true w
  /-- Before any other item. -/
  | comma {w₁ w₂ : Bytes} : Blank w₁ → Blank w₂ → Before false (w₁ ++ 0x2c :: w₂)

/-- `Row Item first settings l`: some settings, each written as `Item` says, with commas
between them. `first` tells whether the first of them is the first in its brackets. -/
inductive Row (Item : Setting → Bytes → Prop) : Bool → List Setting → Bytes → Prop where
  /-- No item. -/
  | nil {first : Bool} {w : Bytes} : Blank w → Row Item first [] w
  /-- An item and others. -/
  | cons {first : Bool} {w l rest : Bytes} {setting : Setting} {settings : List Setting} :
      Before first w → Item setting l → Row Item false settings rest →
      Row Item first (setting :: settings) (w ++ (l ++ rest))

/-- A configuration and nothing else. -/
inductive Written : List Setting → Bytes → Prop where
  /-- An object sets any fields, each once. -/
  | object {settings : List Setting} {w l w' : Bytes} : Blank w →
      (settings.map Setting.field).Nodup → Row Member true settings l → Blank w' →
      Written settings (w ++ 0x7b :: (l ++ 0x7d :: w'))
  /-- A list sets the first fields, in order. -/
  | list {settings : List Setting} {w l w' : Bytes} : Blank w →
      settings.map Setting.field <+: Field.all → Row Value true settings l → Blank w' →
      Written settings (w ++ 0x5b :: (l ++ 0x5d :: w'))

/-! ### What is written gives one configuration -/

/-- Set a field in a configuration. -/
def assign (c : Config) : Setting → Config
  | .capacity n => { c with capacity := n }
  | .delimiter b => { c with delimiter := b }
  | .trailing policy => { c with trailing := policy }

theorem setting_assign (c : Config) (setting : Setting) (field : Field) :
    field.setting (assign c setting) =
      if setting.field = field then setting else field.setting c := by
  cases setting <;> cases field <;> rfl

@[simp] theorem field_setting (c : Config) (field : Field) : (field.setting c).field = field := by
  cases field <;> rfl

theorem eq_of_setting {c d : Config} (h : ∀ field : Field, field.setting c = field.setting d) :
    c = d := by
  obtain ⟨capacity, delimiter, trailing⟩ := c
  have := h .capacity
  have := h .delimiter
  have := h .trailing
  simp_all [Field.setting]

/-- Settings that are assigned one after the other are there in the end, and nothing else has
changed. -/
theorem setting_foldl_assign (settings : List Setting) (c : Config) (field : Field) :
    field.setting (settings.foldl assign c) ∈ settings ∨
      field ∉ settings.map Setting.field ∧
        field.setting (settings.foldl assign c) = field.setting c := by
  induction settings generalizing c with
  | nil => simp
  | cons setting settings ih =>
    obtain hmem | ⟨hnot, heq⟩ := ih (assign c setting)
    · exact .inl (.tail _ hmem)
    · rw [setting_assign] at heq
      by_cases hfield : setting.field = field
      · rw [if_pos hfield] at heq
        exact .inl (by rw [List.foldl_cons, heq]; exact .head _)
      · rw [if_neg hfield] at heq
        exact .inr ⟨by simpa [Ne.symm hfield] using hnot, heq⟩

/-- **Settings of different fields give one configuration**, the one that is reached by
assigning them to the standard one. -/
theorem gives_iff {settings : List Setting} {c : Config}
    (h : (settings.map Setting.field).Nodup) :
    Gives settings c ↔ c = settings.foldl assign standard := by
  refine ⟨fun hc => eq_of_setting fun field => ?_,
    fun hc field => hc ▸ setting_foldl_assign settings standard field⟩
  have hin (d : Config) (hd : field.setting d ∈ settings) : field ∈ settings.map Setting.field :=
    List.mem_map.mpr ⟨_, hd, field_setting d field⟩
  obtain hmem | ⟨hnot, heq⟩ := hc field
  · obtain hmem' | ⟨hnot', -⟩ := setting_foldl_assign settings standard field
    · exact List.inj_on_of_nodup_map h hmem hmem' (by simp)
    · exact absurd (hin c hmem) hnot'
  · obtain hmem' | ⟨-, heq'⟩ := setting_foldl_assign settings standard field
    · exact absurd (hin _ hmem') hnot
    · rw [heq, heq']

theorem Written.nodup {settings : List Setting} {l : Bytes} (h : Written settings l) :
    (settings.map Setting.field).Nodup := by
  cases h with
  | object _ hnodup _ _ => exact hnodup
  | list _ hprefix _ _ => exact hprefix.sublist.nodup (by decide)

/-! ### What is written is ASCII -/

theorem Blank.ascii {w : Bytes} (h : Blank w) : Text.Ascii w := by
  intro b hb
  obtain rfl | rfl | rfl | rfl := h b hb <;> decide

theorem HexDigit.ascii {b : UInt8} {n : Nat} (h : HexDigit b n) : b.toNat < 0x80 := by
  cases h <;> rw [UInt8.toNat_ofNat'] <;> omega

theorem Code.ascii {digits : Bytes} {n : Nat} (h : Code digits n) : Text.Ascii digits := by
  obtain ⟨hp, hq, hr, hs⟩ := h
  simp [hp.ascii, hq.ascii, hr.ascii, hs.ascii]

theorem ascii_of_mem_letters {l b : UInt8} (h : (l, b) ∈ letters) :
    l.toNat < 0x80 ∧ b.toNat < 0x80 := by
  have hall : ∀ pair ∈ letters, pair.1.toNat < 0x80 ∧ pair.2.toNat < 0x80 := by simp [letters]
  exact hall _ h

theorem Spells.ascii {body bytes : Bytes} (h : Spells body bytes) (hbytes : Text.Ascii bytes) :
    Text.Ascii body := by
  induction h with
  | nil => exact hbytes
  | plain _ _ _ _ ih => simp_all
  | letter hletter _ ih => simp_all [ascii_of_mem_letters hletter]
  | code hcode _ _ ih => simp_all [hcode.ascii]
  | pair hleading _ htrailing _ _ ih => simp_all [hleading.ascii, htrailing.ascii]

theorem Literal.ascii {text : List Char} {l : Bytes} (h : Literal text l)
    (htext : Text.Ascii (Text.toBytes text)) : Text.Ascii l := by
  obtain ⟨body, hbody, rfl⟩ := h
  simpa using hbody.ascii htext

theorem Whole.ascii {n : Nat} {l : Bytes} (h : Whole n l) : Text.Ascii l := by
  intro b hb
  have := UInt8.le_iff_toNat_le.mp (h.digits b hb).2
  simp only [UInt8.reduceToNat] at this
  omega

theorem ascii_policyName (policy : Trailing) : Text.Ascii (Text.toBytes (policyName policy)) := by
  cases policy <;> decide

theorem ascii_name (field : Field) : Text.Ascii (Text.toBytes field.name.toList) := by
  cases field <;> decide

theorem Policy.ascii {policy : Trailing} {l : Bytes} (h : Policy policy l) : Text.Ascii l := by
  cases h with
  | name hl => exact hl.ascii (ascii_policyName policy)
  | object h₁ hl h₂ h₃ h₄ =>
    simp [h₁.ascii, hl.ascii (ascii_policyName policy), h₂.ascii, h₃.ascii, h₄.ascii, nullWord]

theorem Value.ascii {setting : Setting} {l : Bytes} (h : Value setting l) : Text.Ascii l := by
  cases h with
  | capacity _ hl => exact hl.ascii
  | delimiter hl => exact hl.ascii
  | trailing hl => exact hl.ascii

theorem Member.ascii {setting : Setting} {l : Bytes} (h : Member setting l) : Text.Ascii l := by
  obtain ⟨hkey, h₁, h₂, hvalue⟩ := h
  simp [hkey.ascii (ascii_name _), h₁.ascii, h₂.ascii, hvalue.ascii]

theorem Before.ascii {first : Bool} {w : Bytes} (h : Before first w) : Text.Ascii w := by
  cases h with
  | first hw => exact hw.ascii
  | comma h₁ h₂ => simp [h₁.ascii, h₂.ascii]

theorem Row.ascii {Item : Setting → Bytes → Prop} {first : Bool} {settings : List Setting}
    {l : Bytes} (hitem : ∀ {setting l}, Item setting l → Text.Ascii l)
    (h : Row Item first settings l) : Text.Ascii l := by
  induction h with
  | nil hw => exact hw.ascii
  | cons hw hl _ ih => simp [hw.ascii, hitem hl, ih]

/-- **A configuration is written in ASCII.** -/
theorem Written.ascii {settings : List Setting} {l : Bytes} (h : Written settings l) :
    Text.Ascii l := by
  cases h with
  | object hw _ hrow hw' => simp [hw.ascii, hrow.ascii Member.ascii, hw'.ascii]
  | list hw _ hrow hw' => simp [hw.ascii, hrow.ascii Value.ascii, hw'.ascii]

end Spool.Config
