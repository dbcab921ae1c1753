import Mathlib.Data.List.TakeWhile
import Spool.Config.Reader
import Spool.Proofs.Config.Notation

/-!
# Reading the tokens of a configuration

A reader takes a token from the beginning of its input and gives the rest back. For each kind of
token one `iff` says when it succeeds: exactly if the input is what the notation allows followed
by the rest that is given back. Nothing more is asked of the rest, but that a number is not
continued in it (`EndsNumber`).

A string is scanned byte by byte. `Leads` says what has been read of it since the plain text, so
that a scan that stands inside an escape is also told by the notation (`spells_of_scanString`).
-/

namespace Spool.Config

theorem bind_eq_ok_iff {ε α β : Type} {x : Except ε α} {f : α → Except ε β} {b : β} :
    x >>= f = .ok b ↔ ∃ a, x = .ok a ∧ f a = .ok b := by
  cases x with
  | error e => exact ⟨nofun, fun ⟨_, h, _⟩ => nomatch h⟩
  | ok a => exact ⟨fun h => ⟨a, rfl, h⟩, fun ⟨_, h, hf⟩ => by cases h; exact hf⟩

/-! ### Blanks -/

theorem blank_iff {w : Bytes} : Blank w ↔ ∀ b ∈ w, isBlank b = true := by
  simp [Blank, isBlank, or_assoc]

theorem blank_nil : Blank [] := by simp [Blank]

theorem Blank.append {w w' : Bytes} (h : Blank w) (h' : Blank w') : Blank (w ++ w') := by
  grind [Blank]

theorem skipBlanks_append {w : Bytes} (h : Blank w) (rest : Bytes) :
    skipBlanks (w ++ rest) = skipBlanks rest :=
  List.dropWhile_append_of_pos (blank_iff.mp h)

theorem skipBlanks_eq_cons_iff {input rest : Bytes} {b : UInt8} :
    skipBlanks input = b :: rest ↔ ∃ w, Blank w ∧ isBlank b = false ∧ input = w ++ b :: rest := by
  constructor
  · intro h
    refine ⟨input.takeWhile isBlank, blank_iff.mpr fun _ => List.mem_takeWhile_imp, ?_, ?_⟩
    · have hnot := List.head?_dropWhile_not isBlank input
      rwa [← skipBlanks, h] at hnot
    · rw [← h, skipBlanks, List.takeWhile_append_dropWhile]
  · rintro ⟨w, hw, hb, rfl⟩
    rw [skipBlanks_append hw, skipBlanks, List.dropWhile_cons_of_neg (by simp [hb])]

theorem afterBlanks_eq_ok_iff {ε α : Type} {input : Bytes} {e : ε}
    {read : UInt8 → Bytes → Except ε α} {a : α} :
    (match skipBlanks input with
      | [] => Except.error e
      | b :: rest => read b rest) = .ok a ↔
      ∃ w b rest, Blank w ∧ isBlank b = false ∧ input = w ++ b :: rest ∧ read b rest = .ok a := by
  constructor
  · intro h
    split at h
    · cases h
    · next b rest hskip =>
      obtain ⟨w, hw, hb, hinput⟩ := skipBlanks_eq_cons_iff.mp hskip
      exact ⟨w, b, rest, hw, hb, hinput, h⟩
  · rintro ⟨w, b, rest, hw, hb, hinput, h⟩
    rw [skipBlanks_eq_cons_iff.mpr ⟨w, hw, hb, hinput⟩]
    exact h

theorem skipBlanks_eq_nil_iff {input : Bytes} : skipBlanks input = [] ↔ Blank input := by
  rw [skipBlanks, List.dropWhile_eq_nil_iff, blank_iff]

/-! ### Strings -/

theorem hexValue_eq_some_iff {b : UInt8} {n : Nat} : hexValue b = some n ↔ HexDigit b n := by
  constructor
  · intro h
    have hb : UInt8.ofNat b.toNat = b := UInt8.ofNat_toNat
    simp only [hexValue] at h
    split_ifs at h with h₁ h₂ h₃ <;> cases h
    · have := HexDigit.decimal (n := b.toNat - 0x30) (by omega)
      rwa [show 0x30 + (b.toNat - 0x30) = b.toNat by omega, hb] at this
    · have := HexDigit.lower (n := b.toNat - 0x61) (by omega)
      rwa [show 0x61 + (b.toNat - 0x61) = b.toNat by omega, hb, Nat.add_comm] at this
    · have := HexDigit.upper (n := b.toNat - 0x41) (by omega)
      rwa [show 0x41 + (b.toNat - 0x41) = b.toNat by omega, hb, Nat.add_comm] at this
  · rintro (hn | hn | hn) <;> simp only [hexValue, UInt8.toNat_ofNat'] <;> grind

theorem Code.length_eq {digits : Bytes} {n : Nat} (h : Code digits n) : digits.length = 4 := by
  cases h
  rfl

theorem codeValue_eq_some_iff {digits : Bytes} {n : Nat} (h : digits.length = 4) :
    codeValue digits = some n ↔ Code digits n := by
  obtain ⟨p, q, r, s, rfl⟩ : ∃ p q r s, digits = [p, q, r, s] := by
    match digits, h with
    | [p, q, r, s], _ => exact ⟨p, q, r, s, rfl⟩
  constructor
  · intro hn
    simp only [codeValue, List.foldl, Option.bind_eq_some_iff, Option.map_eq_some_iff] at hn
    obtain ⟨k, ⟨j, ⟨i, ⟨_, h0, a, ha, rfl⟩, b, hb, rfl⟩, c, hc, rfl⟩, d, hd, rfl⟩ := hn
    cases h0
    rw [hexValue_eq_some_iff] at ha hb hc hd
    simpa using Code.digits ha hb hc hd
  · rintro ⟨hp, hq, hr, hs⟩
    rw [← hexValue_eq_some_iff] at hp hq hr hs
    simp [codeValue, hp, hq, hr, hs]

theorem isLeading_iff {n : Nat} : isLeading n = true ↔ ∃ i < 0x400, n = 0xd800 + i := by
  simp only [isLeading, Bool.and_eq_true, decide_eq_true_eq]
  exact ⟨fun h => ⟨n - 0xd800, by omega, by omega⟩, fun ⟨i, _, _⟩ => by omega⟩

theorem isTrailing_iff {n : Nat} : isTrailing n = true ↔ ∃ j < 0x400, n = 0xdc00 + j := by
  simp only [isTrailing, Bool.and_eq_true, decide_eq_true_eq]
  exact ⟨fun h => ⟨n - 0xdc00, by omega, by omega⟩, fun ⟨j, _, _⟩ => by omega⟩

theorem simpleEscape_eq_some_iff {l b : UInt8} : simpleEscape l = some b ↔ (l, b) ∈ letters := by
  constructor
  · intro h
    rw [simpleEscape] at h
    split_ifs at h with h₁ <;> cases h
    · obtain rfl | rfl | rfl := h₁ <;> decide
    all_goals simp_all [letters]
  · intro h
    have hall : ∀ pair ∈ letters, simpleEscape pair.1 = some pair.2 := by
      simp [letters, simpleEscape]
    exact hall _ h

theorem emit_eq_ok_iff {front bytes rest : Bytes} {result : Except ParseError (Bytes × Bytes)} :
    emit front result = .ok (bytes, rest) ↔
      ∃ more, result = .ok (more, rest) ∧ bytes = front ++ more := by
  cases result with
  | error e => simp [emit]
  | ok pair =>
    obtain ⟨more, rest'⟩ := pair
    simp only [emit, Except.ok.injEq, Prod.mk.injEq]
    grind

/-- The bytes that a scan has read since it was last in the plain text. -/
inductive Leads : Place → Bytes → Prop where
  /-- There are none in the plain text. -/
  | plain : Leads .plain []
  /-- A backslash. -/
  | escape : Leads .escape [0x5c]
  /-- The digits of a code. -/
  | code {digits : Bytes} : digits.length < 4 → Leads (.code none digits) (0x5c :: 0x75 :: digits)
  /-- An escape for a leading surrogate. -/
  | paired {leading : Bytes} {i : Nat} : Code leading (0xd800 + i) → i < 0x400 →
      Leads (.paired (0xd800 + i)) (0x5c :: 0x75 :: leading)
  /-- A backslash after a leading surrogate. -/
  | pairedEscape {leading : Bytes} {i : Nat} : Code leading (0xd800 + i) → i < 0x400 →
      Leads (.pairedEscape (0xd800 + i)) (0x5c :: 0x75 :: (leading ++ [0x5c]))
  /-- The digits of a code after a leading surrogate. -/
  | pairedCode {leading digits : Bytes} {i : Nat} : Code leading (0xd800 + i) → i < 0x400 →
      digits.length < 4 →
      Leads (.code (some (0xd800 + i)) digits) (0x5c :: 0x75 :: (leading ++ 0x5c :: 0x75 :: digits))

theorem exists_body_cons {front input bytes rest : Bytes} {b : UInt8}
    (h : ∃ body, Spells (front ++ [b] ++ body) bytes ∧ input = body ++ 0x22 :: rest) :
    ∃ body, Spells (front ++ body) bytes ∧ b :: input = body ++ 0x22 :: rest := by
  obtain ⟨body, hbody, rfl⟩ := h
  exact ⟨b :: body, by simpa using hbody, rfl⟩

theorem spells_of_scanString {place : Place} {front input bytes rest : Bytes}
    (hlead : Leads place front) (h : scanString place input = .ok (bytes, rest)) :
    ∃ body, Spells (front ++ body) bytes ∧ input = body ++ 0x22 :: rest := by
  fun_induction scanString place input generalizing front bytes with
  | case1 | case4 | case8 | case10 | case11 | case15 | case17 | case19 => cases h
  | case2 =>
    cases hlead
    cases h
    exact ⟨[], .nil, rfl⟩
  | case3 input _ ih =>
    cases hlead
    exact exists_body_cons (ih .escape h)
  | case5 b input hquote hescape hcontrol ih =>
    cases hlead
    obtain ⟨more, hmore, rfl⟩ := emit_eq_ok_iff.mp h
    obtain ⟨body, hbody, rfl⟩ := ih .plain hmore
    exact ⟨b :: body, .plain (UInt8.not_lt.mp hcontrol) hquote hescape hbody, rfl⟩
  | case6 input ih =>
    cases hlead
    exact exists_body_cons (ih (.code (by simp)) h)
  | case7 b input _ c hc ih =>
    cases hlead
    obtain ⟨more, hmore, rfl⟩ := emit_eq_ok_iff.mp h
    obtain ⟨body, hbody, rfl⟩ := ih .plain hmore
    exact ⟨b :: body, .letter (simpleEscape_eq_some_iff.mp hc) hbody, rfl⟩
  | case9 high digits b input hlength ih =>
    refine exists_body_cons (ih ?_ h)
    cases hlead with
    | code _ => exact .code (by simp; omega)
    | pairedCode hcode hi _ =>
      have hlength' : (digits ++ [b]).length < 4 := by simp; omega
      simpa using Leads.pairedCode hcode hi hlength'
  | case12 digits b input hlength n hn _ hleading ih =>
    refine exists_body_cons (ih ?_ h)
    obtain ⟨hlength'⟩ := hlead
    rw [codeValue_eq_some_iff (by simp; omega)] at hn
    obtain ⟨i, hi, rfl⟩ := isLeading_iff.mp hleading
    exact .paired hn hi
  | case13 digits b input hlength n hn htrailing hleading ih =>
    obtain ⟨hlength'⟩ := hlead
    rw [codeValue_eq_some_iff (by simp; omega)] at hn
    obtain ⟨more, hmore, rfl⟩ := emit_eq_ok_iff.mp h
    obtain ⟨body, hbody, rfl⟩ := ih .plain hmore
    have hrange : n < 0xd800 ∨ 0xdfff < n := by
      simp only [isTrailing, isLeading, Bool.and_eq_true, decide_eq_true_eq] at htrailing hleading
      omega
    refine ⟨b :: body, ?_, rfl⟩
    simpa [codeBytes] using Spells.code hn hrange hbody
  | case14 digits b input hlength n high hn htrailing ih =>
    cases hlead with
    | pairedCode hcode hi hlength' =>
      rw [codeValue_eq_some_iff (by simp; omega)] at hn
      obtain ⟨j, hj, rfl⟩ := isTrailing_iff.mp htrailing
      obtain ⟨more, hmore, hbytes⟩ := emit_eq_ok_iff.mp h
      obtain ⟨body, hbody, rfl⟩ := ih .plain hmore
      refine ⟨b :: body, ?_, rfl⟩
      simpa [hbytes, codeBytes, Nat.add_sub_cancel_left] using Spells.pair hcode hi hn hj hbody
  | case16 high input ih =>
    cases hlead with
    | paired hcode hi => exact exists_body_cons (ih (.pairedEscape hcode hi) h)
  | case18 high input ih =>
    cases hlead with
    | pairedEscape hcode hi =>
      refine exists_body_cons (ih ?_ h)
      simpa using Leads.pairedCode hcode hi (by simp : [].length < 4)

theorem Code.exists_digits {digits : Bytes} {n : Nat} (h : Code digits n) :
    ∃ p q r s, digits = [p, q, r, s] ∧ codeValue [p, q, r, s] = some n := by
  have hvalue := (codeValue_eq_some_iff h.length_eq).mpr h
  cases h with
  | @digits p q r s => exact ⟨p, q, r, s, rfl, hvalue⟩

theorem scanString_code {digits : Bytes} {n : Nat} (h : Code digits n)
    (hrange : n < 0xd800 ∨ 0xdfff < n) (rest : Bytes) :
    scanString (.code none []) (digits ++ rest) = emit (codeBytes n) (scanString .plain rest) := by
  obtain ⟨p, q, r, s, rfl, hvalue⟩ := h.exists_digits
  have hleading : isLeading n = false := by grind [isLeading]
  have htrailing : isTrailing n = false := by grind [isTrailing]
  simp [scanString, hvalue, hleading, htrailing]

/-- A code that is a leading surrogate has to be followed by a trailing one. -/
theorem scanString_leading {digits : Bytes} {i : Nat} (h : Code digits (0xd800 + i))
    (hi : i < 0x400) (rest : Bytes) :
    scanString (.code none []) (digits ++ rest) = scanString (.paired (0xd800 + i)) rest := by
  obtain ⟨p, q, r, s, rfl, hvalue⟩ := h.exists_digits
  have hleading : isLeading (0xd800 + i) = true := isLeading_iff.mpr ⟨i, hi, rfl⟩
  have htrailing : isTrailing (0xd800 + i) = false := by grind [isTrailing]
  simp [scanString, hvalue, hleading, htrailing]

/-- The two codes of a pair are one character. -/
theorem scanString_trailing {digits : Bytes} {i j : Nat} (h : Code digits (0xdc00 + j))
    (hj : j < 0x400) (rest : Bytes) :
    scanString (.code (some (0xd800 + i)) []) (digits ++ rest) =
      emit (codeBytes (0x10000 + i * 0x400 + j)) (scanString .plain rest) := by
  obtain ⟨p, q, r, s, rfl, hvalue⟩ := h.exists_digits
  have htrailing : isTrailing (0xdc00 + j) = true := isTrailing_iff.mpr ⟨j, hj, rfl⟩
  simp [scanString, hvalue, htrailing]

/-- The bytes that a string stands for are scanned. -/
theorem scanString_of_spells {body bytes : Bytes} (h : Spells body bytes) (rest : Bytes) :
    scanString .plain (body ++ 0x22 :: rest) = .ok (bytes, rest) := by
  induction h with
  | nil => rfl
  | plain hcontrol hquote hescape _ ih =>
    simp [scanString, hquote, hescape, UInt8.not_lt.mpr hcontrol, ih, emit]
  | @letter l b _ _ hletter _ ih =>
    have hl : l ≠ 0x75 := by
      rintro rfl
      simp [letters] at hletter
    simp [scanString, hl, simpleEscape_eq_some_iff.mpr hletter, ih, emit]
  | @code digits body _ n hcode hrange _ ih =>
    have hopen : scanString .plain (0x5c :: 0x75 :: (digits ++ body) ++ 0x22 :: rest) =
        scanString (.code none []) (digits ++ (body ++ 0x22 :: rest)) := by simp [scanString]
    rw [hopen, scanString_code hcode hrange, ih]
    simp [emit, codeBytes]
  | @pair leading trailing body _ i j hleading hi htrailing hj _ ih =>
    have hopen : scanString .plain
          (0x5c :: 0x75 :: (leading ++ 0x5c :: 0x75 :: (trailing ++ body)) ++ 0x22 :: rest) =
        scanString (.code none [])
          (leading ++ 0x5c :: 0x75 :: (trailing ++ (body ++ 0x22 :: rest))) := by simp [scanString]
    have hpair : scanString (.paired (0xd800 + i))
          (0x5c :: 0x75 :: (trailing ++ (body ++ 0x22 :: rest))) =
        scanString (.code (some (0xd800 + i)) []) (trailing ++ (body ++ 0x22 :: rest)) := by
      simp [scanString]
    rw [hopen, scanString_leading hleading hi, hpair, scanString_trailing htrailing hj, ih]
    simp [emit, codeBytes]

/-- **What a scan accepts is what the notation of strings says.** -/
theorem scanString_eq_ok_iff {input bytes rest : Bytes} :
    scanString .plain input = .ok (bytes, rest) ↔
      ∃ body, Spells body bytes ∧ input = body ++ 0x22 :: rest :=
  ⟨spells_of_scanString .plain, fun ⟨_, hbody, h⟩ => h ▸ scanString_of_spells hbody rest⟩

theorem spells_iff {body bytes : Bytes} :
    Spells body bytes ↔ scanString .plain (body ++ [0x22]) = .ok (bytes, []) := by
  rw [scanString_eq_ok_iff]
  constructor
  · intro h
    exact ⟨body, h, rfl⟩
  · rintro ⟨body', h, heq⟩
    rwa [List.append_cancel_right heq]

instance (body bytes : Bytes) : Decidable (Spells body bytes) :=
  decidable_of_iff _ spells_iff.symm

/-- In either medium, bytes are taken for a text that does not hold U+FFFD only if they are its
bytes. -/
theorem textOf_eq_some_iff {medium : Medium} {bytes : Bytes} {text : List Char}
    (htext : '\ufffd' ∉ text) : medium.textOf bytes = some text ↔ bytes = Text.toBytes text := by
  cases medium with
  | text => rw [Medium.textOf, Option.some.injEq, Text.lossy_eq_iff htext]
  | bytes => exact Text.ofBytes?_eq_some_iff

/-- A string is read from its literal. The opening quote has been read before. -/
theorem readString_eq_ok_iff {medium : Medium} {input rest : Bytes} {text : List Char}
    (htext : '\ufffd' ∉ text) :
    readString medium input = .ok (text, rest) ↔
      ∃ l, Literal text l ∧ 0x22 :: input = l ++ rest := by
  constructor
  · intro h
    rw [readString] at h
    split at h
    · cases h
    · next bytes rest' hscan =>
      split at h
      · next text' hmedium =>
        cases h
        obtain ⟨body, hbody, rfl⟩ := scanString_eq_ok_iff.mp hscan
        rw [(textOf_eq_some_iff htext).mp hmedium] at hbody
        exact ⟨_, ⟨body, hbody, rfl⟩, by simp⟩
      · cases h
  · rintro ⟨_, ⟨body, hbody, rfl⟩, hinput⟩
    have hinput : input = body ++ 0x22 :: rest := by simpa using hinput
    rw [readString, scanString_eq_ok_iff.mpr ⟨body, hbody, hinput⟩]
    dsimp only
    rw [(textOf_eq_some_iff htext).mpr rfl]

/-! ### Numbers -/

/-- Behind a number stands nothing that would continue it. -/
def EndsNumber (rest : Bytes) : Prop :=
  ∀ b ∈ rest.head?, isDigit b = false ∧ b ≠ 0x2e ∧ b ≠ 0x65 ∧ b ≠ 0x45

theorem isDigit_iff {b : UInt8} : isDigit b = true ↔ 0x30 ≤ b ∧ b ≤ 0x39 := by
  simp [isDigit]

theorem digitRun_eq_iff {input run rest : Bytes} : digitRun input = (run, rest) ↔
    (∀ b ∈ run, isDigit b = true) ∧ (∀ b ∈ rest.head?, isDigit b = false) ∧
      input = run ++ rest := by
  induction input generalizing run with
  | nil => cases run <;> cases rest <;> simp [digitRun]
  | cons b input ih =>
    rw [digitRun]
    cases run with
    | nil => grind
    | cons c run =>
      have := @ih run
      grind

/-- Put the digits `run` behind a significand. -/
def significand (start : Nat) (run : Bytes) : Nat :=
  run.foldl (fun value b => value * 10 + (b.toNat - 0x30)) start

theorem le_significand (start : Nat) (run : Bytes) : start ≤ significand start run := by
  induction run generalizing start with
  | nil => exact Nat.le_refl _
  | cons b run ih => exact Nat.le_trans (by omega) (ih (start * 10 + (b.toNat - 0x30)))

theorem extend_of_lt {start : Nat} {run : Bytes} (h : significand start run < wordLimit) :
    extend start run = (significand start run, []) := by
  induction run generalizing start with
  | nil => rfl
  | cons b run ih =>
    have hb : start * 10 + digitValue b < wordLimit := Nat.lt_of_le_of_lt (le_significand _ run) h
    rw [extend, if_pos hb]
    exact ih h

theorem extend_of_le {start : Nat} {run : Bytes} (hstart : start < wordLimit)
    (h : wordLimit ≤ significand start run) : (extend start run).2 ≠ [] := by
  induction run generalizing start with
  | nil => exact absurd h (by simpa [significand] using hstart)
  | cons b run ih =>
    rw [extend]
    split
    · next hb => exact ih hb h
    · simp

theorem decimal_ne_integer {negative : Bool} {digits : Nat} {exponent n : Int}
    {input rest : Bytes} : (decimal negative digits exponent).map (·, input) ≠ .ok (.integer n, rest) := by
  rw [decimal]
  split <;> simp [Except.map]

theorem readScale_ne_integer {negative : Bool} {digits : Nat} {exponent n : Int}
    {input rest : Bytes} : readScale negative digits exponent input ≠ .ok (.integer n, rest) := by
  cases input with
  | nil => exact decimal_ne_integer
  | cons b input =>
    rw [readScale]
    split
    · cases readExponent input with
      | error e => simp
      | ok scale => exact decimal_ne_integer
    · exact decimal_ne_integer

theorem readFraction_ne_integer {negative : Bool} {digits left : Nat} {n : Int}
    {input rest : Bytes} : readFraction negative digits left input ≠ .ok (.integer n, rest) := by
  cases input with
  | nil => rw [readFraction]; exact readScale_ne_integer
  | cons b input =>
    rw [readFraction]
    split
    · split
      · simp
      · simp
      · exact readScale_ne_integer
    · exact readScale_ne_integer

theorem readUnsigned_of_digitRun {input more rest : Bytes} {first : UInt8} (negative : Bool)
    (h : digitRun input = (first :: more, rest)) :
    readUnsigned negative input =
      if first = 0x30 ∧ more ≠ [] then .error .invalidNumber
      else if (extend 0 (first :: more)).2 ≠ [] ∨ goesOn rest = true then
        readFraction negative (extend 0 (first :: more)).1 (extend 0 (first :: more)).2.length rest
      else if !negative then .ok (.integer (extend 0 (first :: more)).1, rest)
      else if 0 < (extend 0 (first :: more)).1 ∧ (extend 0 (first :: more)).1 ≤ leastMagnitude then
        .ok (.integer (-(extend 0 (first :: more)).1), rest)
      else (decimal negative (extend 0 (first :: more)).1 0).map (·, rest) := by
  rw [readUnsigned, h]

theorem readUnsigned_of_no_digit {input rest : Bytes} (negative : Bool)
    (h : digitRun input = ([], rest)) : ∃ e, readUnsigned negative input = .error e := by
  rw [readUnsigned, h]
  cases rest <;> exact ⟨_, rfl⟩

theorem neg_of_readUnsigned {input rest : Bytes} {n : Int}
    (h : readUnsigned true input = .ok (.integer n, rest)) : n < 0 := by
  obtain ⟨run, rest', hrun⟩ : ∃ run rest', digitRun input = (run, rest') := ⟨_, _, rfl⟩
  cases run with
  | nil =>
    obtain ⟨e, he⟩ := readUnsigned_of_no_digit true hrun
    cases he.symm.trans h
  | cons first more =>
    rw [readUnsigned_of_digitRun true hrun] at h
    split_ifs at h with hzero hgoes hneg hrange
    · exact absurd h readFraction_ne_integer
    · cases hneg
    · cases h
      omega
    · exact absurd h decimal_ne_integer

/-- **What is read as an integer without a sign is what the notation of whole numbers says.** -/
theorem readUnsigned_eq_ok_iff {input rest : Bytes} {n : Int} :
    readUnsigned false input = .ok (.integer n, rest) ↔
      ∃ (m : Nat) (l : Bytes), n = m ∧ Whole m l ∧ m < wordLimit ∧ EndsNumber rest ∧
        input = l ++ rest := by
  constructor
  · intro h
    obtain ⟨run, rest', hrun⟩ : ∃ run rest', digitRun input = (run, rest') := ⟨_, _, rfl⟩
    obtain ⟨hdigits, hrest, rfl⟩ := digitRun_eq_iff.mp hrun
    cases run with
    | nil =>
      obtain ⟨e, he⟩ := readUnsigned_of_no_digit false hrun
      cases he.symm.trans h
    | cons first more =>
      rw [readUnsigned_of_digitRun false hrun, Bool.not_false, if_pos (Eq.refl true)] at h
      split_ifs at h with hzero hgoes
      · exact absurd h readFraction_ne_integer
      · cases h
        obtain ⟨hall, hstops⟩ := not_or.mp hgoes
        have hlt : significand 0 (first :: more) < wordLimit := by
          by_contra hle
          exact hall (extend_of_le (by decide) (Nat.le_of_not_lt hle))
        rw [extend_of_lt hlt]
        refine ⟨_, first :: more, rfl,
          ⟨by simp, fun b hb => isDigit_iff.mp (hdigits b hb), ?_, rfl⟩,
          hlt, fun b hb => ⟨hrest b hb, ?_⟩, rfl⟩
        · intro hfirst
          by_contra hmore
          exact hzero ⟨by simpa using hfirst, by grind⟩
        · obtain ⟨rest, rfl⟩ := List.head?_eq_some_iff.mp hb
          simpa [goesOn, and_assoc] using hstops
  · rintro ⟨m, l, rfl, hwhole, hm, hends, rfl⟩
    obtain ⟨first, more, rfl⟩ := List.exists_cons_of_ne_nil hwhole.ne_nil
    have hrun : digitRun (first :: more ++ rest) = (first :: more, rest) :=
      digitRun_eq_iff.mpr ⟨fun b hb => isDigit_iff.mpr (hwhole.digits b hb),
        fun b hb => (hends b hb).1, rfl⟩
    have hvalue : extend 0 (first :: more) = (m, []) := by
      rw [← hwhole.value] at hm ⊢
      exact extend_of_lt hm
    have hzero : ¬(first = 0x30 ∧ more ≠ []) := by
      rintro ⟨rfl, hmore⟩
      exact hmore (List.cons.inj (hwhole.leading rfl)).2
    have hstops : ¬goesOn rest = true := by
      cases rest with
      | nil => simp [goesOn]
      | cons b rest => simpa [goesOn, and_assoc] using (hends b rfl).2
    rw [readUnsigned_of_digitRun false hrun, if_neg hzero, hvalue, if_neg (by simpa using hstops)]
    rfl

/-- **A number below a limit is read from its notation**, where it ends. -/
theorem readBounded_eq_ok_iff {medium : Medium} {expected : Expected} {limit n : Nat}
    {input rest : Bytes} (hlimit : limit ≤ wordLimit) :
    readBounded medium expected limit input = .ok (n, rest) ↔
      ∃ w l, Blank w ∧ Whole n l ∧ n < limit ∧ EndsNumber rest ∧ input = w ++ (l ++ rest) := by
  rw [readBounded]
  refine afterBlanks_eq_ok_iff.trans ⟨?_, ?_⟩
  · rintro ⟨w, b, input', hw, -, rfl, h⟩
    split_ifs at h with hb
    split at h
    · cases h
    · next m rest' hnumeral =>
      split_ifs at h with hm
      cases h
      rw [readNumeral] at hnumeral
      split_ifs at hnumeral with hminus
      · have := neg_of_readUnsigned hnumeral
        omega
      · obtain ⟨m, l, rfl, hwhole, -, hends, hinput⟩ := readUnsigned_eq_ok_iff.mp hnumeral
        exact ⟨w, l, hw, hwhole, by simpa using hm.2, hends, by rw [hinput]⟩
    · cases h
  · rintro ⟨w, l, hw, hwhole, hn, hends, rfl⟩
    have hnumeral : readUnsigned false (l ++ rest) = .ok (.integer n, rest) :=
      readUnsigned_eq_ok_iff.mpr ⟨n, l, rfl, hwhole, Nat.lt_of_lt_of_le hn hlimit, hends, rfl⟩
    obtain ⟨b, l, rfl⟩ := List.exists_cons_of_ne_nil hwhole.ne_nil
    have hb : isDigit b = true := isDigit_iff.mpr (hwhole.digits b (.head _))
    have hblank : isBlank b = false := by grind [isBlank, isDigit]
    have hminus : b ≠ 0x2d := by rintro rfl; cases hb
    refine ⟨w, b, l ++ rest, hw, hblank, rfl, ?_⟩
    rw [if_pos (.inr hb), readNumeral, if_neg hminus, ← List.cons_append, hnumeral]
    simp [hn]

end Spool.Config
