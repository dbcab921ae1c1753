import Spool.Proofs.Config.Acceptance

/-!
# Reading a configuration from a text and from a medium

The bytes of a text are read alike whether they are known to be a text or not (`parse_agree`),
down to what is said of the ones that are refused. Only a string makes a difference, and in a text
there is none: what stands between two quotes is cut out of it at ASCII characters, and an escape
gives whole characters (`Spells.isText`), so the bytes that the string spells are a
text again and are read as that. All that has been read before a string is ASCII, so what is left of
a text is always one.

Bytes that are no text are refused, since configurations are written in ASCII, and how the
bytes come in makes no difference either (`loadReads_eq`).
-/

namespace Spool.Config

open Text (IsText isText_cons_iff isText_append_iff)

/-! ### Strings -/

/-- A string that stands in a text spells a text, whatever stands before it. -/
theorem Spells.isText {body bytes front : Bytes} (h : Spells body bytes)
    (htext : IsText (front ++ body)) : IsText (front ++ bytes) := by
  induction h generalizing front with
  | nil => exact htext
  | @plain b body bytes _ _ _ _ ih =>
    -- the byte may be one inside a character, so it is counted among those before
    rw [List.append_cons] at htext ⊢
    exact ih htext
  | letter hletter _ ih =>
    obtain ⟨hfront, hrest⟩ := Text.isText_of_append_cons (by decide) htext
    obtain ⟨hl, hb⟩ := ascii_of_mem_letters hletter
    exact hfront.append ((isText_cons_iff hb).mpr (@ih [] ((isText_cons_iff hl).mp hrest)))
  | code hcode _ _ ih =>
    obtain ⟨hfront, hrest⟩ := Text.isText_of_append_cons (by decide) htext
    rw [isText_cons_iff (by decide), isText_append_iff hcode.ascii] at hrest
    exact hfront.append (IsText.append ⟨_, rfl⟩ (@ih [] hrest))
  | pair hleading _ htrailing _ _ ih =>
    obtain ⟨hfront, hrest⟩ := Text.isText_of_append_cons (by decide) htext
    rw [isText_cons_iff (by decide), isText_append_iff hleading.ascii,
      isText_cons_iff (by decide), isText_cons_iff (by decide),
      isText_append_iff htrailing.ascii] at hrest
    exact hfront.append (IsText.append ⟨_, rfl⟩ (@ih [] hrest))

theorem readString_agree {input : Bytes} (h : IsText input) :
    readString .text input = readString .bytes input := by
  rw [readString, readString]
  cases hscan : scanString .plain input with
  | error e => rfl
  | ok scanned =>
    obtain ⟨bytes, rest⟩ := scanned
    obtain ⟨body, hbody, rfl⟩ := scanString_eq_ok_iff.mp hscan
    obtain ⟨htext, -⟩ := Text.isText_of_append_cons (by decide) h
    obtain ⟨t, rfl⟩ := @Spells.isText _ _ [] hbody htext
    dsimp only
    rw [Medium.textOf, Medium.textOf, Text.lossy_toBytes, Text.ofBytes?_eq_some_iff.mpr rfl]

/-! ### What is left of a text -/

theorem isText_of_literal {text : List Char} {l input rest : Bytes} (hl : Literal text l)
    (htext : Text.Ascii (Text.toBytes text)) (hinput : 0x22 :: input = l ++ rest)
    (h : IsText input) : IsText rest := by
  rwa [← isText_append_iff (hl.ascii htext), ← hinput, isText_cons_iff (by decide)]

theorem isText_of_readPolicyName {medium : Medium} {input rest : Bytes} {policy : Trailing}
    (h : IsText input) (hread : readPolicyName medium input = .ok (policy, rest)) :
    IsText rest := by
  obtain ⟨l, hl, hinput⟩ := readPolicyName_eq_ok_iff.mp hread
  exact isText_of_literal hl (ascii_policyName policy) hinput h

theorem isText_of_readColon {input rest : Bytes} (h : IsText input)
    (hread : readColon input = .ok rest) : IsText rest := by
  obtain ⟨w, hw, rfl⟩ := readColon_eq_ok_iff.mp hread
  rwa [isText_append_iff hw.ascii, isText_cons_iff (by decide)] at h

theorem isText_of_readField {medium : Medium} {field : Field} {config config' : Config}
    {input rest : Bytes} (h : IsText input)
    (hread : readField medium field config input = .ok (config', rest)) : IsText rest := by
  obtain ⟨setting, w, l, -, -, hw, hl, -, rfl⟩ := readField_eq_ok_iff.mp hread
  rwa [isText_append_iff hw.ascii, isText_append_iff hl.ascii] at h

/-! ### Values -/

theorem bind_congr_ok {ε α β : Type} {x y : Except ε α} {f g : α → Except ε β} (h : x = y)
    (hfg : ∀ a, y = .ok a → f a = g a) : x >>= f = y >>= g := by
  subst h
  cases x with
  | error e => rfl
  | ok a => exact hfg a rfl

theorem mismatch_agree {expected : Expected} {input : Bytes} (h : IsText input) :
    mismatch .text expected input = mismatch .bytes expected input := by
  cases input with
  | nil => rfl
  | cons b rest =>
    by_cases hb : b = 0x22
    · subst hb
      rw [isText_cons_iff (by decide)] at h
      simp [mismatch, readString_agree h]
    · simp [mismatch, hb]

theorem afterBlanks_agree {ε α : Type} {input : Bytes} {e : ε}
    {read read' : UInt8 → Bytes → Except ε α} (h : IsText input)
    (hread : ∀ b rest, IsText (b :: rest) → read b rest = read' b rest) :
    (match skipBlanks input with
      | [] => Except.error e
      | b :: rest => read b rest) =
    (match skipBlanks input with
      | [] => Except.error e
      | b :: rest => read' b rest) := by
  cases hskip : skipBlanks input with
  | nil => rfl
  | cons b rest =>
    obtain ⟨w, hw, -, rfl⟩ := skipBlanks_eq_cons_iff.mp hskip
    exact hread b rest ((isText_append_iff hw.ascii).mp h)

theorem readBounded_agree {expected : Expected} {limit : Nat} {input : Bytes} (h : IsText input) :
    readBounded .text expected limit input = readBounded .bytes expected limit input := by
  refine afterBlanks_agree h fun b rest hrest => ?_
  rw [mismatch_agree hrest]

theorem readNull_agree {input : Bytes} (h : IsText input) :
    readNull .text input = readNull .bytes input := by
  refine afterBlanks_agree h fun b rest hrest => ?_
  rw [mismatch_agree hrest]

theorem readPolicyName_agree {input : Bytes} (h : IsText input) :
    readPolicyName .text input = readPolicyName .bytes input := by
  rw [readPolicyName, readPolicyName, readString_agree h]

theorem readPolicyObject_agree {input : Bytes} (h : IsText input) :
    readPolicyObject .text input = readPolicyObject .bytes input := by
  refine afterBlanks_agree h fun b rest hrest => ?_
  split
  · next hb =>
    rw [hb, isText_cons_iff (by decide)] at hrest
    refine bind_congr_ok (readPolicyName_agree hrest) fun named hname => ?_
    obtain ⟨policy, rest₁⟩ := named
    have h₁ := isText_of_readPolicyName hrest hname
    refine bind_congr_ok rfl fun rest₂ hcolon => ?_
    have h₂ := isText_of_readColon h₁ hcolon
    exact bind_congr_ok (readNull_agree h₂) fun _ _ => rfl
  · rfl

theorem readPolicy_agree {input : Bytes} (h : IsText input) :
    readPolicy .text input = readPolicy .bytes input := by
  refine afterBlanks_agree h fun b rest hrest => ?_
  split_ifs with hquote hbrace
  · rw [hquote, isText_cons_iff (by decide)] at hrest
    exact readPolicyName_agree hrest
  · rw [hbrace, isText_cons_iff (by decide)] at hrest
    exact readPolicyObject_agree hrest
  · rfl

theorem readField_agree {field : Field} {config : Config} {input : Bytes} (h : IsText input) :
    readField .text field config input = readField .bytes field config input := by
  cases field with
  | capacity => exact bind_congr_ok (readBounded_agree h) fun _ _ => rfl
  | delimiter => exact bind_congr_ok (readBounded_agree h) fun _ _ => rfl
  | trailing => exact bind_congr_ok (readPolicy_agree h) fun _ _ => rfl

/-! ### Configurations -/

theorem readMembers_agree {free : List Field} {first : Bool} {config : Config} {input : Bytes}
    (h : IsText input) :
    readMembers .text free first config input = readMembers .bytes free first config input := by
  induction hn : free.length using Nat.strong_induction_on generalizing free first config input with
  | _ n ih =>
    rw [readMembers, readMembers]
    refine bind_congr_ok rfl fun next hnext => ?_
    obtain ⟨member, rest⟩ := next
    obtain ⟨rfl, -⟩ | ⟨rfl, w, hw, rfl⟩ := nextMember_eq_ok_iff.mp hnext
    · rfl
    · rw [isText_append_iff hw.ascii, isText_cons_iff (by decide)] at h
      refine bind_congr_ok (readString_agree h) fun key hstring => ?_
      obtain ⟨name, rest₁⟩ := key
      refine bind_congr_ok rfl fun field hfield => ?_
      obtain rfl := fieldOf_eq_ok_iff.mp hfield
      obtain ⟨l, hl, hinput⟩ := (readString_eq_ok_iff (replacement_notMem_name field)).mp hstring
      have h₁ := isText_of_literal hl (ascii_name field) hinput h
      split
      · next hmem =>
        refine bind_congr_ok rfl fun rest₂ hcolon => ?_
        have h₂ := isText_of_readColon h₁ hcolon
        refine bind_congr_ok (readField_agree h₂) fun read hread => ?_
        obtain ⟨config₃, rest₃⟩ := read
        have h₃ := isText_of_readField h₂ hread
        refine ih _ ?_ h₃ rfl
        have := List.length_pos_of_mem hmem
        rw [List.length_erase_of_mem hmem]
        omega
      · rfl

theorem readElements_agree {fields : List Field} {first : Bool} {config : Config} {input : Bytes}
    (h : IsText input) :
    readElements .text fields first config input =
      readElements .bytes fields first config input := by
  induction fields generalizing first config input with
  | nil => rfl
  | cons field fields ih =>
    rw [readElements, readElements]
    refine bind_congr_ok rfl fun next hnext => ?_
    obtain ⟨more, rest⟩ := next
    obtain ⟨rfl, -⟩ | ⟨rfl, w, b, rest, hw, -, -, -, rfl⟩ := nextElement_eq_ok_iff.mp hnext
    · rfl
    · rw [isText_append_iff hw.ascii] at h
      refine bind_congr_ok (readField_agree h) fun read hread => ?_
      obtain ⟨config₁, rest₁⟩ := read
      exact ih (isText_of_readField h hread)

/-- **A text is read alike in both media.** -/
theorem parse_agree {input : Bytes} (h : IsText input) :
    parse .text input = parse .bytes input := by
  refine bind_congr_ok (afterBlanks_agree h fun b rest hrest => ?_) fun _ _ => rfl
  split_ifs with hbrace hbracket
  · rw [hbrace, isText_cons_iff (by decide)] at hrest
    exact readMembers_agree hrest
  · rw [hbracket, isText_cons_iff (by decide)] at hrest
    exact readElements_agree hrest
  · rw [mismatch_agree hrest]

/-! ### Successive reads -/

theorem collect_append {pieces : List Bytes} (h : ∀ piece ∈ pieces, piece ≠ [])
    (reads : List (Except String Bytes)) :
    collect (pieces.map .ok ++ reads) = (collect reads).map (pieces.flatten ++ ·) := by
  induction pieces with
  | nil =>
    rw [List.map_nil, List.nil_append]
    cases collect reads <;> rfl
  | cons piece pieces ih =>
    rw [List.forall_mem_cons] at h
    rw [List.map_cons, List.cons_append, collect, if_neg h.1, ih h.2]
    cases collect reads with
    | error kind => rfl
    | ok bytes => simp [Except.map]

theorem load_eq_loadText {bytes : Bytes} {text : List Char} (h : bytes = Text.toBytes text) :
    load bytes = loadText text := by
  rw [load, loadText, ← h, parse_agree ⟨text, h⟩]

theorem load_of_not_isText {bytes : Bytes} (h : ¬IsText bytes) :
    ∃ e, load bytes = .error (.parse e) :=
  accept_parse_eq_parse_iff.mpr fun ⟨_, hwritten⟩ => h hwritten.ascii.isText

/-- **The reads of a medium come to what is read of its bytes**, however they are cut: that is what
is read of the text that the bytes are, and a parse error if they are none. A read that fails is
the end, whatever has been read before. -/
theorem loadReads_eq {pieces : List Bytes} (h : ∀ piece ∈ pieces, piece ≠ [])
    (more : List (Except String Bytes)) :
    loadReads (pieces.map .ok ++ .ok [] :: more) = load pieces.flatten ∧
    (∀ text, pieces.flatten = Text.toBytes text →
      loadReads (pieces.map .ok ++ .ok [] :: more) = loadText text) ∧
    ((∀ text, pieces.flatten ≠ Text.toBytes text) →
      ∃ e, loadReads (pieces.map .ok ++ .ok [] :: more) = .error (.parse e)) ∧
    (∀ kind, loadReads (pieces.map .ok ++ .error kind :: more) = .error (.read kind)) := by
  have hwhole : loadReads (pieces.map .ok ++ .ok [] :: more) = load pieces.flatten := by
    rw [loadReads, collect_append h]
    simp [collect, Except.map]
  refine ⟨hwhole, fun text htext => ?_, fun hnone => ?_, fun kind => ?_⟩
  · rw [hwhole, load_eq_loadText htext]
  · rw [hwhole]
    exact load_of_not_isText fun ⟨text, htext⟩ => hnone text htext
  · rw [loadReads, collect_append h]
    rfl

/-- A character of two bytes that come in two reads, and one of which the second byte is missing. -/
theorem loadReads_eq_of_split_character :
    let pieces : List Bytes := [[0x5b, 0x22, 0xc3], [0xa9, 0x22, 0x5d]]
    let broken : List Bytes := [[0x5b, 0x22, 0xc3], [0x22, 0x5d]]
    (∀ piece ∈ pieces, piece ≠ []) ∧ pieces.flatten = Text.toBytes "[\"\u00e9\"]".toList ∧
      loadReads (pieces.map .ok ++ [.ok []]) =
        .error (.parse (.invalidType (.text ['\u00e9']) .capacity)) ∧
      loadReads (pieces.map .ok ++ [.error "TimedOut"]) = .error (.read "TimedOut") ∧
    (∀ piece ∈ broken, piece ≠ []) ∧ (∀ text, broken.flatten ≠ Text.toBytes text) ∧
      ∃ e, loadReads (broken.map .ok ++ [.ok []]) = .error (.parse e) := by
  intro pieces broken
  have hpieces : ∀ piece ∈ pieces, piece ≠ [] := by decide
  have hbroken : ∀ piece ∈ broken, piece ≠ [] := by decide
  have htext : pieces.flatten = Text.toBytes "[\"\u00e9\"]".toList := by decide
  have hnone : ∀ text, broken.flatten ≠ Text.toBytes text := fun text h =>
    Text.ofBytes?_eq_none_iff.mp (by decide : Text.ofBytes? broken.flatten = none) ⟨text, h⟩
  refine ⟨hpieces, htext, ?_, (loadReads_eq hpieces []).2.2.2 _, hbroken, hnone,
    (loadReads_eq hbroken []).2.2.1 hnone⟩
  rw [(loadReads_eq hpieces []).2.1 _ htext]
  decide +kernel

end Spool.Config
