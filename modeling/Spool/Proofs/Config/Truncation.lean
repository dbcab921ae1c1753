import Spool.Proofs.Config.Media

/-!
# Configurations that end too early

A text that is a configuration up to its closing bracket is none before that, and what is said of
the front of it is always that it ends too early (`truncated_runs_out`): never that something in it
is wrong. So a caller who has only a part of a text can tell that from what is wrong with it.

What a reader makes of a front is compared with what it makes of the whole (`Cut`): either it runs
out of bytes, or it comes to the same and leaves what is left of the front. This is kept when
readers are put one behind the other (`Cut.bind`), and so it is proved reader by reader, down
to single bytes of a string. Only numbers are different. A number that is cut off is a shorter
number, and it takes the reader that comes next to find out that nothing follows
(`LacksOrEnds`).
-/

namespace Spool.Config

/-! ### Readers of a front -/

section Cuts

variable {α β : Type} {rel : α → α → Prop} {whole front : Except ParseError α}

/-- The text is found to end too early. -/
def RunsOut (result : Except ParseError α) : Prop :=
  ∃ e, result = .error e ∧ e.kind = .endOfText

/-- `Cut rel whole front`: if a reader succeeds on a whole input, then on the front of it it runs
out of bytes, or what it reads has `rel` to what it reads of the whole. -/
def Cut (rel : α → α → Prop) (whole front : Except ParseError α) : Prop :=
  ∀ a, whole = .ok a → RunsOut front ∨ ∃ b, front = .ok b ∧ rel b a

namespace Cut

theorem error {e : ParseError} : Cut rel (.error e) front := nofun

theorem ok {a b : α} (h : rel b a) : Cut rel (.ok a) (.ok b) := by
  rintro _ ⟨⟩
  exact .inr ⟨b, rfl, h⟩

theorem runsOut (h : RunsOut front) : Cut rel whole front := fun _ _ => .inl h

/-- **One reader after another**: what the second one makes of what the first one gives. -/
theorem bind {rel' : β → β → Prop} {next : α → Except ParseError β} (h : Cut rel whole front)
    (hnext : ∀ b a, rel b a → Cut rel' (next a) (next b)) :
    Cut rel' (whole >>= next) (front >>= next) := by
  intro c hc
  obtain ⟨a, ha, hac⟩ := bind_eq_ok_iff.mp hc
  obtain ⟨e, he, hkind⟩ | ⟨b, hb, hba⟩ := h a ha
  · exact .inl ⟨e, by rw [he]; rfl, hkind⟩
  · rw [hb]
    exact hnext b a hba c hac

end Cut

/-- What is read of the front is what is read of the whole, but of what is left `back` is
missing. -/
def Lacks (back : Bytes) (b a : α × Bytes) : Prop := a = (b.1, b.2 ++ back)

/-- Or else the whole front was read. -/
def LacksOrEnds (back : Bytes) (b a : α × Bytes) : Prop := Lacks back b a ∨ b.2 = []

end Cuts

variable {medium : Medium} {front back : Bytes}

theorem afterBlanks_cut {α : Type} {rel : α → α → Prop} {e : ParseError}
    {read : UInt8 → Bytes → Except ParseError α} (he : e.kind = .endOfText)
    (h : ∀ b left, Cut rel (read b (left ++ back)) (read b left)) :
    Cut rel
      (match skipBlanks (front ++ back) with
        | [] => Except.error e
        | b :: rest => read b rest)
      (match skipBlanks front with
        | [] => Except.error e
        | b :: rest => read b rest) := by
  cases hskip : skipBlanks front with
  | nil => exact .runsOut ⟨e, rfl, he⟩
  | cons b left =>
    obtain ⟨w, hw, hb, rfl⟩ := skipBlanks_eq_cons_iff.mp hskip
    have hwhole : skipBlanks (w ++ b :: left ++ back) = b :: (left ++ back) :=
      skipBlanks_eq_cons_iff.mpr ⟨w, hw, hb, by simp⟩
    rw [hwhole]
    exact h b left

/-! ### Strings -/

theorem Cut.emit {whole front : Except ParseError (Bytes × Bytes)}
    (h : Cut (Lacks back) whole front) (bytes : Bytes) :
    Cut (Lacks back) (Config.emit bytes whole) (Config.emit bytes front) := by
  rintro ⟨more, rest⟩ hmore
  obtain ⟨more, rfl, rfl⟩ := emit_eq_ok_iff.mp hmore
  obtain ⟨e, rfl, hkind⟩ | ⟨⟨_, left⟩, rfl, hlacks⟩ := h _ rfl
  · exact .inl ⟨e, rfl, hkind⟩
  · cases hlacks
    exact .inr ⟨_, rfl, rfl⟩

/-- **A string that is cut off runs out**, wherever in an escape the cut is. -/
theorem scanString_cut (place : Place) (front : Bytes) :
    Cut (Lacks back) (scanString place (front ++ back)) (scanString place front) := by
  induction front generalizing place with
  | nil => exact .runsOut ⟨.endInString, by cases place <;> rfl, rfl⟩
  | cons b front ih =>
    cases place with
    | plain =>
      simp only [List.cons_append, scanString]
      split_ifs with hquote hescape hcontrol
      · exact .ok rfl
      · exact ih .escape
      · exact .error
      · exact (ih .plain).emit [b]
    | escape =>
      simp only [List.cons_append, scanString]
      split_ifs with hcode
      · exact ih (.code none [])
      · cases simpleEscape b with
        | none => exact .error
        | some c => exact (ih .plain).emit [c]
    | code high digits =>
      simp only [List.cons_append, scanString]
      split_ifs with hlength
      · exact ih (.code high (digits ++ [b]))
      · cases codeValue (digits ++ [b]) with
        | none => exact .error
        | some n =>
          cases high with
          | none =>
            dsimp only
            split_ifs with htrailing hleading
            · exact .error
            · exact ih (.paired n)
            · exact (ih .plain).emit _
          | some high =>
            dsimp only
            split_ifs with htrailing
            · exact (ih .plain).emit _
            · exact .error
    | paired high =>
      simp only [List.cons_append, scanString]
      split_ifs with hescape
      · exact ih (.pairedEscape high)
      · exact .error
    | pairedEscape high =>
      simp only [List.cons_append, scanString]
      split_ifs with hcode
      · exact ih (.code (some high) [])
      · exact .error

theorem readString_cut (front : Bytes) :
    Cut (Lacks back) (readString medium (front ++ back)) (readString medium front) := by
  rintro ⟨text, rest⟩ htext
  rw [readString] at htext ⊢
  cases hscan : scanString .plain (front ++ back) with
  | error e => simp [hscan] at htext
  | ok scanned =>
    obtain ⟨e, he, hkind⟩ | ⟨⟨bytes, left⟩, hfront, hlacks⟩ := scanString_cut .plain front _ hscan
    · rw [he]
      exact .inl ⟨e, rfl, hkind⟩
    · -- the bytes between the quotes are all there, and so it does not matter what they are
      rw [hscan, hlacks] at htext
      rw [hfront]
      dsimp only at htext ⊢
      cases hmedium : medium.textOf bytes with
      | none => simp [hmedium] at htext
      | some t =>
        rw [hmedium] at htext
        cases htext
        exact .inr ⟨_, rfl, rfl⟩

/-! ### Numbers and words -/

/-- The first digits of a whole number are one themselves, and it is no greater. -/
theorem Whole.of_append {n : Nat} {l more : Bytes} (h : Whole n (l ++ more)) (hne : l ≠ []) :
    ∃ m ≤ n, Whole m l := by
  refine ⟨significand 0 l, ?_, hne, fun b hb => h.digits b (List.mem_append_left _ hb), ?_, rfl⟩
  · rw [← h.value, List.foldl_append]
    exact le_significand _ more
  · intro hzero
    obtain ⟨b, l, rfl⟩ := List.exists_cons_of_ne_nil hne
    have hall := h.leading (by simpa using hzero)
    simp_all

/-- **A number that is cut off is a shorter one**, if there is a digit left of it. -/
theorem readBounded_cut {expected : Expected} {limit : Nat} (hlimit : limit ≤ wordLimit)
    (front : Bytes) :
    Cut (LacksOrEnds back) (readBounded medium expected limit (front ++ back))
      (readBounded medium expected limit front) := by
  rintro ⟨n, rest⟩ hread
  obtain ⟨w, l, hw, hl, hn, hends, hinput⟩ := (readBounded_eq_ok_iff hlimit).mp hread
  have hblank {w : Bytes} (hw : Blank w) : RunsOut (readBounded medium expected limit w) := by
    rw [readBounded, skipBlanks_eq_nil_iff.mpr hw]
    exact ⟨_, rfl, rfl⟩
  obtain ⟨w', rfl, -⟩ | ⟨digits, rfl, hdigits⟩ := List.append_eq_append_iff.mp hinput
  · exact .inl (hblank fun b hb => hw b (List.mem_append_left _ hb))
  obtain ⟨left, rfl, rfl⟩ | ⟨missing, rfl, rfl⟩ := List.append_eq_append_iff.mp hdigits
  · -- the number is all there, and what follows it is cut off
    have hends' : EndsNumber left := fun b hb => hends b (List.mem_head?_append_of_mem_head? hb)
    exact .inr ⟨(n, left),
      (readBounded_eq_ok_iff hlimit).mpr ⟨w, l, hw, hl, hn, hends', rfl⟩, .inl rfl⟩
  · by_cases hne : digits = []
    · rw [hne, List.append_nil]
      exact .inl (hblank hw)
    · obtain ⟨m, hm, hshort⟩ := hl.of_append hne
      exact .inr ⟨(m, []), (readBounded_eq_ok_iff hlimit).mpr
        ⟨w, digits, hw, hshort, by omega, by simp [EndsNumber], by simp⟩, .inr rfl⟩

theorem readWord_cut (word front : Bytes) :
    Cut (fun left rest => rest = left ++ back) (readWord word (front ++ back))
      (readWord word front) := by
  induction word generalizing front with
  | nil => exact .ok rfl
  | cons w word ih =>
    cases front with
    | nil => exact .runsOut ⟨_, rfl, rfl⟩
    | cons b front =>
      simp only [List.cons_append, readWord]
      split_ifs with hb
      · exact ih front
      · exact .error

theorem readNull_cut (front : Bytes) :
    Cut (fun left rest => rest = left ++ back) (readNull medium (front ++ back))
      (readNull medium front) := by
  refine afterBlanks_cut rfl fun b left => ?_
  split_ifs with hb
  · exact readWord_cut _ left
  · exact .error

theorem readColon_cut (front : Bytes) :
    Cut (fun left rest => rest = left ++ back) (readColon (front ++ back)) (readColon front) := by
  refine afterBlanks_cut rfl fun b left => ?_
  split_ifs with hb
  · exact .ok rfl
  · exact .error

/-! ### Values -/

theorem readPolicyName_cut (front : Bytes) :
    Cut (Lacks back) (readPolicyName medium (front ++ back)) (readPolicyName medium front) := by
  refine (readString_cut front).bind ?_
  rintro ⟨name, left⟩ _ rfl
  dsimp only
  cases policyOf name with
  | error e => exact .error
  | ok policy => exact .ok rfl

theorem readPolicyObject_cut (front : Bytes) :
    Cut (Lacks back) (readPolicyObject medium (front ++ back)) (readPolicyObject medium front) := by
  refine afterBlanks_cut rfl fun b left => ?_
  split_ifs with hquote hbrace
  · refine (readPolicyName_cut left).bind ?_
    rintro ⟨policy, left₁⟩ _ rfl
    refine (readColon_cut left₁).bind ?_
    rintro left₂ _ rfl
    refine (readNull_cut left₂).bind ?_
    rintro left₃ _ rfl
    refine afterBlanks_cut rfl fun b left₄ => ?_
    split_ifs with hend
    · exact .ok rfl
    · exact .error
  · exact .error
  · exact .error

theorem readPolicy_cut (front : Bytes) :
    Cut (Lacks back) (readPolicy medium (front ++ back)) (readPolicy medium front) := by
  refine afterBlanks_cut rfl fun b left => ?_
  split_ifs with hquote hbrace
  · exact readPolicyName_cut left
  · exact readPolicyObject_cut left
  · exact .error

/-- **The value of a field that is cut off** is not read, or is a shorter number. -/
theorem readField_cut (field : Field) (config : Config) (front : Bytes) :
    Cut (LacksOrEnds back) (readField medium field config (front ++ back))
      (readField medium field config front) := by
  cases field with
  | capacity =>
    refine (readBounded_cut (Nat.le_refl wordLimit) front).bind ?_
    rintro ⟨n, left⟩ _ (rfl | hleft)
    · exact .ok (.inl rfl)
    · exact .ok (.inr hleft)
  | delimiter =>
    refine (readBounded_cut (by decide) front).bind ?_
    rintro ⟨n, left⟩ _ (rfl | hleft)
    · exact .ok (.inl rfl)
    · exact .ok (.inr hleft)
  | trailing =>
    refine (readPolicy_cut front).bind ?_
    rintro ⟨policy, left⟩ _ rfl
    exact .ok (.inl rfl)

/-! ### Configurations -/

/-- What is left of a member is all that follows its opening quote. -/
theorem nextMember_cut (first : Bool) (front : Bytes) :
    Cut (fun b a => a = (b.1.map (· ++ back), b.2 ++ back)) (nextMember first (front ++ back))
      (nextMember first front) := by
  refine afterBlanks_cut rfl fun b left => ?_
  dsimp only
  split_ifs with hend hfirst hquote hcomma
  · exact .ok rfl
  · exact .ok rfl
  · exact .error
  · refine afterBlanks_cut rfl fun c left => ?_
    split_ifs with hend hquote
    · exact .error
    · exact .ok rfl
    · exact .error
  · exact .error

theorem nextElement_cut (first : Bool) (front : Bytes) :
    Cut (Lacks back) (nextElement first (front ++ back)) (nextElement first front) := by
  refine afterBlanks_cut rfl fun b left => ?_
  split_ifs with hend hfirst hcomma
  · exact .ok rfl
  · exact .ok rfl
  · refine afterBlanks_cut rfl fun c left => ?_
    split_ifs with hend
    · exact .error
    · exact .ok rfl
  · exact .error

theorem readListEnd_cut (front : Bytes) :
    Cut (fun left rest => rest = left ++ back) (readListEnd (front ++ back))
      (readListEnd front) := by
  refine afterBlanks_cut rfl fun b left => ?_
  split_ifs with hend hcomma
  · exact .ok rfl
  · -- nothing is read behind a comma that ends the list
    split <;> exact .error
  · exact .error

/-- **An object that is cut off runs out.** -/
theorem readMembers_cut (free : List Field) (first : Bool) (config : Config) (front : Bytes) :
    Cut (Lacks back) (readMembers medium free first config (front ++ back))
      (readMembers medium free first config front) := by
  induction hn : free.length using Nat.strong_induction_on generalizing free first config front with
  | _ n ih =>
    rw [readMembers, readMembers]
    refine (nextMember_cut first front).bind ?_
    rintro ⟨_ | key, left⟩ _ rfl
    · exact .ok rfl
    refine (readString_cut key).bind ?_
    rintro ⟨name, left₁⟩ _ rfl
    dsimp only
    cases fieldOf name with
    | error e => exact .error
    | ok field =>
      change Cut _ (dite _ _ _) (dite _ _ _)
      split_ifs with hfree
      · refine (readColon_cut left₁).bind ?_
        rintro left₂ _ rfl
        refine (readField_cut field config left₂).bind ?_
        have hfewer : (free.erase field).length < n := by
          have := List.length_pos_of_mem hfree
          rw [List.length_erase_of_mem hfree]
          omega
        rintro ⟨config', left₃⟩ a (rfl | hleft)
        · exact ih _ hfewer _ _ _ _ rfl
        · -- the value is cut off itself, and the next member is missing
          rw [show left₃ = [] from hleft]
          refine .runsOut ⟨.endInObject, ?_, rfl⟩
          rw [readMembers]
          rfl
      · exact .error

/-- **A list that is cut off runs out.** -/
theorem readElements_cut (fields : List Field) (first : Bool) (config : Config) (front : Bytes) :
    Cut (Lacks back) (readElements medium fields first config (front ++ back))
      (readElements medium fields first config front) := by
  induction fields generalizing first config front with
  | nil =>
    refine (readListEnd_cut front).bind ?_
    rintro left _ rfl
    exact .ok rfl
  | cons field fields ih =>
    refine (nextElement_cut first front).bind ?_
    rintro ⟨more, left⟩ _ rfl
    cases more with
    | false => exact .ok rfl
    | true =>
      refine (readField_cut field config left).bind ?_
      rintro ⟨config', left₁⟩ a (rfl | hleft)
      · exact ih false config' left₁
      · rw [show left₁ = [] from hleft]
        cases fields <;> exact .runsOut ⟨.endInList, rfl, rfl⟩

theorem close_of_readConfig {input rest : Bytes} {config : Config}
    (h : readConfig medium input = .ok (config, rest)) :
    ∃ inner close, (close = 0x7d ∨ close = 0x5d) ∧ input = inner ++ close :: rest := by
  rw [readConfig] at h
  obtain ⟨w, b, input', -, -, rfl, hinside⟩ := afterBlanks_eq_ok_iff.mp h
  split_ifs at hinside with hbrace hbracket
  · obtain ⟨_, l, -, -, -, -, rfl⟩ := (readMembers_eq_ok_iff_row (by decide)).mp hinside
    exact ⟨w ++ b :: l, 0x7d, .inl rfl, by simp⟩
  · obtain ⟨_, l, -, -, -, rfl⟩ := readElements_eq_ok_iff_row.mp hinside
    exact ⟨w ++ b :: l, 0x5d, .inr rfl, by simp⟩

/-- **Before its closing bracket, what is left of a configuration runs out.** -/
theorem readConfig_cut (front : Bytes) :
    Cut (Lacks back) (readConfig medium (front ++ back)) (readConfig medium front) := by
  refine afterBlanks_cut rfl fun b left => ?_
  split_ifs with hbrace hbracket
  · exact readMembers_cut _ _ _ left
  · exact readElements_cut _ _ _ left
  · exact .error

theorem eq_nil_of_readConfig {input rest : Bytes} {config : Config}
    (h : readConfig medium input = .ok (config, rest)) (hrest : Blank rest)
    (hlast : input.getLast? = some 0x7d ∨ input.getLast? = some 0x5d) : rest = [] := by
  obtain ⟨inner, close, -, rfl⟩ := close_of_readConfig h
  by_contra hne
  have hblank : (inner ++ close :: rest).getLast? = some (rest.getLast hne) := by
    rw [List.getLast?_append, List.getLast?_cons, List.getLast?_eq_getLast_of_ne_nil hne]
    rfl
  have hmem := hrest _ (List.getLast_mem hne)
  rw [hblank] at hlast
  grind

theorem parse_runsOut {config : Config} (hwhole : parse medium (front ++ back) = .ok config)
    (hlast : (front ++ back).getLast? = some 0x7d ∨ (front ++ back).getLast? = some 0x5d)
    (hback : back ≠ []) : RunsOut (parse medium front) := by
  obtain ⟨⟨config', rest⟩, hread, hend⟩ := bind_eq_ok_iff.mp hwhole
  dsimp only at hend
  split_ifs at hend with hrest
  obtain rfl := eq_nil_of_readConfig hread (skipBlanks_eq_nil_iff.mp hrest) hlast
  obtain ⟨e, he, hkind⟩ | ⟨⟨_, left⟩, -, hlacks⟩ := readConfig_cut front _ hread
  · exact ⟨e, by rw [parse, he]; rfl, hkind⟩
  · -- else the front would have been read to its end and more
    have := congrArg Prod.snd hlacks
    simp_all

/-! ### Texts -/

theorem exists_endOfText_of_runsOut {result : Except ParseError Config} (h : RunsOut result) :
    ∃ e, accept result = .error (.parse e) ∧ e.kind = .endOfText := by
  obtain ⟨e, he, hkind⟩ := h
  exact ⟨e, accept_eq_parse_iff.mpr he, hkind⟩

theorem exists_toBytes_of_prefix {front text : List Char} (h : front <+: text)
    (hne : front ≠ text) : ∃ back, back ≠ [] ∧ Text.toBytes text = Text.toBytes front ++ back := by
  obtain ⟨missing, rfl⟩ := h
  obtain ⟨c, missing, rfl⟩ := List.exists_cons_of_ne_nil (by simpa using hne : missing ≠ [])
  refine ⟨Text.toBytes (c :: missing), fun hnil => ?_, List.flatMap_append⟩
  have hlength := congrArg List.length hnil
  rw [Text.toBytes, List.flatMap_cons, List.length_append, String.length_utf8EncodeChar] at hlength
  have := Char.utf8Size_pos c
  simp at hlength
  omega

theorem getLast?_toBytes {text : List Char} {c : Char} {b : UInt8} (hc : Text.toBytes [c] = [b])
    (h : text.getLast? = some c) : (Text.toBytes text).getLast? = some b := by
  obtain ⟨inner, rfl⟩ := List.getLast?_eq_some_iff.mp h
  have happend : Text.toBytes (inner ++ [c]) = Text.toBytes inner ++ Text.toBytes [c] :=
    List.flatMap_append
  rw [happend, hc, List.getLast?_concat]

/-- **A text that is accepted and ends with its closing bracket is nothing before that, and what is
wrong with the front of it is always that it ends too early**: so it is for every front of the
text, the empty one too, and for every front of its bytes that a medium gives in any number of
reads. -/
theorem truncated_runs_out {text : List Char} {config : Config}
    (haccepted : loadText text = .ok config)
    (hlast : text.getLast? = some '\x7d' ∨ text.getLast? = some ']') :
    (∀ front, front <+: text → front ≠ text →
      ∃ e, loadText front = .error (.parse e) ∧ e.kind = .endOfText) ∧
    (∀ (pieces : List Bytes) more, (∀ piece ∈ pieces, piece ≠ []) →
      pieces.flatten <+: Text.toBytes text → pieces.flatten ≠ Text.toBytes text →
      ∃ e, loadReads (pieces.map .ok ++ .ok [] :: more) = .error (.parse e) ∧
        e.kind = .endOfText) := by
  have hbytes := hlast.imp (getLast?_toBytes (b := 0x7d) (by decide))
    (getLast?_toBytes (b := 0x5d) (by decide))
  obtain ⟨hparse, -⟩ := accept_eq_ok_iff.mp haccepted
  constructor
  · intro front hprefix hne
    obtain ⟨back, hback, htext⟩ := exists_toBytes_of_prefix hprefix hne
    rw [htext] at hparse hbytes
    exact exists_endOfText_of_runsOut (parse_runsOut hparse hbytes hback)
  · intro pieces more hpieces hprefix hne
    rw [parse_agree ⟨text, rfl⟩] at hparse
    obtain ⟨back, htext⟩ := hprefix
    rw [← htext] at hparse hbytes hne
    rw [(loadReads_eq hpieces more).1]
    exact exists_endOfText_of_runsOut (parse_runsOut hparse hbytes (by simpa using hne))

/-- A text cut off in an escape in a key, and one that a medium gives in two reads up to the middle
of the word `null`. -/
theorem truncated_runs_out_of_escaped_key :
    let text := "\x7b\"c\\u0061pacity\":2,\"trailing_bytes\":\x7b\"retain\": null\x7d\x7d".toList
    let front := "\x7b\"c\\u00".toList
    let pieces := ["\x7b\"c\\u0061pacity\":2,".toList,
      "\"trailing_bytes\":\x7b\"retain\": nul".toList].map Text.toBytes
    loadText text = .ok ⟨2, 10, .retain⟩ ∧ text.getLast? = some '\x7d' ∧
    (∃ e, loadText front = .error (.parse e) ∧ e.kind = .endOfText) ∧
    ∃ e, loadReads (pieces.map .ok ++ [.ok []]) = .error (.parse e) ∧ e.kind = .endOfText := by
  intro text front pieces
  have haccepted : loadText text = .ok ⟨2, 10, .retain⟩ := by decide +kernel
  have hlast : text.getLast? = some '\x7d' := by decide
  obtain ⟨hfronts, hmedia⟩ := truncated_runs_out haccepted (.inl hlast)
  exact ⟨haccepted, hlast, hfronts front (by decide) (by decide),
    hmedia pieces [] (by decide) (by decide) (by decide)⟩

end Spool.Config
