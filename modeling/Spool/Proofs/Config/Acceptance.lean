import Spool.Proofs.Config.Values

/-!
# Which texts are configurations

A text is accepted exactly if it is the notation of a configuration (`accepted_iff_written`).

The members of an object and the elements of a list are read one after the other. What one step
does is said by one `iff` each (`readMembers_eq_ok_iff`, `readElements_eq_ok_iff`): the
container ends, or an item is taken that assigns one setting. A whole container follows by
induction, for an object on the fields that have not been given yet and for a list on
those that are still to come, and this gives the two ways to write a
configuration (`parse_eq_ok_iff`). What is refused is all the rest.
-/

namespace Spool.Config

/-! ### Objects -/

theorem Before.append_blank {first : Bool} {w w' : Bytes} (h : Before first w) (h' : Blank w') :
    Before first (w ++ w') := by
  cases h with
  | first hw => exact .first (hw.append h')
  | comma h₁ h₂ => simpa using Before.comma h₁ (h₂.append h')

/-- The next member is behind what stands before an item, the end of the object behind blanks. -/
theorem nextMember_eq_ok_iff {first : Bool} {input rest : Bytes} {member : Option Bytes} :
    nextMember first input = .ok (member, rest) ↔
      (member = none ∧ ∃ w, Blank w ∧ input = w ++ 0x7d :: rest) ∨
      (member = some rest ∧ ∃ w, Before first w ∧ input = w ++ 0x22 :: rest) := by
  rw [nextMember]
  refine afterBlanks_eq_ok_iff.trans ⟨?_, ?_⟩
  · rintro ⟨w, b, input', hw, -, rfl, h⟩
    split_ifs at h with hend hfirst hcomma
    · cases h
      exact .inl ⟨rfl, w, hw, by rw [hend]⟩
    · dsimp only at h
      split_ifs at h with hquote
      cases h
      exact .inr ⟨rfl, w, hfirst ▸ .first hw, by rw [hquote]⟩
    · obtain ⟨w', c, input'', hw', -, rfl, hnext⟩ := afterBlanks_eq_ok_iff.mp h
      split_ifs at hnext with hend'
      dsimp only at hnext
      split_ifs at hnext with hquote
      cases hnext
      rw [Bool.not_eq_true] at hfirst
      exact .inr ⟨rfl, w ++ 0x2c :: w', hfirst ▸ .comma hw hw', by simp [hcomma, hquote]⟩
  · rintro (⟨rfl, w, hw, rfl⟩ | ⟨rfl, w, hw, rfl⟩)
    · exact ⟨w, 0x7d, rest, hw, by decide, rfl, rfl⟩
    · cases hw with
      | first hw => exact ⟨w, 0x22, rest, hw, by decide, rfl, rfl⟩
      | @comma w w' hw hw' =>
        refine ⟨w, 0x2c, w' ++ 0x22 :: rest, hw, by decide, by simp, ?_⟩
        exact afterBlanks_eq_ok_iff.mpr ⟨w', 0x22, rest, hw', by decide, rfl, rfl⟩

/-- **One step through an object**: it ends, or a member that has not been given follows. -/
theorem readMembers_eq_ok_iff {medium : Medium} {free : List Field} {first : Bool}
    {config config' : Config} {input rest : Bytes} :
    readMembers medium free first config input = .ok (config', rest) ↔
      (config' = config ∧ ∃ w, Blank w ∧ input = w ++ 0x7d :: rest) ∨
      ∃ w setting l input', Before first w ∧ setting.field ∈ free ∧ Member setting l ∧
        setting.EndsAt input' ∧ input = w ++ (l ++ input') ∧
        readMembers medium (free.erase setting.field) false (assign config setting) input' =
          .ok (config', rest) := by
  rw [readMembers, bind_eq_ok_iff]
  constructor
  · rintro ⟨⟨member, input₁⟩, hnext, h⟩
    obtain ⟨rfl, w, hw, rfl⟩ | ⟨rfl, w, hw, rfl⟩ := nextMember_eq_ok_iff.mp hnext
    · cases h
      exact .inl ⟨rfl, w, hw, rfl⟩
    · obtain ⟨⟨name, input₂⟩, hstring, hname⟩ := bind_eq_ok_iff.mp h
      obtain ⟨field, hfield, hmember⟩ := bind_eq_ok_iff.mp hname
      obtain rfl := fieldOf_eq_ok_iff.mp hfield
      split_ifs at hmember with hfree
      obtain ⟨input₃, hcolon, hvalue⟩ := bind_eq_ok_iff.mp hmember
      obtain ⟨⟨config₄, input₄⟩, hread, hmore⟩ := bind_eq_ok_iff.mp hvalue
      obtain ⟨key, hkey, hinput⟩ :=
        (readString_eq_ok_iff (replacement_notMem_name field)).mp hstring
      obtain ⟨w₁, h₁, rfl⟩ := readColon_eq_ok_iff.mp hcolon
      obtain ⟨setting, w₂, l, rfl, rfl, h₂, hl, hends, rfl⟩ := readField_eq_ok_iff.mp hread
      exact .inr ⟨w, setting, _, input₄, hw, hfree, .colon hkey h₁ h₂ hl, hends, by simp [hinput],
        hmore⟩
  · rintro (⟨rfl, w, hw, rfl⟩ | ⟨w, setting, _, input₄, hw, hfree, hmember, hends, rfl, h⟩)
    · exact ⟨_, nextMember_eq_ok_iff.mpr (.inl ⟨rfl, w, hw, rfl⟩), rfl⟩
    · obtain @⟨key, w₁, w₂, l, hkey, h₁, h₂, hl⟩ := hmember
      obtain ⟨input, hinput⟩ := hkey.exists_cons (w₁ ++ 0x3a :: (w₂ ++ (l ++ input₄)))
      have hinput' : key ++ w₁ ++ 0x3a :: (w₂ ++ l) ++ input₄ = 0x22 :: input := by simp [← hinput]
      rw [hinput']
      refine ⟨_, nextMember_eq_ok_iff.mpr (.inr ⟨rfl, w, hw, rfl⟩), bind_eq_ok_iff.mpr
        ⟨_, (readString_eq_ok_iff (replacement_notMem_name _)).mpr ⟨key, hkey, hinput.symm⟩,
          bind_eq_ok_iff.mpr ⟨_, fieldOf_eq_ok_iff.mpr rfl, ?_⟩⟩⟩
      rw [dif_pos hfree]
      exact bind_eq_ok_iff.mpr ⟨_, readColon_eq_ok_iff.mpr ⟨w₁, h₁, rfl⟩, bind_eq_ok_iff.mpr
        ⟨_, readField_eq_ok_iff.mpr ⟨setting, w₂, l, rfl, rfl, h₂, hl, hends, rfl⟩, h⟩⟩

/-! ### Lists -/

theorem readListEnd_eq_ok_iff {input rest : Bytes} :
    readListEnd input = .ok rest ↔ ∃ w, Blank w ∧ input = w ++ 0x5d :: rest := by
  rw [readListEnd]
  refine afterBlanks_eq_ok_iff.trans ⟨?_, ?_⟩
  · rintro ⟨w, b, input', hw, -, rfl, h⟩
    split_ifs at h with hend hcomma
    · cases h
      exact ⟨w, hw, by rw [hend]⟩
    · split at h <;> cases h
  · rintro ⟨w, hw, rfl⟩
    exact ⟨w, 0x5d, rest, hw, by decide, rfl, rfl⟩

/-- The next element is behind what stands before an item, the end of the list behind blanks. -/
theorem nextElement_eq_ok_iff {first more : Bool} {input rest : Bytes} :
    nextElement first input = .ok (more, rest) ↔
      (more = false ∧ ∃ w, Blank w ∧ input = w ++ 0x5d :: rest) ∨
      (more = true ∧ ∃ w b input', Before first w ∧ isBlank b = false ∧ b ≠ 0x5d ∧
        rest = b :: input' ∧ input = w ++ rest) := by
  rw [nextElement]
  refine afterBlanks_eq_ok_iff.trans ⟨?_, ?_⟩
  · rintro ⟨w, b, input', hw, hb, rfl, h⟩
    split_ifs at h with hend hfirst hcomma
    · cases h
      exact .inl ⟨rfl, w, hw, by rw [hend]⟩
    · cases h
      exact .inr ⟨rfl, w, b, input', hfirst ▸ .first hw, hb, hend, rfl, rfl⟩
    · obtain ⟨w', c, input'', hw', hc, rfl, hnext⟩ := afterBlanks_eq_ok_iff.mp h
      split_ifs at hnext with hend'
      cases hnext
      rw [Bool.not_eq_true] at hfirst
      exact .inr ⟨rfl, w ++ 0x2c :: w', c, input'', hfirst ▸ .comma hw hw', hc, hend', rfl,
        by simp [hcomma]⟩
  · rintro (⟨rfl, w, hw, rfl⟩ | ⟨rfl, w, b, input', hw, hb, hend, rfl, rfl⟩)
    · exact ⟨w, 0x5d, rest, hw, by decide, rfl, rfl⟩
    · cases hw with
      | first hw =>
        refine ⟨w, b, input', hw, hb, rfl, ?_⟩
        rw [if_neg hend, if_pos rfl]
      | @comma w w' hw hw' =>
        refine ⟨w, 0x2c, w' ++ b :: input', hw, by decide, by simp, ?_⟩
        exact afterBlanks_eq_ok_iff.mpr ⟨w', b, input', hw', hb, rfl, if_neg hend⟩

theorem Value.exists_cons {setting : Setting} {l : Bytes} (h : Value setting l) (rest : Bytes) :
    ∃ b input, isBlank b = false ∧ b ≠ 0x5d ∧ l ++ rest = b :: input := by
  have hnumber {n : Nat} {l : Bytes} (hl : Whole n l) :
      ∃ b input, isBlank b = false ∧ b ≠ 0x5d ∧ l ++ rest = b :: input := by
    obtain ⟨b, l, rfl⟩ := List.exists_cons_of_ne_nil hl.ne_nil
    have hb := hl.digits b (.head _)
    refine ⟨b, l ++ rest, ?_, ?_, rfl⟩
    · grind [isBlank]
    · rintro rfl
      exact absurd hb.2 (by decide)
  cases h with
  | capacity _ hl => exact hnumber hl
  | delimiter hl => exact hnumber hl
  | trailing hl =>
    cases hl with
    | name hl =>
      obtain ⟨input, hinput⟩ := hl.exists_cons rest
      exact ⟨0x22, input, by decide, by decide, hinput⟩
    | object => exact ⟨0x7b, _, by decide, by decide, rfl⟩

/-- **One step through a list**: it ends, or the value of the next field follows. -/
theorem readElements_eq_ok_iff {medium : Medium} {field : Field} {fields : List Field}
    {first : Bool} {config config' : Config} {input rest : Bytes} :
    readElements medium (field :: fields) first config input = .ok (config', rest) ↔
      (config' = config ∧ ∃ w, Blank w ∧ input = w ++ 0x5d :: rest) ∨
      ∃ w setting l input', Before first w ∧ setting.field = field ∧ Value setting l ∧
        setting.EndsAt input' ∧ input = w ++ (l ++ input') ∧
        readElements medium fields false (assign config setting) input' = .ok (config', rest) := by
  rw [readElements, bind_eq_ok_iff]
  constructor
  · rintro ⟨⟨more, input₁⟩, hnext, h⟩
    obtain ⟨rfl, w, hw, rfl⟩ | ⟨rfl, w, b, input', hw, -, -, -, rfl⟩ :=
      nextElement_eq_ok_iff.mp hnext
    · cases h
      exact .inl ⟨rfl, w, hw, rfl⟩
    · obtain ⟨⟨config₂, input₂⟩, hread, hmore⟩ := bind_eq_ok_iff.mp h
      obtain ⟨setting, w', l, rfl, rfl, hw', hl, hends, rfl⟩ := readField_eq_ok_iff.mp hread
      exact .inr ⟨w ++ w', setting, l, input₂, hw.append_blank hw', rfl, hl, hends, by simp, hmore⟩
  · rintro (⟨rfl, w, hw, rfl⟩ | ⟨w, setting, l, input₂, hw, rfl, hl, hends, rfl, h⟩)
    · exact ⟨_, nextElement_eq_ok_iff.mpr (.inl ⟨rfl, w, hw, rfl⟩), rfl⟩
    · obtain ⟨b, input', hb, hend, hinput⟩ := hl.exists_cons input₂
      refine ⟨_, nextElement_eq_ok_iff.mpr (.inr ⟨rfl, w, b, input', hw, hb, hend, hinput, rfl⟩),
        bind_eq_ok_iff.mpr ⟨_, readField_eq_ok_iff.mpr
          ⟨setting, [], l, rfl, rfl, blank_nil, hl, hends, rfl⟩, h⟩⟩

/-! ### Whole configurations -/

theorem endsNumber_cons {b : UInt8} {rest : Bytes} : EndsNumber (b :: rest) ↔
    isDigit b = false ∧ b ≠ 0x2e ∧ b ≠ 0x65 ∧ b ≠ 0x45 := by
  simp [EndsNumber]

theorem Blank.endsNumber {w : Bytes} {b : UInt8} (hw : Blank w) (hb : EndsNumber [b])
    (rest : Bytes) : EndsNumber (w ++ b :: rest) := by
  cases w with
  | nil => exact endsNumber_cons.mpr (endsNumber_cons.mp hb)
  | cons c w =>
    rw [List.cons_append, endsNumber_cons]
    obtain rfl | rfl | rfl | rfl := hw c (.head _) <;> decide

theorem Row.endsNumber {Item : Setting → Bytes → Prop} {settings : List Setting} {l : Bytes}
    {close : UInt8} (h : Row Item false settings l) (hclose : EndsNumber [close]) (rest : Bytes) :
    EndsNumber (l ++ close :: rest) := by
  cases h with
  | nil hw => exact hw.endsNumber hclose rest
  | cons hbefore _ _ =>
    cases hbefore with
    | comma hw _ =>
      rw [List.append_assoc, List.append_assoc]
      exact hw.endsNumber (by rw [endsNumber_cons]; decide) _

/-- The members of an object are read from their notation, and each is assigned. -/
theorem readMembers_eq_ok_iff_row {medium : Medium} {free : List Field} {first : Bool}
    {config config' : Config} {input rest : Bytes} (hfree : free.Nodup) :
    readMembers medium free first config input = .ok (config', rest) ↔
      ∃ settings l, Row Member first settings l ∧ (settings.map Setting.field).Nodup ∧
        settings.map Setting.field ⊆ free ∧ config' = settings.foldl assign config ∧
        input = l ++ 0x7d :: rest := by
  constructor
  · intro h
    -- each member uses up one of the free fields
    induction hn : free.length generalizing free first config input with
    | zero =>
      obtain ⟨rfl, w, hw, rfl⟩ | ⟨_, setting, _, _, _, hmem, _⟩ := readMembers_eq_ok_iff.mp h
      · exact ⟨[], w, .nil hw, .nil, by simp, rfl, rfl⟩
      · simp [List.length_eq_zero_iff.mp hn] at hmem
    | succ n ih =>
      obtain ⟨rfl, w, hw, rfl⟩ | ⟨w, setting, l, input', hw, hmem, hmember, -, rfl, hmore⟩ :=
        readMembers_eq_ok_iff.mp h
      · exact ⟨[], w, .nil hw, .nil, by simp, rfl, rfl⟩
      · obtain ⟨settings, l', hrow, hnodup, hsubset, rfl, rfl⟩ :=
          ih (hfree.erase _) hmore (by rw [List.length_erase_of_mem hmem, hn]; rfl)
        refine ⟨setting :: settings, w ++ (l ++ l'), .cons hw hmember hrow, ?_, ?_, rfl, by simp⟩
        · rw [List.map_cons, List.nodup_cons]
          exact ⟨fun hin => hfree.not_mem_erase (hsubset hin), hnodup⟩
        · rw [List.map_cons, List.cons_subset]
          exact ⟨hmem, fun field hfield => List.mem_of_mem_erase (hsubset hfield)⟩
  · rintro ⟨settings, l, hrow, hnodup, hsubset, rfl, rfl⟩
    induction settings generalizing free first config l with
    | nil =>
      cases hrow with
      | nil hw => exact readMembers_eq_ok_iff.mpr (.inl ⟨rfl, _, hw, rfl⟩)
    | cons setting settings ih =>
      cases hrow with
      | @cons _ w l more _ _ hbefore hmember hrow =>
        rw [List.map_cons, List.nodup_cons] at hnodup
        rw [List.map_cons, List.cons_subset] at hsubset
        refine readMembers_eq_ok_iff.mpr (.inr ⟨w, setting, l, more ++ 0x7d :: rest, hbefore,
          hsubset.1, hmember, ?_, by simp,
          ih (hfree.erase _) more hrow hnodup.2 fun field hfield => ?_⟩)
        · exact (hrow.endsNumber (by rw [endsNumber_cons]; decide) rest).endsAt setting
        · rw [List.mem_erase_of_ne (by rintro rfl; exact hnodup.1 hfield)]
          exact hsubset.2 hfield

/-- The elements of a list are read from their notation, and each is assigned. -/
theorem readElements_eq_ok_iff_row {medium : Medium} {fields : List Field} {first : Bool}
    {config config' : Config} {input rest : Bytes} :
    readElements medium fields first config input = .ok (config', rest) ↔
      ∃ settings l, Row Value first settings l ∧ settings.map Setting.field <+: fields ∧
        config' = settings.foldl assign config ∧ input = l ++ 0x5d :: rest := by
  induction fields generalizing first config input with
  | nil =>
    rw [readElements, bind_eq_ok_iff]
    constructor
    · rintro ⟨rest', hend, h⟩
      cases h
      obtain ⟨w, hw, rfl⟩ := readListEnd_eq_ok_iff.mp hend
      exact ⟨[], w, .nil hw, List.prefix_rfl, rfl, rfl⟩
    · rintro ⟨settings, l, hrow, hprefix, rfl, rfl⟩
      obtain rfl : settings = [] := by simpa using hprefix
      cases hrow with
      | nil hw => exact ⟨rest, readListEnd_eq_ok_iff.mpr ⟨_, hw, rfl⟩, rfl⟩
  | cons field fields ih =>
    rw [readElements_eq_ok_iff]
    constructor
    · rintro (⟨rfl, w, hw, rfl⟩ | ⟨w, setting, l, input', hw, rfl, hl, -, rfl, hmore⟩)
      · exact ⟨[], w, .nil hw, List.nil_prefix, rfl, rfl⟩
      · obtain ⟨settings, l', hrow, hprefix, rfl, rfl⟩ := ih.mp hmore
        refine ⟨setting :: settings, w ++ (l ++ l'), .cons hw hl hrow, ?_, rfl, by simp⟩
        rwa [List.map_cons, List.prefix_cons_inj]
    · rintro ⟨settings, l, hrow, hprefix, rfl, rfl⟩
      cases hrow with
      | nil hw => exact .inl ⟨rfl, _, hw, rfl⟩
      | @cons _ w l more setting settings hbefore hl hrow =>
        rw [List.map_cons, List.cons_prefix_cons] at hprefix
        refine .inr ⟨w, setting, l, more ++ 0x5d :: rest, hbefore, hprefix.1, hl, ?_, by simp,
          ih.mpr ⟨settings, more, hrow, hprefix.2, rfl, rfl⟩⟩
        exact (hrow.endsNumber (by rw [endsNumber_cons]; decide) rest).endsAt setting

/-- **A configuration is read from its notation**, and each setting is assigned to the standard
one. -/
theorem parse_eq_ok_iff {medium : Medium} {input : Bytes} {config : Config} :
    parse medium input = .ok config ↔
      ∃ settings, Written settings input ∧ config = settings.foldl assign standard := by
  rw [parse, bind_eq_ok_iff]
  constructor
  · rintro ⟨⟨config', rest⟩, hread, h⟩
    dsimp only at h
    split_ifs at h with hrest
    cases h
    rw [skipBlanks_eq_nil_iff] at hrest
    rw [readConfig] at hread
    obtain ⟨w, b, input', hw, -, rfl, hinside⟩ := afterBlanks_eq_ok_iff.mp hread
    split_ifs at hinside with hbrace hbracket
    · obtain ⟨settings, l, hrow, hnodup, -, rfl, rfl⟩ :=
        (readMembers_eq_ok_iff_row (by decide)).mp hinside
      exact ⟨settings, hbrace ▸ .object hw hnodup hrow hrest, rfl⟩
    · obtain ⟨settings, l, hrow, hprefix, rfl, rfl⟩ := readElements_eq_ok_iff_row.mp hinside
      exact ⟨settings, hbracket ▸ .list hw hprefix hrow hrest, rfl⟩
  · rintro ⟨settings, hwritten, rfl⟩
    cases hwritten with
    | @object w l w' hw hnodup hrow hw' =>
      have hall : settings.map Setting.field ⊆ Field.all := fun field _ => by
        cases field <;> decide
      refine ⟨⟨_, w'⟩, ?_, if_pos (skipBlanks_eq_nil_iff.mpr hw')⟩
      exact afterBlanks_eq_ok_iff.mpr ⟨w, 0x7b, _, hw, by decide, rfl,
        (readMembers_eq_ok_iff_row (by decide)).mpr ⟨settings, l, hrow, hnodup, hall, rfl, rfl⟩⟩
    | @list w l w' hw hprefix hrow hw' =>
      refine ⟨⟨_, w'⟩, ?_, if_pos (skipBlanks_eq_nil_iff.mpr hw')⟩
      exact afterBlanks_eq_ok_iff.mpr ⟨w, 0x5b, _, hw, by decide, rfl,
        readElements_eq_ok_iff_row.mpr ⟨settings, l, hrow, hprefix, rfl, rfl⟩⟩

/-! ### Acceptance -/

theorem accept_eq_zeroCapacity_iff {result : Except ParseError Config} :
    accept result = .error .zeroCapacity ↔ ∃ config, result = .ok config ∧ ¬config.Valid := by
  cases result with
  | error e => simp [accept]
  | ok config => by_cases hvalid : config.Valid <;> simp [accept, validate, hvalid]

theorem accept_eq_parse_iff {result : Except ParseError Config} {e : ParseError} :
    accept result = .error (.parse e) ↔ result = .error e := by
  cases result with
  | error e => simp [accept]
  | ok config => by_cases hvalid : config.Valid <;> simp [accept, validate, hvalid]

theorem Written.existsUnique_gives {settings : List Setting} {l : Bytes} (h : Written settings l) :
    ∃! config, Gives settings config :=
  ⟨settings.foldl assign standard, (gives_iff h.nodup).mpr rfl, fun _ => (gives_iff h.nodup).mp⟩

/-- What is given retains no command only if that is what is written. -/
theorem Gives.valid_iff {settings : List Setting} {config : Config} (h : Gives settings config)
    (hnodup : (settings.map Setting.field).Nodup) :
    config.Valid ↔ Setting.capacity 0 ∉ settings := by
  have hzero : ¬config.Valid ↔ config.capacity = 0 := by simp [Valid]
  rw [← not_iff_not, not_not, hzero]
  obtain hmem | ⟨hnot, heq⟩ := h .capacity
  · constructor
    · intro hcapacity
      rwa [Field.setting, hcapacity] at hmem
    · intro hin
      have := List.inj_on_of_nodup_map hnodup hmem hin rfl
      simpa [Field.setting] using this
  · have hcapacity : config.capacity = 10 := by simpa [Field.setting, standard] using heq
    have hnotin : Setting.capacity 0 ∉ settings := fun hin => hnot (List.mem_map.mpr ⟨_, hin, rfl⟩)
    simp [hcapacity, hnotin]

theorem parse_eq_ok_iff_gives {medium : Medium} {input : Bytes} {config : Config} :
    parse medium input = .ok config ↔
      ∃ settings, Written settings input ∧ Gives settings config := by
  rw [parse_eq_ok_iff]
  exact exists_congr fun settings => and_congr_right fun h => (gives_iff h.nodup).symm

theorem accept_parse_eq_ok_iff {medium : Medium} {input : Bytes} {config : Config} :
    accept (parse medium input) = .ok config ↔ ∃ settings, Written settings input ∧
      Setting.capacity 0 ∉ settings ∧ Gives settings config := by
  rw [accept_eq_ok_iff, parse_eq_ok_iff_gives]
  constructor
  · rintro ⟨⟨settings, hwritten, hgives⟩, hvalid⟩
    exact ⟨settings, hwritten, (hgives.valid_iff hwritten.nodup).mp hvalid, hgives⟩
  · rintro ⟨settings, hwritten, hzero, hgives⟩
    exact ⟨⟨settings, hwritten, hgives⟩, (hgives.valid_iff hwritten.nodup).mpr hzero⟩

theorem accept_parse_eq_zeroCapacity_iff {medium : Medium} {input : Bytes} :
    accept (parse medium input) = .error .zeroCapacity ↔ ∃ settings, Written settings input ∧
      Setting.capacity 0 ∈ settings := by
  rw [accept_eq_zeroCapacity_iff]
  constructor
  · rintro ⟨config, hparse, hvalid⟩
    obtain ⟨settings, hwritten, hgives⟩ := parse_eq_ok_iff_gives.mp hparse
    rw [hgives.valid_iff hwritten.nodup, not_not] at hvalid
    exact ⟨settings, hwritten, hvalid⟩
  · rintro ⟨settings, hwritten, hzero⟩
    obtain ⟨config, hgives, -⟩ := hwritten.existsUnique_gives
    refine ⟨config, parse_eq_ok_iff_gives.mpr ⟨settings, hwritten, hgives⟩, ?_⟩
    rwa [hgives.valid_iff hwritten.nodup, not_not]

theorem accept_parse_eq_parse_iff {medium : Medium} {input : Bytes} :
    (∃ e, accept (parse medium input) = .error (.parse e)) ↔
      ¬∃ settings, Written settings input := by
  simp only [accept_eq_parse_iff]
  constructor
  · rintro ⟨e, he⟩ ⟨settings, hwritten⟩
    cases he.symm.trans (parse_eq_ok_iff.mpr ⟨settings, hwritten, rfl⟩)
  · intro hnone
    cases hparse : parse medium input with
    | error e => exact ⟨e, rfl⟩
    | ok config =>
      obtain ⟨settings, hwritten, -⟩ := parse_eq_ok_iff.mp hparse
      exact absurd ⟨settings, hwritten⟩ hnone

/-- **A text is accepted exactly if it is the notation of a configuration that retains a command**,
and then this configuration is what is loaded: what is not written in it has its standard value. A
configuration that retains no command is refused as such, and any other text for what is wrong
with it. -/
theorem accepted_iff_written (text : List Char) :
    (∀ config, loadText text = .ok config ↔ ∃ settings, Written settings (Text.toBytes text) ∧
      Setting.capacity 0 ∉ settings ∧ Gives settings config) ∧
    (loadText text = .error .zeroCapacity ↔ ∃ settings, Written settings (Text.toBytes text) ∧
      Setting.capacity 0 ∈ settings) ∧
    ((∃ e, loadText text = .error (.parse e)) ↔
      ¬∃ settings, Written settings (Text.toBytes text)) ∧
    (∀ settings, Written settings (Text.toBytes text) → ∃! config, Gives settings config) := by
  exact ⟨fun _ => accept_parse_eq_ok_iff, accept_parse_eq_zeroCapacity_iff,
    accept_parse_eq_parse_iff, fun _ => Written.existsUnique_gives⟩

/-- A key with an escape in it, blanks around the colon, and a policy given as an object. -/
theorem accepted_iff_written_of_escaped_key :
    let text := "\x7b\"c\\u0061pacity\" : 2,\n\"trailing_bytes\":\x7b\"retain\":null\x7d\x7d".toList
    let settings := [Setting.capacity 2, .trailing .retain]
    Written settings (Text.toBytes text) ∧ loadText text = .ok ⟨2, 10, .retain⟩ ∧
      ∃! config, Gives settings config := by
  intro text settings
  have hcapacity : Literal "capacity".toList (Text.toBytes "\"c\\u0061pacity\"".toList) :=
    ⟨Text.toBytes "c\\u0061pacity".toList, by decide, by decide⟩
  have htrailing : Literal "trailing_bytes".toList (Text.toBytes "\"trailing_bytes\"".toList) :=
    ⟨Text.toBytes "trailing_bytes".toList, by decide, by decide⟩
  have hretain : Literal (policyName .retain) (Text.toBytes "\"retain\"".toList) :=
    ⟨Text.toBytes "retain".toList, by decide, by decide⟩
  have hspace : Blank [0x20] := by decide
  have hnumber : Value (.capacity 2) [0x32] := .capacity (by decide) (by decide)
  have hobject : Written settings _ := .object blank_nil (by decide)
    (.cons (.first blank_nil) (.colon hcapacity hspace hspace hnumber)
      (.cons (.comma blank_nil (by decide : Blank [0x0a])) (.colon htrailing blank_nil blank_nil
        (.trailing (.object blank_nil hretain blank_nil blank_nil blank_nil))) (.nil blank_nil)))
    blank_nil
  have hwritten : Written settings (Text.toBytes text) := by
    convert hobject using 1
    decide
  have hgives : Gives settings ⟨2, 10, .retain⟩ := by
    intro field
    cases field <;> decide
  exact ⟨hwritten, ((accepted_iff_written text).1 _).mpr ⟨settings, hwritten, by decide, hgives⟩,
    (accepted_iff_written text).2.2.2 settings hwritten⟩

end Spool.Config
