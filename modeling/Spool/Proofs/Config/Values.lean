import Spool.Proofs.Config.Tokens

/-!
# Reading the values of a configuration

The policies for trailing bytes, the names that stand for something, and the values of the fields.
As for the tokens, each reader succeeds exactly on what the notation allows, in either medium: the
names that say something hold no U+FFFD, so they are not read where bytes are no UTF-8. The
keyword `null` after a policy and the limits of the two numbers are the only things
that are decided here; all else is put together from the tokens.
-/

namespace Spool.Config

/-! ### Policies -/

theorem readWord_eq_ok_iff {word input rest : Bytes} :
    readWord word input = .ok rest ↔ input = word ++ rest := by
  induction word generalizing input with
  | nil => simp [readWord]
  | cons w word ih =>
    cases input with
    | nil => simp [readWord]
    | cons b input =>
      rw [readWord, List.cons_append, List.cons.injEq, ← ih]
      split_ifs with hb <;> simp [hb]

theorem readNull_eq_ok_iff {medium : Medium} {input rest : Bytes} :
    readNull medium input = .ok rest ↔ ∃ w, Blank w ∧ input = w ++ (nullWord ++ rest) := by
  rw [readNull]
  refine afterBlanks_eq_ok_iff.trans ⟨?_, ?_⟩
  · rintro ⟨w, b, input', hw, -, rfl, h⟩
    split_ifs at h with hb
    obtain rfl := readWord_eq_ok_iff.mp h
    exact ⟨w, hw, by rw [hb]; rfl⟩
  · rintro ⟨w, hw, rfl⟩
    exact ⟨w, 0x6e, _, hw, by decide, rfl, readWord_eq_ok_iff.mpr rfl⟩

theorem readColon_eq_ok_iff {input rest : Bytes} :
    readColon input = .ok rest ↔ ∃ w, Blank w ∧ input = w ++ 0x3a :: rest := by
  rw [readColon]
  refine afterBlanks_eq_ok_iff.trans ⟨?_, ?_⟩
  · rintro ⟨w, b, input', hw, -, rfl, h⟩
    split_ifs at h with hb
    cases h
    exact ⟨w, hw, by rw [hb]⟩
  · rintro ⟨w, hw, rfl⟩
    exact ⟨w, 0x3a, rest, hw, by decide, rfl, rfl⟩

theorem Literal.exists_cons {text : List Char} {l : Bytes} (h : Literal text l) (rest : Bytes) :
    ∃ input, l ++ rest = 0x22 :: input := by
  obtain ⟨body, -, rfl⟩ := h
  exact ⟨_, rfl⟩

theorem policyOf_eq_ok_iff {name : List Char} {policy : Trailing} :
    policyOf name = .ok policy ↔ name = policyName policy := by
  constructor
  · intro h
    rw [policyOf] at h
    split_ifs at h with hdiscard hretain <;> cases h
    · exact hdiscard
    · exact hretain
  · rintro rfl
    cases policy <;> decide

theorem readPolicyName_eq_ok_iff {medium : Medium} {input rest : Bytes} {policy : Trailing} :
    readPolicyName medium input = .ok (policy, rest) ↔
      ∃ l, Literal (policyName policy) l ∧ 0x22 :: input = l ++ rest := by
  have hname : '\ufffd' ∉ policyName policy := by cases policy <;> decide
  rw [← readString_eq_ok_iff hname, readPolicyName, bind_eq_ok_iff]
  constructor
  · rintro ⟨⟨name, rest'⟩, hstring, h⟩
    obtain ⟨policy', hpolicy, h⟩ := bind_eq_ok_iff.mp h
    cases h
    rwa [← policyOf_eq_ok_iff.mp hpolicy]
  · intro h
    exact ⟨_, h, bind_eq_ok_iff.mpr ⟨_, policyOf_eq_ok_iff.mpr rfl, rfl⟩⟩

theorem readPolicyObject_eq_ok_iff {medium : Medium} {input rest : Bytes} {policy : Trailing} :
    readPolicyObject medium input = .ok (policy, rest) ↔
      ∃ w₁ w₂ w₃ w₄ l, Blank w₁ ∧ Literal (policyName policy) l ∧ Blank w₂ ∧ Blank w₃ ∧ Blank w₄ ∧
        input = w₁ ++ (l ++ (w₂ ++ 0x3a :: (w₃ ++ (nullWord ++ (w₄ ++ 0x7d :: rest))))) := by
  rw [readPolicyObject]
  refine afterBlanks_eq_ok_iff.trans ⟨?_, ?_⟩
  · rintro ⟨w₁, b, input', h₁, -, rfl, h⟩
    split_ifs at h with hb
    obtain ⟨⟨policy', input₂⟩, hname, hafter⟩ := bind_eq_ok_iff.mp h
    obtain ⟨input₃, hcolon, hafter⟩ := bind_eq_ok_iff.mp hafter
    obtain ⟨input₄, hnull, hafter⟩ := bind_eq_ok_iff.mp hafter
    obtain ⟨w₄, c, input₅, h₄, -, rfl, hend⟩ := afterBlanks_eq_ok_iff.mp hafter
    split_ifs at hend with hc
    cases hend
    obtain ⟨l, hl, hinput⟩ := readPolicyName_eq_ok_iff.mp hname
    obtain ⟨w₂, h₂, rfl⟩ := readColon_eq_ok_iff.mp hcolon
    obtain ⟨w₃, h₃, rfl⟩ := readNull_eq_ok_iff.mp hnull
    exact ⟨w₁, w₂, w₃, w₄, l, h₁, hl, h₂, h₃, h₄, by rw [hb, hinput, hc]⟩
  · rintro ⟨w₁, w₂, w₃, w₄, l, h₁, hl, h₂, h₃, h₄, rfl⟩
    obtain ⟨input', hinput⟩ :=
      hl.exists_cons (w₂ ++ 0x3a :: (w₃ ++ (nullWord ++ (w₄ ++ 0x7d :: rest))))
    refine ⟨w₁, 0x22, input', h₁, by decide, by rw [hinput], ?_⟩
    rw [if_pos rfl, bind_eq_ok_iff]
    exact ⟨_, readPolicyName_eq_ok_iff.mpr ⟨l, hl, hinput.symm⟩, bind_eq_ok_iff.mpr
      ⟨_, readColon_eq_ok_iff.mpr ⟨w₂, h₂, rfl⟩, bind_eq_ok_iff.mpr
        ⟨_, readNull_eq_ok_iff.mpr ⟨w₃, h₃, rfl⟩, afterBlanks_eq_ok_iff.mpr
          ⟨w₄, 0x7d, rest, h₄, by decide, rfl, rfl⟩⟩⟩⟩

/-- **A policy is read from its notation.** -/
theorem readPolicy_eq_ok_iff {medium : Medium} {input rest : Bytes} {policy : Trailing} :
    readPolicy medium input = .ok (policy, rest) ↔
      ∃ w l, Blank w ∧ Policy policy l ∧ input = w ++ (l ++ rest) := by
  rw [readPolicy]
  refine afterBlanks_eq_ok_iff.trans ⟨?_, ?_⟩
  · rintro ⟨w, b, input', hw, -, rfl, h⟩
    split_ifs at h with hquote hbrace
    · obtain ⟨l, hl, hinput⟩ := readPolicyName_eq_ok_iff.mp h
      exact ⟨w, l, hw, .name hl, by rw [hquote, hinput]⟩
    · obtain ⟨w₁, w₂, w₃, w₄, l, h₁, hl, h₂, h₃, h₄, rfl⟩ := readPolicyObject_eq_ok_iff.mp h
      exact ⟨w, _, hw, .object h₁ hl h₂ h₃ h₄, by simp [hbrace]⟩
  · rintro ⟨w, l, hw, hpolicy, rfl⟩
    cases hpolicy with
    | name hl =>
      obtain ⟨input', hinput⟩ := hl.exists_cons rest
      exact ⟨w, 0x22, input', hw, by decide, by rw [hinput],
        readPolicyName_eq_ok_iff.mpr ⟨l, hl, hinput.symm⟩⟩
    | @object w₁ w₂ w₃ w₄ l h₁ hl h₂ h₃ h₄ =>
      exact ⟨w, 0x7b, _, hw, by decide, rfl,
        readPolicyObject_eq_ok_iff.mpr ⟨w₁, w₂, w₃, w₄, l, h₁, hl, h₂, h₃, h₄, by simp⟩⟩

/-! ### Fields -/

/-- Where a value has to end: a number where nothing continues it, all else anywhere. -/
def Setting.EndsAt (rest : Bytes) : Setting → Prop
  | capacity _ | delimiter _ => EndsNumber rest
  | trailing _ => True

theorem EndsNumber.endsAt {rest : Bytes} (h : EndsNumber rest) (setting : Setting) :
    setting.EndsAt rest := by
  cases setting with
  | capacity _ => exact h
  | delimiter _ => exact h
  | trailing _ => trivial

/-- **The value of a field is read from its notation** and assigned. -/
theorem readField_eq_ok_iff {medium : Medium} {field : Field} {config config' : Config}
    {input rest : Bytes} :
    readField medium field config input = .ok (config', rest) ↔
      ∃ setting w l, setting.field = field ∧ config' = assign config setting ∧ Blank w ∧
        Value setting l ∧ setting.EndsAt rest ∧ input = w ++ (l ++ rest) := by
  constructor
  · intro h
    cases field with
    | capacity =>
      obtain ⟨⟨n, rest'⟩, hread, h⟩ := bind_eq_ok_iff.mp h
      cases h
      obtain ⟨w, l, hw, hwhole, hn, hends, hinput⟩ :=
        (readBounded_eq_ok_iff (Nat.le_refl wordLimit)).mp hread
      exact ⟨.capacity n, w, l, rfl, rfl, hw, .capacity hn hwhole, hends, hinput⟩
    | delimiter =>
      obtain ⟨⟨n, rest'⟩, hread, h⟩ := bind_eq_ok_iff.mp h
      cases h
      obtain ⟨w, l, hw, hwhole, hn, hends, hinput⟩ := (readBounded_eq_ok_iff (by decide)).mp hread
      have hbyte : n.toUInt8.toNat = n := UInt8.toNat_ofNat_of_lt hn
      exact ⟨.delimiter n.toUInt8, w, l, rfl, rfl, hw, .delimiter (by rwa [hbyte]), hends, hinput⟩
    | trailing =>
      obtain ⟨⟨policy, rest'⟩, hread, h⟩ := bind_eq_ok_iff.mp h
      cases h
      obtain ⟨w, l, hw, hpolicy, hinput⟩ := readPolicy_eq_ok_iff.mp hread
      exact ⟨.trailing policy, w, l, rfl, rfl, hw, .trailing hpolicy, trivial, hinput⟩
  · rintro ⟨setting, w, l, rfl, rfl, hw, hvalue, hends, hinput⟩
    cases hvalue with
    | capacity hn hwhole =>
      exact bind_eq_ok_iff.mpr ⟨_, (readBounded_eq_ok_iff (Nat.le_refl wordLimit)).mpr
        ⟨w, l, hw, hwhole, hn, hends, hinput⟩, rfl⟩
    | @delimiter b _ hwhole =>
      refine bind_eq_ok_iff.mpr ⟨_, (readBounded_eq_ok_iff (by decide)).mpr
        ⟨w, l, hw, hwhole, b.toNat_lt, hends, hinput⟩, ?_⟩
      simp [assign]
    | trailing hpolicy =>
      exact bind_eq_ok_iff.mpr ⟨_, readPolicy_eq_ok_iff.mpr ⟨w, l, hw, hpolicy, hinput⟩, rfl⟩

/-- No key of a field could be read from bytes that are not UTF-8. -/
theorem replacement_notMem_name (field : Field) : '\ufffd' ∉ field.name.toList := by
  cases field <;> decide

theorem fieldOf_eq_ok_iff {key : List Char} {field : Field} :
    fieldOf key = .ok field ↔ key = field.name.toList := by
  constructor
  · intro h
    rw [fieldOf] at h
    split at h
    · next field' hfind =>
      cases h
      have hkey := List.find?_some hfind
      exact (beq_iff_eq.mp hkey).symm
    · cases h
  · rintro rfl
    cases field <;> decide

end Spool.Config
