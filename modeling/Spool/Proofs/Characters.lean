import Mathlib.Data.List.Basic
import Mathlib.Tactic.Common
import Spool.Text.Utf8

/-!
# Characters and their bytes

Every character has bytes, and `decode` reads them back: a byte string is well formed
exactly if it consists of the bytes of characters one behind the other
(`ofBytes?_eq_some_iff`), and then there is one text that it is the bytes of.

`Unfinished` keeps of the first bytes of a character only what decides how it can go on.
`Finishes u bytes n` says that `bytes` do go on as they must and that the character they
finish has the code `n`; a byte string that does not begin so gives a bad run. Whatever byte a
character of two, three or four bytes begins with, the bounds of the next one leave just the
codes of that size, without the surrogates, so that the character has these bytes and no others.

The byte of an ASCII character is no part of another character. A text can therefore be cut
at one (`isText_of_append_cons`).
-/

namespace Spool.Text

@[simp] theorem toBytes_nil : toBytes [] = [] := rfl

@[simp] theorem toBytes_cons (c : Char) (t : List Char) :
    toBytes (c :: t) = String.utf8EncodeChar c ++ toBytes t := rfl

@[simp] theorem toBytes_append (s t : List Char) : toBytes (s ++ t) = toBytes s ++ toBytes t := by
  simp [toBytes]

/-! ### The bytes of one character -/

/-- The bytes that finish a character, and its code. -/
inductive Finishes : Unfinished → Bytes → Nat → Prop where
  /-- One byte is missing. -/
  | last {value : Nat} {low high b : UInt8} : low ≤ b → b ≤ high →
      Finishes ⟨value, 0, low, high⟩ [b] (value * 64 + (b.toNat - 0x80))
  /-- More than one byte is missing. -/
  | more {value missing n : Nat} {low high b : UInt8} {bytes : Bytes} : low ≤ b → b ≤ high →
      Finishes ⟨value * 64 + (b.toNat - 0x80), missing, 0x80, 0xbf⟩ bytes n →
      Finishes ⟨value, missing + 1, low, high⟩ (b :: bytes) n

theorem finishes_last_iff {value n : Nat} {low high : UInt8} {bytes : Bytes} :
    Finishes ⟨value, 0, low, high⟩ bytes n ↔
      ∃ b, low ≤ b ∧ b ≤ high ∧ bytes = [b] ∧ n = value * 64 + (b.toNat - 0x80) := by
  constructor
  · intro h
    generalize hu : Unfinished.mk value 0 low high = u at h
    cases h with
    | last hlow hhigh => cases hu; exact ⟨_, hlow, hhigh, rfl, rfl⟩
    | more _ _ _ => cases hu
  · rintro ⟨b, hlow, hhigh, rfl, hn⟩
    exact hn ▸ .last hlow hhigh

theorem finishes_more_iff {value missing n : Nat} {low high : UInt8} {bytes : Bytes} :
    Finishes ⟨value, missing + 1, low, high⟩ bytes n ↔
      ∃ b rest, low ≤ b ∧ b ≤ high ∧ bytes = b :: rest ∧
        Finishes ⟨value * 64 + (b.toNat - 0x80), missing, 0x80, 0xbf⟩ rest n := by
  constructor
  · intro h
    generalize hu : Unfinished.mk value (missing + 1) low high = u at h
    cases h with
    | last _ _ => cases hu
    | more hlow hhigh hmore => cases hu; exact ⟨_, _, hlow, hhigh, rfl, hmore⟩
  · rintro ⟨b, rest, hlow, hhigh, rfl, hmore⟩
    exact .more hlow hhigh hmore

theorem decodeFrom_of_finishes {u : Unfinished} {bytes : Bytes} {n : Nat} (h : Finishes u bytes n)
    (rest : Bytes) :
    decodeFrom (some u) (bytes ++ rest) = some (Char.ofNat n) :: decodeFrom none rest := by
  induction h with
  | last hlow hhigh => simp [decodeFrom, Unfinished.next, hlow, hhigh]
  | more hlow hhigh _ ih => simpa [decodeFrom, Unfinished.next, hlow, hhigh] using ih

/-- A character that is not finished is a bad run. -/
theorem finishes_or_bad (u : Unfinished) (input : Bytes) :
    (∃ bytes n rest, Finishes u bytes n ∧ input = bytes ++ rest) ∨
      none ∈ decodeFrom (some u) input := by
  obtain ⟨value, missing, low, high⟩ := u
  induction missing generalizing value low high input with
  | zero =>
    cases input with
    | nil => exact .inr (by simp [decodeFrom])
    | cons b rest =>
      by_cases hb : low ≤ b ∧ b ≤ high
      · exact .inl ⟨[b], _, rest, .last hb.1 hb.2, rfl⟩
      · exact .inr (by simp [decodeFrom, Unfinished.next, hb])
  | succ missing ih =>
    cases input with
    | nil => exact .inr (by simp [decodeFrom])
    | cons b rest =>
      by_cases hb : low ≤ b ∧ b ≤ high
      · obtain ⟨bytes, n, rest', hf, rfl⟩ | hbad :=
          ih rest (value * 64 + (b.toNat - 0x80)) 0x80 0xbf
        · exact .inl ⟨b :: bytes, n, rest', .more hb.1 hb.2 hf, rfl⟩
        · exact .inr (by simpa [decodeFrom, Unfinished.next, hb] using hbad)
      · exact .inr (by simp [decodeFrom, Unfinished.next, hb])

theorem Finishes.le_of_mem {u : Unfinished} {bytes : Bytes} {n : Nat} (h : Finishes u bytes n)
    (hlow : 0x80 ≤ u.low.toNat) {b : UInt8} (hb : b ∈ bytes) : 0x80 ≤ b.toNat := by
  induction h with
  | last hb' _ =>
    rw [List.mem_singleton.mp hb]
    exact Nat.le_trans hlow (UInt8.le_iff_toNat_le.mp hb')
  | more hb' _ _ ih =>
    obtain rfl | hb := List.mem_cons.mp hb
    · exact Nat.le_trans hlow (UInt8.le_iff_toNat_le.mp hb')
    · exact ih (Nat.le_refl 0x80) hb

theorem utf8EncodeChar_ofNat {n : Nat} (h : n.isValidChar) :
    String.utf8EncodeChar (Char.ofNat n) =
      if n ≤ 0x7f then [UInt8.ofNat n]
      else if n ≤ 0x7ff then [UInt8.ofNat (n / 64 % 32 + 192), UInt8.ofNat (n % 64 + 128)]
      else if n ≤ 0xffff then
        [UInt8.ofNat (n / 4096 % 16 + 224), UInt8.ofNat (n / 64 % 64 + 128),
          UInt8.ofNat (n % 64 + 128)]
      else
        [UInt8.ofNat (n / 262144 % 8 + 240), UInt8.ofNat (n / 4096 % 64 + 128),
          UInt8.ofNat (n / 64 % 64 + 128), UInt8.ofNat (n % 64 + 128)] := by
  rw [Char.ofNat, dif_pos h]
  rfl

/-- The bytes of a character of two bytes, of which the first is none of the two that would be too
small. -/
theorem encode_two {b c : UInt8} (hb : 0xc2 ≤ b.toNat ∧ b.toNat < 0xe0)
    (hc : 0x80 ≤ c.toNat ∧ c.toNat ≤ 0xbf) :
    String.utf8EncodeChar (Char.ofNat ((b.toNat - 0xc0) * 64 + (c.toNat - 0x80))) = [b, c] := by
  rw [utf8EncodeChar_ofNat (by unfold Nat.isValidChar; omega), if_neg (by omega), if_pos (by omega)]
  simp only [List.cons.injEq, ← UInt8.toNat_inj, UInt8.toNat_ofNat', and_true]
  omega

/-- The bytes of a character of three bytes: it needs that many, and it is no surrogate. -/
theorem encode_three {b c d : UInt8} (hb : 0xe0 ≤ b.toNat ∧ b.toNat < 0xf0)
    (hc : 0x80 ≤ c.toNat ∧ c.toNat ≤ 0xbf) (hd : 0x80 ≤ d.toNat ∧ d.toNat ≤ 0xbf)
    (hsmall : b.toNat = 0xe0 → 0xa0 ≤ c.toNat) (hsurrogate : b.toNat = 0xed → c.toNat ≤ 0x9f) :
    String.utf8EncodeChar
        (Char.ofNat (((b.toNat - 0xe0) * 64 + (c.toNat - 0x80)) * 64 + (d.toNat - 0x80))) =
      [b, c, d] := by
  have hvalid :
      (((b.toNat - 0xe0) * 64 + (c.toNat - 0x80)) * 64 + (d.toNat - 0x80)).isValidChar := by
    unfold Nat.isValidChar
    omega
  rw [utf8EncodeChar_ofNat hvalid, if_neg (by omega), if_neg (by omega), if_pos (by omega)]
  simp only [List.cons.injEq, ← UInt8.toNat_inj, UInt8.toNat_ofNat', and_true]
  omega

/-- The bytes of a character of four bytes: it needs that many, and no code is larger. -/
theorem encode_four {b c d e : UInt8} (hb : 0xf0 ≤ b.toNat ∧ b.toNat ≤ 0xf4)
    (hc : 0x80 ≤ c.toNat ∧ c.toNat ≤ 0xbf) (hd : 0x80 ≤ d.toNat ∧ d.toNat ≤ 0xbf)
    (he : 0x80 ≤ e.toNat ∧ e.toNat ≤ 0xbf)
    (hsmall : b.toNat = 0xf0 → 0x90 ≤ c.toNat) (hlarge : b.toNat = 0xf4 → c.toNat ≤ 0x8f) :
    String.utf8EncodeChar
        (Char.ofNat ((((b.toNat - 0xf0) * 64 + (c.toNat - 0x80)) * 64 + (d.toNat - 0x80)) * 64
          + (e.toNat - 0x80))) = [b, c, d, e] := by
  have hvalid : ((((b.toNat - 0xf0) * 64 + (c.toNat - 0x80)) * 64 + (d.toNat - 0x80)) * 64
      + (e.toNat - 0x80)).isValidChar := by
    unfold Nat.isValidChar
    omega
  rw [utf8EncodeChar_ofNat hvalid, if_neg (by omega), if_neg (by omega), if_neg (by omega)]
  simp only [List.cons.injEq, ← UInt8.toNat_inj, UInt8.toNat_ofNat', and_true]
  omega

theorem begin_eq_iff {b : UInt8} {u : Unfinished} : begin b = ([], some u) ↔
    (0xc2 ≤ b.toNat ∧ b.toNat < 0xe0 ∧ u = ⟨b.toNat - 0xc0, 0, 0x80, 0xbf⟩) ∨
    (0xe0 ≤ b.toNat ∧ b.toNat < 0xf0 ∧ u = ⟨b.toNat - 0xe0, 1,
      if b.toNat = 0xe0 then 0xa0 else 0x80, if b.toNat = 0xed then 0x9f else 0xbf⟩) ∨
    (0xf0 ≤ b.toNat ∧ b.toNat ≤ 0xf4 ∧ u = ⟨b.toNat - 0xf0, 2,
      if b.toNat = 0xf0 then 0x90 else 0x80, if b.toNat = 0xf4 then 0x8f else 0xbf⟩) := by
  unfold begin
  grind

theorem begin_cases (b : UInt8) :
    b.toNat < 0x80 ∨ begin b = ([none], none) ∨ ∃ u, begin b = ([], some u) := by
  unfold begin
  grind

theorem encode_ascii {b : UInt8} (hb : b.toNat < 0x80) :
    String.utf8EncodeChar (Char.ofNat b.toNat) = [b] := by
  rw [utf8EncodeChar_ofNat (.inl (by omega)), if_pos (by omega), UInt8.ofNat_toNat]

/-- A byte and those that finish the character that it begins are the bytes of that character. -/
theorem encode_of_finishes {b : UInt8} {u : Unfinished} {bytes : Bytes} {n : Nat}
    (hb : begin b = ([], some u)) (h : Finishes u bytes n) :
    String.utf8EncodeChar (Char.ofNat n) = b :: bytes := by
  obtain ⟨hlow, hhigh, rfl⟩ | ⟨hlow, hhigh, rfl⟩ | ⟨hlow, hhigh, rfl⟩ := begin_eq_iff.mp hb
  · obtain ⟨c, hc, hc', rfl, hn⟩ := finishes_last_iff.mp h
    rw [UInt8.le_iff_toNat_le] at hc hc'
    exact hn ▸ encode_two ⟨hlow, hhigh⟩ ⟨hc, hc'⟩
  · obtain ⟨c, rest, hc, hc', rfl, hmore⟩ := finishes_more_iff.mp h
    obtain ⟨d, hd, hd', rfl, hn⟩ := finishes_last_iff.mp hmore
    simp only [UInt8.le_iff_toNat_le, apply_ite UInt8.toNat, UInt8.reduceToNat] at hc hc' hd hd'
    exact hn ▸ encode_three ⟨hlow, hhigh⟩ (by grind) ⟨hd, hd'⟩ (by grind) (by grind)
  · obtain ⟨c, rest, hc, hc', rfl, hmore⟩ := finishes_more_iff.mp h
    obtain ⟨d, rest, hd, hd', rfl, hlast⟩ := finishes_more_iff.mp hmore
    obtain ⟨e, he, he', rfl, hn⟩ := finishes_last_iff.mp hlast
    simp only [UInt8.le_iff_toNat_le, apply_ite UInt8.toNat, UInt8.reduceToNat] at *
    exact hn ▸ encode_four ⟨hlow, hhigh⟩ (by grind) ⟨hd, hd'⟩ ⟨he, he'⟩ (by grind) (by grind)

/-- The bytes of a character are that of an ASCII character, or they begin it and finish it. -/
theorem encode_cases (c : Char) :
    (∃ b, String.utf8EncodeChar c = [b] ∧ b.toNat < 0x80 ∧ Char.ofNat b.toNat = c) ∨
      ∃ b u bytes, String.utf8EncodeChar c = b :: bytes ∧ begin b = ([], some u) ∧
        Finishes u bytes c.toNat := by
  have hvalid : c.toNat.isValidChar := c.valid
  have hc : Char.ofNat c.toNat = c := Char.ofNat_toNat c
  generalize c.toNat = n at hvalid hc
  subst hc
  rw [utf8EncodeChar_ofNat hvalid]
  -- one case for each number of bytes; the bounds of the second byte depend on the first
  split_ifs with h₁ h₂ h₃
  · refine .inl ⟨_, rfl, ?_, ?_⟩ <;> rw [UInt8.toNat_ofNat', Nat.mod_eq_of_lt (by omega)]
    omega
  · refine .inr ⟨_, _, _, rfl, begin_eq_iff.mpr (.inl ⟨?_, ?_, rfl⟩),
      finishes_last_iff.mpr ⟨_, ?_, ?_, rfl, ?_⟩⟩
    all_goals simp only [UInt8.le_iff_toNat_le, UInt8.toNat_ofNat', UInt8.reduceToNat]
    all_goals omega
  · refine .inr ⟨_, _, _, rfl, begin_eq_iff.mpr (.inr (.inl ⟨?_, ?_, rfl⟩)),
      finishes_more_iff.mpr ⟨_, _, ?_, ?_, rfl, finishes_last_iff.mpr ⟨_, ?_, ?_, rfl, ?_⟩⟩⟩
    all_goals simp only [UInt8.le_iff_toNat_le, UInt8.toNat_ofNat', apply_ite UInt8.toNat,
      UInt8.reduceToNat]
    any_goals split
    all_goals omega
  · refine .inr ⟨_, _, _, rfl, begin_eq_iff.mpr (.inr (.inr ⟨?_, ?_, rfl⟩)),
      finishes_more_iff.mpr ⟨_, _, ?_, ?_, rfl,
        finishes_more_iff.mpr ⟨_, _, ?_, ?_, rfl, finishes_last_iff.mpr ⟨_, ?_, ?_, rfl, ?_⟩⟩⟩⟩
    all_goals simp only [UInt8.le_iff_toNat_le, UInt8.toNat_ofNat', apply_ite UInt8.toNat,
      UInt8.reduceToNat]
    any_goals split
    all_goals omega

theorem eq_of_mem_encode {b : UInt8} {c : Char} (hb : b ∈ String.utf8EncodeChar c)
    (hascii : b.toNat < 0x80) : String.utf8EncodeChar c = [b] := by
  obtain ⟨b', hc, -, -⟩ | ⟨b', u, bytes, hc, hbegin, hfinishes⟩ := encode_cases c
  · rw [hc] at hb ⊢
    rw [List.mem_singleton.mp hb]
  · exfalso
    have hlow : 0xc2 ≤ b'.toNat ∧ 0x80 ≤ u.low.toNat := by
      obtain ⟨_, _, rfl⟩ | ⟨_, _, rfl⟩ | ⟨_, _, rfl⟩ := begin_eq_iff.mp hbegin
      all_goals refine ⟨by omega, ?_⟩
      all_goals simp only [apply_ite UInt8.toNat, UInt8.reduceToNat]
      any_goals split
      all_goals omega
    obtain rfl | hb := List.mem_cons.mp (hc ▸ hb)
    · omega
    · exact absurd (hfinishes.le_of_mem hlow.2 hb) (by omega)

/-! ### Texts -/

theorem decodeFrom_encode (c : Char) (rest : Bytes) :
    decodeFrom none (String.utf8EncodeChar c ++ rest) = some c :: decodeFrom none rest := by
  obtain ⟨b, hc, hb, rfl⟩ | ⟨b, u, bytes, hc, hbegin, hfinishes⟩ := encode_cases c
  · simp [hc, decodeFrom, begin, hb]
  · rw [hc, List.cons_append, decodeFrom, hbegin, List.nil_append,
      decodeFrom_of_finishes hfinishes, Char.ofNat_toNat]

/-- A byte string begins with the bytes of a character, or there is a bad run in it. -/
theorem encode_or_bad {input : Bytes} (h : input ≠ []) :
    (∃ c rest, input = String.utf8EncodeChar c ++ rest) ∨ none ∈ decode input := by
  obtain ⟨b, rest, rfl⟩ := List.exists_cons_of_ne_nil h
  obtain hb | hb | ⟨u, hb⟩ := begin_cases b
  · exact .inl ⟨Char.ofNat b.toNat, rest, by rw [encode_ascii hb]; rfl⟩
  · exact .inr (by simp [decode, decodeFrom, hb])
  · obtain ⟨bytes, n, rest, hfinishes, rfl⟩ | hbad := finishes_or_bad u rest
    · exact .inl ⟨Char.ofNat n, rest, by rw [encode_of_finishes hb hfinishes]; rfl⟩
    · exact .inr (by simpa [decode, decodeFrom, hb] using hbad)

theorem decode_toBytes (t : List Char) : decode (toBytes t) = t.map some := by
  induction t with
  | nil => rfl
  | cons c t ih => rw [toBytes_cons, decode, decodeFrom_encode, ← decode, ih, List.map_cons]

@[simp] theorem lossy_toBytes (t : List Char) : lossy (toBytes t) = t := by
  rw [lossy, decode_toBytes, List.map_map]
  exact List.map_id t

/-- A byte string without a bad run is the bytes of what is read. -/
theorem eq_toBytes_of_decode {bytes : Bytes} {t : List Char} (h : decode bytes = t.map some) :
    bytes = toBytes t := by
  induction t generalizing bytes with
  | nil =>
    by_contra hne
    obtain ⟨c, rest, rfl⟩ | hbad := encode_or_bad hne
    · simp [decode, decodeFrom_encode] at h
    · simp [h] at hbad
  | cons c t ih =>
    have hne : bytes ≠ [] := by rintro rfl; simp [decode, decodeFrom] at h
    obtain ⟨c', rest, rfl⟩ | hbad := encode_or_bad hne
    · rw [decode, decodeFrom_encode, List.map_cons, List.cons.injEq, Option.some.injEq] at h
      rw [toBytes_cons, h.1, ih h.2]
    · simp [h] at hbad

theorem mapM_id_eq_some_iff {items : List (Option Char)} {t : List Char} :
    items.mapM id = some t ↔ items = t.map some := by
  induction items generalizing t with
  | nil => cases t <;> simp
  | cons item items ih =>
    cases t <;> cases item <;> simp [List.mapM_cons, Option.bind_eq_some_iff, ih, and_comm]

/-- **Well-formed bytes are the bytes of a text**, of the one that is read. -/
theorem ofBytes?_eq_some_iff {bytes : Bytes} {t : List Char} :
    ofBytes? bytes = some t ↔ bytes = toBytes t := by
  rw [ofBytes?, mapM_id_eq_some_iff]
  exact ⟨eq_toBytes_of_decode, fun h => h ▸ decode_toBytes t⟩

/-- What is shown of a byte string, if no character stands for a bad run, is what it is the
bytes of. -/
theorem lossy_eq_iff {bytes : Bytes} {t : List Char} (ht : '\ufffd' ∉ t) :
    lossy bytes = t ↔ bytes = toBytes t := by
  refine ⟨fun h => eq_toBytes_of_decode ?_, fun h => h ▸ lossy_toBytes t⟩
  rw [← h, lossy, List.map_map]
  refine (List.map_id _).symm.trans (List.map_congr_left fun item hitem => ?_)
  cases item with
  | some c => rfl
  | none => exact absurd (List.mem_map.mpr ⟨none, hitem, rfl⟩) (h ▸ ht)

/-! ### Cutting a text -/

/-- A byte string is a text if it is the bytes of one. -/
def IsText (bytes : Bytes) : Prop := ∃ t, bytes = toBytes t

theorem isText_nil : IsText [] := ⟨[], rfl⟩

theorem isText_encode (c : Char) : IsText (String.utf8EncodeChar c) := ⟨[c], by simp⟩

theorem IsText.append {front rest : Bytes} (hfront : IsText front) (hrest : IsText rest) :
    IsText (front ++ rest) := by
  obtain ⟨s, rfl⟩ := hfront
  obtain ⟨t, rfl⟩ := hrest
  exact ⟨s ++ t, (toBytes_append s t).symm⟩

/-- A byte string is ASCII if all its bytes are below 0x80. -/
def Ascii (bytes : Bytes) : Prop := ∀ b ∈ bytes, b.toNat < 0x80

instance (bytes : Bytes) : Decidable (Ascii bytes) :=
  List.decidableBAll (fun b : UInt8 => b.toNat < 0x80) bytes

@[simp] theorem ascii_nil : Ascii [] := by simp [Ascii]

@[simp] theorem ascii_cons {b : UInt8} {bytes : Bytes} :
    Ascii (b :: bytes) ↔ b.toNat < 0x80 ∧ Ascii bytes := by simp [Ascii]

@[simp] theorem ascii_append {front rest : Bytes} :
    Ascii (front ++ rest) ↔ Ascii front ∧ Ascii rest := by simp [Ascii, or_imp, forall_and]

theorem Ascii.isText {bytes : Bytes} (h : Ascii bytes) : IsText bytes := by
  induction bytes with
  | nil => exact isText_nil
  | cons b bytes ih =>
    rw [ascii_cons] at h
    have hb : IsText [b] := ⟨[Char.ofNat b.toNat], by simp [encode_ascii h.1]⟩
    exact hb.append (ih h.2)

theorem ofBytes?_eq_none_iff {bytes : Bytes} : ofBytes? bytes = none ↔ ¬IsText bytes := by
  rw [Option.eq_none_iff_forall_ne_some]
  simp [ofBytes?_eq_some_iff, IsText]

/-- A text that goes on behind the front `front` with an ASCII character is cut there. -/
theorem isText_of_append_cons {front rest : Bytes} {b : UInt8} (hb : b.toNat < 0x80)
    (h : IsText (front ++ b :: rest)) : IsText front ∧ IsText rest := by
  obtain ⟨t, ht⟩ := h
  induction t generalizing front with
  | nil => simp at ht
  | cons c t ih =>
    rw [toBytes_cons] at ht
    obtain ⟨more, rfl, hmore⟩ | ⟨more, hc, hmore⟩ := List.append_eq_append_iff.mp ht.symm
    · -- the character lies in the front
      obtain ⟨hfront, hrest⟩ := ih hmore.symm
      exact ⟨(isText_encode c).append hfront, hrest⟩
    · cases more with
      | nil =>
        -- the byte begins what follows the character
        rw [List.append_nil] at hc
        exact ⟨hc ▸ isText_encode c, (@ih [] hmore).2⟩
      | cons b' more =>
        -- the byte is one of the character, so it is all of it
        obtain ⟨rfl, hrest⟩ := List.cons.inj hmore
        have honly : front ++ b :: more = [b] :=
          hc.symm.trans (eq_of_mem_encode (by simp [hc]) hb)
        obtain ⟨rfl, rfl⟩ : front = [] ∧ more = [] := by
          simpa [List.append_eq_cons_iff] using honly
        exact ⟨isText_nil, t, hrest⟩

theorem isText_cons_iff {b : UInt8} (hb : b.toNat < 0x80) {rest : Bytes} :
    IsText (b :: rest) ↔ IsText rest := by
  constructor
  · intro h
    exact (@isText_of_append_cons [] rest b hb h).2
  · intro h
    have hfront : IsText [b] := Ascii.isText (by simpa using hb)
    exact hfront.append h

theorem isText_append_iff {front : Bytes} (hfront : Ascii front) {rest : Bytes} :
    IsText (front ++ rest) ↔ IsText rest := by
  induction front with
  | nil => rfl
  | cons b front ih =>
    rw [ascii_cons] at hfront
    rw [List.cons_append, isText_cons_iff hfront.1, ih hfront.2]

end Spool.Text
