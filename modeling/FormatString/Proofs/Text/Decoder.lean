import Mathlib
import FormatString.Proofs.Text.Transcode
import FormatString.Proofs.Access.Slice

/-!
# The decoders of the three encodings

`decode?` guesses a character and accepts it when spelling it gives back the units of the text. The
decoders below never spell anything. Each goes through the units in stages of its own: in UTF-8 the
first unit announces how many units the character takes, that many are cut off the text, and the
piece is checked as a whole; in UTF-16 a leading surrogate is read together with a trailing one; in
UTF-32 a unit is a character if its value is a scalar value.

They come to the same. A unit announces the length of every spelling it starts, so cutting first
loses no character; and a piece that passes the check is the spelling of some characters, the first
of which stands at the front of the text. So overlong forms, surrogates, values out of range and
truncated pieces are refused for the same reason as before: no character is spelled that way.
-/

namespace FormatString

variable {w : Width} {c : Char} {n : Nat}

namespace Text

/-! ## UTF-8 -/

/-- The bytes of UTF-8 text. -/
def bytes (s : Text .utf8) : List UInt8 := s.map fun u ↦ UInt8.ofNat u.value

/-- The characters of UTF-8 text, if all of it is well-formed. -/
def validated? (s : Text .utf8) : Option (List Char) :=
  s.bytes.toByteArray.utf8Decode?.map Array.toList

/-- The number of units of the characters beyond ASCII that are spelled with this unit in front. -/
def announced? (lead : Nat) : Option Nat :=
  if lead < 0xC2 then none
  else if lead < 0xE0 then some 2
  else if lead < 0xF0 then some 3
  else if lead < 0xF5 then some 4
  else none

/-- The decoder of UTF-8: the first unit announces the length of a piece, which is then checked. -/
def decodeUtf8? (s : Text .utf8) : Option (Char × Nat) :=
  match s with
  | [] => none
  | lead :: _ =>
    if lead.value < 0x80 then some (Char.ofNat lead.value, 1)
    else
      match announced? lead.value with
      | none => some (replacementChar, 1)
      | some n =>
        match (s.slice? 0 n).bind validated? with
        | some cs => cs.head?.map fun c ↦ (c, n)
        | none => some (replacementChar, 1)

/-! ## UTF-16 and UTF-32 -/

/-- The character at the front of UTF-16 text: a unit that is no surrogate, or a leading surrogate
and a trailing one. -/
def pairedChar? (s : Text .utf16) : Option Char :=
  match s with
  | [] => none
  | lead :: rest =>
    if lead.value < 0xD800 ∨ 0xE000 ≤ lead.value then some (Char.ofNat lead.value)
    else if 0xDC00 ≤ lead.value then none
    else
      match rest with
      | [] => none
      | trail :: _ =>
        if 0xDC00 ≤ trail.value ∧ trail.value < 0xE000 then
          some (Char.ofNat
            (0x10000 + ((lead.value - 0xD800) * 0x400 + (trail.value - 0xDC00))))
        else none

/-- The decoder of UTF-16. -/
def decodeUtf16? (s : Text .utf16) : Option (Char × Nat) :=
  match s with
  | [] => none
  | _ :: _ =>
    match pairedChar? s with
    | some c => some (c, if c.toNat < 0x10000 then 1 else 2)
    | none => some (replacementChar, 1)

/-- The decoder of UTF-32. -/
def decodeUtf32? (s : Text .utf32) : Option (Char × Nat) :=
  match s with
  | [] => none
  | u :: _ =>
    some (if u.value.isValidChar then Char.ofNat u.value else replacementChar, 1)

/-- The decoder of each encoding. -/
def decodeStaged? {w : Width} : Text w → Option (Char × Nat) :=
  match w with
  | .utf8 => decodeUtf8?
  | .utf16 => decodeUtf16?
  | .utf32 => decodeUtf32?

end Text

/-! ## The spelling of a character as bytes -/

theorem bytes_injective : Function.Injective Text.bytes := by
  refine List.map_injective_iff.mpr fun u v huv ↦ CodeUnit.ext_value ?_
  have hmod := congrArg UInt8.toNat huv
  rw [UInt8.toNat_ofNat', UInt8.toNat_ofNat'] at hmod
  have hu : u.value < 256 := u.value_lt
  have hv : v.value < 256 := v.value_lt
  omega

/-- The bytes of a character are those of its UTF-8 encoding. -/
theorem bytes_encodeChar (c : Char) :
    (encodeChar .utf8 c).bytes = String.utf8EncodeChar c := by
  obtain ⟨hlt, -⟩ := toNat_lt c
  have hbytes : (encodeChar .utf8 c).bytes = (spelling .utf8 c.toNat).map UInt8.ofNat := by
    rw [← map_value_encodeChar, List.map_map]
    rfl
  have hval : c.val.toNat = c.toNat := rfl
  have hle (k : Nat) : c.toNat ≤ k ↔ c.toNat < k + 1 := Nat.lt_succ_iff.symm
  rw [hbytes, spelling, String.utf8EncodeChar]
  simp only [hval, hle, Nat.reduceAdd]
  by_cases h₁ : c.toNat < 0x80
  · simp only [h₁, ↓reduceIte, List.map_cons, List.map_nil]
  by_cases h₂ : c.toNat < 0x800
  · simp only [h₁, h₂, ↓reduceIte, List.map_cons, List.map_nil]
    rw [show 0xC0 + c.toNat / 0x40 = c.toNat / 64 % 32 + 192 by omega, Nat.add_comm 0x80]
  by_cases h₃ : c.toNat < 0x10000
  · simp only [h₁, h₂, h₃, ↓reduceIte, List.map_cons, List.map_nil]
    rw [show 0xE0 + c.toNat / 0x1000 = c.toNat / 4096 % 16 + 224 by omega, Nat.add_comm 0x80,
      Nat.add_comm 0x80]
  · simp only [h₁, h₂, h₃, ↓reduceIte, List.map_cons, List.map_nil]
    rw [show 0xF0 + c.toNat / 0x40000 = c.toNat / 262144 % 8 + 240 by omega, Nat.add_comm 0x80,
      Nat.add_comm 0x80, Nat.add_comm 0x80]

theorem bytes_encode (cs : List Char) :
    (encode .utf8 cs).bytes = cs.flatMap String.utf8EncodeChar := by
  rw [encode, Text.bytes, List.map_flatMap]
  exact List.flatMap_congr fun c _ ↦ bytes_encodeChar c

/-- The check passes the spellings of characters and nothing else. -/
theorem validated?_eq_some_iff {s : Text .utf8} {cs : List Char} :
    s.validated? = some cs ↔ encode .utf8 cs = s := by
  have hbytes (ds : List Char) : (encode .utf8 ds).bytes.toByteArray = ds.utf8Encode := by
    rw [bytes_encode]
    rfl
  constructor
  · intro h
    obtain ⟨ds, hds, rfl⟩ := Option.map_eq_some_iff.mp h
    refine bytes_injective (List.toByteArray_inj.mp ?_)
    have hget := ByteArray.utf8Encode_get_utf8Decode? (h := Option.isSome_of_eq_some hds)
    rwa [Option.get_of_eq_some _ hds, ← hbytes] at hget
  · rintro rfl
    rw [Text.validated?, hbytes, List.utf8Decode?_utf8Encode, Option.map_some]

/-! ## What is spelled at the front -/

/-- The first unit announces the length of the spelling. -/
theorem announced?_of_encodeChar {lead : CodeUnit .utf8} {tail : Text .utf8}
    (hc : ¬ c.toNat < 0x80) (h : encodeChar .utf8 c = lead :: tail) :
    ¬ lead.value < 0x80 ∧
      Text.announced? lead.value = some (encodeChar .utf8 c).length := by
  obtain ⟨hlt, -⟩ := toNat_lt c
  have hvalues := map_value_encodeChar (w := .utf8) c
  rw [← List.length_map CodeUnit.value, hvalues]
  rw [h, List.map_cons, spelling, if_neg hc] at hvalues
  rw [spelling, if_neg hc]
  by_cases h₂ : c.toNat < 0x800
  · rw [if_pos h₂] at hvalues ⊢
    obtain ⟨hlead, -⟩ := List.cons.inj hvalues
    rw [Text.announced?, if_neg (by omega), if_pos (by omega)]
    exact ⟨by omega, rfl⟩
  rw [if_neg h₂] at hvalues ⊢
  by_cases h₃ : c.toNat < 0x10000
  · rw [if_pos h₃] at hvalues ⊢
    obtain ⟨hlead, -⟩ := List.cons.inj hvalues
    rw [Text.announced?, if_neg (by omega), if_neg (by omega), if_pos (by omega)]
    exact ⟨by omega, rfl⟩
  · rw [if_neg h₃] at hvalues ⊢
    obtain ⟨hlead, -⟩ := List.cons.inj hvalues
    rw [Text.announced?, if_neg (by omega), if_neg (by omega), if_neg (by omega),
      if_pos (by omega)]
    exact ⟨by omega, rfl⟩

theorem announced?_ne_zero (lead : Nat) : Text.announced? lead ≠ some 0 := by
  rw [Text.announced?]
  repeat' split
  all_goals simp

theorem prefix_of_slice?_zero {s piece : Text w} (h : s.slice? 0 n = some piece) :
    piece <+: s ∧ piece.length = n := by
  rw [Text.slice?] at h
  split at h
  · next hle =>
    obtain rfl := Option.some.inj h
    exact ⟨List.take_prefix _ _, List.length_take_of_le hle.2⟩
  · exact absurd h (by simp)

/-- A decoder that reads every spelling and takes one unit where there is none is `decode?`. -/
theorem decode?_eq_of_spelled_of_stray {f : Text w → Option (Char × Nat)} (hnil : f [] = none)
    (hspelled : ∀ c rest, f (encodeChar w c ++ rest) = some (c, (encodeChar w c).length))
    (hstray : ∀ s, s ≠ [] → (∀ c, ¬ encodeChar w c <+: s) → f s = some (replacementChar, 1))
    (s : Text w) : decode? s = f s := by
  by_cases hs : s = []
  · rw [hs, hnil]
    rfl
  by_cases hc : ∃ c, encodeChar w c <+: s
  · obtain ⟨c, rest, rfl⟩ := hc
    rw [hspelled, decode?_encodeChar_append]
  · rw [hstray s hs fun c h ↦ hc ⟨c, h⟩]
    exact decode?_eq_some_iff.mpr (.inr ⟨hs, fun c h ↦ hc ⟨c, h⟩, rfl, rfl⟩)

/-- A unit in the range of ASCII spells a character by itself. -/
theorem encodeChar_ofNat_value {u : CodeUnit w} (hu : u.value < 0x80) :
    encodeChar w (Char.ofNat u.value) = [u] := by
  obtain ⟨hlt, heq⟩ := CodeUnit.ascii?_eq_some_iff.mp (if_pos hu)
  rw [encodeChar_of_ascii hlt, ← heq]

/-! ### UTF-8 -/

theorem decodeUtf8?_encodeChar_append (c : Char) (rest : Text .utf8) :
    Text.decodeUtf8? (encodeChar .utf8 c ++ rest) = some (c, (encodeChar .utf8 c).length) := by
  by_cases hc : c.toNat < 0x80
  · rw [encodeChar_of_ascii hc, List.singleton_append, Text.decodeUtf8?,
      CodeUnit.value_ofAscii hc, if_pos hc, Char.ofNat_toNat, List.length_singleton]
  -- The piece cut off is the spelling, and the check finds the one character.
  obtain ⟨lead, tail, hcons⟩ := List.exists_cons_of_ne_nil (encodeChar_ne_nil .utf8 c)
  obtain ⟨hlead, hlength⟩ := announced?_of_encodeChar hc hcons
  have hpiece : Text.slice? (encodeChar .utf8 c ++ rest) 0 (encodeChar .utf8 c).length =
      some (encodeChar .utf8 c) := by
    rw [Text.slice?_of_le (Nat.zero_le _) (by rw [List.length_append]; omega), List.drop_zero,
      Nat.sub_zero, List.take_left]
  have hcheck : (encodeChar .utf8 c).validated? = some [c] :=
    validated?_eq_some_iff.mpr (encode_singleton c)
  generalize (encodeChar .utf8 c).length = n at hlength hpiece ⊢
  rw [hcons, List.cons_append] at hpiece ⊢
  rw [Text.decodeUtf8?, if_neg hlead, hlength]
  dsimp only
  rw [hpiece, Option.bind_some, ← hcons, hcheck]
  rfl

theorem decodeUtf8?_of_stray {s : Text .utf8} (hs : s ≠ [])
    (hstray : ∀ c, ¬ encodeChar .utf8 c <+: s) :
    Text.decodeUtf8? s = some (replacementChar, 1) := by
  obtain ⟨lead, tail, rfl⟩ := List.exists_cons_of_ne_nil hs
  have hlead : ¬ lead.value < 0x80 := by
    intro hlead
    refine hstray (Char.ofNat lead.value) ?_
    rw [encodeChar_ofNat_value hlead]
    exact List.prefix_append [lead] tail
  rw [Text.decodeUtf8?, if_neg hlead]
  split
  · rfl
  next n hn =>
  split
  · next cs hcs =>
    -- A piece that passes the check starts with a character, and so does the text.
    obtain ⟨piece, hpiece, hcheck⟩ := Option.bind_eq_some_iff.mp hcs
    obtain ⟨hfront, hlength⟩ := prefix_of_slice?_zero hpiece
    rw [← validated?_eq_some_iff.mp hcheck] at hfront hlength
    cases cs with
    | nil =>
      rw [← hlength] at hn
      exact absurd hn (announced?_ne_zero _)
    | cons c cs => exact absurd ((List.prefix_append _ _).trans hfront) (hstray c)
  · rfl

/-! ### UTF-16 -/

theorem toNat_ofNat_of_isValidChar (h : n.isValidChar) : (Char.ofNat n).toNat = n := by
  rw [Char.ofNat, dif_pos h]
  exact Char.toNat_ofNatAux h

/-- A character of the basic plane is one unit. -/
theorem encodeChar_utf16_of_lt (hc : c.toNat < 0x10000) :
    encodeChar .utf16 c = [CodeUnit.ofNat .utf16 c.toNat] := by
  rw [encodeChar, spelling, if_pos hc]
  rfl

/-- A character beyond it is a leading surrogate and a trailing one. -/
theorem encodeChar_utf16_of_not_lt (hc : ¬ c.toNat < 0x10000) :
    encodeChar .utf16 c = [CodeUnit.ofNat .utf16 (0xD800 + (c.toNat - 0x10000) / 0x400),
      CodeUnit.ofNat .utf16 (0xDC00 + (c.toNat - 0x10000) % 0x400)] := by
  rw [encodeChar, spelling, if_neg hc]
  rfl

theorem pairedChar?_encodeChar_append (c : Char) (rest : Text .utf16) :
    (encodeChar .utf16 c ++ rest).pairedChar? = some c := by
  obtain ⟨hlt, hscalar⟩ := toNat_lt c
  have hunit {m : Nat} (h : m < 0x10000) : (CodeUnit.ofNat .utf16 m).value = m :=
    CodeUnit.value_ofNat_of_lt h
  by_cases hc : c.toNat < 0x10000
  · rw [encodeChar_utf16_of_lt hc, List.singleton_append, Text.pairedChar?.eq_def]
    dsimp only
    rw [hunit hc, if_pos (by omega), Char.ofNat_toNat]
  · rw [encodeChar_utf16_of_not_lt hc, List.cons_append, List.singleton_append,
      Text.pairedChar?.eq_def]
    dsimp only
    rw [hunit (by omega), hunit (by omega), if_neg (by omega), if_neg (by omega), if_pos (by omega)]
    refine congrArg some ((congrArg Char.ofNat ?_).trans (Char.ofNat_toNat c))
    omega

/-- What is read is spelled at the front of the text. -/
theorem encodeChar_prefix_of_pairedChar? {s : Text .utf16} (h : s.pairedChar? = some c) :
    encodeChar .utf16 c <+: s := by
  rw [Text.pairedChar?.eq_def] at h
  split at h
  · exact absurd h (by simp)
  next lead tail =>
  have hlead : lead.value < 0x10000 := lead.value_lt
  split at h
  · next hsingle =>
    obtain rfl := Option.some.inj h
    have hvalue : (Char.ofNat lead.value).toNat = lead.value :=
      toNat_ofNat_of_isValidChar (by rw [Nat.isValidChar]; omega)
    rw [encodeChar_utf16_of_lt (by omega), hvalue, CodeUnit.ofNat_value]
    exact List.prefix_append [lead] tail
  split at h
  · exact absurd h (by simp)
  split at h
  · exact absurd h (by simp)
  next _ trail tail =>
  have htrail : trail.value < 0x10000 := trail.value_lt
  split at h
  · next hpair =>
    obtain rfl := Option.some.inj h
    generalize hn : 0x10000 + ((lead.value - 0xD800) * 0x400 + (trail.value - 0xDC00)) = n
    have hvalue : (Char.ofNat n).toNat = n :=
      toNat_ofNat_of_isValidChar (by rw [Nat.isValidChar]; omega)
    have hleading : 0xD800 + (n - 0x10000) / 0x400 = lead.value := by omega
    have htrailing : 0xDC00 + (n - 0x10000) % 0x400 = trail.value := by omega
    rw [encodeChar_utf16_of_not_lt (by omega), hvalue, hleading, htrailing, CodeUnit.ofNat_value,
      CodeUnit.ofNat_value]
    exact List.prefix_append [lead, trail] tail
  · exact absurd h (by simp)

theorem decodeUtf16?_encodeChar_append (c : Char) (rest : Text .utf16) :
    Text.decodeUtf16? (encodeChar .utf16 c ++ rest) =
      some (c, (encodeChar .utf16 c).length) := by
  have hlength : (encodeChar .utf16 c).length = if c.toNat < 0x10000 then 1 else 2 := by
    rw [← List.length_map CodeUnit.value, map_value_encodeChar, spelling]
    split <;> rfl
  have hpaired := pairedChar?_encodeChar_append c rest
  obtain ⟨lead, tail, hcons⟩ := List.exists_cons_of_ne_nil
    (List.append_ne_nil_of_left_ne_nil (encodeChar_ne_nil .utf16 c) rest)
  rw [hcons] at hpaired ⊢
  rw [Text.decodeUtf16?, hpaired, hlength]

theorem decodeUtf16?_of_stray {s : Text .utf16} (hs : s ≠ [])
    (hstray : ∀ c, ¬ encodeChar .utf16 c <+: s) :
    Text.decodeUtf16? s = some (replacementChar, 1) := by
  have hnone : s.pairedChar? = none := Option.eq_none_iff_forall_ne_some.mpr fun c hc ↦
    hstray c (encodeChar_prefix_of_pairedChar? hc)
  obtain ⟨lead, tail, rfl⟩ := List.exists_cons_of_ne_nil hs
  rw [Text.decodeUtf16?, hnone]

/-! ### UTF-32 -/

theorem decodeUtf32?_encodeChar_append (c : Char) (rest : Text .utf32) :
    Text.decodeUtf32? (encodeChar .utf32 c ++ rest) =
      some (c, (encodeChar .utf32 c).length) := by
  obtain ⟨hlt, -⟩ := toNat_lt c
  have hspelled : encodeChar .utf32 c = [CodeUnit.ofNat .utf32 c.toNat] := rfl
  have hvalue : (CodeUnit.ofNat .utf32 c.toNat).value = c.toNat :=
    CodeUnit.value_ofNat_of_lt (lt_trans hlt (by decide))
  have hvalid : c.toNat.isValidChar := c.valid
  rw [hspelled, List.singleton_append, Text.decodeUtf32?, hvalue, if_pos hvalid, Char.ofNat_toNat,
    List.length_singleton]

theorem decodeUtf32?_of_stray {s : Text .utf32} (hs : s ≠ [])
    (hstray : ∀ c, ¬ encodeChar .utf32 c <+: s) :
    Text.decodeUtf32? s = some (replacementChar, 1) := by
  obtain ⟨u, rest, rfl⟩ := List.exists_cons_of_ne_nil hs
  have hinvalid : ¬ u.value.isValidChar := by
    intro hvalid
    refine hstray (Char.ofNat u.value) ?_
    have hspelled : encodeChar .utf32 (Char.ofNat u.value) = [u] := by
      change [CodeUnit.ofNat .utf32 (Char.ofNat u.value).toNat] = [u]
      rw [toNat_ofNat_of_isValidChar hvalid, CodeUnit.ofNat_value]
    rw [hspelled]
    exact List.prefix_append [u] rest
  rw [Text.decodeUtf32?, if_neg hinvalid]

/-! ## Every encoding -/

theorem decode?_eq_decodeStaged? (s : Text w) : decode? s = s.decodeStaged? := by
  cases w with
  | utf8 =>
    exact decode?_eq_of_spelled_of_stray rfl decodeUtf8?_encodeChar_append
      (fun _ ↦ decodeUtf8?_of_stray) s
  | utf16 =>
    exact decode?_eq_of_spelled_of_stray rfl decodeUtf16?_encodeChar_append
      (fun _ ↦ decodeUtf16?_of_stray) s
  | utf32 =>
    exact decode?_eq_of_spelled_of_stray rfl decodeUtf32?_encodeChar_append
      (fun _ ↦ decodeUtf32?_of_stray) s

/-- **The decoder recognises the spellings of characters and nothing else.** Where the text starts
with the spelling of a character, this is what is read, with all its units, and there is no other
such character. Where it starts with none, one unit is read as U+FFFD. That holds of the guess and
of the decoders that go through the units in stages. -/
theorem decode?_recognises_spellings {s : Text w} (hs : s ≠ []) :
    (∀ c, encodeChar w c <+: s →
      decode? s = some (c, (encodeChar w c).length) ∧ ∀ e, encodeChar w e <+: s → e = c) ∧
    ((∀ c, ¬ encodeChar w c <+: s) → decode? s = some (replacementChar, 1)) ∧
    s.decodeStaged? = decode? s := by
  refine ⟨fun c hc ↦ ⟨decode?_eq_some_iff.mpr (.inl ⟨hc, rfl⟩), fun e he ↦ ?_⟩, fun hstray ↦ ?_,
    (decode?_eq_decodeStaged? s).symm⟩
  · obtain ⟨rest, rfl⟩ := hc
    exact eq_of_encodeChar_prefix_append he
  · exact decode?_eq_some_iff.mpr (.inr ⟨hs, hstray, rfl, rfl⟩)

/-- In UTF-8 a well-formed character is read although a stray unit follows. -/
theorem decode?_recognises_spellings_euro :
    let s : Text .utf8 := [0xE2, 0x82, 0xAC, 0xFF].map (CodeUnit.ofNat .utf8)
    s ≠ [] ∧ encodeChar .utf8 '€' <+: s ∧ decode? s = some ('€', 3) ∧
      s.decodeStaged? = some ('€', 3) := by
  intro s
  have hs : s ≠ [] := by decide
  have hspelled : encodeChar .utf8 '€' <+: s := by decide
  obtain ⟨hread, -, hstaged⟩ := decode?_recognises_spellings hs
  exact ⟨hs, hspelled, (hread '€' hspelled).1, hstaged.trans (hread '€' hspelled).1⟩

end FormatString
