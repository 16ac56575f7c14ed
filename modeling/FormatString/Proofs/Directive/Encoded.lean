import Mathlib
import FormatString.Proofs.Directive.Parse
import FormatString.Proofs.Text.Encoded

/-!
# Directives of strings

A string has its directives independently of the width it is spelled in. The fields are read off the
ASCII run, which is that of the characters, and the members of a scan set are characters anyway; only
an unknown conversion is reported by a unit, and that shows the width unless the unit is ASCII.
-/

namespace FormatString

variable {w : Width} {dialect : Dialect}

/-- What is wrong with a directive of a string. -/
inductive DirectiveFault where
  | error (e : DirectiveError)
  /-- A character that is no conversion. -/
  | unknown (c : Char)

/-- The error that is reported when the string is spelled in a width. -/
def DirectiveFault.at (w : Width) : DirectiveFault → DirectiveError
  | error e => e
  | unknown c => .unknownConversion (unitAt (encodeChar w c) 0)

/-- The error without the unit it shows. -/
def DirectiveError.widthless : DirectiveError → DirectiveError
  | unknownConversion _ => unknownConversion 0
  | e => e

/-- The fault was found in the string. -/
def DirectiveFault.In (f : DirectiveFault) (cs : List Char) : Prop := ∀ c, f = unknown c → c ∈ cs

/-- The fault was found in the first character of the string. -/
def DirectiveFault.AtFront (f : DirectiveFault) (cs : List Char) : Prop :=
  ∀ c, f = unknown c → cs.head? = some c

namespace DirectiveFault

variable {f : DirectiveFault} {cs ds : List Char}

theorem AtFront.of_error (e : DirectiveError) (cs : List Char) : (error e).AtFront cs :=
  fun c hc ↦ absurd hc (by simp)

theorem AtFront.of_unknown (c : Char) (cs : List Char) : (unknown c).AtFront (c :: cs) := by
  intro c' hc'
  rw [unknown.inj hc']
  rfl

theorem AtFront.isIn (h : f.AtFront cs) : f.In cs := fun c hc ↦ List.mem_of_head? (h c hc)

theorem In.mono (h : f.In cs) (hsub : cs ⊆ ds) : f.In ds := fun c hc ↦ hsub (h c hc)

theorem widthless_at (f : DirectiveFault) (v w : Width) : (f.at v).widthless = (f.at w).widthless := by
  cases f <;> rfl

/-- In an ASCII string the width does not show. -/
theorem In.at_eq (h : f.In cs) (hcs : ∀ c ∈ cs, c.toNat < 0x80) (v w : Width) : f.at v = f.at w := by
  cases f with
  | error e => rfl
  | unknown c =>
    have hc := hcs c (h c rfl)
    have hunit (w : Width) : unitAt (encodeChar w c) 0 = c.toNat := by
      rw [encodeChar_of_ascii hc]
      exact CodeUnit.value_ofAscii hc
    rw [DirectiveFault.at, DirectiveFault.at, hunit, hunit]

end DirectiveFault

/-! ## Parsing -/

/-- The characters of a string that a scan set spans. -/
theorem readScanSet_of_chars {cs rest : List Char} {set : ScanSet}
    (h : ScanSet.read? cs = some (set, rest)) (w : Width) :
    readScanSet (encode w cs)
      = .ok (set, (encode w (cs.take (cs.length - rest.length))).length) := by
  rw [readScanSet, characters_encode, h]
  dsimp only
  rw [characters_encode_eq, List.length_map, ← List.map_take, unitsOf_map]

/-- A scan set of a string spans the same characters at every width. -/
theorem readScanSet_encode (cs : List Char) :
    (∃ set k, ∀ w, readScanSet (encode w cs) = .ok (set, (encode w (cs.take k)).length)) ∨
      ∀ w, readScanSet (encode w cs) = .error .unterminatedScanSet := by
  cases hread : ScanSet.read? cs with
  | none =>
    refine .inr fun w ↦ ?_
    rw [readScanSet, characters_encode, hread]
  | some p =>
    obtain ⟨set, rest⟩ := p
    exact .inl ⟨set, cs.length - rest.length, readScanSet_of_chars hread⟩

theorem readSetOf_encode (conversion : Conversion) (cs : List Char) :
    (∃ set k, ∀ w, readSetOf conversion (encode w cs) = .ok (set, (encode w (cs.take k)).length)) ∨
      ∃ e, ∀ w, readSetOf conversion (encode w cs) = .error e := by
  by_cases hset : conversion = .charSet
  · obtain ⟨set, k, hread⟩ | hread := readScanSet_encode cs
    · refine .inl ⟨some set, k, fun w ↦ ?_⟩
      rw [readSetOf, if_pos hset, hread]
      rfl
    · refine .inr ⟨.unterminatedScanSet, fun w ↦ ?_⟩
      rw [readSetOf, if_pos hset, hread]
      rfl
  · refine .inl ⟨none, 0, fun w ↦ ?_⟩
    rw [readSetOf, if_neg hset]
    rfl

/-- The conversion of an ASCII letter is told from the letter alone. -/
theorem readConversion?_ofAscii (dialect : Dialect) {c : Char} (hc : c.toNat < 0x80) :
    ∃ x, ∀ w, readConversion? dialect (.ofAscii w c) = x := by
  refine ⟨readConversion? dialect (.ofAscii .utf8 c), fun w ↦ ?_⟩
  rw [readConversion?, readConversion?, CodeUnit.ascii?_ofAscii hc, CodeUnit.ascii?_ofAscii hc]

/-- What parsing does behind the header, which took `used` units. -/
def Header.parseBehind (header : Header) (dialect : Dialect) (used : Nat) :
    Text w → Except DirectiveError (Directive × Nat)
  | [] => .error .missingConversion
  | u :: body =>
    match readConversion? dialect u with
    | none => .error (.unknownConversion u.value)
    | some (conversion, upper) =>
      if header.length.accepts conversion then do
        let (set, spanned) ← readSetOf conversion body
        .ok (⟨conversion, upper, header.flags, header.length, header.width, header.precision,
          header.index, set⟩, used + 1 + spanned)
      else .error (.incompatibleLength header.length conversion)

theorem Directive.parse_of_header {s : Text w} {header : Header} {rest : List Char}
    (h : Header.read dialect (Text.asciiRun s) = .ok (header, rest)) :
    Directive.parse dialect s
      = header.parseBehind dialect ((Text.asciiRun s).length - rest.length)
          (s.drop ((Text.asciiRun s).length - rest.length)) := by
  rw [Directive.parse, h]
  rfl

/-- Behind the header there are the same characters left at every width. -/
theorem Header.parseBehind_encode (header : Header) (dialect : Dialect) (used : Nat)
    (cs : List Char) :
    (∃ d k, ∀ w, header.parseBehind dialect used (encode w cs)
        = .ok (d, used + (encode w (cs.take k)).length)) ∨
      ∃ f : DirectiveFault, f.AtFront cs ∧
        ∀ w, header.parseBehind dialect used (encode w cs) = .error (f.at w) := by
  rcases cs with _ | ⟨c, body⟩
  · exact .inr ⟨.error .missingConversion, .of_error _ _, fun w ↦ rfl⟩
  by_cases hc : c.toNat < 0x80
  · obtain ⟨x, hx⟩ := readConversion?_ofAscii dialect hc
    have hunits (w : Width) (cs : List Char) : encode w (c :: cs) = .ofAscii w c :: encode w cs := by
      rw [encode_cons, encodeChar_of_ascii hc]
      rfl
    rcases x with _ | ⟨conversion, upper⟩
    · refine .inr ⟨.unknown c, .of_unknown c body, fun w ↦ ?_⟩
      rw [hunits, parseBehind, hx, DirectiveFault.at, encodeChar_of_ascii hc]
      rfl
    by_cases haccepts : header.length.accepts conversion
    · obtain ⟨set, k, hset⟩ | ⟨e, hset⟩ := readSetOf_encode conversion body
      · refine .inl ⟨⟨conversion, upper, header.flags, header.length, header.width,
          header.precision, header.index, set⟩, k + 1, fun w ↦ ?_⟩
        rw [hunits, parseBehind, hx]
        dsimp only
        rw [if_pos haccepts, hset, List.take_succ_cons, hunits, List.length_cons,
          Nat.add_comm (encode w (body.take k)).length, ← Nat.add_assoc]
        rfl
      · refine .inr ⟨.error e, .of_error _ _, fun w ↦ ?_⟩
        rw [hunits, parseBehind, hx]
        dsimp only
        rw [if_pos haccepts, hset]
        rfl
    · refine .inr ⟨.error (.incompatibleLength header.length conversion), .of_error _ _,
        fun w ↦ ?_⟩
      rw [hunits, parseBehind, hx]
      exact if_neg haccepts
  · refine .inr ⟨.unknown c, .of_unknown c body, fun w ↦ ?_⟩
    obtain ⟨u, tail, hcons⟩ := List.exists_cons_of_ne_nil (encodeChar_ne_nil w c)
    have hu := ascii?_of_mem_encodeChar hc (hcons ▸ List.mem_cons_self (a := u) (l := tail))
    have hnone : readConversion? dialect u = none := by
      rw [readConversion?, hu]
      rfl
    rw [encode_cons, hcons, List.cons_append, parseBehind, hnone, DirectiveFault.at, hcons]
    rfl

/-- The header of a directive is the same at every width, or what is wrong with it is. -/
theorem Directive.parse_encode_eq (dialect : Dialect) (cs : List Char) :
    (∃ e, ∀ w, Directive.parse dialect (encode w cs) = .error e) ∨
      ∃ fields body header, cs = fields ++ body ∧ SpellsHeader dialect fields header ∧
        ∀ w, Directive.parse dialect (encode w cs)
          = header.parseBehind dialect fields.length (encode w body) := by
  cases hheader : Header.read dialect (cs.takeWhile (·.toNat < 0x80)) with
  | error e =>
    refine .inl ⟨e, fun w ↦ ?_⟩
    rw [Directive.parse, asciiRun_encode, hheader]
    rfl
  | ok p =>
    obtain ⟨header, rest⟩ := p
    obtain ⟨fields, hrun, hfields⟩ := Header.read_sound hheader
    obtain ⟨body, rfl⟩ : ∃ body, cs = fields ++ body := by
      refine ⟨rest ++ cs.dropWhile (·.toNat < 0x80), ?_⟩
      rw [← List.append_assoc, ← hrun, List.takeWhile_append_dropWhile]
    refine .inr ⟨fields, body, header, rfl, hfields, fun w ↦ ?_⟩
    rw [← asciiRun_encode (w := w)] at hheader
    -- The header is as many characters as units.
    have hused : (Text.asciiRun (encode w (fields ++ body))).length - rest.length
        = fields.length := by
      rw [asciiRun_encode, hrun, List.length_append, Nat.add_sub_cancel]
    rw [parse_of_header hheader, hused, encode_append, encode_of_ascii hfields.ascii,
      List.drop_left' (Text.length_ofAscii fields)]

/-- **Directives of a string.** Parsing spans the same characters at every width, or it fails for
the same reason. -/
theorem Directive.parse_encode (dialect : Dialect) (cs : List Char) :
    (∃ d k, ∀ w, Directive.parse dialect (encode w cs) = .ok (d, (encode w (cs.take k)).length)) ∨
      ∃ f : DirectiveFault, f.In cs ∧
        ∀ w, Directive.parse dialect (encode w cs) = .error (f.at w) := by
  obtain ⟨e, hparse⟩ | ⟨fields, body, header, rfl, hfields, hparse⟩ := parse_encode_eq dialect cs
  · exact .inr ⟨.error e, (DirectiveFault.AtFront.of_error e cs).isIn, hparse⟩
  obtain ⟨d, k, hbehind⟩ | ⟨f, hf, hbehind⟩ := header.parseBehind_encode dialect fields.length body
  · refine .inl ⟨d, fields.length + k, fun w ↦ ?_⟩
    rw [hparse, hbehind, List.take_length_add_append, encode_append, List.length_append,
      length_encode_of_ascii hfields.ascii]
  · refine .inr ⟨f, hf.isIn.mono (List.subset_append_right _ _), fun w ↦ ?_⟩
    rw [hparse, hbehind]

/-- **Parsing does not depend on the width.** On the spellings of a string it yields one directive,
which spans the same leading characters at every width, or it fails with one error. The error shows
the width only where it shows a character beyond ASCII that stands in place of the conversion: it
holds the first unit of that character. -/
theorem parse_same_at_every_width (dialect : Dialect) (cs : List Char) :
    (∃ d front back, cs = front ++ back ∧
        ∀ w, Directive.parse dialect (encode w cs) = .ok (d, (encode w front).length)) ∨
      (∃ e, ∀ w, Directive.parse dialect (encode w cs) = .error e) ∨
        ∃ fields header c body, cs = fields ++ c :: body ∧ SpellsHeader dialect fields header ∧
          ¬ c.toNat < 0x80 ∧ ∀ w, Directive.parse dialect (encode w cs)
            = .error (.unknownConversion (unitAt (encodeChar w c) 0)) := by
  obtain herror | ⟨fields, body, header, rfl, hfields, hparse⟩ :=
    Directive.parse_encode_eq dialect cs
  · exact .inr (.inl herror)
  obtain ⟨d, k, hbehind⟩ | ⟨f, hf, hbehind⟩ := header.parseBehind_encode dialect fields.length body
  · refine .inl ⟨d, fields ++ body.take k, body.drop k, ?_, fun w ↦ ?_⟩
    · rw [List.append_assoc, List.take_append_drop]
    · rw [hparse, hbehind, encode_append, List.length_append, length_encode_of_ascii hfields.ascii]
  cases f with
  | error e => exact .inr (.inl ⟨e, fun w ↦ (hparse w).trans (hbehind w)⟩)
  | unknown c =>
    obtain ⟨tail, rfl⟩ := List.head?_eq_some_iff.mp (hf c rfl)
    by_cases hc : c.toNat < 0x80
    · -- The unit of an ASCII character is its value.
      have hin : (DirectiveFault.unknown c).In [c] := (DirectiveFault.AtFront.of_unknown c []).isIn
      refine .inr (.inl ⟨(DirectiveFault.unknown c).at .utf8, fun w ↦ ?_⟩)
      rw [hparse, hbehind, hin.at_eq (by simpa using hc) w .utf8]
    · exact .inr (.inr ⟨fields, header, c, tail, rfl, hfields, hc,
        fun w ↦ (hparse w).trans (hbehind w)⟩)

end FormatString
