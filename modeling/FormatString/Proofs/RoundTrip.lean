import Mathlib
import FormatString.Proofs.Reader.Value
import FormatString.Proofs.Template.Joined
import FormatString.Proofs.Writer.Field
import FormatString.Proofs.Writer.Rendering

/-!
# Reading back what was written

Values written by directives with spaces between them are read back by the bare conversions with
spaces between them, whatever flags, widths, precisions and length modifiers they were written with.

## The meeting point

Writing and reading never look at each other. Each item is written as some text that `Item.Shows`
describes: a core between spaces, and the core is something the bare conversion reads. A writing
call yields such a text for each item (`exists_shows`), and a reading call needs no more than that
of its input (`matchPieces_of_shows`).
-/

namespace FormatString

variable {w : Width}

/-! ## Items -/

/-- The arguments a width or a precision takes, and its value. -/
inductive Takes : Option Amount → List Arg → Option Int → Prop where
  | absent : Takes none [] none
  | literal (n : Nat) : Takes (some (.literal n)) [] (some n)
  | next {arg : Arg} {v : Int} {natural : IntType} (h : arg.integer? = some (v, natural)) :
    Takes (some (.argument none)) [arg] (some (IntType.int32.reinterpret v))

/-- What a directive can write so that the bare conversion reads it back: a value, a target of a
matching type, and what the target becomes. An integer becomes what it was taken as. -/
inductive ReadsBack (d : Directive) (precision : Option Int) : Arg → Target → Target → Prop where
  /-- Any number but a zero that precision zero hides, without grouping. Its target is whatever holds
  integers of the type it was taken as, be it a place for addresses. -/
  | integer {value : Arg} {v : Int} {natural : IntType} {target : Target}
    (hvalue : value.integer? = some (v, natural)) (hconversion : d.conversion.isInteger)
    (hgroup : d.flags.group = false) (type : IntType)
    (htype : type = d.length.intType natural d.conversion.isSigned)
    (htarget : target.intType? = some type)
    (hshown : ¬ (precision = some 0 ∧ type.reinterpret v = 0)) :
    ReadsBack d precision value target (target.storeInt (type.reinterpret v))
  /-- The same for an address. -/
  | pointer {value : Arg} {v : Int} {natural : IntType} (old : Int)
    (hvalue : value.integer? = some (v, natural)) (hconversion : d.conversion = .pointer)
    (hgroup : d.flags.group = false)
    (hshown : ¬ (precision = some 0 ∧ IntType.address.reinterpret v = 0)) :
    ReadsBack d precision value (.address old) (.address (IntType.address.reinterpret v))
  /-- Well-formed text of any width that is one word. -/
  | text {source target : Width} {cs : List Char} (old : Text target)
    (hconversion : d.conversion = .string) (hprecision : precision = none) (hne : cs ≠ [])
    (hblank : ∀ c ∈ cs, isBlank c = false) :
    ReadsBack d precision (.text ⟨source, encode source cs⟩) (.text ⟨target, old⟩)
      (.text ⟨target, encode target cs⟩)

/-- A directive with its arguments, and a target to read its value into. -/
structure Item (w : Width) where
  /-- What stands between the percent sign and the conversion letter. -/
  fields : Text w
  letter : CodeUnit w
  directive : Directive
  parsed : Directive.parse .print (fields ++ [letter]) = .ok (directive, fields.length + 1)
  widthArgs : List Arg
  width : Option Int
  takesWidth : Takes directive.width widthArgs width
  precisionArgs : List Arg
  precision : Option Int
  takesPrecision : Takes directive.precision precisionArgs precision
  value : Arg
  target : Target
  /-- What the target becomes. -/
  result : Target
  readsBack : ReadsBack directive precision value target result

namespace Item

variable (i : Item w)

/-- The directive behind its percent sign. -/
def spec : Text w := i.fields ++ [i.letter]

/-- All arguments, in the order they are taken. -/
def args : List Arg := i.widthArgs ++ (i.precisionArgs ++ [i.value])

/-- The letter to read the value back by: `i` would read a mark where there is none. -/
def readLetter : CodeUnit w := if i.letter = .ofAscii w 'i' then .ofAscii w 'd' else i.letter

end Item

/-! ## Padded text -/

/-- The text is `core` between spaces, and `core` starts with no blank itself. -/
structure Padded (text core : Text w) : Prop where
  eq : ∃ a b, text = spaces w a ++ (core ++ spaces w b)
  ne_nil : core ≠ []
  head : ∀ u ∈ core.head?, u.isBlank = false

theorem isBlank_of_mem_spaces {n : Nat} : ∀ u ∈ spaces w n, u.isBlank := by
  intro u hu
  rw [List.eq_of_mem_replicate hu, CodeUnit.isBlank_ofAscii (by decide)]
  rfl

theorem dropWhile_spaces_append (n : Nat) (s : Text w) :
    (spaces w n ++ s).dropWhile (·.isBlank) = s.dropWhile (·.isBlank) :=
  List.dropWhile_append_of_pos isBlank_of_mem_spaces

/-- The core comes first once the blanks are skipped, and then there are only spaces. -/
theorem Padded.dropWhile_append {text core : Text w} (h : Padded text core) :
    ∃ b, ∀ rest, (text ++ rest).dropWhile (·.isBlank) = core ++ (spaces w b ++ rest) := by
  obtain ⟨a, b, rfl⟩ := h.eq
  refine ⟨b, ?_⟩
  intro rest
  rw [List.append_assoc, List.append_assoc]
  refine dropWhile_isBlank_append isBlank_of_mem_spaces ?_
  rw [List.head?_append_of_ne_nil _ h.ne_nil]
  exact h.head

/-! ## One value -/

/-- The conversion to read a value back by. -/
def Conversion.forReading (k : Conversion) : Conversion := if k = autoInt then signedInt else k

namespace Conversion

variable {k : Conversion}

theorem forReading_ne_autoInt : k.forReading ≠ autoInt := by cases k <;> decide

theorem radix_forReading : k.forReading.radix = k.radix := by cases k <;> rfl

theorem eq_of_ofLetter?_autoInt {c : Char} (h : ofLetter? c = some autoInt) : c = 'i' := by
  unfold ofLetter? at h
  split at h <;> first | rfl | exact absurd h (by decide)

theorem isInteger_forReading (h : k.isInteger) : k.forReading.isInteger := by
  cases k <;> first | rfl | exact absurd h (by decide)

theorem forReading_eq_pointer_iff : k.forReading = pointer ↔ k = pointer := by
  cases k <;> decide

/-- What is written in the radix of the conversion is read back, into a target it fits. -/
theorem forReading_reads (hk : k.isInteger ∨ k = pointer) {cs : List Char} {v : Int}
    (hcs : SpellsInt k.radix cs v) {t : Target} {type : IntType}
    (htype : (if k = pointer then t.addressType? else t.intType?) = some type)
    (hv : type.min ≤ v ∧ v ≤ type.max) :
    k.forReading.Reads (Text.ofAscii w cs) t (t.storeInt v) := by
  rw [← radix_forReading] at hcs
  refine reads_integer ?_ forReading_ne_autoInt hcs ?_ hv
  · exact hk.imp isInteger_forReading forReading_eq_pointer_iff.mpr
  · rwa [if_congr forReading_eq_pointer_iff rfl rfl]

end Conversion

section Value

variable {d : Directive} {precision : Option Int} {value : Arg} (config : Config)
  (width : Option Int)

theorem Layout.precision_eq_zero_iff (d : Directive) (width precision : Option Int) :
    (Layout.of d width precision).precision = some 0 ↔ precision = some 0 := by
  rw [of]
  cases precision with
  | none => simp
  | some p =>
    rw [Option.bind_some]
    split
    · simp only [Option.some.injEq]
      omega
    · simp only [Option.some.injEq, reduceCtorEq, false_iff]
      omega

theorem Directive.field?_integer (hk : d.conversion.isInteger ∨ d.conversion = .pointer)
    {v : Int} {natural : IntType} (hvalue : value.integer? = some (v, natural))
    (p : Option Nat) :
    d.field? config p value = some (integerField (w := w) config d p v natural) := by
  rw [field?, hvalue]
  cases hconversion : d.conversion <;> first
    | rfl
    | exact absurd hk (by rw [hconversion]; decide)

/-- An integer is written as a literal between spaces. -/
theorem exists_integer (hk : d.conversion.isInteger ∨ d.conversion = .pointer)
    (hgroup : d.flags.group = false) {v : Int} {natural : IntType}
    (hvalue : value.integer? = some (v, natural))
    (hshown : ¬ (precision = some 0 ∧ (d.intType natural).reinterpret v = 0)) :
    ∃ f : Field w, d.field? config (Layout.of d width precision).precision value = some f ∧
      ∃ cs, Padded ((f.chunks (.of d width precision)).flatMap Chunk.text) (Text.ofAscii w cs) ∧
        SpellsInt d.conversion.radix cs ((d.intType natural).reinterpret v) := by
  refine ⟨_, d.field?_integer config hk hvalue _, ?_⟩
  have hzero : ¬ ((Layout.of d width precision).precision = some 0 ∧
      (d.intType natural).reinterpret v = 0) := by
    rwa [Layout.precision_eq_zero_iff]
  obtain ⟨a, cs, b, htext, hcs⟩ := integerField_text (w := w) config hgroup _ v natural hzero
  obtain ⟨c, tail, hcons, hblank⟩ := hcs.exists_cons
  have hascii := hcs.ascii
  subst hcons
  refine ⟨c :: tail, ⟨⟨a, b, htext⟩, List.cons_ne_nil _ _, ?_⟩, hcs⟩
  rintro u ⟨⟩
  rwa [CodeUnit.isBlank_ofAscii (hascii c List.mem_cons_self)]

/-- **One value.** What a directive writes for it is a core between spaces, and the core is read
back. -/
theorem ReadsBack.exists_field {t t' : Target} (h : ReadsBack d precision value t t') :
    ∃ f : Field w, d.field? config (Layout.of d width precision).precision value = some f ∧
      ∃ core, Padded ((f.chunks (.of d width precision)).flatMap Chunk.text) core ∧
        d.conversion.forReading.Reads core t t' := by
  cases h with
  | @integer _ v natural _ hvalue hconversion hgroup type htype htarget hshown =>
    have hne : d.conversion ≠ .pointer := by
      intro hpointer
      rw [hpointer] at hconversion
      exact absurd hconversion (by decide)
    have hintType : d.intType natural = type := by rw [htype, Directive.intType, if_neg hne]
    rw [← hintType] at hshown
    obtain ⟨f, hf, cs, hpadded, hcs⟩ :=
      exists_integer (w := w) config width (.inl hconversion) hgroup hvalue hshown
    rw [hintType] at hcs
    refine ⟨f, hf, _, hpadded, ?_⟩
    refine Conversion.forReading_reads (.inl hconversion) hcs ?_ (type.reinterpret_mem v)
    rw [if_neg hne, htarget]
  | @pointer _ v natural old hvalue hconversion hgroup hshown =>
    have hintType : d.intType natural = .address := if_pos hconversion
    rw [← hintType] at hshown
    obtain ⟨f, hf, cs, hpadded, hcs⟩ :=
      exists_integer (w := w) config width (.inr hconversion) hgroup hvalue hshown
    rw [hintType] at hcs
    refine ⟨f, hf, _, hpadded, ?_⟩
    rw [← IntType.address.reinterpret_reinterpret v]
    refine Conversion.forReading_reads (.inr hconversion) hcs (t := .address old) ?_
      (IntType.address.reinterpret_mem v)
    rw [if_pos hconversion]
    rfl
  | @text source target cs old hconversion hprecision hne hblank =>
    subst hprecision
    have hfield : d.field? config (Layout.of d width none).precision
        (.text ⟨source, encode source cs⟩) = some (⟨[], encode w cs, false⟩ : Field w) := by
      rw [Directive.field?, hconversion]
      change some (⟨[], transcode w (encode source cs), false⟩ : Field w) = _
      rw [transcode_encode]
    refine ⟨_, hfield, encode w cs, ⟨textField_text _ _, encode_ne_nil hne, ?_⟩, ?_⟩
    · intro u hu
      exact isBlank_of_mem_encode hblank u (List.mem_of_mem_head? hu)
    · rw [hconversion]
      refine Conversion.reads_word (encode_ne_nil hne) (isBlank_of_mem_encode hblank) ?_
      rw [Target.storeText?, transcode_encode]

end Value

/-! ## The format strings -/

theorem ReadsBack.conversion {d : Directive} {precision : Option Int} {value : Arg} {t t' : Target}
    (h : ReadsBack d precision value t t') :
    d.conversion.isInteger ∨ d.conversion = .pointer ∨ d.conversion = .string := by
  cases h with
  | integer _ hconversion => exact .inl hconversion
  | pointer _ _ hconversion => exact .inr (.inl hconversion)
  | text _ hconversion => exact .inr (.inr hconversion)

namespace Item

variable (i : Item w)

/-- The directive to read the value back by. -/
def readDirective : Directive := .bare i.directive.conversion.forReading i.directive.upper

theorem conversion_ne {k : Conversion} (hk : ¬ (k.isInteger ∨ k = .pointer ∨ k = .string)) :
    i.directive.conversion ≠ k := by
  rintro rfl
  exact hk i.readsBack.conversion

/-- The directive of an item is spelled in characters. -/
theorem exists_spells : ∃ fields c, i.spec = Text.ofAscii w (fields ++ [c]) ∧
    i.letter = .ofAscii w c ∧ SpellsDirective .print fields c i.directive := by
  obtain ⟨fields, c, body, hspec, hspells, -, hlength⟩ :=
    (Directive.parse_eq_ok_iff_of_ne (i.conversion_ne (by decide))).mp i.parsed
  -- The directive spans the whole of it, so nothing is left behind the letter.
  have hbody : body = [] := by
    have hlengths := congrArg List.length hspec
    simp only [List.length_append, Text.length_ofAscii, List.length_singleton] at hlengths
    exact List.length_eq_zero_iff.mp (by omega)
  subst hbody
  rw [List.append_nil] at hspec
  refine ⟨fields, c, hspec, ?_, hspells⟩
  rw [Text.ofAscii_append] at hspec
  exact (List.append_inj' hspec rfl).2 |> List.singleton_inj.mp

theorem isDirective : IsDirective .print i.spec i.directive where
  parse := by
    rw [spec, i.parsed, List.length_append, List.length_singleton]
  ne_percent := by
    obtain ⟨fields, c, hspec, -, hspells⟩ := i.exists_spells
    have hne : ¬ (fields = [] ∧ c = '%') := by
      rintro ⟨-, rfl⟩
      exact i.conversion_ne (k := .percent) (by decide) (Option.some.inj hspells.letter).symm
    have hnext := hspells.percentNext_eq hne (w := w) []
    rwa [List.append_nil, ← hspec] at hnext

/-- The letter to read by is that of the conversion to read by. -/
theorem exists_readLetter : ∃ a, i.readLetter = .ofAscii w a ∧ a.toNat < 0x80 ∧ a ≠ '%' ∧
    a.isUpper = i.directive.upper ∧
    Conversion.ofLetter? a = some i.directive.conversion.forReading := by
  obtain ⟨fields, c, -, hletter, hspells⟩ := i.exists_spells
  have hconversion := hspells.letter
  rw [readLetter, hletter, hspells.upper]
  -- All letters stay as they are but `i`, which reads numbers of any mark.
  by_cases hauto : c = 'i'
  · subst hauto
    refine ⟨'d', if_pos rfl, by decide, by decide, rfl, ?_⟩
    rw [← Option.some.inj hconversion]
    rfl
  · have hunit : CodeUnit.ofAscii w c ≠ .ofAscii w 'i' := by
      intro hunit
      have hspelled := CodeUnit.spells_ofAscii (w := w) (d := 'i') hspells.letter_ascii
      rw [hunit, CodeUnit.spells_ofAscii (by decide)] at hspelled
      exact hauto (beq_iff_eq.mp hspelled.symm)
    refine ⟨c, if_neg hunit, hspells.letter_ascii, ?_, rfl, ?_⟩
    · rintro rfl
      exact i.conversion_ne (k := .percent) (by decide) (Option.some.inj hconversion).symm
    · rw [Conversion.forReading, if_neg, hconversion]
      intro hk
      rw [hk] at hconversion
      exact hauto (Conversion.eq_of_ofLetter?_autoInt hconversion)

/-- The letter spells the directive to read the value back by. -/
theorem isDirective_read : IsDirective .scan [i.readLetter] i.readDirective := by
  have hne : i.directive.conversion.forReading ≠ .charSet := by
    have hk := i.conversion_ne (k := .charSet) (by decide)
    generalize i.directive.conversion = k at hk
    cases k <;> first | exact Conversion.noConfusion | exact absurd rfl hk
  obtain ⟨a, ha, hascii, hpercent, hupper, hconversion⟩ := i.exists_readLetter
  rw [ha]
  refine ⟨?_, ?_⟩
  · rw [readDirective, ← hupper]
    exact Directive.parse_bare (by decide) hconversion hne
  · change (CodeUnit.ofAscii w a).spells '%' = false
    rw [CodeUnit.spells_ofAscii hascii]
    exact beq_eq_false_iff_ne.mpr hpercent

end Item

/-! ## Writing -/

theorem Takes.takeAmount {amount : Option Amount} {args : List Arg} {v : Option Int}
    (h : Takes amount args v) (n : Nat) (rest : List Arg) :
    ∃ m, (ArgSource.sequential ⟨n, args ++ rest⟩).takeAmount amount
      = ⟨.ok v, .sequential ⟨m, rest⟩⟩ := by
  cases h with
  | absent => exact ⟨n, rfl⟩
  | literal => exact ⟨n, rfl⟩
  | next hvalue =>
    refine ⟨n + 1, ?_⟩
    rw [ArgSource.takeAmount, List.singleton_append, ArgSource.take_cons, Taken.andThen_ok,
      hvalue]

namespace Item

variable (i : Item w)

/-- The item may be written as the text. -/
def Shows (text : Text w) : Prop :=
  ∃ core, Padded text core ∧ i.directive.conversion.forReading.Reads core i.target i.result

/-- **Writing an item.** Its directive takes the arguments of the item and writes what it shows. -/
theorem exists_outcome (config : Config) (written n : Nat) (rest : List Arg) {p : Located w}
    (hp : p.piece = .directive i.directive) :
    ∃ text, i.Shows text ∧ ∃ m,
      (renderPieces config written (.sequential ⟨n, i.args ++ rest⟩) [p]).outcome
        = ⟨.ok text.length, text, [], .sequential ⟨m, rest⟩⟩ := by
  obtain ⟨f, hf, core, hpadded, hreads⟩ := i.readsBack.exists_field (w := w) config i.width
  refine ⟨_, ⟨core, hpadded, hreads⟩, ?_⟩
  obtain ⟨m₁, hwidth⟩ := i.takesWidth.takeAmount n (i.precisionArgs ++ ([i.value] ++ rest))
  obtain ⟨m₂, hprecision⟩ := i.takesPrecision.takeAmount m₁ ([i.value] ++ rest)
  refine ⟨m₂ + 1, ?_⟩
  have hrender : i.directive.render config written (.sequential ⟨n, i.args ++ rest⟩)
      = ⟨.ok ((f.chunks (.of i.directive i.width i.precision)).map .put),
          .sequential ⟨m₂ + 1, rest⟩⟩ := by
    rw [args, List.append_assoc, List.append_assoc, Directive.render, hwidth, Taken.andThen_ok,
      hprecision, Taken.andThen_ok, if_neg (i.conversion_ne (by decide)), List.singleton_append,
      ArgSource.take_cons, Taken.andThen_ok,
      Directive.output?_of_field (i.conversion_ne (by decide)) hf]
  rw [outcome_singleton, Located.render, hp]
  dsimp only
  rw [hrender]
  dsimp only
  rw [outputText_map_put, filterMap_stored?_map_put, ← length_outputText, outputText_map_put]

end Item

/-- **Writing items.** Each item shows itself, with single spaces between the items. -/
theorem exists_shows (config : Config) (items : List (Item w)) {ps : List (Located w)}
    (hps : ps.map Located.piece = joinedPieces w (items.map Item.directive)) (written n : Nat) :
    ∃ texts, List.Forall₂ Item.Shows items texts ∧ ∃ m,
      (renderPieces config written (.sequential ⟨n, items.flatMap Item.args⟩) ps).outcome
        = ⟨.ok (spaced texts).length, spaced texts, [], .sequential ⟨m, []⟩⟩ := by
  induction items generalizing ps written n with
  | nil =>
    obtain rfl := List.map_eq_nil_iff.mp hps
    exact ⟨[], .nil, n, rfl⟩
  | cons i items ih =>
    cases items with
    | nil =>
      obtain ⟨p, rfl, hp⟩ := List.map_eq_singleton_iff.mp hps
      obtain ⟨text, htext, m, houtcome⟩ := i.exists_outcome config written n [] hp
      refine ⟨[text], .cons htext .nil, m, ?_⟩
      rw [List.flatMap_singleton, spaced_singleton, ← houtcome, List.append_nil]
    | cons j items =>
      obtain ⟨p, ps, rfl, hp, hps⟩ := List.map_eq_cons_iff.mp hps
      obtain ⟨q, ps, rfl, hq, hps⟩ := List.map_eq_cons_iff.mp hps
      obtain ⟨text, htext, m, houtcome⟩ :=
        i.exists_outcome config written n ((j :: items).flatMap Item.args) hp
      obtain ⟨texts, htexts, k, hrest⟩ := ih hps (written + text.length + 1) m
      -- The piece between two directives is the space that separates what they write.
      have hspace (written : Nat) (source : ArgSource) :
          (renderPieces config written source [q]).outcome
            = ⟨.ok 1, [.ofAscii w ' '], [], source⟩ := by
        rw [outcome_singleton, Located.render, hq]
        rfl
      cases htexts with
      | @cons _ text' _ texts htext' htexts =>
        refine ⟨text :: text' :: texts, .cons htext (.cons htext' htexts), k, ?_⟩
        rw [List.flatMap_cons, outcome_cons_of_ok houtcome, outcome_cons_of_ok (hspace _ _),
          List.length_singleton, hrest, spaced_cons_cons]
        simp only [Outcome.followedBy, Except.map, List.length_append, List.length_singleton,
          List.append_nil]

/-! ## Reading -/

/-- **Reading an item.** The bare conversion takes the core and leaves the spaces behind it. -/
theorem Item.exists_match (i : Item w) {text rest : Text w} (htext : i.Shows text)
    {s : ReadState w} (hs : s.rest.dropWhile (·.isBlank) = (text ++ rest).dropWhile (·.isBlank))
    (hrest : BlankUnitNext rest) {pending : List Target}
    (hpending : s.pending = i.target :: pending) {p : Located w}
    (hp : p.piece = .directive i.readDirective) :
    ∃ s', s.matchPiece p = .ok s' ∧
      s'.rest.dropWhile (·.isBlank) = rest.dropWhile (·.isBlank) ∧ s.Took s' [i.result] := by
  obtain ⟨core, hpadded, hreads⟩ := htext
  obtain ⟨b, hb⟩ := hpadded.dropWhile_append
  rw [hb] at hs
  have hnext : BlankUnitNext (spaces w b ++ rest) := by
    cases b with
    | zero => exact hrest
    | succ b =>
      rintro u ⟨⟩
      exact isBlank_of_mem_spaces (n := 1) _ List.mem_cons_self
  obtain ⟨s', hmatch, hleft, htook⟩ :=
    hreads s i.directive.upper p.offset _ pending hs hnext hpending
  refine ⟨s', ?_, by rw [hleft, dropWhile_spaces_append], htook⟩
  rw [ReadState.matchPiece, hp]
  exact hmatch

/-- **Reading items.** From texts that show the items, the bare conversions read all of them. -/
theorem matchPieces_of_shows {items : List (Item w)} {texts : List (Text w)}
    (h : List.Forall₂ Item.Shows items texts) {ps : List (Located w)}
    (hps : ps.map Located.piece = joinedPieces w (items.map Item.readDirective)) {s : ReadState w}
    (hs : s.rest.dropWhile (·.isBlank) = (spaced texts).dropWhile (·.isBlank))
    (hpending : s.pending = items.map Item.target) :
    ∃ s', matchPieces s ps = (s', none) ∧ s.Took s' (items.map Item.result) := by
  -- Blanks are skipped in front of every value, so what counts of the input is what is behind them.
  induction h generalizing ps s with
  | nil =>
    obtain rfl := List.map_eq_nil_iff.mp hps
    exact ⟨s, rfl, .refl s⟩
  | @cons i text items texts htext hrest ih =>
    cases hrest with
    | nil =>
      obtain ⟨p, rfl, hp⟩ := List.map_eq_singleton_iff.mp hps
      rw [spaced_singleton, ← List.append_nil text] at hs
      obtain ⟨s', hmatch, -, htook⟩ :=
        i.exists_match htext hs (by simp [BlankUnitNext]) hpending hp
      exact ⟨s', by rw [matchPieces, hmatch]; rfl, htook⟩
    | @cons j text' items texts htext' htexts =>
      obtain ⟨p, ps, rfl, hp, hps⟩ := List.map_eq_cons_iff.mp hps
      obtain ⟨q, ps, rfl, hq, hps⟩ := List.map_eq_cons_iff.mp hps
      rw [spaced_cons_cons] at hs
      have hblank : (CodeUnit.ofAscii w ' ').isBlank := by
        rw [CodeUnit.isBlank_ofAscii (by decide)]
        rfl
      obtain ⟨s₁, hmatch, hleft, htook⟩ :=
        i.exists_match htext hs (by rintro u ⟨⟩; exact hblank) hpending hp
      have hspace : s₁.matchPiece q = .ok s₁.skipBlanks := by
        rw [ReadState.matchPiece, hq]
        change (s₁.matchLiteral (.ofAscii w ' ')).bind _ = _
        rw [ReadState.matchLiteral, if_pos hblank]
        rfl
      have hskipped : s₁.skipBlanks.rest.dropWhile (·.isBlank)
          = (spaced (text' :: texts)).dropWhile (·.isBlank) := by
        rw [ReadState.rest_skipBlanks, List.dropWhile_idempotent, hleft, List.singleton_append,
          List.dropWhile_cons_of_pos hblank]
      have hpending₁ : s₁.skipBlanks.pending = (j :: items).map Item.target := by
        change s₁.pending = _
        rw [htook.pending, hpending]
        rfl
      obtain ⟨s', hmatches, htooks⟩ := ih hps hskipped hpending₁
      refine ⟨s', ?_, htook.trans htooks.of_skipBlanks⟩
      rw [matchPieces, hmatch]
      dsimp only
      rw [matchPieces, hspace]
      exact hmatches

/-! ## The round trip -/

section RoundTrip

variable {dialect : Dialect} {items : List (Item w)}

/-- Items are written and read by joined directives. -/
theorem map_piece_pieces_joined {spec : Item w → Text w} {directive : Item w → Directive}
    (h : ∀ i, IsDirective dialect (spec i) (directive i)) (items : List (Item w)) :
    (pieces dialect (joined (items.map spec))).map Located.piece
      = joinedPieces w (items.map directive) := by
  refine map_piece_piecesFrom_joined ?_ 0
  rw [List.forall₂_map_left_iff, List.forall₂_map_right_iff, List.forall₂_same]
  intro i _
  exact h i

/-- **Round trip.** Values written by directives with spaces between them are read back by the bare
conversions with spaces between them: every target becomes what it should, and nothing is found
fault with. -/
theorem scan_format (config : Config) (items : List (Item w)) :
    let written := config.format (joined (items.map Item.spec)) (items.flatMap Item.args)
    let reading := scan written.sink (joined (items.map fun i ↦ [i.readLetter]))
      (items.map Item.target)
    written.result = .ok written.sink.length ∧ reading.result = .ok items.length ∧
      reading.targets = items.map Item.result ∧ reading.diagnostics = [] := by
  obtain ⟨texts, htexts, m, houtcome⟩ :=
    exists_shows config items (map_piece_pieces_joined Item.isDirective items) 0 0
  have hwritten : config.format (joined (items.map Item.spec)) (items.flatMap Item.args)
      = ⟨.ok (spaced texts).length, spaced texts, [], .sequential ⟨m, []⟩⟩ := by
    rw [← houtcome, config.format_eq]
  obtain ⟨s, hmatches, htook⟩ := matchPieces_of_shows htexts
    (map_piece_pieces_joined Item.isDirective_read items)
    (s := { rest := spaced texts, pending := items.map Item.target }) rfl rfl
  have hpending : s.pending = [] := by
    rw [htook.pending, List.length_map, List.drop_eq_nil_iff, List.length_map]
  have hreading : scan (spaced texts) (joined (items.map fun i ↦ [i.readLetter]))
      (items.map Item.target) = readingOf (spaced texts).isEmpty s none := by
    rw [scan, hmatches]
  intro written reading
  have hsink : written.sink = spaced texts := congrArg Outcome.sink hwritten
  have hread : reading = readingOf (spaced texts).isEmpty s none := by
    rw [← hreading, ← hsink]
  rw [hread]
  refine ⟨(congrArg Outcome.result hwritten).trans (by rw [hsink]), ?_, ?_, ?_⟩
  · rw [readingOf, htook.assigned, List.length_map, Nat.zero_add]
  · change s.stored ++ s.pending = _
    rw [hpending, List.append_nil, htook.stored, List.nil_append]
  · change s.clamped.map _ ++ [] = _
    rw [htook.clamped, List.map_nil, List.append_nil]

/-- A number in the marked form and a word whose width is an argument, each in a larger field, and
minus one as a size, for an address. -/
theorem scan_format_number_word :
    ∃ items : List (Item .utf8),
      items.map Item.spec
        = [['#', '-', '8', 'h', 'h', 'x'], ['*', 's'], ['z', 'u']].map (Text.ofAscii .utf8) ∧
      items.flatMap Item.args = [.integer .int32 (-1), .integer .int32 (-6),
        .text ⟨.utf32, encode .utf32 ['n', 'é']⟩, .integer .int32 (-1)] ∧
      items.map Item.target = [.integer ⟨.w8, false⟩ 0, .text ⟨.utf16, []⟩, .address 99] ∧
      (scan ((({} : Config).format (joined (items.map Item.spec)) (items.flatMap Item.args)).sink)
        (joined (items.map fun i ↦ [i.readLetter])) (items.map Item.target)).targets
          = [.integer ⟨.w8, false⟩ 255, .text ⟨.utf16, encode .utf16 ['n', 'é']⟩,
            .address 18446744073709551615] := by
  let number : Item .utf8 :=
    { fields := Text.ofAscii .utf8 ['#', '-', '8', 'h', 'h']
      letter := .ofAscii .utf8 'x'
      directive := ⟨.hexLower, false, { alt := true, left := true }, .shorter, some (.literal 8),
        none, none, none⟩
      parsed := by decide
      widthArgs := []
      width := some 8
      takesWidth := .literal 8
      precisionArgs := []
      precision := none
      takesPrecision := .absent
      value := .integer .int32 (-1)
      target := .integer ⟨.w8, false⟩ 0
      result := .integer ⟨.w8, false⟩ 255
      readsBack := @ReadsBack.integer _ _ (.integer .int32 (-1)) (-1) .int32
        (.integer ⟨.w8, false⟩ 0) rfl rfl rfl ⟨.w8, false⟩ rfl rfl (by decide) }
  let word : Item .utf8 :=
    { fields := Text.ofAscii .utf8 ['*']
      letter := .ofAscii .utf8 's'
      directive := ⟨.string, false, {}, .none, some (.argument none), none, none, none⟩
      parsed := by decide
      widthArgs := [.integer .int32 (-6)]
      width := some (-6)
      takesWidth := .next (v := -6) rfl
      precisionArgs := []
      precision := none
      takesPrecision := .absent
      value := .text ⟨.utf32, encode .utf32 ['n', 'é']⟩
      target := .text ⟨.utf16, []⟩
      result := .text ⟨.utf16, encode .utf16 ['n', 'é']⟩
      readsBack := .text [] rfl rfl (by decide) (by simp [isBlank]) }
  let size : Item .utf8 :=
    { fields := Text.ofAscii .utf8 ['z']
      letter := .ofAscii .utf8 'u'
      directive := ⟨.unsignedInt, false, {}, .size, none, none, none, none⟩
      parsed := by decide
      widthArgs := []
      width := none
      takesWidth := .absent
      precisionArgs := []
      precision := none
      takesPrecision := .absent
      value := .integer .int32 (-1)
      target := .address 99
      result := .address 18446744073709551615
      readsBack := @ReadsBack.integer _ _ (.integer .int32 (-1)) (-1) .int32 (.address 99)
        rfl rfl rfl .address rfl rfl (by decide) }
  exact ⟨[number, word, size], rfl, rfl, rfl, (scan_format {} [number, word, size]).2.2.1⟩

end RoundTrip

end FormatString
