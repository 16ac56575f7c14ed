import Mathlib
import FormatString.Proofs.Template.Encoded
import FormatString.Proofs.Writer.Encoded
import FormatString.Proofs.Writer.Requests

/-!
# Writing strings

A writing call whose format string is spelled from a string writes the same characters at every
width, and fails at the same directive if it fails. It has to be given well-formed text, and its
directives must not ask for what shows the width: padding of text beyond ASCII, or a code point that
is no character. If everything is ASCII, then one character is one unit, and not even lengths, counts
and offsets show the width.
-/

namespace FormatString

variable {w : Width} {config : Config}

/-! ## Answers -/

/-- What is put out, in characters, and the cells that store how much was written before. -/
structure StringOutput where
  text : List Char
  cells : List Nat

/-- The actions put out the characters, and store the count in the cells. -/
structure StringOutput.Matches (o : StringOutput) (written : Nat) (actions : List (Action w)) :
    Prop where
  text : outputText actions = encode w o.text
  counts : actions.filterMap Action.stored? = o.cells.map (·, written)

namespace StringOutput.Matches

theorem literal (run : List Char) (written : Nat) :
    (⟨run, []⟩ : StringOutput).Matches (w := w) written [.put (.units (encode w run))] :=
  ⟨List.append_nil _, rfl⟩

theorem percent (written : Nat) :
    (⟨['%'], []⟩ : StringOutput).Matches (w := w) written [.put (.units [.ofAscii w '%'])] := by
  refine ⟨?_, rfl⟩
  rw [encode_of_ascii (by simp)]
  rfl

end StringOutput.Matches

namespace Request

variable {r : Request}

/-- What is asked for does not show the width of the output. -/
structure Portable (config : Config) (r : Request) : Prop where
  /-- An integer that is written as a character is one. -/
  scalar : r.directive.conversion = .char → ∀ n ∈ r.arg.codePoint?, 0 ≤ n ∧ n.toNat.isValidChar
  /-- A directive with a field width puts out ASCII. -/
  ascii : r.layout.width ≠ 0 → ∀ actions ∈ r.output? (w := .utf8) config 0,
    ∀ u ∈ outputText actions, u.value < 0x80

instance : Decidable (r.Portable config) :=
  decidable_of_iff
    ((r.directive.conversion = .char → ∀ n ∈ r.arg.codePoint?, 0 ≤ n ∧ n.toNat.isValidChar) ∧
      (r.layout.width ≠ 0 → ∀ actions ∈ r.output? (w := .utf8) config 0,
        ∀ u ∈ outputText actions, u.value < 0x80))
    ⟨fun h ↦ ⟨h.1, h.2⟩, fun h ↦ ⟨h.1, h.2⟩⟩

/-- The settings and what is written are ASCII. -/
structure Ascii (config : Config) (r : Request) : Prop where
  separator : config.separator.toNat < 0x80
  arg : r.arg.Ascii
  codePoint : r.directive.conversion = .char → ∀ n ∈ r.arg.codePoint?, n < 0x80

/-- **A value is converted** to the same characters at every width. -/
theorem uniformField (hwf : r.arg.WellFormed) (hr : r.Portable config) :
    UniformField (r.Ascii config)
      fun w ↦ r.directive.field? (w := w) config r.layout.precision r.arg := by
  have hchar (hd : r.directive.conversion = .char) : UniformField (r.Ascii config)
      fun w ↦ (charText? w r.arg).map (⟨[], ·, false⟩) :=
    (UniformField.char hwf (hr.scalar hd)).mono fun h ↦ ⟨h.arg, h.codePoint hd⟩
  have hstring : UniformField (r.Ascii config)
      fun w ↦ (stringText? w r.layout.precision r.arg).map (⟨[], ·, false⟩) :=
    (UniformField.string hwf r.layout.precision).mono Ascii.arg
  have hfloat : UniformField (r.Ascii config) fun w ↦
      r.arg.float?.map (floatField (w := w) config r.directive r.layout.precision) :=
    .map fun x ↦ (UniformField.float config _ _ x).mono Ascii.separator
  have hinteger : UniformField (r.Ascii config) fun w ↦ r.arg.integer?.map fun x ↦
      integerField (w := w) config r.directive r.layout.precision x.1 x.2 :=
    .map fun x ↦ (UniformField.integer config _ _ x.1 x.2).mono Ascii.separator
  unfold Directive.field?
  cases hd : r.directive.conversion with
  | floatSci | floatFixed | floatShortest => exact hfloat
  | char => exact hchar hd
  | string => exact hstring
  | countWritten | charSet | percent => exact .none
  | _ => exact hinteger

theorem output?_eq_map (h : ∀ cell, r.directive.conversion = .countWritten → r.arg ≠ .count cell)
    (config : Config) (w : Width) (written : Nat) : r.output? (w := w) config written
      = (r.directive.field? config r.layout.precision r.arg).map
          fun f ↦ (f.chunks r.layout).map .put := by
  rw [output?, Directive.output?.eq_def]
  split
  · next hconversion harg => exact absurd harg (h _ hconversion)
  · rfl

/-- **A request is answered** by the same characters at every width, or it does not suit at any. -/
theorem exists_output (hwf : r.arg.WellFormed) (hr : r.Portable config) :
    (∀ w written, r.output? (w := w) config written = none) ∨
      ∃ o : StringOutput, (r.Ascii config → ∀ c ∈ o.text, c.toNat < 0x80) ∧
        ∀ w written, ∃ actions, r.output? (w := w) config written = some actions ∧
          o.Matches written actions := by
  by_cases hcount : ∃ cell, r.directive.conversion = .countWritten ∧ r.arg = .count cell
  · obtain ⟨cell, hconversion, harg⟩ := hcount
    refine .inr ⟨⟨[], [cell]⟩, by simp, fun w written ↦ ⟨[.count cell written], ?_, rfl, rfl⟩⟩
    rw [output?, Directive.output?.eq_def, hconversion, harg]
  have houtput := output?_eq_map (fun cell hconversion harg ↦ hcount ⟨cell, hconversion, harg⟩)
    config
  obtain ⟨_ | f, hf, hascii⟩ := uniformField hwf hr
  all_goals dsimp only at hf
  · refine .inl fun w written ↦ ?_
    rw [houtput, hf]
    rfl
  · obtain ⟨hhead, hbody⟩ := hascii f rfl
    have hactions (w : Width) (written : Nat) : r.output? (w := w) config written
        = some (((f.at w).chunks r.layout).map .put) := by
      rw [houtput, hf]
      rfl
    -- The body of a padded field is part of the output, so it is ASCII.
    have hpadding : r.layout.width = 0 ∨ ∀ c ∈ f.body, c.toNat < 0x80 := by
      refine or_iff_not_imp_left.mpr fun hwidth ↦ ascii_of_encode (w := .utf8) fun u hu ↦ ?_
      refine hr.ascii hwidth _ (hactions .utf8 0) u ?_
      obtain ⟨a, z, b, htext, -⟩ := (f.at .utf8).text_chunks r.layout
      rw [outputText_map_put, htext]
      exact List.mem_append_left _ (List.mem_append_right _ hu)
    refine .inr ⟨⟨f.padded r.layout, []⟩, fun h ↦ f.ascii_padded hhead (hbody h) r.layout,
      fun w written ↦ ⟨_, hactions w written, ?_, filterMap_stored?_map_put _⟩⟩
    rw [outputText_map_put, f.text_chunks_at hhead hpadding]

end Request

/-- **A directive** answers by the same characters at every width, or its argument does not suit. -/
theorem exists_answer {request : Option Request}
    (hrequest : ∀ r ∈ request, r.arg.WellFormed ∧ r.Portable config) (source : ArgSource) :
    (∀ w written, answer (w := w) config written request source = ⟨.error .badType, source⟩) ∨
      ∃ o : StringOutput, ((∀ r ∈ request, r.Ascii config) → ∀ c ∈ o.text, c.toNat < 0x80) ∧
        ∀ w written, ∃ actions, answer (w := w) config written request source
          = ⟨.ok actions, source⟩ ∧ o.Matches written actions := by
  rcases request with _ | r
  · exact .inr ⟨⟨['%'], []⟩, by simp, fun w written ↦ ⟨_, rfl, .percent written⟩⟩
  obtain ⟨hwf, hr⟩ := hrequest r rfl
  obtain hnone | ⟨o, hascii, ho⟩ := r.exists_output hwf hr
  · refine .inl fun w written ↦ ?_
    rw [answer, hnone]
  · refine .inr ⟨o, fun h ↦ hascii (h r rfl), fun w written ↦ ?_⟩
    obtain ⟨actions, hactions, hmatches⟩ := ho w written
    refine ⟨actions, ?_, hmatches⟩
    rw [answer, hactions]

/-! ## Pieces -/

/-- Why a call on a string fails. -/
inductive StringFault where
  | arg (f : ArgFault)
  | malformed (f : DirectiveFault)

/-- The error at an offset when the string is spelled in a width. -/
def StringFault.at (w : Width) (offset : Nat) : StringFault → FormatError
  | arg f => f.at offset
  | malformed f => .malformed offset (f.at w)

/-- What is malformed was found in the string. -/
def StringFault.In (f : StringFault) (t : List Char) : Prop := ∀ f', f = malformed f' → f'.In t

/-- In an ASCII string the width does not show. -/
theorem StringFault.In.at_eq {f : StringFault} {t : List Char} (h : f.In t)
    (ht : ∀ c ∈ t, c.toNat < 0x80) (v w : Width) (offset : Nat) : f.at v offset = f.at w offset := by
  cases f with
  | arg f => rfl
  | malformed f => exact congrArg (FormatError.malformed offset) ((h f rfl).at_eq ht v w)

section Pieces

variable {t : List Char} {source : ArgSource}

/-- **A piece** puts out the same characters at every width, or it fails for the same reason. -/
theorem LocatedString.exists_render {p : LocatedString} (hp : p.In t)
    (hrequest : ∀ r ∈ (p.at .utf8).request? source, r.arg.WellFormed ∧ r.Portable config) :
    (∃ (f : StringFault) (source' : ArgSource), f.In t ∧ ∀ w written,
        (p.at w).render config written source = (.error (f.at w (p.at w).offset), source')) ∨
      ∃ (o : StringOutput) (source' : ArgSource),
        ((∀ c ∈ t, c.toNat < 0x80) → (∀ r ∈ (p.at .utf8).request? source, r.Ascii config) →
          ∀ c ∈ o.text, c.toNat < 0x80) ∧
        ∀ w written, ∃ actions, (p.at w).render config written source
          = (.ok ⟨actions, source'⟩, source') ∧ o.Matches written actions := by
  rcases p with ⟨front, run | _ | d | f⟩
  case literal =>
    exact .inr ⟨⟨run, []⟩, source, fun ht _ c hc ↦ ht c (hp.literal run rfl hc),
      fun w written ↦ ⟨_, rfl, .literal run written⟩⟩
  case percent =>
    exact .inr ⟨⟨['%'], []⟩, source, by simp, fun w written ↦ ⟨_, rfl, .percent written⟩⟩
  case malformed =>
    refine .inl ⟨.malformed f, source, ?_, fun w written ↦ rfl⟩
    rintro f' hf
    obtain rfl := StringFault.malformed.inj hf
    exact hp.malformed f rfl
  case directive =>
    have hargFault (e : ArgFault) : (StringFault.arg e).In t := fun f hf ↦ absurd hf (by simp)
    -- What a directive asks for does not depend on the width, only the answer might.
    rcases hd : d.request source with ⟨e | request, source'⟩
    · refine .inl ⟨.arg e, source', hargFault e, fun w written ↦ ?_⟩
      refine Located.render_directive_of_error ?_
      rw [Directive.render_eq, hd, Taken.andThen_error]
    have hrequest? : (LocatedString.at .utf8 ⟨front, .directive d⟩).request? source = request :=
      Located.request?_directive hd
    rw [hrequest?] at hrequest ⊢
    obtain hbad | ⟨o, hascii, ho⟩ := exists_answer hrequest source'
    · refine .inl ⟨.arg .badType, source', hargFault _, fun w written ↦ ?_⟩
      refine Located.render_directive_of_error (e := .badType) ?_
      rw [Directive.render_eq, hd, Taken.andThen_ok, hbad]
    · refine .inr ⟨o, source', fun _ h ↦ hascii h, fun w written ↦ ?_⟩
      obtain ⟨actions, hactions, hmatches⟩ := ho w written
      refine ⟨actions, Located.render_directive ?_, hmatches⟩
      rw [Directive.render_eq, hd, Taken.andThen_ok, hactions]

end Pieces

/-! ## Runs -/

/-- The outcome of a writing call on a string, in characters. -/
structure StringOutcome where
  text : List Char
  /-- The cells that store a count, each with the characters written before. -/
  counts : List (Nat × List Char)
  /-- Why the call failed, and the number of characters in front of the directive that did. -/
  fault : Option (Nat × StringFault)
  source : ArgSource

/-- The outcome of the call when its format string `t` is spelled in a width. -/
def StringOutcome.at (t : List Char) (w : Width) (o : StringOutcome) : Outcome (Text w) where
  result := match o.fault with
    | none => .ok (encode w o.text).length
    | some (k, f) => .error (f.at w (encode w (t.take k)).length)
  sink := encode w o.text
  counts := o.counts.map fun (cell, front) ↦ (cell, (encode w front).length)
  source := o.source

/-- What is counted was written, and what is malformed was found in the format string. -/
structure StringOutcome.In (o : StringOutcome) (before t : List Char) : Prop where
  counts : ∀ p ∈ o.counts, p.2 ⊆ before ++ o.text
  fault : ∀ p ∈ o.fault, p.2.In t

section Runs

variable {t : List Char} {p : LocatedString} {ps : List LocatedString}

/-- The outcome behind an output, the characters `before` having been written before that. -/
def StringOutput.followedBy (o : StringOutput) (before : List Char) (next : StringOutcome) :
    StringOutcome where
  text := o.text ++ next.text
  counts := o.cells.map (·, before) ++ next.counts
  fault := next.fault
  source := next.source

theorem StringOutcome.In.followedBy {before : List Char} {o : StringOutput} {next : StringOutcome}
    (h : next.In (before ++ o.text) t) : (o.followedBy before next).In before t where
  counts := by
    refine List.forall_mem_append.mpr ⟨List.forall_mem_map.mpr fun _ _ ↦ ?_, ?_⟩
    · exact List.subset_append_left _ _
    · rw [StringOutput.followedBy, ← List.append_assoc]
      exact h.counts
  fault := h.fault

/-- **A piece in front.** It puts out its characters, and the outcome of the others follows. -/
theorem StringOutput.outcome_cons {o : StringOutput} {source' : ArgSource} {before : List Char}
    {source : ArgSource} {actions : List (Action w)} {next : StringOutcome}
    (hrender : (p.at w).render config (encode w before).length source
      = (.ok ⟨actions, source'⟩, source'))
    (hmatches : o.Matches (encode w before).length actions)
    (hnext : (renderPieces config (encode w (before ++ o.text)).length source'
      (ps.map (·.at w))).outcome = next.at t w) :
    (renderPieces config (encode w before).length source ((p :: ps).map (·.at w))).outcome
      = (o.followedBy before next).at t w := by
  have hfirst : (renderPieces config (encode w before).length source [p.at w]).outcome
      = ⟨.ok (encode w o.text).length, encode w o.text,
          o.cells.map (·, (encode w before).length), source'⟩ := by
    rw [outcome_singleton, hrender]
    dsimp only
    rw [← length_outputText, hmatches.text, hmatches.counts]
  have happend := outcome_append config (encode w before).length source [p.at w] (ps.map (·.at w))
  rw [hfirst, Outcome.followedBy_ok rfl] at happend
  refine happend.trans ?_
  dsimp only
  rw [← List.length_append, ← encode_append, hnext]
  rcases next with ⟨text, counts, _ | ⟨k, f⟩, source''⟩
  · simp [StringOutcome.at, followedBy, encode_append, Except.map]
  · simp [StringOutcome.at, followedBy, encode_append, Except.map]

/-- **A run** over pieces of the format string, the characters `before` having been written. -/
theorem exists_outcome_at (before : List Char) (source : ArgSource) (hps : ∀ p ∈ ps, p.In t)
    (hrequests : ∀ r ∈ requestsOf config source (ps.map (·.at .utf8)),
      r.arg.WellFormed ∧ r.Portable config) :
    ∃ o : StringOutcome, o.In before t ∧
      ((∀ c ∈ t, c.toNat < 0x80) →
        (∀ r ∈ requestsOf config source (ps.map (·.at .utf8)), r.Ascii config) →
        ∀ c ∈ o.text, c.toNat < 0x80) ∧
      ∀ w, (renderPieces config (encode w before).length source (ps.map (·.at w))).outcome
        = o.at t w := by
  induction ps generalizing before source with
  | nil =>
    exact ⟨⟨[], [], none, source⟩, ⟨by simp, by simp⟩, by simp, fun w ↦ rfl⟩
  | cons p ps ih =>
    obtain ⟨hp, hps⟩ := List.forall_mem_cons.mp hps
    rw [List.map_cons, requestsOf] at hrequests ⊢
    obtain ⟨hrequest, hrequests⟩ := List.forall_mem_append.mp hrequests
    simp only [Option.mem_toList] at hrequest
    obtain ⟨f, source', hf, hrender⟩ | ⟨o, source', hascii, hrender⟩ := p.exists_render hp hrequest
    · refine ⟨⟨[], [], some (p.front.length, f), source'⟩, ⟨by simp, ?_⟩, by simp, fun w ↦ ?_⟩
      · rintro q hq
        obtain rfl := Option.some.inj hq
        exact hf
      · rw [List.map_cons, renderPieces, hrender, p.offset_at hp]
        rfl
    -- What the other pieces ask for is known from any of the widths.
    obtain ⟨actions, hactions, -⟩ := hrender .utf8 0
    rw [hactions] at hrequests ⊢
    obtain ⟨next, hin, hascii', hnext⟩ := ih (before ++ o.text) source' hps hrequests
    refine ⟨o.followedBy before next, hin.followedBy, fun ht hr ↦ ?_, fun w ↦ ?_⟩
    · obtain ⟨hr, hr'⟩ := List.forall_mem_append.mp hr
      simp only [Option.mem_toList] at hr
      exact List.forall_mem_append.mpr ⟨hascii ht hr, hascii' ht hr'⟩
    · obtain ⟨actions, hactions, hmatches⟩ := hrender w (encode w before).length
      exact StringOutput.outcome_cons hactions hmatches (hnext w)

end Runs

/-! ## Calls -/

/-- The error without what depends on the width: its offset, and the unit it may show. -/
def FormatError.widthless : FormatError → FormatError
  | malformed _ e => malformed 0 e.widthless
  | notEnoughArguments _ => notEnoughArguments 0
  | badType _ => badType 0
  | e => e

theorem StringFault.widthless_at (f : StringFault) (v w : Width) (offset offset' : Nat) :
    (f.at v offset).widthless = (f.at w offset').widthless := by
  rcases f with ⟨_ | _⟩ | f
  · rfl
  · rfl
  · exact congrArg (FormatError.malformed 0) (f.widthless_at v w)

/-- Everything in a call is ASCII: the format string, the arguments that are text or characters, the
integers that are written as characters, and the separator. -/
structure Config.AsciiCall (config : Config) (t : List Char) (args : List Arg) : Prop where
  template : ∀ c ∈ t, c.toNat < 0x80
  text : ∀ a ∈ args, a.Ascii
  codePoints : ∀ r ∈ config.requests (encode .utf8 t) args, r.directive.conversion = .char →
    ∀ n ∈ r.arg.codePoint?, n < 0x80
  separator : config.separator.toNat < 0x80

section Calls

variable {t : List Char} {args : List Arg} {o : StringOutcome}

/-- In ASCII strings not even lengths, counts and offsets depend on the width. -/
theorem StringOutcome.In.at_eq (h : o.In [] t) (ht : ∀ c ∈ t, c.toNat < 0x80)
    (htext : ∀ c ∈ o.text, c.toNat < 0x80) (v w : Width) :
    (o.at t v).result = (o.at t w).result ∧ (o.at t v).counts = (o.at t w).counts ∧
      (o.at t v).sink.map CodeUnit.value = (o.at t w).sink.map CodeUnit.value := by
  have hlength {cs : List Char} (hcs : ∀ c ∈ cs, c.toNat < 0x80) :
      (encode v cs).length = (encode w cs).length := by
    rw [length_encode_of_ascii hcs, length_encode_of_ascii hcs]
  refine ⟨?_, ?_, ?_⟩
  · rcases o with ⟨text, counts, _ | ⟨k, f⟩, source⟩
    · exact congrArg Except.ok (hlength htext)
    · have htake : ∀ c ∈ t.take k, c.toNat < 0x80 := fun c hc ↦ ht c (List.mem_of_mem_take hc)
      have hfault := (h.fault (k, f) rfl).at_eq ht v w
      simp only [StringOutcome.at, hlength htake, hfault]
  · refine List.map_congr_left fun (cell, front) hp ↦ ?_
    have hfront : ∀ c ∈ front, c.toNat < 0x80 := fun c hc ↦ htext c (h.counts _ hp hc)
    simp only [hlength hfront]
  · exact (map_value_encode_of_ascii htext).trans (map_value_encode_of_ascii htext).symm

/-- **A call on a string** comes to one outcome in characters. -/
theorem exists_format_at (hrequests : ∀ r ∈ config.requests (encode .utf8 t) args,
      r.arg.WellFormed ∧ r.Portable config) :
    ∃ o : StringOutcome, o.In [] t ∧
      ((∀ c ∈ t, c.toNat < 0x80) →
        (∀ r ∈ config.requests (encode .utf8 t) args, r.Ascii config) →
        ∀ c ∈ o.text, c.toNat < 0x80) ∧
      ∀ w, config.format (encode w t) args = o.at t w := by
  obtain ⟨ps, hps, hpieces⟩ := exists_pieces_encode .print t
  rw [Config.requests, hpieces] at hrequests ⊢
  obtain ⟨o, hin, hascii, ho⟩ := exists_outcome_at [] _ hps hrequests
  refine ⟨o, hin, hascii, fun w ↦ ?_⟩
  rw [config.format_eq, hpieces]
  exact ho w

/-- **Writing strings.** The calls on the spellings of a format string write one string, spelled in
the width of the call, and all succeed or all fail for the same reason. For that text arguments have
to be well-formed, integers that are written as characters have to be characters, and whatever is
padded has to be ASCII. Of a call with nothing but ASCII, lengths, units, counts, errors and reports
are the same at every width. -/
theorem format_encode (config : Config) (t : List Char) (args : List Arg)
    (hargs : ∀ a ∈ args, a.WellFormed)
    (hrequests : ∀ r ∈ config.requests (encode .utf8 t) args, r.Portable config) :
    (∃ out : List Char, (∀ w, (config.format (encode w t) args).sink = encode w out) ∧
      ((∀ w, (config.format (encode w t) args).result = .ok (encode w out).length) ∨
        ∃ e, ∀ w, (config.format (encode w t) args).result.mapError FormatError.widthless
          = .error e)) ∧
      (config.AsciiCall t args → ∀ v w,
        (config.format (encode v t) args).result = (config.format (encode w t) args).result ∧
        (config.format (encode v t) args).sink.map CodeUnit.value
          = (config.format (encode w t) args).sink.map CodeUnit.value ∧
        (config.format (encode v t) args).counts = (config.format (encode w t) args).counts ∧
        (config.format (encode v t) args).diagnostics
          = (config.format (encode w t) args).diagnostics) := by
  have hall {P : Arg → Prop} (hP : ∀ a ∈ args, P a) :
      ∀ r ∈ config.requests (encode .utf8 t) args, P r.arg := by
    have hsource : (ArgSource.sequential (.ofArgs args)).All P := hP
    exact hsource.requestsOf config _
  have hrequests' : ∀ r ∈ config.requests (encode .utf8 t) args,
      r.arg.WellFormed ∧ r.Portable config := fun r hr ↦ ⟨hall hargs r hr, hrequests r hr⟩
  obtain ⟨o, hin, hascii, ho⟩ := exists_format_at hrequests'
  simp only [ho]
  refine ⟨⟨o.text, fun w ↦ rfl, ?_⟩, fun hcall v w ↦ ?_⟩
  · rcases o with ⟨text, counts, _ | ⟨k, f⟩, source⟩
    · exact .inl fun w ↦ rfl
    · exact .inr ⟨_, fun w ↦ congrArg Except.error (f.widthless_at w .utf8 _ 0)⟩
  · have htext := hascii hcall.template fun r hr ↦
      ⟨hcall.separator, hall hcall.text r hr, hcall.codePoints r hr⟩
    obtain ⟨hresult, hcounts, hvalues⟩ := hin.at_eq hcall.template htext v w
    exact ⟨hresult, hvalues, hcounts, by rw [Outcome.diagnostics, hresult, Outcome.diagnostics]⟩

/-- `é%4d %'d %s%c` writes padding in front of ASCII, a separator and two texts beyond it; `%4d%n` is
a call with nothing but ASCII, whose count is the same at every width. -/
theorem format_encode_mixed :
    let config : Config := { separator := '·' }
    let t := ['é', '%', '4', 'd', ' ', '%', '\'', 'd', ' ', '%', 's', '%', 'c']
    let args := [Arg.integer .int32 (-7), .integer .int32 12345,
      .text ⟨.utf16, encode .utf16 ['ñ', '→']⟩, .integer .int32 0x1F600]
    let ascii := ['%', '4', 'd', '%', 'n']
    let asciiArgs := [Arg.integer .int32 7, .count 0]
    ((∀ a ∈ args, a.WellFormed) ∧
      (∀ r ∈ config.requests (encode .utf8 t) args, r.Portable config) ∧
      (config.format (encode .utf32 t) args).sink = encode .utf32
        ['é', ' ', ' ', '-', '7', ' ', '1', '2', '·', '3', '4', '5', ' ', 'ñ', '→', '😀']) ∧
      Config.AsciiCall {} ascii asciiArgs ∧
      (Config.format {} (encode .utf32 ascii) asciiArgs).counts = [(0, 4)] := by
  intro config t args ascii asciiArgs
  have hargs : ∀ a ∈ args, a.WellFormed := by
    simp only [args, List.forall_mem_cons]
    exact ⟨trivial, trivial, ⟨['ñ', '→'], rfl⟩, trivial, by simp⟩
  have hrequests : ∀ r ∈ config.requests (encode .utf8 t) args, r.Portable config := by
    decide +kernel
  have hascii : Config.AsciiCall {} ascii asciiArgs :=
    ⟨by simp [ascii], by simp [asciiArgs, Arg.Ascii], by decide +kernel, by decide⟩
  refine ⟨⟨hargs, hrequests, ?_⟩, hascii, ?_⟩
  · obtain ⟨⟨out, hout, -⟩, -⟩ := format_encode config t args hargs hrequests
    have hwritten : encode .utf8 out = encode .utf8
        ['é', ' ', ' ', '-', '7', ' ', '1', '2', '·', '3', '4', '5', ' ', 'ñ', '→', '😀'] := by
      rw [← hout]
      decide +kernel
    have hchars := congrArg (fun s ↦ (characters s).map Spelled.char) hwritten
    simp only [characters_encode] at hchars
    rw [hout, hchars]
  · have hcall := (format_encode {} ascii asciiArgs (by simp [asciiArgs, Arg.WellFormed])
      (by decide +kernel)).2 hascii .utf32 .utf8
    rw [hcall.2.2.1]
    decide +kernel

end Calls

end FormatString
