import Mathlib
import FormatString.Proofs.Access.Slice
import FormatString.Proofs.Text.Prefix
import FormatString.Proofs.Writer.Padding

/-!
# The precision of a string

The precision of a string directive counts characters of the argument, well-formed or not. The
argument is cut in its own width and moved to that of the output afterwards, and the other order
would do as well; so the precision can be told from the output alone, as the number of characters it
leaves of what is put out without one.
-/

namespace FormatString

variable {w : Width}

/-- The text a string directive shows of an argument. -/
def Arg.string? : Arg → Option AnyText
  | text s => some s
  | nullText => some (.ofChars "(null)".toList)
  | _ => none

/-- An argument that is shown is cut after so many characters and moved to the width of the
output. -/
theorem stringText?_eq (precision : Option Nat) (arg : Arg) :
    stringText? w precision arg = arg.string?.map fun s ↦
      transcode w ((precision.map (charPrefix s.units)).getD s.units) := by
  cases precision <;> cases arg <;> rfl

namespace Directive

variable {d : Directive} {source s₂ s₃ : ArgSource} {precision : Option Int} {arg : Arg}
  {s : AnyText}

/-- Without a width, a string directive puts out the text of its argument and nothing else. -/
theorem exists_render_string (hd : d.conversion = .string) (hwidth : d.width = none)
    (hprecision : source.takeAmount d.precision = ⟨.ok precision, s₂⟩)
    (harg : s₂.take d.index = ⟨.ok arg, s₃⟩) (hs : arg.string? = some s) (config : Config)
    (written : Nat) :
    let count := (Layout.of d none precision).precision
    ∃ actions : List (Action w), d.render config written source = ⟨.ok actions, s₃⟩ ∧
      outputText actions = transcode w ((count.map (charPrefix s.units)).getD s.units) := by
  intro count
  have hfield : d.field? (w := w) config count arg
      = some ⟨[], transcode w ((count.map (charPrefix s.units)).getD s.units), false⟩ := by
    rw [field?.eq_def, hd]
    dsimp only
    rw [stringText?_eq, hs]
    rfl
  obtain ⟨actions, hactions, htext, -⟩ :=
    exists_render_of_width_none (by simp [hd]) (by simp [hd]) hwidth hprecision harg hfield written
  exact ⟨actions, hactions, htext⟩

/-- **The precision of a string counts characters.** Without a width, the directive with precision
`k` puts out the first `k` characters of what it puts out without a precision, or all of them if the
argument has no more. These are the units that advancing over `k` characters goes past. Cutting the
argument and moving it to the width of the output gives the same text in either order, and neither
cut goes through a character. -/
theorem string_precision_counts_characters (hd : d.conversion = .string) (hwidth : d.width = none)
    (harg : source.take d.index = ⟨.ok arg, s₃⟩) (hs : arg.string? = some s) (config : Config)
    (written k : Nat) :
    ∃ whole cut : List (Action w),
      { d with precision := none }.render config written source = ⟨.ok whole, s₃⟩ ∧
      { d with precision := some (.literal k) }.render config written source = ⟨.ok cut, s₃⟩ ∧
      (∃ cs, Decodes s.units cs ∧ Decodes (outputText whole) cs ∧
        Decodes (outputText cut) (cs.take (min k cs.length))) ∧
      outputText cut = charPrefix (outputText whole) k ∧
      outputText cut <+: outputText whole ∧
      prefixAt? (outputText whole) k 0 = some (outputText cut).length ∧
      outputText cut = transcode w (charPrefix s.units k) ∧
      outputText cut = charPrefix (transcode w s.units) k ∧
      s.units.IsBoundary (charPrefix s.units k).length ∧
      (outputText whole).IsBoundary (outputText cut).length := by
  obtain ⟨whole, hwhole, hwholeText⟩ :=
    exists_render_string (w := w) (d := { d with precision := none }) hd hwidth rfl harg hs config
      written
  obtain ⟨cut, hcut, hcutText⟩ :=
    exists_render_string (w := w) (d := { d with precision := some (.literal k) }) hd hwidth rfl
      harg hs config written
  replace hwholeText : outputText whole = transcode w s.units := hwholeText
  replace hcutText : outputText cut = transcode w (charPrefix s.units k) := hcutText
  have hfront : outputText cut = charPrefix (outputText whole) k := by
    rw [hcutText, hwholeText, transcode_charPrefix]
  obtain ⟨cs, hcs, -⟩ := existsUnique_decodes s.units
  have hread : Decodes (outputText whole) cs := hwholeText ▸ hcs.transcode
  refine ⟨whole, cut, hwhole, hcut, ⟨cs, hcs, hread, ?_⟩, hfront, ?_, ?_, hcutText, ?_,
    isBoundary_charPrefix s.units k, ?_⟩
  · rw [hfront, ← List.take_eq_take_min]
    exact hread.charPrefix
  · rw [hfront]
    exact charPrefix_isPrefix _ k
  · rw [prefixAt?_eq k (Nat.zero_le _), List.drop_zero, Nat.zero_add, hfront]
  · rw [hfront, hwholeText]
  · rw [hfront]
    exact isBoundary_charPrefix _ k

/-- The first two units are the front of a character that is not there. Each of them counts, and the
third character is the one behind them. -/
theorem string_precision_counts_stray_units :
    let s : AnyText := ⟨.utf8, [.ofNat _ 0xE2, .ofNat _ 0x82] ++ encode _ ['é', 'x']⟩
    let d := { bare .string false with precision := some (.literal 3) }
    ∃ cut : List (Action .utf16),
      d.render {} 0 (.sequential (.ofArgs [.text s])) = ⟨.ok cut, .sequential ⟨1, []⟩⟩ ∧
      outputText cut = encode .utf16 [replacementChar, replacementChar, 'é'] := by
  intro s d
  have harg : (ArgSource.sequential (.ofArgs [.text s])).take (bare .string false).index
      = ⟨.ok (.text s), .sequential ⟨1, []⟩⟩ := rfl
  obtain ⟨-, cut, -, hcut, -, -, -, -, htext, -⟩ :=
    string_precision_counts_characters (w := .utf16) rfl rfl harg rfl {} 0 3
  exact ⟨cut, hcut, htext.trans (by decide +kernel)⟩

end Directive

end FormatString
