import Mathlib
import FormatString.Proofs.Directive.Parse

/-!
# Directives without their slots

A directive of the ordered dialect names the slot of every argument it takes: one in front, and one
behind each `*`. Without these it is a directive of the print dialect with the same flags, length
and conversion, and each `*` takes the next argument.

`deleteSlots` does this to the characters of a directive and `Directive.unslotted` to what they
mean; `SpellsDirective.unslotted` says that the two go together.
-/

namespace FormatString

/-! ## Deleting the characters -/

/-- Deletes what stands between a `*` and the next colon, and with `skip` also what stands in front
of the first colon. -/
def deleteSlots (skip : Bool) : List Char → List Char
  | [] => []
  | c :: cs => if skip then deleteSlots (c != ':') cs else c :: deleteSlots (c == '*') cs

theorem deleteSlots_slot {cs : List Char} {n : Nat} (h : SpellsSlot cs n) (rest : List Char) :
    deleteSlots true (cs ++ rest) = deleteSlots false rest := by
  obtain ⟨h, -⟩ := h
  rename_i ds
  have hcolon : ∀ c ∈ ds, (c != ':') = true := by
    rintro c hc
    refine bne_iff_ne.mpr ?_
    rintro rfl
    exact absurd (h.digits ':' hc) (by decide)
  clear h
  induction ds with
  | nil => rfl
  | cons c ds ih =>
    rw [List.cons_append, List.cons_append, deleteSlots, if_pos rfl, hcolon c List.mem_cons_self]
    exact ih fun d hd ↦ hcolon d (List.mem_cons_of_mem _ hd)

theorem deleteSlots_of_ne_star {cs : List Char} (h : ∀ c ∈ cs, c ≠ '*') (rest : List Char) :
    deleteSlots false (cs ++ rest) = cs ++ deleteSlots false rest := by
  induction cs with
  | nil => rfl
  | cons c cs ih =>
    have hc : (c == '*') = false := beq_eq_false_iff_ne.mpr (h c List.mem_cons_self)
    rw [List.cons_append, deleteSlots, if_neg Bool.false_ne_true, hc,
      ih fun d hd ↦ h d (List.mem_cons_of_mem _ hd), List.cons_append]

theorem Numeral.ne_star {ds : List Char} {n : Nat} (h : Numeral ds n) : ∀ c ∈ ds, c ≠ '*' := by
  rintro c hc rfl
  exact absurd (h.digits '*' hc) (by decide)

/-! ## Forgetting the slots -/

/-- The amount, a `*` taking the next argument. -/
def Amount.unslotted : Amount → Amount
  | literal n => literal n
  | argument _ => argument none

/-- The directive, all arguments being the next ones. -/
def Directive.unslotted (d : Directive) : Directive :=
  { d with
    width := d.width.map Amount.unslotted
    precision := d.precision.map Amount.unslotted
    index := none }

/-- The amount takes no argument, or that of a slot. -/
inductive Amount.Slotted : Amount → Prop where
  | literal (n : Nat) : Slotted (.literal n)
  | slot (i : Nat) : Slotted (.argument (some (i + 1)))

/-- Every argument of the directive comes from a slot. -/
structure Directive.Slotted (d : Directive) : Prop where
  index : ∃ i, d.index = some (i + 1)
  width : ∀ a ∈ d.width, a.Slotted
  precision : ∀ a ∈ d.precision, a.Slotted

/-! ## One field after the other -/

theorem SpellsSlot.exists_succ {cs : List Char} {n : Nat} (h : SpellsSlot cs n) :
    ∃ i, n = i + 1 := by
  obtain ⟨-, hn⟩ := h
  exact Nat.exists_eq_succ_of_ne_zero hn

theorem SpellsAmount.slotted {cs : List Char} {amount : Option Amount}
    (h : SpellsAmount .ordered cs amount) : ∀ a ∈ amount, a.Slotted := by
  cases h with
  | absent => simp
  | star h =>
    cases h with
    | next hne => exact absurd rfl hne
    | slot h =>
      obtain ⟨i, rfl⟩ := h.exists_succ
      rintro _ ⟨⟩
      exact .slot i
  | literal =>
    rintro _ ⟨⟩
    exact .literal _

/-- Without the slot an amount is one of the print dialect, with the same first character. -/
theorem SpellsAmount.unslotted {cs : List Char} {amount : Option Amount}
    (h : SpellsAmount .ordered cs amount) :
    ∃ cs', SpellsAmount .print cs' (amount.map Amount.unslotted) ∧ cs'.head? = cs.head? ∧
      ∀ rest, deleteSlots false (cs ++ rest) = cs' ++ deleteSlots false rest := by
  cases h with
  | absent => exact ⟨[], .absent, rfl, fun _ ↦ rfl⟩
  | star h =>
    cases h with
    | next hne => exact absurd rfl hne
    | slot h =>
      refine ⟨['*'], .star (.next (by decide)), rfl, ?_⟩
      intro rest
      rw [List.cons_append, deleteSlots, if_neg Bool.false_ne_true]
      exact congrArg ('*' :: ·) (deleteSlots_slot h rest)
  | literal h => exact ⟨cs, .literal h, rfl, deleteSlots_of_ne_star h.ne_star⟩

theorem SpellsWidth.amount {cs : List Char} {width : Option Amount}
    (h : SpellsWidth .ordered cs width) : SpellsAmount .ordered cs width ∧ cs.head? ≠ some '0' := by
  cases h with
  | writer _ hzero h => exact ⟨h, hzero⟩

theorem SpellsWidth.unslotted {cs : List Char} {width : Option Amount}
    (h : SpellsWidth .ordered cs width) :
    ∃ cs', SpellsWidth .print cs' (width.map Amount.unslotted) ∧
      ∀ rest, deleteSlots false (cs ++ rest) = cs' ++ deleteSlots false rest := by
  obtain ⟨h, hzero⟩ := h.amount
  obtain ⟨cs', hcs', hhead, hdelete⟩ := h.unslotted
  exact ⟨cs', .writer (by decide) (by rwa [hhead]) hcs', hdelete⟩

theorem SpellsPrecision.unslotted {cs : List Char} {precision : Option Amount}
    (h : SpellsPrecision .ordered cs precision) :
    ∃ cs', SpellsPrecision .print cs' (precision.map Amount.unslotted) ∧
      ∀ rest, deleteSlots false (cs ++ rest) = cs' ++ deleteSlots false rest := by
  cases h with
  | absent => exact ⟨[], .absent, fun _ ↦ rfl⟩
  | @point cs amount _ h =>
    obtain ⟨cs', hcs', -, hdelete⟩ := h.unslotted
    refine ⟨'.' :: cs', ?_, ?_⟩
    · cases amount with
      | none => exact .point (by decide) hcs'
      | some a => exact .point (by decide) hcs'
    · intro rest
      rw [List.cons_append, deleteSlots, if_neg Bool.false_ne_true]
      exact congrArg ('.' :: ·) (hdelete rest)

theorem SpellsPrecision.slotted {cs : List Char} {precision : Option Amount}
    (h : SpellsPrecision .ordered cs precision) : ∀ a ∈ precision, a.Slotted := by
  cases h with
  | absent => simp
  | @point cs amount _ h =>
    rintro _ ⟨⟩
    cases amount with
    | none => exact .literal 0
    | some a => exact h.slotted a rfl

/-! ## The whole directive -/

theorem SpellsIndex.exists_slot {cs : List Char} {index : Option Nat}
    (h : SpellsIndex .ordered cs index) : ∃ i, index = some (i + 1) ∧ SpellsSlot cs (i + 1) := by
  cases h with
  | absent hne => exact absurd rfl hne
  | slot h =>
    obtain ⟨i, rfl⟩ := h.exists_succ
    exact ⟨i, rfl, h⟩

theorem SpellsFlags.ne_star {dialect : Dialect} (hdialect : dialect ≠ .scan) {cs : List Char}
    {flags : Flags} (h : SpellsFlags dialect cs flags) : ∀ c ∈ cs, c ≠ '*' := by
  cases h with
  | writer _ h =>
    rintro c hc rfl
    exact absurd (isFlag_of_foldlM h '*' hc) (by decide)
  | absent => exact absurd rfl hdialect
  | suppress => exact absurd rfl hdialect

theorem SpellsDirective.slotted {fields : List Char} {c : Char} {d : Directive}
    (h : SpellsDirective .ordered fields c d) : d.Slotted := by
  obtain ⟨hindex, -, hwidth, hprecision, -⟩ := h.header
  refine ⟨?_, hwidth.amount.1.slotted, hprecision.slotted⟩
  obtain ⟨i, hi, -⟩ := hindex.exists_slot
  exact ⟨i, hi⟩

/-- **Deleting slots.** Without the slots, the characters of an ordered directive spell the
directive that takes the next arguments. -/
theorem SpellsDirective.unslotted {fields : List Char} {c : Char} {d : Directive}
    (h : SpellsDirective .ordered fields c d) :
    ∃ fields', deleteSlots true (fields ++ [c]) = fields' ++ [c] ∧
      SpellsDirective .print fields' c d.unslotted := by
  rcases h with ⟨⟨hindex, hflags, hwidth, hprecision, hlength⟩, hletter, hupper, hscan, haccepts⟩
  rename_i i f w p l
  obtain ⟨slot, -, hslot⟩ := hindex.exists_slot
  obtain ⟨w', hw', hdeleteWidth⟩ := hwidth.unslotted
  obtain ⟨p', hp', hdeletePrecision⟩ := hprecision.unslotted
  have hend : ∀ a ∈ l ++ [c], a ≠ '*' := by
    have hl : ∀ e ∈ lengthSpellings, ∀ a ∈ e.1, a ≠ '*' := by simp [lengthSpellings]
    have hc : ∀ c ∈ conversionLetters, c ≠ '*' := by simp [conversionLetters]
    refine List.forall_mem_append.mpr ⟨hl _ hlength, ?_⟩
    simpa using hc c (FormatString.mem_conversionLetters hletter)
  refine ⟨f ++ (w' ++ (p' ++ l)), ?_, ⟨?_, hletter, hupper, ?_, haccepts⟩⟩
  · have hdelete := deleteSlots_of_ne_star hend []
    rw [List.append_nil] at hdelete
    simp only [List.append_assoc]
    rw [deleteSlots_slot hslot, deleteSlots_of_ne_star (hflags.ne_star (by decide)), hdeleteWidth,
      hdeletePrecision, hdelete, deleteSlots, List.append_nil]
  · change SpellsHeader .print ([] ++ (f ++ (w' ++ (p' ++ l)))) _
    refine .fields (.absent (by decide)) ?_ hw' hp' hlength
    cases hflags with
    | writer _ h => exact .writer (by decide) h
  · intro hset
    exact absurd (hscan hset) (by decide)

/-- What the text of a directive becomes when its slots are deleted. -/
theorem Directive.parse_unslotted {w : Width} {s : Text w} {d : Directive} {n : Nat}
    (h : Directive.parse .ordered s = .ok (d, n)) :
    d.Slotted ∧ ∃ fields c, deleteSlots true (Text.asciiRun (s.take n)) = fields ++ [c] ∧
      SpellsDirective .print fields c d.unslotted ∧ d.set = none := by
  have hset := Directive.conversion_ne_charSet (by decide) h
  obtain ⟨fields, c, body, rfl, hspells, hnone, rfl⟩ := (parse_eq_ok_iff_of_ne hset).mp h
  obtain ⟨fields', hdelete, hprint⟩ := hspells.unslotted
  have htake : (Text.ofAscii w (fields ++ [c]) ++ body).take (fields.length + 1)
      = Text.ofAscii w (fields ++ [c]) := List.take_left' (by simp)
  refine ⟨hspells.slotted, fields', c, ?_, hprint, hnone⟩
  rw [htake, Text.asciiRun_ofAscii hspells.ascii, hdelete]

end FormatString
