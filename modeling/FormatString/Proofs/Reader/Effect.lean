import Mathlib
import FormatString.Reader.Scan
import FormatString.Proofs.Text.Encoding
import FormatString.Proofs.Number.Parsed

/-!
# The effect of a directive

All that matching a piece can do to the state of a reading call is an `Effect`: so many units are
consumed, the next target becomes something, a number was clamped, an assignment is counted. What a
directive may have for an effect is `Directive.Does`, and what it may make of its target
`Directive.Stores`.

What was stored and counted before has no part in the effect. `ReadState.Alike` says so about two
states: a piece halts in both, or has the same effect in both. Only where the first state has no
target left the second may have one.
-/

namespace FormatString

variable {w : Width}

/-! ## What a target holds -/

/-- What a target keeps whatever is stored in it. -/
inductive Target.Kind where
  | integer (type : IntType)
  | address
  | float32
  | float64
  | char
  | text (width : Width)
  deriving DecidableEq

namespace Target

/-- The kind of a target. -/
def kind : Target → Kind
  | integer type _ => .integer type
  | address _ => .address
  | float32 _ => .float32
  | float64 _ => .float64
  | char _ => .char
  | text value => .text value.width

/-- The integer or address a target holds. -/
def integer? : Target → Option Int
  | integer _ v => some v
  | address v => some v
  | _ => none

variable {t t' : Target}

theorem kind_storeInt (t : Target) (v : Int) : (t.storeInt v).kind = t.kind := by
  cases t <;> rfl

theorem kind_storeFloat (t : Target) (v : Binary .binary64) : (t.storeFloat v).kind = t.kind := by
  cases t <;> rfl

theorem kind_of_storeText? {units : Text w} (h : t.storeText? units = some t') :
    t'.kind = t.kind := by
  cases t with
  | text old =>
    rw [← Option.some.inj h]
    rfl
  | _ => exact absurd h (by simp [storeText?])

theorem kind_of_storeChar? {units : Text w} (h : t.storeChar? units = some t') :
    t'.kind = t.kind := by
  cases t with
  | char old =>
    rw [storeChar?] at h
    split at h
    · split at h
      · rw [← Option.some.inj h]
        rfl
      · exact absurd h (by simp)
    · exact absurd h (by simp)
  | _ => exact kind_of_storeText? (show storeText? _ units = some t' from h)

theorem intType?_of_addressType? {type : IntType} (h : t.addressType? = some type) :
    t.intType? = some type := by
  cases t <;> first | exact h | exact absurd h (by simp [addressType?])

/-- An integer of the type of the target is stored as it is. -/
theorem integer?_storeInt {type : IntType} (htype : t.intType? = some type) {v : Int}
    (hmin : type.min ≤ v) (hmax : v ≤ type.max) : (t.storeInt v).integer? = some v := by
  have hv := IntType.reinterpret_of_mem hmin hmax
  cases t with
  | integer | address =>
    obtain rfl := Option.some.inj htype
    exact congrArg some hv
  | _ => exact absurd htype (by simp [intType?])

end Target

/-! ## Effects -/

/-- What matching a piece does. -/
structure Effect where
  /-- The number of units consumed. -/
  used : Nat
  /-- What the next target becomes, if something is stored. -/
  stored : Option Target
  /-- A number was clamped. -/
  clamped : Bool
  /-- The number of assignments. -/
  assigned : Nat
  /-- Something has been matched. -/
  matched : Bool

/-- The effect of literal text. -/
def Effect.plain (used : Nat) (matched : Bool) : Effect := ⟨used, none, false, 0, matched⟩

/-- The number of assignments a directive makes. -/
def Directive.assignments (d : Directive) : Nat :=
  if !d.flags.suppress && d.conversion.assigns then 1 else 0

/-- A directive stores something; what counts units does, though it is no assignment. -/
def Directive.stores (d : Directive) : Bool := !d.flags.suppress && d.conversion ≠ .percent

namespace ReadState

/-- The state after an effect. -/
def apply (s : ReadState w) (offset : Nat) (e : Effect) : ReadState w where
  rest := s.rest.drop e.used
  position := s.position + e.used
  stored := s.stored ++ e.stored.toList
  pending := s.pending.drop e.stored.toList.length
  assigned := s.assigned + e.assigned
  matched := s.matched || e.matched
  clamped := s.clamped ++ if e.clamped then [offset] else []

variable (s : ReadState w) (offset : Nat)

theorem consume_eq_apply (n : Nat) : s.consume n = s.apply offset (.plain n false) := by
  simp [apply, consume, Effect.plain]

theorem apply_plain_zero : s.apply offset (.plain 0 false) = s := (s.consume_eq_apply offset 0).symm

theorem apply_consume (n : Nat) (e : Effect) :
    (s.consume n).apply offset e = s.apply offset { e with used := n + e.used } := by
  simp [apply, consume, List.drop_drop, Nat.add_assoc]

theorem apply_plain_plain (m n : Nat) (a b : Bool) :
    (s.apply offset (.plain m a)).apply offset (.plain n b)
      = s.apply offset (.plain (m + n) (a || b)) := by
  simp [apply, Effect.plain, List.drop_drop, Nat.add_assoc, Bool.or_assoc]

/-- What a directive does to the state once the target is settled. -/
theorem finish_settle_eq_apply (target : Option Target) (clamped : Bool) (d : Directive) (n : Nat) :
    ((s.settle target).noteClamped offset clamped).finish d n
      = s.apply offset ⟨n, target, clamped, d.assignments, true⟩ := by
  cases target <;> cases clamped <;>
    simp [apply, settle, keep, noteClamped, finish, consume, Directive.assignments]

theorem finish_eq_apply (d : Directive) (n : Nat) :
    s.finish d n = s.apply offset ⟨n, none, false, d.assignments, true⟩ :=
  s.finish_settle_eq_apply offset none false d n

theorem finish_keep_eq_apply (t : Target) (d : Directive) (n : Nat) :
    (s.keep t).finish d n = s.apply offset ⟨n, some t, false, d.assignments, true⟩ :=
  s.finish_settle_eq_apply offset (some t) false d n

/-! ## The next target -/

section NextTarget

variable {s : ReadState w} {d : Directive}

theorem nextTarget_of_suppress (h : d.flags.suppress = true) : s.nextTarget d = .ok none := by
  rw [nextTarget, h]
  rfl

theorem nextTarget_of_nil (hsuppress : d.flags.suppress = false) (h : s.pending = []) :
    s.nextTarget d = .error .missingTarget := by
  rw [nextTarget, hsuppress, h]
  rfl

theorem nextTarget_of_cons (hsuppress : d.flags.suppress = false) {t : Target}
    {pending : List Target} (h : s.pending = t :: pending) : s.nextTarget d = .ok (some t) := by
  rw [nextTarget, hsuppress, h]
  rfl

end NextTarget

/-! ## Two states -/

/-- The second state has the input that the first has, and its targets, perhaps with more behind
them. -/
structure Agrees (s s' : ReadState w) : Prop where
  rest : s'.rest = s.rest
  pending : s.pending <+: s'.pending

/-- What comes of the same piece in two states: the first has no target for it, or it halts in both
for the same reason, or it has the same effect in both, one that satisfies `P`. -/
inductive Alike (s s' : ReadState w) (offset offset' : Nat) (P : Effect → Prop) :
    Except Halt (ReadState w) → Except Halt (ReadState w) → Prop where
  | missing (r : Except Halt (ReadState w)) : Alike s s' offset offset' P (.error .missingTarget) r
  | halt (h : Halt) : Alike s s' offset offset' P (.error h) (.error h)
  | go (e : Effect) (he : P e) :
    Alike s s' offset offset' P (.ok (s.apply offset e)) (.ok (s'.apply offset' e))

variable {s offset} {s' : ReadState w} {offset' : Nat} {P Q : Effect → Prop}
  {x y : Except Halt (ReadState w)} {d : Directive}

theorem Agrees.skipBlanks (h : s.Agrees s') : s.skipBlanks.Agrees s'.skipBlanks where
  rest := by rw [ReadState.skipBlanks, ReadState.skipBlanks, consume, consume, h.rest]
  pending := h.pending

theorem Agrees.field (h : s.Agrees s') (d : Directive) : s'.field d = s.field d := by
  rw [ReadState.field, ReadState.field, h.rest]

namespace Alike

theorem mono (h : Alike s s' offset offset' P x y) (hPQ : ∀ e, P e → Q e) :
    Alike s s' offset offset' Q x y := by
  cases h with
  | missing => exact .missing _
  | halt h => exact .halt h
  | go e he => exact .go e (hPQ e he)

/-- Consuming units first adds to the effect. -/
theorem of_consume {n : Nat} (h : Alike (s.consume n) (s'.consume n) offset offset' P x y)
    (hPQ : ∀ e, P e → Q { e with used := n + e.used }) : Alike s s' offset offset' Q x y := by
  cases h with
  | missing => exact .missing _
  | halt h => exact .halt h
  | go e he =>
    rw [apply_consume, apply_consume]
    exact .go _ (hPQ e he)

/-- A directive claims its target first. -/
theorem claim {f f' : Option Target → Except Halt (ReadState w)} (h : s.Agrees s')
    (hf : ∀ target, s.nextTarget d = .ok target → Alike s s' offset offset' P (f target) (f' target)) :
    Alike s s' offset offset' P (s.nextTarget d >>= f) (s'.nextTarget d >>= f') := by
  cases hsuppress : d.flags.suppress with
  | true =>
    rw [nextTarget_of_suppress hsuppress, nextTarget_of_suppress hsuppress]
    exact hf none (nextTarget_of_suppress hsuppress)
  | false =>
    cases hpending : s.pending with
    | nil =>
      rw [nextTarget_of_nil hsuppress hpending]
      exact .missing _
    | cons t rest =>
      obtain ⟨more, hmore⟩ := h.pending
      rw [hpending] at hmore
      rw [nextTarget_of_cons hsuppress hpending, nextTarget_of_cons hsuppress hmore.symm]
      exact hf (some t) (nextTarget_of_cons hsuppress hpending)

end Alike

end ReadState

/-! ## What a directive stores -/

/-- What a directive may make of a target, in front of the units `field` and behind so many others:
a target of the same kind. An integer is the one that is read into the type of the target; a count
is the number of units, or the largest number of the type. -/
structure Directive.Stores (d : Directive) (field : Text w) (position : Nat) (old new : Target) :
    Prop where
  kind : new.kind = old.kind
  integer : d.conversion.isInteger ∨ d.conversion = .pointer → ∃ type, old.intType? = some type ∧
    new.integer? = some (type.read d.conversion.base (Text.asciiRun field)).value
  count : d.conversion = .countWritten → ∃ type, old.intType? = some type ∧
    new.integer? = some (min (position : Int) type.max)

/-- What a directive may do in front of the units `field`. -/
structure Directive.Does (d : Directive) (s : ReadState w) (field : Text w) (e : Effect) : Prop where
  used_le : e.used ≤ s.rest.length
  assigned : e.assigned = d.assignments
  matched : e.matched = true
  isSome_stored : e.stored.isSome = d.stores
  stores : ∀ new ∈ e.stored, ∃ old ∈ s.pending.head?, d.Stores field s.position old new

/-- What a piece may do. -/
def Piece.Does (s : ReadState w) (p : Piece w) (e : Effect) : Prop :=
  match p with
  | .directive d => d.Does s (s.skipBlanks.field d) e
  | _ => ∃ n matched, e = .plain n matched ∧ n ≤ s.rest.length

/-- The directive of a piece that stores something. -/
def Piece.storing? : Piece w → Option Directive
  | .directive d => if d.stores then some d else none
  | _ => none

namespace Piece

variable {s : ReadState w} {p : Piece w} {e : Effect}

theorem eq_of_storing? {d : Directive} (h : p.storing? = some d) : p = .directive d := by
  rcases p with run | _ | d' | fault
  case directive =>
    rw [storing?] at h
    split at h
    · rw [Option.some.inj h]
    · exact absurd h (by simp)
  all_goals exact absurd h (by simp [storing?])

/-- A piece is a directive, or it only consumes units. -/
theorem Does.plain_or_directive (h : p.Does s e) :
    (p.storing? = none ∧ ∃ n matched, e = .plain n matched ∧ n ≤ s.rest.length) ∨
      ∃ d, p = .directive d ∧ d.Does s (s.skipBlanks.field d) e := by
  rcases p with run | _ | d | fault
  case directive => exact .inr ⟨d, rfl, h⟩
  all_goals exact .inl ⟨rfl, h⟩

theorem Does.used_le (h : p.Does s e) : e.used ≤ s.rest.length := by
  obtain ⟨-, n, matched, rfl, hn⟩ | ⟨d, rfl, hdoes⟩ := h.plain_or_directive
  · exact hn
  · exact Directive.Does.used_le hdoes

/-- Something is stored only where a target is left. -/
theorem Does.length_stored_le (h : p.Does s e) :
    e.stored.toList.length ≤ s.pending.length := by
  obtain ⟨-, n, matched, rfl, -⟩ | ⟨d, rfl, hdoes⟩ := h.plain_or_directive
  · exact Nat.zero_le _
  · cases hstored : e.stored with
    | none => exact Nat.zero_le _
    | some new =>
      obtain ⟨old, hold, -⟩ := Directive.Does.stores hdoes new hstored
      obtain ⟨rest, hpending⟩ := List.head?_eq_some_iff.mp hold
      rw [hpending]
      exact Nat.le_add_left 1 _

end Piece

section Directives

variable {s s' : ReadState w} {offset offset' : Nat} {d : Directive}

theorem ReadState.isSome_of_nextTarget {target : Option Target} (h : s.nextTarget d = .ok target) :
    target.isSome = !d.flags.suppress ∧ ∀ t ∈ target, t ∈ s.pending.head? := by
  rw [nextTarget] at h
  split at h
  · next hsuppress =>
    rw [← Except.ok.inj h, hsuppress]
    exact ⟨rfl, by simp⟩
  · next hsuppress =>
    split at h
    · exact absurd h (by simp)
    · next t rest hpending =>
      rw [← Except.ok.inj h, hpending, Bool.eq_false_of_not_eq_true hsuppress]
      exact ⟨rfl, fun _ ht ↦ ht⟩

/-- A directive that turns its target, if it has one, into `f` of it. -/
theorem Directive.does_map {target : Option Target} (htarget : s.nextTarget d = .ok target)
    (hd : d.conversion ≠ .percent) {n : Nat} (hn : n ≤ s.rest.length) (clamped : Bool)
    {field : Text w} {f : Target → Target}
    (hf : ∀ old ∈ target, d.Stores field s.position old (f old)) :
    d.Does s field ⟨n, target.map f, clamped, d.assignments, true⟩ := by
  obtain ⟨hsome, hhead⟩ := s.isSome_of_nextTarget htarget
  refine ⟨hn, rfl, rfl, ?_, ?_⟩
  · rw [Option.isSome_map, hsome, stores, decide_eq_true hd, Bool.and_true]
  · intro new hnew
    obtain ⟨old, hold, rfl⟩ := Option.map_eq_some_iff.mp hnew
    exact ⟨old, hhead old hold, hf old hold⟩

/-- Only integers look at the units, and only counts at the position. -/
theorem Directive.Does.of_consume {n : Nat} {field field' : Text w} {e : Effect}
    (h : d.Does (s.consume n) field e) (hn : n ≤ s.rest.length)
    (hfield : d.conversion.isInteger ∨ d.conversion = .pointer → field' = field)
    (hcount : d.conversion = .countWritten → n = 0) :
    d.Does s field' { e with used := n + e.used } where
  used_le := by
    have hle := h.used_le
    rw [ReadState.consume, List.length_drop] at hle
    dsimp only at hle ⊢
    omega
  assigned := h.assigned
  matched := h.matched
  isSome_stored := h.isSome_stored
  stores := by
    intro new hnew
    obtain ⟨old, hold, hstores⟩ := h.stores new hnew
    refine ⟨old, hold, hstores.kind, ?_, ?_⟩
    · intro hd
      rw [hfield hd]
      exact hstores.integer hd
    · intro hd
      have hzero := hstores.count hd
      rw [hcount hd] at hzero
      exact hzero

theorem ReadState.field_prefix (s : ReadState w) (d : Directive) : s.field d <+: s.rest := by
  rw [field]
  split
  · exact List.take_prefix _ _
  · exact List.prefix_refl _

theorem ReadState.length_field_le (s : ReadState w) (d : Directive) :
    (s.field d).length ≤ s.rest.length :=
  (s.field_prefix d).length_le

theorem ReadState.length_asciiRun_field_le (s : ReadState w) (d : Directive) :
    (Text.asciiRun (s.field d)).length ≤ s.rest.length :=
  (Text.length_asciiRun_le _).trans (s.length_field_le d)

end Directives

end FormatString
