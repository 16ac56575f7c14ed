import FormatString.Template.Piece

/-!
# Visiting a format string

A visitor is told of each piece of a format string in turn and may stop the walk. What it does not
care about it can leave to the defaults: an escaped percent sign is then a literal run of one unit,
and everything else is passed over.
-/

namespace FormatString

variable {w : Width} {σ : Type}

/-- Whether a walk goes on. -/
inductive Flow where
  | proceed
  | stop
  deriving DecidableEq

/-- What to do with each piece; `σ` is what the visitor remembers. -/
structure Visitor (w : Width) (σ : Type) where
  /-- A literal run. -/
  units : Text w → σ → σ × Flow := fun _ s ↦ (s, .proceed)
  /-- An escaped percent sign at an offset. -/
  percent : Nat → σ → σ × Flow := fun _ s ↦ units [CodeUnit.ofAscii w '%'] s
  /-- A directive at an offset. -/
  directive : Directive → Nat → σ → σ × Flow := fun _ _ s ↦ (s, .proceed)
  /-- A malformed directive at an offset, after which the walk is over. -/
  malformed : DirectiveError → Nat → σ → σ := fun _ _ s ↦ s
  /-- The end of the format string. -/
  finish : σ → σ := id

namespace Visitor

/-- Tells the visitor of one piece. -/
def see (v : Visitor w σ) (s : σ) (p : Located w) : σ × Flow :=
  match p.piece with
  | .literal units => v.units units s
  | .percent => v.percent p.offset s
  | .directive d => v.directive d p.offset s
  | .malformed e => (v.malformed e p.offset s, .stop)

/-- Tells the visitor of the pieces until it stops. -/
def walk (v : Visitor w σ) (s : σ) : List (Located w) → σ × Flow
  | [] => (v.finish s, .proceed)
  | p :: rest =>
    match v.see s p with
    | (s, .proceed) => walk v s rest
    | (s, .stop) => (s, .stop)

/-- Walks a format string. -/
def visit (v : Visitor w σ) (dialect : Dialect) (template : Text w) (s : σ) : σ × Flow :=
  v.walk s (pieces dialect template)

end Visitor

end FormatString
