import Mathlib
import FormatString.Proofs.Template.Pieces

/-!
# Directives joined by spaces

`joined` puts single spaces between directives. Its pieces are the directives with a literal run of
one space between any two of them: a directive is parsed the same way whatever follows it, and what
follows the space is a percent sign.
-/

namespace FormatString

variable {w : Width} {dialect : Dialect}

/-- Texts with single spaces between them. -/
def spaced (texts : List (Text w)) : Text w := List.intercalate [.ofAscii w ' '] texts

/-- Directives, each given by what is behind its percent sign, with single spaces between them. -/
def joined (specs : List (Text w)) : Text w := spaced (specs.map (.ofAscii w '%' :: ·))

section Joined

theorem spaced_singleton (text : Text w) : spaced [text] = text := List.intercalate_singleton

theorem spaced_cons_cons (text text' : Text w) (texts : List (Text w)) :
    spaced (text :: text' :: texts) = text ++ ([.ofAscii w ' '] ++ spaced (text' :: texts)) := by
  rw [spaced, List.intercalate_cons_cons, List.append_assoc]
  rfl

variable (spec spec' : Text w) (specs : List (Text w))

theorem joined_singleton : joined [spec] = .ofAscii w '%' :: spec := spaced_singleton _

theorem joined_cons_cons : joined (spec :: spec' :: specs)
    = .ofAscii w '%' :: (spec ++ ([.ofAscii w ' '] ++ joined (spec' :: specs))) := by
  rw [joined, List.map_cons, List.map_cons, spaced_cons_cons]
  rfl

theorem percentNext_joined : percentNext (joined (spec :: specs)) = true := by
  rw [joined, List.map_cons, spaced, List.intercalate_cons_cons_left, percentNext, List.head?_cons]
  exact CodeUnit.spells_percent

end Joined

/-- The text behind a percent sign is a directive from its beginning to its end. -/
structure IsDirective (dialect : Dialect) (spec : Text w) (d : Directive) : Prop where
  parse : Directive.parse dialect spec = .ok (d, spec.length)
  ne_percent : percentNext spec = false

namespace IsDirective

variable {spec : Text w} {d : Directive}

theorem ne_nil (h : IsDirective dialect spec d) : spec ≠ [] :=
  List.length_pos_iff.mp (Directive.parse_le h.parse).1

theorem percentNext_append (h : IsDirective dialect spec d) (r : Text w) :
    percentNext (spec ++ r) = false := by
  rw [percentNext, List.head?_append_of_ne_nil _ h.ne_nil]
  exact h.ne_percent

theorem piecesFrom_append (h : IsDirective dialect spec d) (offset : Nat) (r : Text w) :
    piecesFrom dialect offset (.ofAscii w '%' :: (spec ++ r))
      = ⟨offset, .directive d⟩ :: piecesFrom dialect (offset + 1 + spec.length) r := by
  have hparse := Directive.parse_take_append h.parse r
  rw [List.take_length] at hparse
  rw [piecesFrom_directive (h.percentNext_append r) hparse, List.drop_left]

/-- Behind its percent sign, a directive is a format string of one piece. -/
theorem pieces_eq (h : IsDirective dialect spec d) :
    pieces dialect (.ofAscii w '%' :: spec) = [⟨0, .directive d⟩] := by
  have hpieces := h.piecesFrom_append 0 []
  rwa [List.append_nil, piecesFrom_nil] at hpieces

end IsDirective

/-- The pieces of joined directives, without their offsets. -/
def joinedPieces (w : Width) (ds : List Directive) : List (Piece w) :=
  (ds.map .directive).intersperse (.literal [.ofAscii w ' '])

/-- **Pieces of joined directives.** -/
theorem map_piece_piecesFrom_joined {specs : List (Text w)} {ds : List Directive}
    (h : List.Forall₂ (IsDirective dialect) specs ds) (offset : Nat) :
    (piecesFrom dialect offset (joined specs)).map Located.piece = joinedPieces w ds := by
  induction h generalizing offset with
  | nil =>
    rw [joined, List.map_nil, spaced, List.intercalate_nil, piecesFrom_nil]
    rfl
  | @cons spec d specs ds hspec hrest ih =>
    cases hrest with
    | nil =>
      rw [joined_singleton, ← List.append_nil spec, hspec.piecesFrom_append, piecesFrom_nil]
      rfl
    | @cons spec' d' specs ds hspec' hrest =>
      have hspace : (CodeUnit.ofAscii w ' ').spells '%' = false := by
        rw [CodeUnit.spells_ofAscii (by decide)]
        rfl
      rw [joined_cons_cons, hspec.piecesFrom_append,
        piecesFrom_run (List.cons_ne_nil _ _) (by simpa using hspace)
          (.inr (percentNext_joined spec' specs)), List.map_cons, List.map_cons, ih]
      rfl

end FormatString
