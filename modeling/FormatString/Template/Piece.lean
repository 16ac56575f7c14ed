import FormatString.Directive.Parse

/-!
# Format strings as pieces

A format string is cut into literal runs, escaped percent signs and directives, each with the offset
it starts at. A directive that cannot be parsed ends the list; everything that reads or writes by a
format string is a fold over these pieces.
-/

namespace FormatString

variable {w : Width}

/-- A piece of a format string. -/
inductive Piece (w : Width) where
  /-- A run of units other than `%`. -/
  | literal (units : Text w)
  /-- `%%` -/
  | percent
  | directive (d : Directive)
  /-- A `%` that starts no directive. -/
  | malformed (error : DirectiveError)

/-- A piece and the offset of its first unit. -/
structure Located (w : Width) where
  offset : Nat
  piece : Piece w

/-- The pieces of a format string that starts at `offset`. -/
def piecesFrom (dialect : Dialect) (offset : Nat) (template : Text w) : List (Located w) :=
  match template with
  | [] => []
  | u :: rest =>
    if u.spells '%' then
      if rest.head?.any (·.spells '%') then
        ⟨offset, .percent⟩ :: piecesFrom dialect (offset + 2) (rest.drop 1)
      else
        match Directive.parse dialect rest with
        | .ok (d, n) => ⟨offset, .directive d⟩ :: piecesFrom dialect (offset + 1 + n) (rest.drop n)
        | .error e => [⟨offset, .malformed e⟩]
    else
      let run := u :: rest.takeWhile (!·.spells '%')
      ⟨offset, .literal run⟩ ::
        piecesFrom dialect (offset + run.length) (rest.dropWhile (!·.spells '%'))
termination_by template.length
decreasing_by
  · simp only [List.length_drop, List.length_cons]; omega
  · simp only [List.length_drop, List.length_cons]; omega
  · have := (List.dropWhile_sublist (l := rest) (!·.spells '%')).length_le
    simp only [List.length_cons]; omega

/-- The pieces of a format string. -/
def pieces (dialect : Dialect) (template : Text w) : List (Located w) :=
  piecesFrom dialect 0 template

end FormatString
