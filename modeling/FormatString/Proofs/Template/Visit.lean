import Mathlib
import FormatString.Template.Visit
import FormatString.Proofs.Template.Pieces

/-!
# What a visitor is told

`Visitor.logged` lets a visitor keep a log of what it is told. Every visitor is told the same events
until it stops, and what they are is said without the pieces: `Told` puts the texts that the events
stand for one behind the other, and `Ending` says that these texts are the whole format string, or
the part of it in front of a percent sign that starts no directive.

## One walk for all visitors

What a visitor answers depends on what it remembers, so the law cannot be about one list of answers.
It is stated for an arbitrary visitor by threading its memory through the events (`Visitor.after`),
with `Visitor.GoesOn` for the events at which it did not stop.
-/

namespace FormatString

variable {w : Width} {dialect : Dialect} {σ : Type}

/-! ## Events -/

/-- What a visitor can be told of. -/
inductive Event (w : Width) where
  | units (run : Text w)
  | percent (offset : Nat)
  | directive (d : Directive) (offset : Nat)
  | malformed (e : DirectiveError) (offset : Nat)
  | finish

/-- The event that a piece causes. -/
def Located.event (p : Located w) : Event w :=
  match p.piece with
  | .literal run => .units run
  | .percent => .percent p.offset
  | .directive d => .directive d p.offset
  | .malformed e => .malformed e p.offset

namespace Visitor

variable (v : Visitor w σ)

/-- What the visitor does when it is told of an event. -/
def hear (s : σ) : Event w → σ × Flow
  | .units run => v.units run s
  | .percent offset => v.percent offset s
  | .directive d offset => v.directive d offset s
  | .malformed e offset => (v.malformed e offset s, .stop)
  | .finish => (v.finish s, .proceed)

/-- The memory of the visitor after some events. -/
def after (s : σ) (events : List (Event w)) : σ := events.foldl (fun s e ↦ (v.hear s e).1) s

/-- The visitor stops at none of the events. -/
def GoesOn : σ → List (Event w) → Prop
  | _, [] => True
  | s, e :: events => (v.hear s e).2 = .proceed ∧ GoesOn (v.hear s e).1 events

/-- Answers as the visitor does and adds the event to the log. -/
def note (e : Event w) (s : σ × List (Event w)) : (σ × List (Event w)) × Flow :=
  (((v.hear s.1 e).1, s.2 ++ [e]), (v.hear s.1 e).2)

/-- The visitor with a log of what it is told. -/
def logged : Visitor w (σ × List (Event w)) where
  units run := v.note (.units run)
  percent offset := v.note (.percent offset)
  directive d offset := v.note (.directive d offset)
  malformed e offset s := (v.note (.malformed e offset) s).1
  finish s := (v.note .finish s).1

/-! ## Walks -/

theorem see_eq (s : σ) (p : Located w) : v.see s p = v.hear s p.event := by
  rcases p with ⟨offset, run | _ | d | e⟩
  all_goals rfl

@[simp] theorem hear_logged (s : σ) (log : List (Event w)) (e : Event w) :
    v.logged.hear (s, log) e = (((v.hear s e).1, log ++ [e]), (v.hear s e).2) := by
  cases e <;> rfl

theorem after_append (s : σ) (xs ys : List (Event w)) :
    v.after s (xs ++ ys) = v.after (v.after s xs) ys := List.foldl_append

theorem after_logged (s : σ) (log events : List (Event w)) :
    v.logged.after (s, log) events = (v.after s events, log ++ events) := by
  induction events generalizing s log with
  | nil => rw [List.append_nil]; rfl
  | cons e events ih =>
    rw [after, List.foldl_cons, hear_logged]
    exact (ih _ _).trans (by rw [List.append_assoc]; rfl)

theorem goesOn_logged {s : σ} {log events : List (Event w)} :
    v.logged.GoesOn (s, log) events ↔ v.GoesOn s events := by
  induction events generalizing s log with
  | nil => exact Iff.rfl
  | cons e events ih => rw [GoesOn, GoesOn, hear_logged, ih]

variable {v} in
/-- A walk past events at which the visitor does not stop. -/
theorem walk_append {s : σ} {ps : List (Located w)} (h : v.GoesOn s (ps.map Located.event))
    (qs : List (Located w)) :
    v.walk s (ps ++ qs) = v.walk (v.after s (ps.map Located.event)) qs := by
  induction ps generalizing s with
  | nil => rfl
  | cons p ps ih =>
    obtain ⟨hflow, hrest⟩ := h
    rw [List.cons_append, walk, see_eq]
    rcases hhear : v.hear s p.event with ⟨t, flow⟩
    rw [hhear] at hflow hrest
    obtain rfl : flow = .proceed := hflow
    rw [List.map_cons, after, List.foldl_cons, hhear]
    exact ih hrest

/-- A walk ends where the visitor stops. -/
theorem walk_cons_of_stop {s : σ} {p : Located w} (h : (v.hear s p.event).2 = .stop)
    (qs : List (Located w)) : v.walk s (p :: qs) = ((v.hear s p.event).1, .stop) := by
  rw [walk, see_eq]
  rcases hhear : v.hear s p.event with ⟨t, flow⟩
  rw [hhear] at h
  obtain rfl : flow = .stop := h
  rfl

variable {v} in
/-- A visitor with a log has the events in it at which it did not stop. -/
theorem walk_logged_append {s : σ} {ps : List (Located w)} (h : v.GoesOn s (ps.map Located.event))
    (qs : List (Located w)) :
    v.logged.walk (s, []) (ps ++ qs)
      = v.logged.walk (v.after s (ps.map Located.event), ps.map Located.event) qs := by
  rw [walk_append (v.goesOn_logged.mpr h), after_logged, List.nil_append]

/-- The log does not change what the visitor does. -/
theorem walk_logged (s : σ) (log : List (Event w)) (ps : List (Located w)) :
    v.walk s ps = ((v.logged.walk (s, log) ps).1.1, (v.logged.walk (s, log) ps).2) := by
  induction ps generalizing s log with
  | nil => rfl
  | cons p ps ih =>
    rw [walk, walk, see_eq, see_eq, hear_logged]
    rcases v.hear s p.event with ⟨t, _ | _⟩
    · exact ih t _
    · rfl

end Visitor

/-! ## The texts of the events -/

/-- The event stands for the units `x` that the format string `t` has at `offset`. -/
inductive Event.StandsFor (dialect : Dialect) (t : Text w) (offset : Nat) :
    Event w → Text w → Prop where
  | units {run : Text w} (hne : run ≠ []) (h : ∀ u ∈ run, u.spells '%' = false) :
    StandsFor dialect t offset (.units run) run
  | percent : StandsFor dialect t offset (.percent offset) [.ofAscii w '%', .ofAscii w '%']
  | directive {d : Directive} {span : Text w} (hnext : percentNext (t.drop (offset + 1)) = false)
    (h : Directive.parse dialect (t.drop (offset + 1)) = .ok (d, span.length)) :
    StandsFor dialect t offset (.directive d offset) (.ofAscii w '%' :: span)

/-- One behind the other, the events stand for the units `x` that the format string `t` has at
`offset`. -/
inductive Told (dialect : Dialect) (t : Text w) : Nat → List (Event w) → Text w → Prop where
  | nil {offset : Nat} : Told dialect t offset [] []
  | cons {offset : Nat} {e : Event w} {x : Text w} {events : List (Event w)} {y : Text w}
    (h : e.StandsFor dialect t offset x) (hevents : Told dialect t (offset + x.length) events y) :
    Told dialect t offset (e :: events) (x ++ y)

/-- What the last event is, and how the walk ends, when the events in front of it stand for `x`. -/
inductive Ending (dialect : Dialect) (t : Text w) : Text w → Event w → Flow → Prop where
  | finish : Ending dialect t t .finish .proceed
  | malformed {offset : Nat} {e : DirectiveError} (hpercent : t[offset]? = some (.ofAscii w '%'))
    (hnext : percentNext (t.drop (offset + 1)) = false)
    (h : Directive.parse dialect (t.drop (offset + 1)) = .error e) :
    Ending dialect t (t.take offset) (.malformed e offset) .stop

/-- The event is a literal run. -/
def Event.isUnits : Event w → Bool
  | .units _ => true
  | _ => false

/-- The pieces `qs` tell of all of `rest`, which the format string `t` has at `offset`, or of what
is in front of a percent sign that starts no directive. -/
def TellOf (dialect : Dialect) (t : Text w) (offset : Nat) (qs : List (Located w)) (rest : Text w) :
    Prop :=
  ∃ ps x, Told dialect t offset (ps.map Located.event) x ∧
    (qs = ps ∧ rest = x ∨
      ∃ e s, qs = ps ++ [⟨offset + x.length, .malformed e⟩] ∧ rest = x ++ .ofAscii w '%' :: s ∧
        percentNext s = false ∧ Directive.parse dialect s = .error e)

/-- One more piece in front, which stands for the units `x`. -/
theorem TellOf.cons {t rest rest' x : Text w} {offset offset' : Nat} {p : Located w}
    {qs : List (Located w)} (hp : p.event.StandsFor dialect t offset x)
    (hoffset : offset' = offset + x.length) (hrest : rest = x ++ rest')
    (h : TellOf dialect t offset' qs rest') : TellOf dialect t offset (p :: qs) rest := by
  subst hoffset hrest
  obtain ⟨ps, y, htold, ⟨rfl, rfl⟩ | ⟨e, s, rfl, rfl, hnext, hparse⟩⟩ := h
  · exact ⟨p :: qs, x ++ rest', .cons hp htold, .inl ⟨rfl, rfl⟩⟩
  · refine ⟨p :: ps, x ++ y, .cons hp htold, .inr ⟨e, s, ?_, ?_, hnext, hparse⟩⟩
    · rw [List.length_append, Nat.add_assoc]
      rfl
    · rw [List.append_assoc]

/-- **Nothing is lost.** What is left of a format string is told of by its pieces. -/
theorem tellOf_piecesFrom {t rest : Text w} {offset : Nat} (hrest : t.drop offset = rest) :
    TellOf dialect t offset (piecesFrom dialect offset rest) rest := by
  have hbehind {offset : Nat} {x rest : Text w} (h : t.drop offset = x ++ rest) :
      t.drop (offset + x.length) = rest := by
    rw [← List.drop_drop, h, List.drop_left]
  fun_induction piecesFrom dialect offset rest with
  | case1 => exact ⟨[], [], .nil, .inl ⟨rfl, rfl⟩⟩
  | case2 offset u s hu hs ih =>
    rcases s with _ | ⟨v, s⟩
    · exact absurd hs (by simp)
    obtain rfl := (CodeUnit.spells_iff (by decide)).mp hu
    obtain rfl := (CodeUnit.spells_iff (by decide)).mp hs
    exact .cons .percent rfl rfl (ih (hbehind (x := [.ofAscii w '%', .ofAscii w '%']) hrest))
  | case3 offset u s hu hs d n h ih =>
    obtain rfl := (CodeUnit.spells_iff (by decide)).mp hu
    have hs : percentNext s = false := Bool.eq_false_of_not_eq_true hs
    have hdrop : t.drop (offset + 1) = s := hbehind (x := [.ofAscii w '%']) hrest
    have hlength : (s.take n).length = n := List.length_take_of_le (Directive.parse_le h).2
    refine .cons (x := .ofAscii w '%' :: s.take n) (.directive ?_ ?_) ?_ ?_ (ih ?_)
    · rw [hdrop, hs]
    · rw [hdrop, hlength, h]
    · rw [List.length_cons, hlength, Nat.add_assoc, Nat.add_comm 1]
    · rw [List.cons_append, List.take_append_drop]
    · rw [← List.drop_drop, hdrop]
  | case4 offset u s hu hs e h =>
    obtain rfl := (CodeUnit.spells_iff (by decide)).mp hu
    exact ⟨[], [], .nil, .inr ⟨e, s, rfl, rfl, Bool.eq_false_of_not_eq_true hs, h⟩⟩
  | case5 offset u s hu run ih =>
    have hsplit : u :: s = run ++ s.dropWhile (!·.spells '%') := by
      rw [List.cons_append, List.takeWhile_append_dropWhile]
    have hrun : ∀ v ∈ run, v.spells '%' = false := by
      refine List.forall_mem_cons.mpr ⟨Bool.eq_false_of_not_eq_true hu, fun v hv ↦ ?_⟩
      simpa using List.mem_takeWhile_imp hv
    exact .cons (.units (List.cons_ne_nil _ _) hrun) rfl hsplit (ih (hbehind (hrest.trans hsplit)))

/-- A piece that starts with a percent sign is no literal run. -/
theorem isUnits_event_of_percentNext {t : Text w} {offset : Nat} {p : Located w}
    {ps : List (Located w)} (h : piecesFrom dialect offset t = p :: ps) (ht : percentNext t) :
    p.event.isUnits = false := by
  rcases t with _ | ⟨u, s⟩
  · exact absurd h (by simp)
  obtain rfl := (CodeUnit.spells_iff (by decide)).mp (show u.spells '%' from ht)
  cases hs : percentNext s with
  | true =>
    rcases s with _ | ⟨v, s⟩
    · exact absurd hs Bool.false_ne_true
    obtain rfl := (CodeUnit.spells_iff (by decide)).mp (show v.spells '%' from hs)
    rw [piecesFrom_percent] at h
    rw [← (List.cons.inj h).1]
    rfl
  | false =>
    cases hparse : Directive.parse dialect s with
    | ok parsed =>
      rw [piecesFrom_directive hs hparse] at h
      rw [← (List.cons.inj h).1]
      rfl
    | error e =>
      rw [piecesFrom_malformed hs hparse] at h
      rw [← (List.cons.inj h).1]
      rfl

/-- **Literal runs are as long as they can be**: no two of them are adjacent. -/
theorem isChain_piecesFrom (dialect : Dialect) (offset : Nat) (t : Text w) :
    ((piecesFrom dialect offset t).map Located.event).IsChain
      fun e e' ↦ ¬ (e.isUnits ∧ e'.isUnits) := by
  -- In front of a piece there may be anything if it, or the piece itself, is no literal run.
  have hcons {e : Event w} {es : List (Event w)}
      (h : ∀ e' ∈ es.head?, e.isUnits = false ∨ e'.isUnits = false)
      (hes : es.IsChain fun e e' ↦ ¬ (e.isUnits ∧ e'.isUnits)) :
      (e :: es).IsChain fun e e' ↦ ¬ (e.isUnits ∧ e'.isUnits) := by
    refine List.isChain_cons.mpr ⟨fun e' he' ↦ ?_, hes⟩
    obtain h | h := h e' he' <;> simp [h]
  fun_induction piecesFrom dialect offset t with
  | case1 => exact .nil
  | case2 offset u s hu hs ih => exact hcons (fun _ _ ↦ .inl rfl) ih
  | case3 offset u s hu hs d n h ih => exact hcons (fun _ _ ↦ .inl rfl) ih
  | case4 offset u s hu hs e h => exact .singleton _
  | case5 offset u s hu run ih =>
    refine hcons (fun e' he' ↦ .inr ?_) ih
    obtain ⟨p, hp, rfl⟩ := Option.map_eq_some_iff.mp (List.head?_map ▸ he')
    obtain ⟨ps, hps⟩ := List.head?_eq_some_iff.mp hp
    obtain hnil | hnext := percentNext_dropWhile s
    · rw [hnil, piecesFrom_nil] at hps
      exact absurd hps (by simp)
    · exact isUnits_event_of_percentNext hps hnext

/-! ## What visitors see -/

/-- The pieces of a format string, and what a visitor is told of behind those it can stop at. -/
theorem exists_told (dialect : Dialect) (t : Text w) :
    ∃ ps qs x last flow, pieces dialect t = ps ++ qs ∧ Told dialect t 0 (ps.map Located.event) x ∧
      Ending dialect t x last flow ∧
      ∀ (σ : Type) (v : Visitor w σ) (s : σ), v.walk s qs = ((v.hear s last).1, flow) := by
  have htell : TellOf dialect t 0 (piecesFrom dialect 0 t) t := tellOf_piecesFrom List.drop_zero
  obtain ⟨ps, x, htold, ⟨hps, rfl⟩ | ⟨e, s, hps, rfl, hnext, hparse⟩⟩ := htell
  · exact ⟨ps, [], t, .finish, .proceed, by rw [pieces, hps, List.append_nil], htold, .finish,
      fun σ v s ↦ rfl⟩
  · have hending : Ending dialect (x ++ .ofAscii w '%' :: s)
        ((x ++ .ofAscii w '%' :: s).take x.length) (.malformed e x.length) .stop :=
      .malformed (by simp) (by simpa using hnext) (by simpa using hparse)
    rw [List.take_left] at hending
    rw [Nat.zero_add] at hps
    exact ⟨ps, _, x, _, .stop, hps, htold, hending, fun σ v s ↦ rfl⟩

/-- **Visiting a format string.** There is one list of events for all visitors, `told` and behind it
`last`. The events of `told` stand for the format string `t`, one behind the other, or for the part
of it in front of the first percent sign that starts no directive, and no two literal runs are
adjacent. A visitor that stops at none of them is told of all and of `last`; one that stops is told
of no more than the events up to that. -/
theorem visit_tells_whole_template (dialect : Dialect) (t : Text w) :
    ∃ told x last flow, Told dialect t 0 told x ∧ Ending dialect t x last flow ∧
      told.IsChain (fun e e' ↦ ¬ (e.isUnits ∧ e'.isUnits)) ∧
      ∀ (σ : Type) (v : Visitor w σ) (s : σ),
        v.visit dialect t s = ((v.logged.visit dialect t (s, [])).1.1,
          (v.logged.visit dialect t (s, [])).2) ∧
        (v.GoesOn s told →
          v.logged.visit dialect t (s, []) = ((v.after s (told ++ [last]), told ++ [last]), flow)) ∧
        ∀ k e, told[k]? = some e → v.GoesOn s (told.take k) →
          (v.hear (v.after s (told.take k)) e).2 = .stop →
          v.logged.visit dialect t (s, [])
            = ((v.after s (told.take (k + 1)), told.take (k + 1)), .stop) := by
  obtain ⟨ps, qs, x, last, flow, hpieces, htold, hending, hqs⟩ := exists_told dialect t
  refine ⟨ps.map Located.event, x, last, flow, htold, hending, ?_, fun σ v s ↦ ⟨?_, ?_, ?_⟩⟩
  · have hchain := isChain_piecesFrom dialect 0 t
    rw [← pieces, hpieces, List.map_append] at hchain
    exact hchain.left_of_append
  · exact v.walk_logged s [] (pieces dialect t)
  · intro hgo
    rw [Visitor.visit, hpieces, Visitor.walk_logged_append hgo, hqs, v.hear_logged, v.after_append]
    rfl
  · intro k e he hgo hstop
    obtain ⟨p, hp, rfl⟩ := Option.map_eq_some_iff.mp (List.getElem?_map.symm.trans he)
    have hsplit : ps ++ qs = ps.take k ++ p :: (ps.drop (k + 1) ++ qs) := by
      obtain ⟨hlt, rfl⟩ := List.getElem?_eq_some_iff.mp hp
      rw [← List.cons_append, ← List.drop_eq_getElem_cons hlt, ← List.append_assoc,
        List.take_append_drop]
    have htake : (ps.map Located.event).take (k + 1)
        = (ps.map Located.event).take k ++ [p.event] := by
      rw [List.take_add_one, he]
      rfl
    rw [htake, v.after_append]
    rw [← List.map_take] at hgo hstop ⊢
    rw [Visitor.visit, hpieces, hsplit, Visitor.walk_logged_append hgo,
      v.logged.walk_cons_of_stop (by rw [v.hear_logged, hstop]), v.hear_logged]
    rfl

end FormatString
