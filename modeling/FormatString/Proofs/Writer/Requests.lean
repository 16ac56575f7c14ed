import Mathlib
import FormatString.Proofs.Writer.Rendering

/-!
# What directives ask for

Rendering a directive has two stages: the arguments of its width, of its precision and of its value
are taken, which gives a `Request`; and the request is answered by output or found not to suit. Only
the second stage puts anything out, so only it depends on the width of the output.
-/

namespace FormatString

variable {w : Width} {α β γ : Type}

/-- A directive with the layout and the argument it was given. -/
structure Request where
  directive : Directive
  layout : Layout
  arg : Arg

/-- What is put out for the request when `written` units were put out before. -/
def Request.output? (r : Request) (config : Config) (written : Nat) : Option (List (Action w)) :=
  r.directive.output? config r.layout written r.arg

/-- Takes what a directive asks for; a percent sign asks for no argument. -/
def Directive.request (d : Directive) (source : ArgSource) : Taken (Option Request) :=
  (source.takeAmount d.width).andThen fun width source ↦
  (source.takeAmount d.precision).andThen fun precision source ↦
    if d.conversion = .percent then ⟨.ok none, source⟩
    else (source.take d.index).andThen fun arg source ↦
      ⟨.ok (some ⟨d, .of d width precision, arg⟩), source⟩

/-- The output of a directive that asked for `request`. -/
def answer (config : Config) (written : Nat) (request : Option Request) (source : ArgSource) :
    Taken (List (Action w)) :=
  match request with
  | none => ⟨.ok [.put (.units [.ofAscii w '%'])], source⟩
  | some r =>
    match r.output? config written with
    | some actions => ⟨.ok actions, source⟩
    | none => ⟨.error .badType, source⟩

theorem Taken.andThen_assoc (t : Taken α) (f : α → ArgSource → Taken β)
    (g : β → ArgSource → Taken γ) :
    (t.andThen f).andThen g = t.andThen fun a s ↦ (f a s).andThen g := by
  rcases t with ⟨e | a, s⟩ <;> rfl

@[simp] theorem Taken.andThen_error (e : ArgFault) (s : ArgSource) (f : α → ArgSource → Taken β) :
    (⟨.error e, s⟩ : Taken α).andThen f = ⟨.error e, s⟩ := rfl

/-- **Rendering a directive** is taking what it asks for and answering. -/
theorem Directive.render_eq (d : Directive) (config : Config) (written : Nat)
    (source : ArgSource) :
    d.render (w := w) config written source = (d.request source).andThen (answer config written) := by
  rw [render, request, Taken.andThen_assoc]
  congr 1
  funext width source
  rw [Taken.andThen_assoc]
  congr 1
  funext precision source
  split
  · rfl
  · rw [Taken.andThen_assoc]
    rfl

/-! ## Properties of arguments -/

section Arguments

variable {P : Arg → Prop} {source : ArgSource}

/-- All arguments that can still be taken have the property. -/
def ArgSource.All (P : Arg → Prop) (source : ArgSource) : Prop :=
  ∀ a ∈ source.cursor.remaining, P a

theorem ArgSource.invariant_all (P : Arg → Prop) : Invariant (ArgSource.All P) := by
  rintro (⟨n, _ | ⟨arg, rest⟩⟩ | args) slot h
  · exact h
  · exact (List.forall_mem_cons.mp h).2
  · rcases slot with _ | _ | i <;> exact h

theorem ArgSource.All.take {slot : Option Nat} {arg : Arg} (h : source.All P)
    (htake : (source.take slot).result = .ok arg) : P arg := by
  rcases source with ⟨n, _ | ⟨a, rest⟩⟩ | args
  · exact absurd htake (by simp [ArgSource.take, next])
  · obtain rfl := Except.ok.inj htake
    exact (List.forall_mem_cons.mp h).1
  · rcases slot with _ | _ | i
    · exact absurd htake (by simp [ArgSource.take, next])
    · exact absurd htake (by simp [ArgSource.take, next])
    · rw [ArgSource.take, next] at htake
      cases harg : args[i]? with
      | none => exact absurd htake (by simp [harg])
      | some a =>
        rw [harg] at htake
        obtain rfl := Except.ok.inj htake
        exact h a (List.mem_of_getElem? harg)

/-- What is asked for is an argument. -/
theorem ArgSource.All.request {d : Directive} {r : Request} (h : source.All P)
    (hrequest : (d.request source).result = .ok (some r)) : P r.arg := by
  have hall := invariant_all P
  rw [Directive.request, Taken.andThen] at hrequest
  split at hrequest
  · have hwidth := hall.takeAmount d.width h
    rw [Taken.andThen] at hrequest
    split at hrequest
    · have hprecision := hall.takeAmount d.precision hwidth
      split at hrequest
      · exact absurd hrequest (by simp)
      · rw [Taken.andThen] at hrequest
        split at hrequest
        · next harg =>
          obtain rfl := Option.some.inj (Except.ok.inj hrequest)
          exact hprecision.take harg
        · exact absurd hrequest (by simp)
    · exact absurd hrequest (by simp)
  · exact absurd hrequest (by simp)

end Arguments

/-! ## All requests of a call -/

/-- What a piece asks for. -/
def Located.request? (p : Located w) (source : ArgSource) : Option Request :=
  p.piece.directive?.bind fun d ↦ (d.request source).result.toOption.join

theorem Located.exists_request {p : Located w} {source : ArgSource} {r : Request}
    (h : p.request? source = some r) :
    ∃ d : Directive, (d.request source).result = .ok (some r) := by
  obtain ⟨d, -, hd⟩ := Option.bind_eq_some_iff.mp h
  refine ⟨d, ?_⟩
  cases hresult : (d.request source).result with
  | error e =>
    rw [hresult] at hd
    exact absurd hd (by simp [Except.toOption])
  | ok request =>
    rw [hresult] at hd
    exact congrArg Except.ok hd

section Piece

variable {config : Config} {written offset : Nat} {source source' : ArgSource} {d : Directive}

theorem Located.request?_directive {request : Option Request}
    (h : d.request source = ⟨.ok request, source'⟩) :
    (⟨offset, .directive d⟩ : Located w).request? source = request := by
  change (d.request source).result.toOption.join = request
  rw [h]
  rfl

theorem Located.render_directive {actions : List (Action w)}
    (h : d.render config written source = ⟨.ok actions, source'⟩) :
    (⟨offset, .directive d⟩ : Located w).render config written source
      = (.ok ⟨actions, source'⟩, source') := by
  rw [render]
  dsimp only
  rw [h]

theorem Located.render_directive_of_error {e : ArgFault}
    (h : d.render (w := w) config written source = ⟨.error e, source'⟩) :
    (⟨offset, .directive d⟩ : Located w).render config written source
      = (.error (e.at offset), source') := by
  rw [render]
  dsimp only
  rw [h]

end Piece

/-- What pieces ask for, up to the first that fails. -/
def requestsOf (config : Config) (source : ArgSource) : List (Located w) → List Request
  | [] => []
  | p :: rest =>
    (p.request? source).toList ++
      match p.render config 0 source with
      | (.ok _, source) => requestsOf config source rest
      | (.error _, _) => []

/-- What the directives of a writing call ask for. -/
def Config.requests (config : Config) (t : Text w) (args : List Arg) : List Request :=
  requestsOf config (.sequential (.ofArgs args)) (pieces .print t)

/-- What is asked for are arguments of the call. -/
theorem ArgSource.All.requestsOf {P : Arg → Prop} {source : ArgSource} (h : source.All P)
    (config : Config) (ps : List (Located w)) :
    ∀ r ∈ FormatString.requestsOf config source ps, P r.arg := by
  induction ps generalizing source with
  | nil => exact fun r hr ↦ absurd hr List.not_mem_nil
  | cons p rest ih =>
    refine List.forall_mem_append.mpr ⟨fun r hr ↦ ?_, ?_⟩
    · obtain ⟨d, hd⟩ := Located.exists_request (Option.mem_toList.mp hr)
      exact h.request hd
    · have hrest := (invariant_all P).renderPiece p config 0 h
      split
      · next hrender =>
        rw [hrender] at hrest
        exact ih hrest
      · simp

end FormatString
