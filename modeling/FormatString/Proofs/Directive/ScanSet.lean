import Mathlib
import FormatString.Directive.Parse
import FormatString.Proofs.Text.Boundary

/-!
# What a scan set spans

A scan set ends with the bracket that closes it. The bracket is ASCII, hence a boundary between
characters, and what stands behind it has no part in the set.
-/

namespace FormatString

variable {w : Width}

/-- The members of a set end with a bracket, and the text behind it is not looked at. -/
theorem readMembers?_sound {cs rest : List Char} {ranges : List (Nat × Nat)}
    (h : readMembers? cs = some (ranges, rest)) :
    ∃ body, cs = body ++ ']' :: rest ∧
      ∀ rest', readMembers? (body ++ ']' :: rest') = some (ranges, rest') := by
  fun_induction readMembers? cs generalizing ranges with
  | case1 => exact absurd h (by simp)
  | case2 tail =>
    obtain ⟨rfl, rfl⟩ := Prod.mk.inj (Option.some.inj h)
    exact ⟨[], rfl, fun rest' ↦ by rw [List.nil_append, readMembers?]⟩
  | case3 lo tail hlo =>
    obtain ⟨rfl, rfl⟩ := Prod.mk.inj (Option.some.inj h)
    refine ⟨[lo, '-'], rfl, fun rest' ↦ ?_⟩
    change readMembers? (lo :: '-' :: ']' :: rest') = _
    rw [readMembers?.eq_3 _ _ _ hlo, if_pos rfl]
  | case4 lo hi tail hlo hhi ih =>
    obtain ⟨⟨more, tail'⟩, hmore, heq⟩ := Option.map_eq_some_iff.mp h
    obtain ⟨rfl, rfl⟩ := Prod.mk.inj heq
    obtain ⟨body, rfl, hbody⟩ := ih hmore
    refine ⟨lo :: '-' :: hi :: body, rfl, fun rest' ↦ ?_⟩
    change readMembers? (lo :: '-' :: hi :: (body ++ ']' :: rest')) = _
    rw [readMembers?.eq_3 _ _ _ hlo, if_neg hhi, hbody]
    rfl
  | case5 lo tail hlo hdash ih =>
    obtain ⟨⟨more, tail'⟩, hmore, heq⟩ := Option.map_eq_some_iff.mp h
    obtain ⟨rfl, rfl⟩ := Prod.mk.inj heq
    obtain ⟨body, rfl, hbody⟩ := ih hmore
    refine ⟨lo :: body, rfl, fun rest' ↦ ?_⟩
    -- Were there a range here, there would have been one in the original text.
    have hdash' : ∀ hi more', body ++ ']' :: rest' = '-' :: hi :: more' → False := by
      intro hi more' heq
      rcases body with _ | ⟨c, _ | ⟨d, body⟩⟩
      · exact absurd (List.cons.inj heq).1 (by decide)
      · obtain ⟨rfl, -⟩ := List.cons.inj heq
        exact hdash _ _ rfl
      · obtain ⟨rfl, -⟩ := List.cons.inj heq
        exact hdash _ _ rfl
    rw [List.cons_append, readMembers?.eq_4 _ _ hlo hdash', hbody]
    rfl

/-- In front of the members there may be a caret and a bracket, which leave it to the next character
that they end there. -/
theorem ScanSet.exists_read?_eq (cs : List Char) :
    ∃ (front members : List Char) (set : List (Nat × Nat) → ScanSet), cs = front ++ members ∧
      ∀ members' : List Char, members'.head? = members.head? →
        read? (front ++ members') = (readMembers? members').map (Prod.map set id) := by
  by_cases hcaret : cs.head? = some '^'
  · obtain ⟨body, rfl⟩ := List.head?_eq_some_iff.mp hcaret
    by_cases hbracket : body.head? = some ']'
    · obtain ⟨members, rfl⟩ := List.head?_eq_some_iff.mp hbracket
      exact ⟨['^', ']'], members, fun ranges ↦ ⟨true, (']'.toNat, ']'.toNat) :: ranges⟩, rfl,
        fun members' _ ↦ read?.eq_1 members'⟩
    · refine ⟨['^'], body, fun ranges ↦ ⟨true, ranges⟩, rfl, fun members' h ↦
        read?.eq_2 members' ?_⟩
      rintro rest rfl
      exact hbracket h.symm
  · by_cases hbracket : cs.head? = some ']'
    · obtain ⟨members, rfl⟩ := List.head?_eq_some_iff.mp hbracket
      exact ⟨[']'], members, fun ranges ↦ ⟨false, (']'.toNat, ']'.toNat) :: ranges⟩, rfl,
        fun members' _ ↦ read?.eq_3 members'⟩
    · refine ⟨[], cs, fun ranges ↦ ⟨false, ranges⟩, rfl, fun members' h ↦
        read?.eq_4 members' ?_ ?_⟩
      · rintro rest rfl
        exact hcaret h.symm
      · rintro rest rfl
        exact hbracket h.symm

/-- **The closing bracket** is where a scan set ends. -/
theorem ScanSet.read?_sound {cs rest : List Char} {set : ScanSet}
    (h : read? cs = some (set, rest)) :
    ∃ body, cs = body ++ ']' :: rest ∧
      ∀ rest', read? (body ++ ']' :: rest') = some (set, rest') := by
  obtain ⟨front, members, setOf, rfl, hread⟩ := exists_read?_eq cs
  rw [hread members rfl] at h
  obtain ⟨⟨ranges, tail⟩, hmembers, heq⟩ := Option.map_eq_some_iff.mp h
  obtain ⟨rfl, rfl⟩ := Prod.mk.inj heq
  obtain ⟨body, rfl, hbody⟩ := readMembers?_sound hmembers
  refine ⟨front ++ body, (List.append_assoc _ _ _).symm, fun rest' ↦ ?_⟩
  have hhead : (body ++ ']' :: rest').head? = (body ++ ']' :: tail).head? := by
    cases body <;> rfl
  rw [List.append_assoc, hread _ hhead, hbody]
  rfl

/-- A scan set spans the characters in front of what is left of them. -/
theorem readScanSet_of_read? {s : Text w} {set : ScanSet} {front back : List (Spelled w)}
    (hs : characters s = front ++ back)
    (h : ScanSet.read? ((characters s).map Spelled.char) = some (set, back.map Spelled.char)) :
    readScanSet s = .ok (set, (unitsOf front).length) := by
  have hlength : (front ++ back).length - (back.map Spelled.char).length = front.length := by
    rw [List.length_append, List.length_map, Nat.add_sub_cancel]
  rw [readScanSet, h]
  dsimp only
  rw [hs, hlength, List.take_left]

/-- **What follows does not matter.** Only the units a scan set spans decide how it is read, be they
well-formed or not. -/
theorem readScanSet_take_append {s : Text w} {set : ScanSet} {n : Nat}
    (h : readScanSet s = .ok (set, n)) (r : Text w) :
    readScanSet (s.take n ++ r) = .ok (set, n) := by
  cases hread : ScanSet.read? ((characters s).map Spelled.char) with
  | none =>
    rw [readScanSet, hread] at h
    exact absurd h (by simp)
  | some p =>
    obtain ⟨set', rest⟩ := p
    obtain ⟨members, hsplit, hmembers⟩ := ScanSet.read?_sound hread
    obtain ⟨front, tail, hchars, rfl, htail⟩ := List.map_eq_append_iff.mp hsplit
    obtain ⟨bracket, back, rfl, hbracket, rfl⟩ := List.map_eq_cons_iff.mp htail
    rw [List.append_cons] at hchars
    obtain ⟨hs, hcut⟩ := characters_cut (by decide) hbracket hchars
    obtain ⟨rfl, rfl⟩ :=
      Prod.mk.inj (Except.ok.inj ((readScanSet_of_read? hchars hread).symm.trans h))
    have htake : s.take (unitsOf (front ++ [bracket])).length = unitsOf (front ++ [bracket]) := by
      conv_lhs => rw [hs]
      exact List.take_left
    rw [htake]
    refine readScanSet_of_read? (hcut r) ?_
    rw [hcut, List.map_append, List.map_append, List.map_singleton, hbracket, List.append_assoc]
    exact hmembers _

end FormatString
