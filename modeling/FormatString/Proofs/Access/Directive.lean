import Mathlib
import FormatString.Proofs.Access.Slice

/-!
# Directives parsed by position

The parser of directives looks at one unit at a time and may look past the end of the format string,
where it finds none. What it slices are the members of a scan set, of which it has to know where
they start and how many units each of them takes. `Directive.parseAt?` goes through the fields with
nothing but its position in between, and `parseAt?_eq` says that it parses the same directive.
-/

namespace FormatString

variable {w : Width}

/-! ## Units at a position -/

section Units

variable {s : Text w} {i : Nat} {a : Char}

/-- The ASCII character at a position, if there is one. -/
def asciiAt (s : Text w) (i : Nat) : Option Char := s[i]?.bind CodeUnit.ascii?

theorem asciiAt_eq_some_iff : asciiAt s i = some a ↔
    a.toNat < 0x80 ∧ ∃ t, s.drop i = .ofAscii w a :: t := by
  rw [asciiAt, Option.bind_eq_some_iff, ← List.head?_drop]
  constructor
  · rintro ⟨u, hu, ha⟩
    obtain ⟨hlt, rfl⟩ := CodeUnit.ascii?_eq_some_iff.mp ha
    exact ⟨hlt, List.head?_eq_some_iff.mp hu⟩
  · rintro ⟨hlt, t, ht⟩
    exact ⟨_, by rw [ht]; rfl, CodeUnit.ascii?_ofAscii hlt⟩

theorem characters_of_asciiAt (h : asciiAt s i = some a) :
    i < s.length ∧
      characters (s.drop i) = ⟨a, [.ofAscii w a]⟩ :: characters (s.drop (i + 1)) := by
  obtain ⟨ha, t, ht⟩ := asciiAt_eq_some_iff.mp h
  have hlt : i < s.length := by
    have hlength := congrArg List.length ht
    rw [List.length_drop, List.length_cons] at hlength
    omega
  have hrest : s.drop (i + 1) = t := by rw [← List.drop_drop, ht]; rfl
  rw [hrest, ht]
  refine ⟨hlt, ?_⟩
  have hchars := characters_append_ascii (w := w) ha [] t
  rwa [characters_nil] at hchars

/-- An ASCII character is where its unit is. -/
theorem asciiAt_of_characters (ha : a.toNat < 0x80) {p : Spelled w} {ps : List (Spelled w)}
    (hp : p.char = a) (h : characters (s.drop i) = p :: ps) : asciiAt s i = some a := by
  obtain rfl := eq_of_mem_characters ha (by rw [h]; exact List.mem_cons_self) hp
  refine asciiAt_eq_some_iff.mpr ⟨ha, unitsOf ps, ?_⟩
  rw [← unitsOf_characters (s.drop i), h]
  rfl

end Units

/-! ## Positions in the ASCII run -/

section Positions

variable {s : Text w} {i : Nat} {c : Char} {cs : List Char}

/-- The position is in the ASCII run of a text, or right behind it, and these characters are what is
left of the run. -/
structure Behind (s : Text w) (i : Nat) (cs : List Char) : Prop where
  le : i ≤ (Text.asciiRun s).length
  eq : (Text.asciiRun s).drop i = cs

theorem behind_zero (s : Text w) : Behind s 0 (Text.asciiRun s) := ⟨Nat.zero_le _, rfl⟩

namespace Behind

theorem le_length (h : Behind s i cs) : i ≤ s.length := h.le.trans s.length_asciiRun_le

theorem add_length (h : Behind s i cs) : i + cs.length = (Text.asciiRun s).length := by
  rw [← h.eq, List.length_drop, Nat.add_sub_cancel' h.le]

theorem drop (h : Behind s i cs) {front rest : List Char} (hcs : cs = front ++ rest) :
    Behind s (i + front.length) rest := by
  subst hcs
  refine ⟨?_, ?_⟩
  · rw [← h.add_length, List.length_append]
    omega
  · rw [← List.drop_drop, h.eq, List.drop_left]

theorem next (h : Behind s i (c :: cs)) : Behind s (i + 1) cs := h.drop (List.singleton_append).symm

/-- The units that are left start with these characters. -/
theorem asciiRun_drop (h : Behind s i cs) : Text.asciiRun (s.drop i) = cs := by
  induction s generalizing i with
  | nil =>
    rw [← h.eq, List.drop_nil]
    exact List.drop_nil.symm
  | cons u s ih =>
    cases i with
    | zero => exact h.eq
    | succ i =>
      obtain ⟨hle, heq⟩ := h
      rw [Text.asciiRun] at hle heq
      cases hu : u.ascii? with
      | none =>
        rw [hu] at hle
        exact absurd hle (Nat.not_succ_le_zero i)
      | some c =>
        rw [hu] at hle heq
        exact ih ⟨Nat.le_of_succ_le_succ hle, heq⟩

theorem asciiAt (h : Behind s i cs) : asciiAt s i = cs.head? := by
  rw [FormatString.asciiAt, ← List.head?_drop, ← h.asciiRun_drop]
  cases s.drop i with
  | nil => rfl
  | cons u rest =>
    rw [Text.asciiRun, List.head?_cons, Option.bind_some]
    cases u.ascii? <;> rfl

end Behind

end Positions

/-! ## Scan sets -/

section ScanSets

variable {s : Text w} {i : Nat} {cs front : List (Spelled w)} {α β : Type}

/-- What was read of characters, and the number of units it spans instead of the characters that are
left. -/
def spannedBy (read : Option (α × List Char)) (cs : List (Spelled w)) :
    Except DirectiveError (α × Nat) :=
  match read with
  | some (a, rest) => .ok (a, (unitsOf (cs.take (cs.length - rest.length))).length)
  | none => .error .unterminatedScanSet

/-- Characters that are read in front of others add their units. -/
theorem spannedBy_append {read : Option (α × List Char)}
    (hle : ∀ p ∈ read, p.2.length ≤ cs.length) (front : List (Spelled w)) (f : α → β) :
    spannedBy (read.map (Prod.map f id)) (front ++ cs)
      = (spannedBy read cs).map fun (a, n) ↦ (f a, (unitsOf front).length + n) := by
  cases read with
  | none => rfl
  | some p =>
    obtain ⟨a, rest⟩ := p
    have hle : rest.length ≤ cs.length := hle _ rfl
    have hlength : (front ++ cs).length - rest.length
        = front.length + (cs.length - rest.length) := by
      rw [List.length_append]
      omega
    change Except.ok (f a, (unitsOf ((front ++ cs).take ((front ++ cs).length - rest.length))).length)
      = .ok (f a, (unitsOf front).length + (unitsOf (cs.take (cs.length - rest.length))).length)
    rw [hlength, List.take_length_add_append, unitsOf, List.flatMap_append, List.length_append]
    rfl

/-- The members of a scan set and the number of units up to the closing bracket. -/
def membersOf (cs : List (Spelled w)) : Except DirectiveError (List (Nat × Nat) × Nat) :=
  spannedBy (readMembers? (cs.map Spelled.char)) cs

theorem length_le_of_readMembers? {p : List (Nat × Nat) × List Char}
    (h : readMembers? (cs.map Spelled.char) = some p) : p.2.length ≤ cs.length := by
  obtain ⟨body, hcs, -⟩ := readMembers?_sound h
  have hlength := congrArg List.length hcs
  rw [List.length_map, List.length_append, List.length_cons] at hlength
  omega

theorem membersOf_append {f : List (Nat × Nat) → List (Nat × Nat)}
    (h : readMembers? ((front ++ cs).map Spelled.char)
      = (readMembers? (cs.map Spelled.char)).map (Prod.map f id)) :
    membersOf (front ++ cs)
      = (membersOf cs).map fun (ranges, n) ↦ (f ranges, (unitsOf front).length + n) := by
  rw [membersOf, h]
  exact spannedBy_append (fun _ h ↦ length_le_of_readMembers? h) front f

/-- A member that starts no range. -/
theorem readMembers?_cons {lo : Char} {rest : List Char} (hlo : lo ≠ ']')
    (hrange : ∀ hi more, rest = '-' :: hi :: more → hi = ']') :
    readMembers? (lo :: rest)
      = (readMembers? rest).map (Prod.map ((lo.toNat, lo.toNat) :: ·) id) := by
  by_cases hdash : ∃ hi more, rest = '-' :: hi :: more
  · obtain ⟨hi, more, rfl⟩ := hdash
    obtain rfl := hrange hi more rfl
    have hlast : readMembers? ('-' :: ']' :: more) = some ([('-'.toNat, '-'.toNat)], more) := by
      rw [readMembers?.eq_4 _ _ (by decide) (by simp), readMembers?.eq_2]
      rfl
    rw [readMembers?.eq_3 _ _ _ hlo, if_pos rfl, hlast]
    rfl
  · rw [readMembers?.eq_4 _ _ hlo fun hi more h ↦ hdash ⟨hi, more, h⟩]
    rfl

theorem readMembers?_range {lo hi : Char} {rest : List Char} (hlo : lo ≠ ']') (hhi : hi ≠ ']') :
    readMembers? (lo :: '-' :: hi :: rest)
      = (readMembers? rest).map (Prod.map (rangesOf lo hi ++ ·) id) := by
  rw [readMembers?.eq_3 _ _ _ hlo, if_neg hhi]
  rfl

/-- The end of the range whose dash may be at position `i`, and the number of its units. -/
def rangeEnd? (s : Text w) (i : Nat) : Option (Char × Nat) :=
  if asciiAt s i = some '-' then (decode? (s.drop (i + 1))).filter (·.1 ≠ ']') else none

theorem rangeEnd?_eq_some_iff {hi : Char} {used : Nat} : rangeEnd? s i = some (hi, used) ↔
    asciiAt s i = some '-' ∧ decode? (s.drop (i + 1)) = some (hi, used) ∧ hi ≠ ']' := by
  rw [rangeEnd?]
  split
  · next hdash => simp [Option.filter_eq_some_iff, hdash]
  · next hdash => simp [hdash]

theorem exists_decode?_of_characters {s : Text w} {p : Spelled w} {ps : List (Spelled w)}
    (h : characters s = p :: ps) : ∃ n, decode? s = some (p.char, n) := by
  rw [characters] at h
  split at h
  · exact absurd h (by simp)
  · next c n hdecode =>
    obtain ⟨rfl, -⟩ := List.cons.inj h
    exact ⟨n, hdecode⟩

/-- Where no range is found there is none. -/
theorem eq_bracket_of_rangeEnd?_eq_none (h : rangeEnd? s i = none) {hi : Char} {more : List Char}
    (hchars : (characters (s.drop i)).map Spelled.char = '-' :: hi :: more) : hi = ']' := by
  obtain ⟨p, ps, hcons, hp, hps⟩ := List.map_eq_cons_iff.mp hchars
  obtain ⟨q, qs, rfl, rfl, -⟩ := List.map_eq_cons_iff.mp hps
  have hdash := asciiAt_of_characters (by decide) hp hcons
  have hrest := (characters_of_asciiAt hdash).2
  rw [hcons] at hrest
  obtain ⟨used, hdecode⟩ := exists_decode?_of_characters (List.cons.inj hrest).2.symm
  by_contra hbracket
  rw [rangeEnd?_eq_some_iff.mpr ⟨hdash, hdecode, hbracket⟩] at h
  exact absurd h (by simp)

/-- The members of a scan set from position `i` on, and the position behind the closing bracket. -/
def membersAt? (s : Text w) (i : Nat) : Access DirectiveError (List (Nat × Nat) × Nat) :=
  match _hfrom : s.from? i with
  | none => ExceptT.mk none
  | some rest =>
    match _h : decode? rest with
    | none => settled (.error .unterminatedScanSet)
    | some (lo, used) =>
      if lo = ']' then do
        return ([], ← s.position? (i + 1))
      else
        match _hrange : rangeEnd? s (i + used) with
        | some (hi, more) => Prod.map (rangesOf lo hi ++ ·) id <$> membersAt? s (i + used + 1 + more)
        | none => Prod.map ((lo.toNat, lo.toNat) :: ·) id <$> membersAt? s (i + used)
termination_by s.length - i
decreasing_by
  all_goals
    have := lt_of_decode? _hfrom _h
    omega

theorem map_settled {ε : Type} (f : α → β) (x : Except ε α) :
    f <$> settled x = settled (x.map f) := by
  cases x <;> rfl

theorem membersAt?_eq (hle : i ≤ s.length) :
    membersAt? s i = settled ((membersOf (characters (s.drop i))).map (Prod.map id (i + ·))) := by
  -- What is read in front of the other members adds its ranges and its units.
  have hmore (front : List (Spelled w)) {f : List (Nat × Nat) → List (Nat × Nat)} {n : Nat}
      {cs : List (Spelled w)} (hn : (unitsOf front).length = n)
      (h : readMembers? ((front ++ cs).map Spelled.char)
        = (readMembers? (cs.map Spelled.char)).map (Prod.map f id)) (i : Nat) :
      Prod.map f id <$> (settled ((membersOf cs).map (Prod.map id (i + n + ·))) :
          Access DirectiveError (List (Nat × Nat) × Nat))
        = settled ((membersOf (front ++ cs)).map (Prod.map id (i + ·))) := by
    rw [membersOf_append h, map_settled, hn]
    cases membersOf cs with
    | error => rfl
    | ok p => simp [Except.map, Prod.map, Nat.add_assoc]
  fun_induction membersAt? s i with
  | case1 i hfrom => exact absurd ((Text.from?_of_le hle).symm.trans hfrom) (by simp)
  | case2 i rest hfrom h =>
    obtain ⟨-, rfl⟩ := Text.from?_eq_some_iff.mp hfrom
    rw [characters_of_decode?_eq_none h]
    rfl
  | case3 i rest hfrom used h =>
    obtain ⟨units, rfl, hchars⟩ := characters_of_from? hfrom h
    have hascii : ']'.toNat < 0x80 := by decide
    obtain ⟨hlt, hbracket⟩ := characters_of_asciiAt (asciiAt_of_characters hascii rfl hchars)
    rw [hbracket, membersOf, List.map_cons, readMembers?.eq_2, Text.position?_of_le hlt, spannedBy,
      List.length_cons, List.length_map, Nat.add_sub_cancel_left]
    rfl
  | case4 i rest hfrom lo used h hlo hi more hrange ih =>
    obtain ⟨units, rfl, hchars⟩ := characters_of_from? hfrom h
    obtain ⟨hdash, hdecode, hbracket⟩ := rangeEnd?_eq_some_iff.mp hrange
    obtain ⟨hlt, hdashed⟩ := characters_of_asciiAt hdash
    have hnext : i + units.length + 1 ≤ s.length := hlt
    have hfrom := Text.from?_of_le hnext
    obtain ⟨ending, rfl, hending⟩ := characters_of_from? hfrom hdecode
    have hstop : i + units.length + 1 + ending.length = i + (units.length + 1 + ending.length) := by
      omega
    rw [ih (lt_of_decode? hfrom hdecode).2.1, hchars, hdashed, hending, hstop]
    refine hmore [⟨lo, units⟩, ⟨'-', [.ofAscii w '-']⟩, ⟨hi, ending⟩] ?_
      (readMembers?_range hlo hbracket) i
    simp [unitsOf, Nat.add_assoc, Nat.add_comm 1]
  | case5 i rest hfrom lo used h hlo hrange ih =>
    obtain ⟨units, rfl, hchars⟩ := characters_of_from? hfrom h
    rw [ih (lt_of_decode? hfrom h).2.1, hchars]
    refine hmore [⟨lo, units⟩] (by simp [unitsOf]) (readMembers?_cons hlo ?_) i
    exact fun hi more hmore ↦ eq_bracket_of_rangeEnd?_eq_none hrange hmore

theorem readScanSet_eq (s : Text w) :
    readScanSet s = spannedBy (ScanSet.read? ((characters s).map Spelled.char)) (characters s) := by
  rw [readScanSet]
  cases ScanSet.read? ((characters s).map Spelled.char) <;> rfl

/-- The position behind the character `a`, if it is at position `i`. -/
def skipAt (a : Char) (s : Text w) (i : Nat) : Nat := if asciiAt s i = some a then i + 1 else i

/-- The scan set from position `i` on, and the position behind it. -/
def scanSetAt? (s : Text w) (i : Nat) : Access DirectiveError (ScanSet × Nat) :=
  let start := skipAt '^' s i
  let leading := if asciiAt s start = some ']' then [(']'.toNat, ']'.toNat)] else []
  Prod.map (⟨asciiAt s i = some '^', leading ++ ·⟩) id <$> membersAt? s (skipAt ']' s start)

/-- The members come behind what opens the scan set. -/
theorem membersAt?_of_opening {j : Nat} {f : List (Nat × Nat) → ScanSet}
    (front : List (Spelled w)) (hj : j ≤ s.length)
    (hchars : characters (s.drop i) = front ++ characters (s.drop j))
    (hunits : i + (unitsOf front).length = j)
    (hread : ScanSet.read? ((characters (s.drop i)).map Spelled.char)
      = (readMembers? ((characters (s.drop j)).map Spelled.char)).map (Prod.map f id)) :
    Prod.map f id <$> membersAt? s j
      = settled ((readScanSet (s.drop i)).map (Prod.map id (i + ·))) := by
  rw [membersAt?_eq hj, map_settled, readScanSet_eq, hread, hchars,
    spannedBy_append (fun _ h ↦ length_le_of_readMembers? h), ← hunits, membersOf]
  cases spannedBy (readMembers? ((characters (s.drop (i + (unitsOf front).length))).map
    Spelled.char)) (characters (s.drop (i + (unitsOf front).length))) with
  | error => rfl
  | ok p => simp [Except.map, Prod.map, Nat.add_assoc]

/-- No character starts what no ASCII unit of it starts. -/
theorem ne_of_asciiAt_ne {a : Char} (ha : a.toNat < 0x80) (h : asciiAt s i ≠ some a)
    (rest : List Char) : (characters (s.drop i)).map Spelled.char = a :: rest → False := by
  intro hchars
  obtain ⟨p, ps, hcons, hp, -⟩ := List.map_eq_cons_iff.mp hchars
  exact h (asciiAt_of_characters ha hp hcons)

theorem scanSetAt?_eq (hle : i ≤ s.length) :
    scanSetAt? s i = settled ((readScanSet (s.drop i)).map (Prod.map id (i + ·))) := by
  rw [scanSetAt?, skipAt, skipAt]
  by_cases hcaret : asciiAt s i = some '^'
  · obtain ⟨hlt, hchars⟩ := characters_of_asciiAt hcaret
    have hstart : i + 1 ≤ s.length := hlt
    rw [if_pos hcaret]
    by_cases hbracket : asciiAt s (i + 1) = some ']'
    · obtain ⟨hlt, hmembers⟩ := characters_of_asciiAt hbracket
      rw [hmembers] at hchars
      rw [if_pos hbracket, if_pos hbracket, decide_eq_true hcaret]
      refine membersAt?_of_opening [_, _] hlt hchars rfl ?_
      rw [hchars]
      exact ScanSet.read?.eq_1 _
    · rw [if_neg hbracket, if_neg hbracket, decide_eq_true hcaret]
      refine membersAt?_of_opening [_] hstart hchars rfl ?_
      rw [hchars]
      exact ScanSet.read?.eq_2 _ (ne_of_asciiAt_ne (by decide) hbracket)
  · rw [if_neg hcaret]
    by_cases hbracket : asciiAt s i = some ']'
    · obtain ⟨hlt, hchars⟩ := characters_of_asciiAt hbracket
      rw [if_pos hbracket, if_pos hbracket, decide_eq_false hcaret]
      refine membersAt?_of_opening [_] hlt hchars rfl ?_
      rw [hchars]
      exact ScanSet.read?.eq_3 _
    · rw [if_neg hbracket, if_neg hbracket, decide_eq_false hcaret]
      refine membersAt?_of_opening [] hle rfl rfl ?_
      exact ScanSet.read?.eq_4 _ (ne_of_asciiAt_ne (by decide) hcaret)
        (ne_of_asciiAt_ne (by decide) hbracket)

end ScanSets

/-! ## Fields -/

section Fields

variable {s : Text w} {i : Nat} {cs : List Char} {α β : Type}

/-- A field that starts at position `i`, and the position behind it. -/
def fieldAt? (read : List Char → Except DirectiveError (α × List Char)) (s : Text w) (i : Nat) :
    Access DirectiveError (α × Nat) := do
  let run := Text.asciiRun (← s.from? i)
  let (a, rest) ← settled (read run)
  return (a, ← s.position? (i + (run.length - rest.length)))

/-- **One field more.** Behind the field comes what it has left of the ASCII run. -/
theorem fieldAt?_bind {read : List Char → Except DirectiveError (α × List Char)}
    {f : α × Nat → Access DirectiveError β} {g : α × List Char → Except DirectiveError β}
    (hi : Behind s i cs)
    (h : ∀ a rest, read cs = .ok (a, rest) → ∃ field, cs = field ++ rest ∧
      ∀ j, Behind s j rest → f (a, j) = settled (g (a, rest))) :
    fieldAt? read s i >>= f = settled (read cs >>= g) := by
  rw [fieldAt?, Text.from?_of_le hi.le_length, lift_some_bind, hi.asciiRun_drop]
  dsimp only
  cases hread : read cs with
  | error e => rfl
  | ok p =>
    obtain ⟨a, rest⟩ := p
    obtain ⟨field, rfl, hf⟩ := h a rest hread
    have hj := hi.drop rfl
    rw [settled_ok_bind]
    dsimp only
    rw [List.length_append, Nat.add_sub_cancel, Text.position?_of_le hj.le_length, lift_some_bind]
    exact hf _ hj

/-- A field that may be empty but not malformed. -/
theorem fieldAt?_ok_bind {read : List Char → α × List Char} {a : α} {field rest : List Char}
    {f : α × Nat → Access DirectiveError β} {x : Except DirectiveError β}
    (hi : Behind s i cs) (hread : read cs = (a, rest)) (hcs : cs = field ++ rest)
    (h : ∀ j, Behind s j rest → f (a, j) = settled x) :
    fieldAt? (.ok ∘ read) s i >>= f = settled x := by
  refine fieldAt?_bind (g := fun _ ↦ x) hi fun a' rest' hread' ↦ ?_
  obtain ⟨rfl, rfl⟩ := Prod.mk.inj (hread.symm.trans (Except.ok.inj hread'))
  exact ⟨field, hcs, h⟩

/-- The scan set of a conversion that has one, from position `i` on, and the position behind it. -/
def setAt? (conversion : Conversion) (s : Text w) (i : Nat) :
    Access DirectiveError (Option ScanSet × Nat) :=
  if conversion = .charSet then Prod.map some id <$> scanSetAt? s i else return (none, i)

theorem setAt?_eq (conversion : Conversion) (hle : i ≤ s.length) :
    setAt? conversion s i = settled ((readSetOf conversion (s.drop i)).map (Prod.map id (i + ·))) := by
  rw [setAt?, readSetOf]
  split
  · rw [scanSetAt?_eq hle, map_settled]
    cases readScanSet (s.drop i) <;> rfl
  · rfl

/-- The conversion at position `i` behind a header, and the position behind the directive. -/
def conversionAt? (dialect : Dialect) (s : Text w) (header : Header) (i : Nat) :
    Access DirectiveError (Directive × Nat) :=
  match s[i]? with
  | none => settled (.error .missingConversion)
  | some u =>
    match readConversion? dialect u with
    | none => settled (.error (.unknownConversion u.value))
    | some (conversion, upper) =>
      if header.length.accepts conversion then do
        let (set, stop) ← setAt? conversion s (← s.position? (i + 1))
        return (⟨conversion, upper, header.flags, header.length, header.width, header.precision,
          header.index, set⟩, stop)
      else settled (.error (.incompatibleLength header.length conversion))

/-- The directive at the front of a text, and the position behind it. -/
def Directive.parseAt? (dialect : Dialect) (s : Text w) :
    Access DirectiveError (Directive × Nat) := do
  let (index, i) ← fieldAt? (readIndex dialect) s 0
  let (flags, i) ← fieldAt? (.ok ∘ readFlags dialect) s i
  let (width, i) ← fieldAt? (readWidth dialect) s i
  let (precision, i) ← fieldAt? (readPrecision dialect) s i
  let (length, i) ← fieldAt? (.ok ∘ readLength) s i
  conversionAt? dialect s ⟨index, flags, width, precision, length⟩ i

theorem conversionAt?_eq (dialect : Dialect) (s : Text w) (header : Header) (i : Nat) :
    conversionAt? dialect s header i = settled (match s.drop i with
      | [] => .error .missingConversion
      | u :: body =>
        match readConversion? dialect u with
        | none => .error (.unknownConversion u.value)
        | some (conversion, upper) =>
          if header.length.accepts conversion then do
            let (set, spanned) ← readSetOf conversion body
            .ok (⟨conversion, upper, header.flags, header.length, header.width, header.precision,
              header.index, set⟩, i + 1 + spanned)
          else .error (.incompatibleLength header.length conversion)) := by
  rw [conversionAt?, ← List.head?_drop]
  cases hdrop : s.drop i with
  | nil => rfl
  | cons u body =>
    obtain ⟨hlt, rfl⟩ : i + 1 ≤ s.length ∧ body = s.drop (i + 1) := by
      have hlength := congrArg List.length hdrop
      rw [List.length_drop, List.length_cons] at hlength
      refine ⟨by omega, ?_⟩
      rw [← List.drop_drop, hdrop]
      rfl
    dsimp only [List.head?_cons]
    cases readConversion? dialect u with
    | none => rfl
    | some p =>
      dsimp only
      split
      · rw [Text.position?_of_le hlt, lift_some_bind, setAt?_eq _ hlt]
        cases readSetOf p.1 (s.drop (i + 1)) <;> rfl
      · rfl

/-- **The parser stays in range**, and so does the directive. -/
theorem Directive.parseAt?_eq (dialect : Dialect) (s : Text w) :
    parseAt? dialect s = settled (parse dialect s) := by
  rw [parse, Header.read, bind_assoc]
  refine fieldAt?_bind (behind_zero s) fun index cs₁ hindex ↦ ?_
  obtain ⟨field, hrun, -⟩ := readIndex_sound hindex
  refine ⟨field, hrun, fun i₁ hi₁ ↦ ?_⟩
  obtain ⟨⟨flags, cs₂⟩, hflags⟩ : ∃ p, readFlags dialect cs₁ = p := ⟨_, rfl⟩
  obtain ⟨field, hcs₁, -, hflag⟩ := readFlags_sound hflags
  refine fieldAt?_ok_bind hi₁ hflags hcs₁ fun i₂ hi₂ ↦ ?_
  dsimp only
  rw [hflags, bind_assoc]
  dsimp only
  refine fieldAt?_bind hi₂ fun width cs₃ hwidth ↦ ?_
  obtain ⟨field, hcs₂, -⟩ := readWidth_sound hwidth hflag
  refine ⟨field, hcs₂, fun i₃ hi₃ ↦ ?_⟩
  dsimp only
  rw [bind_assoc]
  refine fieldAt?_bind hi₃ fun precision cs₄ hprecision ↦ ?_
  obtain ⟨field, hcs₃, -⟩ := readPrecision_sound hprecision
  refine ⟨field, hcs₃, fun i₄ hi₄ ↦ ?_⟩
  obtain ⟨⟨length, cs₅⟩, hlength⟩ : ∃ p, readLength cs₄ = p := ⟨_, rfl⟩
  obtain ⟨field, hcs₄, -⟩ := readLength_sound hlength
  refine fieldAt?_ok_bind hi₄ hlength hcs₄ fun i₅ hi₅ ↦ ?_
  obtain rfl : (Text.asciiRun s).length - cs₅.length = i₅ :=
    Nat.sub_eq_of_eq_add hi₅.add_length.symm
  dsimp only
  rw [hlength]
  exact conversionAt?_eq dialect s _ _

end Fields

end FormatString
