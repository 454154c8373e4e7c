import StoreTrial.Json.Read
import StoreTrial.Proofs.Decimal.Plain

/-!
# How numbers and strings of documents are written

A number is a sign, digits without leading zeros, perhaps a point with places and perhaps a letter
with a power of ten; a string is a row of pieces, each of them a character as it is, a character
behind a backslash, or a unit by number.  A string ends at its closing quote, whatever follows.  A
number does not say where it ends; it is read up to a character that goes on with no number.

## Main results

* `Number.Writes.read?_append`, `Literal.Writes.string?_append` — what is written is read.
* `Number.exists_writes_of_read?`, `exists_writes_of_string?` — what is read was written by the
  characters that it took.
-/

namespace StoreTrial.Json

open Decimal (Numeral digit? spanDigits spanDigits_append)

/-! ## Numbers -/

namespace Number

/-- Characters that go on with no number. -/
def Ends (rest : List Char) : Prop :=
  ∀ c ∈ rest.head?, digit? c = none ∧ c ≠ '.' ∧ c ≠ 'e' ∧ c ≠ 'E'

/-- A point and digits, or nothing. -/
inductive WritesPlaces : Option (List Char) → List Char → Prop where
  | absent : WritesPlaces none []
  | present {ds : List Char} (hne : ds ≠ []) (hds : Numeral ds) : WritesPlaces (some ds) ('.' :: ds)

/-- The sign in front of an exponent. -/
def signText : ExponentSign → List Char
  | .none => []
  | .plus => ['+']
  | .minus => ['-']

/-- A letter in either case, a sign and digits, or nothing. -/
inductive WritesExponent : Option Exponent → List Char → Prop where
  | absent : WritesExponent none []
  | present {letter : Char} {sign : ExponentSign} {ds : List Char}
      (hletter : letter = 'e' ∨ letter = 'E') (hne : ds ≠ []) (hds : Numeral ds) :
      WritesExponent (some ⟨sign, ds⟩) (letter :: (signText sign ++ ds))

/-- The characters, all of them, write the number. -/
inductive Writes : Number → List Char → Prop where
  | mk {negative : Bool} {whole ps es : List Char} {places : Option (List Char)}
      {exponent : Option Exponent} (hne : whole ≠ []) (hwhole : Numeral whole)
      (hzero : whole.length = 1 ∨ whole.head? ≠ some '0') (hplaces : WritesPlaces places ps)
      (hexponent : WritesExponent exponent es) :
      Writes ⟨negative, whole, places, exponent⟩
        ((if negative then ['-'] else []) ++ (whole ++ (ps ++ es)))

theorem digits?_append {ds rest : List Char} (hne : ds ≠ []) (hds : Numeral ds)
    (hrest : ∀ c ∈ rest.head?, digit? c = none) : digits? (ds ++ rest) = some (ds, rest) := by
  unfold digits?
  rw [spanDigits_append hds hrest]
  simp [hne]

theorem of_digits?_eq_some {cs ds rest : List Char} (h : digits? cs = some (ds, rest)) :
    cs = ds ++ rest ∧ ds ≠ [] ∧ Numeral ds := by
  unfold digits? spanDigits at h
  rw [List.span_eq_takeWhile_dropWhile] at h
  dsimp only at h
  split at h
  · cases h
  · next hne =>
    cases h
    refine ⟨List.takeWhile_append_dropWhile.symm, by simpa using hne, ?_⟩
    intro c hc
    have hdigit := List.mem_takeWhile_imp hc
    exact hdigit

/-- An exponent begins with its letter, and what follows a number with none. -/
theorem WritesExponent.head {e : Option Exponent} {es rest : List Char} (h : WritesExponent e es)
    (hrest : Ends rest) : ∀ c ∈ (es ++ rest).head?, digit? c = none ∧ c ≠ '.' := by
  cases h with
  | absent =>
    intro c hc
    obtain ⟨hdigit, hpoint, -, -⟩ := hrest c hc
    exact ⟨hdigit, hpoint⟩
  | present hletter hne hds =>
    intro c hc
    cases hc
    rcases hletter with rfl | rfl <;> decide

/-- What follows the whole part begins with no digit. -/
theorem WritesPlaces.head {p : Option (List Char)} {ps rest : List Char} (h : WritesPlaces p ps)
    (hrest : ∀ c ∈ rest.head?, digit? c = none) : ∀ c ∈ (ps ++ rest).head?, digit? c = none := by
  cases h with
  | absent => exact hrest
  | present hne hds =>
    intro c hc
    cases hc
    decide

theorem WritesPlaces.places?_append {p : Option (List Char)} {ps rest : List Char}
    (h : WritesPlaces p ps) (hrest : ∀ c ∈ rest.head?, digit? c = none ∧ c ≠ '.') :
    places? (ps ++ rest) = some (p, rest) := by
  cases h with
  | absent =>
    unfold places?
    split
    · next cs hpoint =>
      obtain ⟨-, hne⟩ := hrest '.' (by rw [← List.nil_append rest, hpoint]; rfl)
      exact absurd rfl hne
    · rfl
  | present hne hds =>
    have hread := digits?_append hne hds fun c hc => (hrest c hc).1
    simp [places?, hread]

theorem of_places?_eq_some {cs rest : List Char} {p : Option (List Char)}
    (h : places? cs = some (p, rest)) : ∃ ps, cs = ps ++ rest ∧ WritesPlaces p ps := by
  unfold places? at h
  split at h
  · next cs =>
    obtain ⟨⟨ds, rest'⟩, hread, heq⟩ := Option.map_eq_some_iff.1 h
    cases heq
    obtain ⟨rfl, hne, hds⟩ := of_digits?_eq_some hread
    exact ⟨'.' :: ds, rfl, .present hne hds⟩
  · cases h
    exact ⟨[], rfl, .absent⟩

/-- The sign in front of digits is told apart from them. -/
theorem exponentSign_append (sign : ExponentSign) {ds : List Char} (rest : List Char)
    (hne : ds ≠ []) (hds : Numeral ds) :
    exponentSign (signText sign ++ ds ++ rest) = (sign, ds ++ rest) := by
  cases sign with
  | plus => rfl
  | minus => rfl
  | none =>
    cases ds with
    | nil => exact absurd rfl hne
    | cons d ds =>
      have hd : (digit? d).isSome := hds d List.mem_cons_self
      change exponentSign (d :: (ds ++ rest)) = _
      unfold exponentSign
      split
      · next heq =>
        cases heq
        exact absurd hd (by decide)
      · next heq =>
        cases heq
        exact absurd hd (by decide)
      · rfl

theorem of_exponentSign (cs : List Char) :
    cs = signText (exponentSign cs).1 ++ (exponentSign cs).2 := by
  unfold exponentSign
  split <;> rfl

theorem WritesExponent.exponent?_append {e : Option Exponent} {es rest : List Char}
    (h : WritesExponent e es) (hrest : Ends rest) : exponent? (es ++ rest) = some (e, rest) := by
  cases h with
  | absent =>
    cases rest with
    | nil => rfl
    | cons c rest =>
      obtain ⟨-, -, hlower, hupper⟩ := hrest c rfl
      exact if_neg (by rintro (h | h) <;> contradiction)
  | @present letter sign ds hletter hne hds =>
    have hread := digits?_append hne hds fun c hc => (hrest c hc).1
    rw [List.cons_append, exponent?, if_pos hletter]
    simp only [exponentSign_append sign rest hne hds, hread, Option.map_some]

theorem of_exponent?_eq_some {cs rest : List Char} {e : Option Exponent}
    (h : exponent? cs = some (e, rest)) : ∃ es, cs = es ++ rest ∧ WritesExponent e es := by
  unfold exponent? at h
  split at h
  · cases h
    exact ⟨[], rfl, .absent⟩
  · next c cs =>
    split at h
    · next hletter =>
      have hsign := of_exponentSign cs
      generalize exponentSign cs = split at h hsign
      obtain ⟨sign, after⟩ := split
      obtain ⟨⟨ds, rest'⟩, hread, heq⟩ := Option.map_eq_some_iff.1 h
      cases heq
      obtain ⟨rfl, hne, hds⟩ := of_digits?_eq_some hread
      refine ⟨c :: (signText sign ++ ds), ?_, .present hletter hne hds⟩
      rw [hsign, List.cons_append, List.append_assoc]
    · cases h
      exact ⟨[], rfl, .absent⟩

theorem unsigned?_append (negative : Bool) {whole ps es rest : List Char}
    {places : Option (List Char)} {exponent : Option Exponent} (hne : whole ≠ [])
    (hwhole : Numeral whole) (hzero : whole.length = 1 ∨ whole.head? ≠ some '0')
    (hplaces : WritesPlaces places ps) (hexponent : WritesExponent exponent es)
    (hrest : Ends rest) :
    unsigned? negative (whole ++ (ps ++ es) ++ rest) =
      some (⟨negative, whole, places, exponent⟩, rest) := by
  have hhead := hexponent.head hrest
  have hdigits := digits?_append hne hwhole (hplaces.head fun c hc => (hhead c hc).1)
  have hread : whole? (whole ++ (ps ++ (es ++ rest))) = some (whole, ps ++ (es ++ rest)) := by
    rw [whole?, hdigits, Option.filter_some, if_pos (by simpa using hzero)]
  rw [List.append_assoc, List.append_assoc, unsigned?, hread]
  simp only [Option.bind_eq_bind, Option.bind_some, hplaces.places?_append hhead,
    hexponent.exponent?_append hrest]
  rfl

theorem of_unsigned?_eq_some {negative : Bool} {cs rest : List Char} {n : Number}
    (h : unsigned? negative cs = some (n, rest)) :
    ∃ taken, cs = taken ++ rest ∧ Writes n ((if negative then ['-'] else []) ++ taken) := by
  obtain ⟨⟨whole, cs₁⟩, hread, h⟩ := Option.bind_eq_some_iff.1 h
  obtain ⟨⟨places, cs₂⟩, hplaces, h⟩ := Option.bind_eq_some_iff.1 h
  obtain ⟨⟨exponent, cs₃⟩, hexponent, h⟩ := Option.bind_eq_some_iff.1 h
  cases h
  rw [whole?, Option.filter_eq_some_iff] at hread
  obtain ⟨hdigits, hzero⟩ := hread
  obtain ⟨rfl, hne, hwhole⟩ := of_digits?_eq_some hdigits
  obtain ⟨ps, rfl, hps⟩ := of_places?_eq_some hplaces
  obtain ⟨es, rfl, hes⟩ := of_exponent?_eq_some hexponent
  refine ⟨whole ++ (ps ++ es), ?_, .mk hne hwhole (by simpa using hzero) hps hes⟩
  simp only [List.append_assoc]

/-- A number begins with a minus sign or a digit. -/
theorem Writes.head {n : Number} {cs : List Char} (h : Writes n cs) :
    ∃ c more, cs = c :: more ∧ (c = '-' ∨ (digit? c).isSome) := by
  cases h with
  | @mk negative whole ps es _ _ hne hwhole _ _ _ =>
    cases negative with
    | true => exact ⟨'-', _, rfl, .inl rfl⟩
    | false =>
      cases whole with
      | nil => exact absurd rfl hne
      | cons c whole => exact ⟨c, _, rfl, .inr (hwhole c List.mem_cons_self)⟩

/-- A number is read up to a character that goes on with none. -/
theorem Writes.read?_append {n : Number} {cs : List Char} (h : Writes n cs) {rest : List Char}
    (hrest : Ends rest) : read? (cs ++ rest) = some (n, rest) := by
  cases h with
  | @mk negative whole ps es _ _ hne hwhole hzero hplaces hexponent =>
    have hread (negative : Bool) :=
      unsigned?_append negative hne hwhole hzero hplaces hexponent hrest
    cases negative with
    | true => exact hread true
    | false =>
      cases whole with
      | nil => exact absurd rfl hne
      | cons c whole =>
        have hc : (digit? c).isSome := hwhole c List.mem_cons_self
        rw [if_neg Bool.false_ne_true, List.nil_append]
        unfold read?
        split
        · next heq =>
          cases heq
          exact absurd hc (by decide)
        · exact hread false

theorem exists_writes_of_read? {cs rest : List Char} {n : Number} (h : read? cs = some (n, rest)) :
    ∃ taken, cs = taken ++ rest ∧ Writes n taken := by
  unfold read? at h
  split at h
  · obtain ⟨taken, rfl, hwrites⟩ := of_unsigned?_eq_some h
    exact ⟨_, rfl, hwrites⟩
  · exact of_unsigned?_eq_some h

end Number

/-! ## Strings -/

/-- The characters, all of them, write one piece of a string. -/
inductive Piece.Writes : Piece → List Char → Prop where
  | plain {c : Char} (hlow : ' ' ≤ c) (hquote : c ≠ '"') (hslash : c ≠ '\\') :
      Piece.Writes (.char c) [c]
  | escaped {letter c : Char} (hletter : escape? letter = some c) :
      Piece.Writes (.char c) ['\\', letter]
  | unit {a b c d : Char} {n : Nat} (hunit : unit? a b c d = some n) :
      Piece.Writes (.unit n) ['\\', 'u', a, b, c, d]

/-- The characters write the pieces one after another and then the closing quote. -/
inductive Literal.Writes : Literal → List Char → Prop where
  | nil : Literal.Writes [] ['"']
  | cons {piece : Piece} {l : Literal} {cs more : List Char} (hpiece : piece.Writes cs)
      (hrest : Literal.Writes l more) : Literal.Writes (piece :: l) (cs ++ more)

/-- Four digits are asked for behind a letter that stands for no character by itself. -/
theorem ne_u_of_escape? {letter c : Char} (h : escape? letter = some c) : letter ≠ 'u' := by
  rintro rfl
  cases h

theorem Piece.Writes.string?_append {piece : Piece} {cs : List Char} (h : piece.Writes cs)
    (rest : List Char) : string? (cs ++ rest) = before piece (string? rest) := by
  cases h with
  | plain hlow hquote hslash =>
    rw [List.singleton_append, string?, if_pos ⟨hlow, hslash⟩]
    · exact hquote
    · exact fun _ _ _ _ _ h => absurd h hslash
    · exact fun _ _ h => absurd h hslash
  | escaped hletter =>
    rw [List.cons_append, List.singleton_append, string?, hletter]
    exact fun _ _ _ _ _ h => absurd h (ne_u_of_escape? hletter)
  | unit hunit =>
    simp only [List.cons_append, List.nil_append, string?, hunit]

/-- A string is read up to its closing quote. -/
theorem Literal.Writes.string?_append {l : Literal} {cs : List Char} (h : l.Writes cs)
    (rest : List Char) : string? (cs ++ rest) = some (l, rest) := by
  induction h with
  | nil => rfl
  | cons hpiece _ ih =>
    rw [List.append_assoc, hpiece.string?_append, ih]
    rfl

theorem of_before_eq_some {piece : Piece} {result : Option (Literal × List Char)} {l : Literal}
    {rest : List Char} (h : before piece result = some (l, rest)) :
    ∃ tail, l = piece :: tail ∧ result = some (tail, rest) := by
  unfold before at h
  split at h
  · next tail rest' =>
    cases h
    exact ⟨tail, rfl, rfl⟩
  · cases h

theorem exists_writes_of_string? {cs rest : List Char} {l : Literal}
    (h : string? cs = some (l, rest)) : ∃ taken, cs = taken ++ rest ∧ l.Writes taken := by
  fun_induction string? cs generalizing l with
  | case1 after =>
    cases h
    exact ⟨['"'], rfl, .nil⟩
  | case2 a b c d after n hunit ih =>
    obtain ⟨tail, rfl, htail⟩ := of_before_eq_some h
    obtain ⟨taken, rfl, hwrites⟩ := ih htail
    exact ⟨_, rfl, .cons (.unit hunit) hwrites⟩
  | case3 => cases h
  | case4 letter after _ c hletter ih =>
    obtain ⟨tail, rfl, htail⟩ := of_before_eq_some h
    obtain ⟨taken, rfl, hwrites⟩ := ih htail
    exact ⟨_, rfl, .cons (.escaped hletter) hwrites⟩
  | case5 => cases h
  | case6 c after hquote _ _ hplain ih =>
    obtain ⟨tail, rfl, htail⟩ := of_before_eq_some h
    obtain ⟨taken, rfl, hwrites⟩ := ih htail
    obtain ⟨hlow, hslash⟩ := hplain
    exact ⟨_, rfl, .cons (.plain hlow (fun h => hquote h) hslash) hwrites⟩
  | case7 => cases h
  | case8 => cases h

end StoreTrial.Json
