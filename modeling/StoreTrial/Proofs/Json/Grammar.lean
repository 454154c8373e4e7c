import StoreTrial.Proofs.Json.Literals

/-!
# The grammar of documents

`Json.Document` says which texts write which document, in all the spellings there are: blanks stand
before and behind every part, and each number and each string is written in one of its ways.  It
knows nothing of rests or fuel.  Reading accepts exactly what the grammar derives.

## Main results

* `Writes.value?_append` — a document that is derived is read, whatever may follow it.
* `exists_writes_of_value?` — what is read was derived by the characters that it took.
* `read?_eq_some_iff` — both together.
-/

namespace StoreTrial.Json

open Decimal (digit?)

/-! ## Blanks -/

/-- Characters that may stand between the parts of a document. -/
def Blank (cs : List Char) : Prop := ∀ c ∈ cs, isBlank c = true

theorem skipBlanks_append {bs cs : List Char} (hbs : Blank bs)
    (hcs : ∀ c ∈ cs.head?, isBlank c = false) : skipBlanks (bs ++ cs) = cs := by
  rw [skipBlanks, List.dropWhile_append_of_pos hbs]
  cases cs with
  | nil => rfl
  | cons c cs => exact List.dropWhile_cons_of_neg (by simp [hcs c rfl])

theorem exists_blanks (cs : List Char) : ∃ bs, Blank bs ∧ cs = bs ++ skipBlanks cs := by
  refine ⟨cs.takeWhile isBlank, fun c hc => ?_, List.takeWhile_append_dropWhile.symm⟩
  have hblank := List.mem_takeWhile_imp hc
  exact hblank

/-! ## Documents -/

mutual

/-- The characters, all of them, write the document. -/
inductive Writes : Json → List Char → Prop where
  | null : Writes .null ['n', 'u', 'l', 'l']
  | yes : Writes (.bool true) ['t', 'r', 'u', 'e']
  | no : Writes (.bool false) ['f', 'a', 'l', 's', 'e']
  | number {n : Number} {cs : List Char} (hn : n.Writes cs) : Writes (.number n) cs
  | string {l : Literal} {cs : List Char} (hl : l.Writes cs) : Writes (.string l) ('"' :: cs)
  | noItems {bs : List Char} (hbs : Blank bs) : Writes (.array []) ('[' :: (bs ++ [']']))
  | array {js : List Json} {bs cs : List Char} (hbs : Blank bs) (hjs : WritesItems js cs) :
      Writes (.array js) ('[' :: (bs ++ cs))
  | noMembers {bs : List Char} (hbs : Blank bs) : Writes (.object []) ('{' :: (bs ++ ['}']))
  | object {ms : List (Literal × Json)} {bs cs : List Char} (hbs : Blank bs)
      (hms : WritesMembers ms cs) : Writes (.object ms) ('{' :: (bs ++ cs))

/-- The characters write the items, one at least, and then the closing bracket. -/
inductive WritesItems : List Json → List Char → Prop where
  | last {j : Json} {cs bs : List Char} (hj : Writes j cs) (hbs : Blank bs) :
      WritesItems [j] (cs ++ (bs ++ [']']))
  | more {j : Json} {js : List Json} {cs bs₁ bs₂ more : List Char} (hj : Writes j cs)
      (hbs₁ : Blank bs₁) (hbs₂ : Blank bs₂) (hjs : WritesItems js more) :
      WritesItems (j :: js) (cs ++ (bs₁ ++ ',' :: (bs₂ ++ more)))

/-- The characters write the members, one at least, and then the closing brace. -/
inductive WritesMembers : List (Literal × Json) → List Char → Prop where
  | last {l : Literal} {j : Json} {ns bs₁ bs₂ cs bs₃ : List Char} (hl : l.Writes ns)
      (hbs₁ : Blank bs₁) (hbs₂ : Blank bs₂) (hj : Writes j cs) (hbs₃ : Blank bs₃) :
      WritesMembers [(l, j)] ('"' :: (ns ++ (bs₁ ++ ':' :: (bs₂ ++ (cs ++ (bs₃ ++ ['}']))))))
  | more {l : Literal} {j : Json} {ms : List (Literal × Json)}
      {ns bs₁ bs₂ cs bs₃ bs₄ more : List Char} (hl : l.Writes ns) (hbs₁ : Blank bs₁)
      (hbs₂ : Blank bs₂) (hj : Writes j cs) (hbs₃ : Blank bs₃) (hbs₄ : Blank bs₄)
      (hms : WritesMembers ms more) :
      WritesMembers ((l, j) :: ms)
        ('"' :: (ns ++ (bs₁ ++ ':' :: (bs₂ ++ (cs ++ (bs₃ ++ ',' :: (bs₄ ++ more)))))))

end

/-- The text writes the document, with blanks around it. -/
def Document (text : String) (j : Json) : Prop :=
  ∃ bs₁ cs bs₂, text.toList = bs₁ ++ (cs ++ bs₂) ∧ Blank bs₁ ∧ Writes j cs ∧ Blank bs₂

/-! ## Documents that are derived are read -/

/-- A document begins with no blank and no closing bracket. -/
theorem Writes.head {j : Json} {cs : List Char} (h : Writes j cs) :
    ∃ c more, cs = c :: more ∧ isBlank c = false ∧ c ≠ ']' := by
  cases h with
  | number hn =>
    obtain ⟨c, more, rfl, hc⟩ := hn.head
    refine ⟨c, more, rfl, ?_, ?_⟩
    · by_contra hblank
      rw [Bool.not_eq_false] at hblank
      rcases hc with rfl | hc
      · exact absurd hblank (by decide)
      · simp only [isBlank, Bool.or_eq_true, decide_eq_true_eq] at hblank
        rcases hblank with ((rfl | rfl) | rfl) | rfl <;> exact absurd hc (by decide)
    · rintro rfl
      exact absurd hc (by decide)
  | _ => exact ⟨_, _, rfl, by decide, by decide⟩

theorem WritesItems.head {js : List Json} {cs : List Char} (h : WritesItems js cs) :
    ∃ c more, cs = c :: more ∧ isBlank c = false ∧ c ≠ ']' := by
  cases h with
  | last hj =>
    obtain ⟨c, more, rfl, hc⟩ := hj.head
    exact ⟨c, _, rfl, hc⟩
  | more hj =>
    obtain ⟨c, more, rfl, hc⟩ := hj.head
    exact ⟨c, _, rfl, hc⟩

theorem WritesMembers.head {ms : List (Literal × Json)} {cs : List Char}
    (h : WritesMembers ms cs) : ∃ more, cs = '"' :: more := by
  cases h <;> exact ⟨_, rfl⟩

/-- Blanks go on with no number. -/
theorem Blank.ends_append {bs rest : List Char} (hbs : Blank bs) (hrest : Number.Ends rest) :
    Number.Ends (bs ++ rest) := by
  cases bs with
  | nil => exact hrest
  | cons b bs =>
    have hb := hbs b List.mem_cons_self
    simp only [isBlank, Bool.or_eq_true, decide_eq_true_eq] at hb
    intro c hc
    cases hc
    rcases hb with ((rfl | rfl) | rfl) | rfl <;> decide

theorem ends_cons {c : Char} (rest : List Char)
    (h : digit? c = none ∧ c ≠ '.' ∧ c ≠ 'e' ∧ c ≠ 'E') : Number.Ends (c :: rest) := by
  intro c' hc'
  cases hc'
  exact h

theorem skipBlanks_cons {bs : List Char} (hbs : Blank bs) {c : Char} (hc : isBlank c = false)
    (cs : List Char) : skipBlanks (bs ++ c :: cs) = c :: cs := by
  apply skipBlanks_append hbs
  intro c' hc'
  cases hc'
  exact hc

section Heads

variable {fuel : Nat} {bs cs : List Char}

theorem value?_object (hbs : Blank bs) :
    value? (fuel + 1) ('{' :: (bs ++ '"' :: cs)) =
      (members? fuel ('"' :: cs)).map fun (ms, rest) => (.object ms, rest) := by
  rw [value?, if_pos rfl, skipBlanks_cons hbs (by decide)]
  rfl

theorem value?_array (hbs : Blank bs) {c : Char} (hblank : isBlank c = false) (hclose : c ≠ ']') :
    value? (fuel + 1) ('[' :: (bs ++ c :: cs)) =
      (items? fuel (c :: cs)).map fun (js, rest) => (.array js, rest) := by
  rw [value?, if_neg (by decide), if_pos rfl, skipBlanks_cons hbs hblank]
  split
  · next heq =>
    cases heq
    exact absurd rfl hclose
  · rfl

theorem value?_number {c : Char} (hc : c = '-' ∨ (digit? c).isSome) :
    value? (fuel + 1) (c :: cs) =
      (Number.read? (c :: cs)).map fun (n, rest) => (.number n, rest) := by
  have hne {other : Char} (h : ¬(other = '-' ∨ (digit? other).isSome)) : c ≠ other := by
    rintro rfl
    exact h hc
  rw [value?, if_neg (hne (by decide)), if_neg (hne (by decide)), if_neg (hne (by decide)),
    if_neg (hne (by decide)), if_neg (hne (by decide)), if_neg (hne (by decide))]

end Heads

mutual

/-- A document is read, up to a character that goes on with no number. -/
theorem Writes.value?_append {j : Json} {cs : List Char} (h : Writes j cs) (fuel : Nat)
    (hfuel : 2 * cs.length ≤ fuel + 1) (rest : List Char) (hrest : Number.Ends rest) :
    value? (fuel + 1) (cs ++ rest) = some (j, rest) := by
  cases h with
  | null => rfl
  | yes => rfl
  | no => rfl
  | number hn =>
    have hread := hn.read?_append hrest
    obtain ⟨c, more, rfl, hc⟩ := hn.head
    rw [List.cons_append] at hread ⊢
    rw [value?_number hc, hread]
    rfl
  | string hl =>
    rw [List.cons_append, value?, if_neg (by decide), if_neg (by decide), if_pos rfl,
      hl.string?_append]
    rfl
  | noItems hbs =>
    rw [List.cons_append, List.append_assoc, List.singleton_append, value?, if_neg (by decide),
      if_pos rfl, skipBlanks_cons hbs (by decide)]
    rfl
  | noMembers hbs =>
    rw [List.cons_append, List.append_assoc, List.singleton_append, value?, if_pos rfl,
      skipBlanks_cons hbs (by decide)]
    rfl
  | array hbs hjs =>
    rw [List.length_cons, List.length_append] at hfuel
    have hread := hjs.items?_append fuel (by omega) rest
    obtain ⟨c, more, rfl, hblank, hclose⟩ := hjs.head
    rw [List.cons_append] at hread
    rw [List.cons_append, List.append_assoc, List.cons_append, value?_array hbs hblank hclose,
      hread]
    rfl
  | object hbs hms =>
    rw [List.length_cons, List.length_append] at hfuel
    have hread := hms.members?_append fuel (by omega) rest
    obtain ⟨more, rfl⟩ := hms.head
    rw [List.cons_append] at hread
    rw [List.cons_append, List.append_assoc, List.cons_append, value?_object hbs, hread]
    rfl

theorem WritesItems.items?_append {js : List Json} {cs : List Char} (h : WritesItems js cs)
    (fuel : Nat) (hfuel : 2 * cs.length ≤ fuel) (rest : List Char) :
    items? fuel (cs ++ rest) = some (js, rest) := by
  cases h with
  | @last j cs bs hj hbs =>
    simp only [List.length_append, List.length_cons] at hfuel
    obtain ⟨fuel, rfl⟩ : ∃ k, fuel = k + 2 := ⟨fuel - 2, by omega⟩
    have hread := hj.value?_append fuel (by omega) (bs ++ ']' :: rest)
      (hbs.ends_append (ends_cons rest (by decide)))
    rw [List.append_assoc, List.append_assoc, List.singleton_append, items?, hread,
      Option.bind_some]
    simp only [skipBlanks_cons hbs (by decide : isBlank ']' = false)]
  | @more j js cs bs₁ bs₂ more hj hbs₁ hbs₂ hjs =>
    simp only [List.length_append, List.length_cons] at hfuel
    obtain ⟨fuel, rfl⟩ : ∃ k, fuel = k + 2 := ⟨fuel - 2, by omega⟩
    have hread := hj.value?_append fuel (by omega)
      (bs₁ ++ ',' :: (bs₂ ++ (more ++ rest)))
      (hbs₁.ends_append (ends_cons _ (by decide)))
    have hmore := hjs.items?_append (fuel + 1) (by omega) rest
    obtain ⟨c, tail, rfl, hblank, -⟩ := hjs.head
    rw [List.cons_append] at hread hmore
    simp only [List.append_assoc, List.cons_append]
    rw [items?, hread, Option.bind_some]
    simp only [skipBlanks_cons hbs₁ (by decide : isBlank ',' = false),
      skipBlanks_cons hbs₂ hblank, hmore, Option.map_some]

theorem WritesMembers.members?_append {ms : List (Literal × Json)} {cs : List Char}
    (h : WritesMembers ms cs) (fuel : Nat) (hfuel : 2 * cs.length ≤ fuel) (rest : List Char) :
    members? fuel (cs ++ rest) = some (ms, rest) := by
  cases h with
  | @last l j ns bs₁ bs₂ cs bs₃ hl hbs₁ hbs₂ hj hbs₃ =>
    simp only [List.length_append, List.length_cons] at hfuel
    obtain ⟨fuel, rfl⟩ : ∃ k, fuel = k + 2 := ⟨fuel - 2, by omega⟩
    have hread := hj.value?_append fuel (by omega) (bs₃ ++ '}' :: rest)
      (hbs₃.ends_append (ends_cons rest (by decide)))
    obtain ⟨c, tail, rfl, hblank, -⟩ := hj.head
    rw [List.cons_append] at hread
    simp only [List.append_assoc, List.cons_append, List.nil_append]
    rw [members?, if_neg (by decide), hl.string?_append, Option.bind_some]
    simp only [skipBlanks_cons hbs₁ (by decide : isBlank ':' = false), skipBlanks_cons hbs₂ hblank,
      hread, Option.bind_some, skipBlanks_cons hbs₃ (by decide : isBlank '}' = false)]
  | @more l j ms ns bs₁ bs₂ cs bs₃ bs₄ more hl hbs₁ hbs₂ hj hbs₃ hbs₄ hms =>
    simp only [List.length_append, List.length_cons] at hfuel
    obtain ⟨fuel, rfl⟩ : ∃ k, fuel = k + 2 := ⟨fuel - 2, by omega⟩
    have hread := hj.value?_append fuel (by omega)
      (bs₃ ++ ',' :: (bs₄ ++ (more ++ rest)))
      (hbs₃.ends_append (ends_cons _ (by decide)))
    have hmore := hms.members?_append (fuel + 1) (by omega) rest
    obtain ⟨c, tail, rfl, hblank, -⟩ := hj.head
    obtain ⟨others, rfl⟩ := hms.head
    rw [List.cons_append] at hread hmore
    simp only [List.append_assoc, List.cons_append] at hread ⊢
    rw [members?, if_neg (by decide), hl.string?_append, Option.bind_some]
    simp only [skipBlanks_cons hbs₁ (by decide : isBlank ':' = false), skipBlanks_cons hbs₂ hblank,
      hread, Option.bind_some, skipBlanks_cons hbs₃ (by decide : isBlank ',' = false),
      skipBlanks_cons hbs₄ (by decide : isBlank '"' = false), hmore, Option.map_some]

end

theorem ends_nil : Number.Ends [] := fun c hc => by cases hc

/-- A text that writes a document is read as it. -/
theorem Document.read?_eq {text : String} {j : Json} (h : Document text j) :
    read? text = some j := by
  obtain ⟨bs₁, cs, bs₂, htext, hbs₁, hwrites, hbs₂⟩ := h
  have hskip : skipBlanks text.toList = cs ++ bs₂ := by
    obtain ⟨c, more, rfl, hblank, -⟩ := hwrites.head
    rw [htext, List.cons_append, skipBlanks_cons hbs₁ hblank]
  have hends : Number.Ends bs₂ := by
    rw [← List.append_nil bs₂]
    exact hbs₂.ends_append ends_nil
  have hread := hwrites.value?_append (2 * (cs ++ bs₂).length + 1) (by simp; omega) bs₂ hends
  have hblank : skipBlanks bs₂ = [] := by
    rw [← List.append_nil bs₂]
    exact skipBlanks_append hbs₂ (by simp)
  rw [read?, hskip]
  simp only [hread, hblank]
  rfl

/-! ## Documents that are read are derived -/

/-- Blanks in front of what follows. -/
theorem exists_blanks_of_skipBlanks {cs rest : List Char} (h : skipBlanks cs = rest) :
    ∃ bs, Blank bs ∧ cs = bs ++ rest := by
  obtain ⟨bs, hbs, hcs⟩ := exists_blanks cs
  exact ⟨bs, hbs, h ▸ hcs⟩

/-- A word was written in full behind its first letter. -/
theorem of_map_word_eq_some {expected cs rest : List Char} {j j' : Json}
    (h : (word expected cs).map (fun rest => (j, rest)) = some (j', rest)) :
    j = j' ∧ cs = expected ++ rest := by
  obtain ⟨after, hword, heq⟩ := Option.map_eq_some_iff.1 h
  cases heq
  refine ⟨rfl, ?_⟩
  unfold word at hword
  split at hword
  · next hexpected =>
    cases hword
    obtain ⟨after, rfl⟩ := List.isPrefixOf_iff_prefix.1 hexpected
    rw [List.drop_left]
  · cases hword

mutual

/-- What is read was written by the characters that it took. -/
theorem exists_writes_of_value? {fuel : Nat} {cs rest : List Char} {j : Json}
    (h : value? fuel cs = some (j, rest)) : ∃ taken, cs = taken ++ rest ∧ Writes j taken := by
  match fuel, cs with
  | 0, _ => cases h
  | _ + 1, [] => cases h
  | fuel + 1, c :: cs =>
    rw [value?] at h
    -- the first character says what it is: an object, an array, a string, a word or a number
    split at h
    · next hc =>
      subst hc
      split at h
      · next hskip =>
        cases h
        obtain ⟨bs, hbs, rfl⟩ := exists_blanks_of_skipBlanks hskip
        exact ⟨_, by simp, .noMembers hbs⟩
      · next hskip =>
        obtain ⟨⟨ms, after⟩, hread, heq⟩ := Option.map_eq_some_iff.1 h
        cases heq
        obtain ⟨taken, hcs, hms⟩ := exists_writes_of_members? hread
        obtain ⟨bs, hbs, rfl⟩ := exists_blanks_of_skipBlanks hcs
        exact ⟨_, by simp, .object hbs hms⟩
    split at h
    · next hc =>
      subst hc
      split at h
      · next hskip =>
        cases h
        obtain ⟨bs, hbs, rfl⟩ := exists_blanks_of_skipBlanks hskip
        exact ⟨_, by simp, .noItems hbs⟩
      · next hskip =>
        obtain ⟨⟨js, after⟩, hread, heq⟩ := Option.map_eq_some_iff.1 h
        cases heq
        obtain ⟨taken, hcs, hjs⟩ := exists_writes_of_items? hread
        obtain ⟨bs, hbs, rfl⟩ := exists_blanks_of_skipBlanks hcs
        exact ⟨_, by simp, .array hbs hjs⟩
    split at h
    · next hc =>
      subst hc
      obtain ⟨⟨l, after⟩, hread, heq⟩ := Option.map_eq_some_iff.1 h
      cases heq
      obtain ⟨taken, rfl, hl⟩ := exists_writes_of_string? hread
      exact ⟨_, rfl, .string hl⟩
    split at h
    · next hc =>
      subst hc
      obtain ⟨rfl, rfl⟩ := of_map_word_eq_some h
      exact ⟨_, rfl, .null⟩
    split at h
    · next hc =>
      subst hc
      obtain ⟨rfl, rfl⟩ := of_map_word_eq_some h
      exact ⟨_, rfl, .yes⟩
    split at h
    · next hc =>
      subst hc
      obtain ⟨rfl, rfl⟩ := of_map_word_eq_some h
      exact ⟨_, rfl, .no⟩
    obtain ⟨⟨n, after⟩, hread, heq⟩ := Option.map_eq_some_iff.1 h
    cases heq
    obtain ⟨taken, hcs, hn⟩ := Number.exists_writes_of_read? hread
    exact ⟨taken, hcs, .number hn⟩

theorem exists_writes_of_items? {fuel : Nat} {cs rest : List Char} {js : List Json}
    (h : items? fuel cs = some (js, rest)) :
    ∃ taken, cs = taken ++ rest ∧ WritesItems js taken := by
  match fuel with
  | 0 => cases h
  | fuel + 1 =>
    rw [items?] at h
    obtain ⟨⟨j, after⟩, hread, hnext⟩ := Option.bind_eq_some_iff.1 h
    obtain ⟨taken, rfl, hj⟩ := exists_writes_of_value? hread
    dsimp only at hnext
    split at hnext
    · next hskip =>
      cases hnext
      obtain ⟨bs, hbs, rfl⟩ := exists_blanks_of_skipBlanks hskip
      exact ⟨_, by simp, .last hj hbs⟩
    · next hskip =>
      obtain ⟨bs₁, hbs₁, rfl⟩ := exists_blanks_of_skipBlanks hskip
      obtain ⟨⟨js, last⟩, hread, heq⟩ := Option.map_eq_some_iff.1 hnext
      cases heq
      obtain ⟨more, hmore, hjs⟩ := exists_writes_of_items? hread
      obtain ⟨bs₂, hbs₂, rfl⟩ := exists_blanks_of_skipBlanks hmore
      exact ⟨_, by simp, .more hj hbs₁ hbs₂ hjs⟩
    · cases hnext

theorem exists_writes_of_members? {fuel : Nat} {cs rest : List Char} {ms : List (Literal × Json)}
    (h : members? fuel cs = some (ms, rest)) :
    ∃ taken, cs = taken ++ rest ∧ WritesMembers ms taken := by
  match fuel, cs with
  | 0, _ => cases h
  | _ + 1, [] => cases h
  | fuel + 1, c :: cs =>
    rw [members?] at h
    split at h
    · cases h
    next hc =>
    obtain rfl := not_not.1 hc
    obtain ⟨⟨l, after⟩, hread, hcolon⟩ := Option.bind_eq_some_iff.1 h
    obtain ⟨ns, rfl, hl⟩ := exists_writes_of_string? hread
    dsimp only at hcolon
    split at hcolon
    · next hskip =>
      obtain ⟨bs₁, hbs₁, rfl⟩ := exists_blanks_of_skipBlanks hskip
      obtain ⟨⟨j, behind⟩, hread, hnext⟩ := Option.bind_eq_some_iff.1 hcolon
      obtain ⟨taken, hskip, hj⟩ := exists_writes_of_value? hread
      obtain ⟨bs₂, hbs₂, rfl⟩ := exists_blanks_of_skipBlanks hskip
      dsimp only at hnext
      split at hnext
      · next hskip =>
        cases hnext
        obtain ⟨bs₃, hbs₃, rfl⟩ := exists_blanks_of_skipBlanks hskip
        exact ⟨_, by simp, .last hl hbs₁ hbs₂ hj hbs₃⟩
      · next hskip =>
        obtain ⟨bs₃, hbs₃, rfl⟩ := exists_blanks_of_skipBlanks hskip
        obtain ⟨⟨ms, last⟩, hread, heq⟩ := Option.map_eq_some_iff.1 hnext
        cases heq
        obtain ⟨more, hmore, hms⟩ := exists_writes_of_members? hread
        obtain ⟨bs₄, hbs₄, rfl⟩ := exists_blanks_of_skipBlanks hmore
        exact ⟨_, by simp, .more hl hbs₁ hbs₂ hj hbs₃ hbs₄ hms⟩
      · cases hnext
    · cases hcolon

end

/-- **Reading is the grammar.**  A text is read as a document if and only if it writes it. -/
theorem read?_eq_some_iff {text : String} {j : Json} : read? text = some j ↔ Document text j := by
  constructor
  · intro h
    unfold read? at h
    dsimp only at h
    split at h
    · next rest hread =>
      split at h
      · next hempty =>
        cases h
        obtain ⟨cs, hskip, hwrites⟩ := exists_writes_of_value? hread
        obtain ⟨bs₁, hbs₁, htext⟩ := exists_blanks_of_skipBlanks hskip
        obtain ⟨bs₂, hbs₂, hrest⟩ := exists_blanks rest
        rw [List.isEmpty_iff.1 hempty, List.append_nil] at hrest
        exact ⟨bs₁, cs, bs₂, hrest ▸ htext, hbs₁, hwrites, hbs₂⟩
      · cases h
    · cases h
  · exact Document.read?_eq

end StoreTrial.Json
