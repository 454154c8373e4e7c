import StoreTrial.Json.Write
import StoreTrial.Proofs.Json.Doubles
import StoreTrial.Proofs.Json.Grammar

/-!
# Documents are read back as they are written

Both written forms of a document are derivations of its grammar: the compact one has no blanks at
all, the indented one a line end and spaces in front of each part and one space behind a colon.  The
two differ in nothing else, so one lemma for arrays and one for objects serve both.  What a document
must have for that is said by `Proper`: its numbers and the pieces of its strings have a written
form of their own.  Texts, whole numbers and doubles are of this kind, whatever they are.

## Main results

* `Literal.text?_ofText` — a text is found again in its string.
* `proper_text`, `proper_nat`, `proper_float` — what is written of texts and numbers is proper.
* `Proper.document` — a proper document is written by both of its forms.
* `float?_float` — a finite double is found again if its text is read as it.
-/

namespace StoreTrial.Json

/-! ## Strings -/

theorem hexValue?_hexDigit {d : Nat} (h : d < 16) : hexValue? (hexDigit d) = some d := by
  have hall : ∀ d : Fin 16, hexValue? (hexDigit d) = some d.val := by decide
  exact hall ⟨d, h⟩

/-- Four digits write a unit of 16 bits. -/
theorem unit?_hexPair {n : Nat} (h : n < 2 ^ 16) :
    unit? (hexDigit (n / 256 / 16 % 16)) (hexDigit (n / 256 % 16)) (hexDigit (n / 16 % 16))
      (hexDigit (n % 16)) = some n := by
  have hdigit (k : Nat) : hexValue? (hexDigit (k % 16)) = some (k % 16) :=
    hexValue?_hexDigit (Nat.mod_lt k (by decide))
  simp only [unit?, hdigit, Option.bind_eq_bind, Option.bind_some, Option.pure_def, Option.some_inj]
  omega

/-- Whether a piece of a string has a written form of its own: a control character without a name
has none, and no number beyond 16 bits. -/
def Piece.Proper : Piece → Prop
  | .char c => isNamed c = true
  | .unit n => n < 2 ^ 16

theorem Piece.Proper.writes {piece : Piece} (h : piece.Proper) : piece.Writes piece.write := by
  cases piece with
  | unit n => exact .unit (unit?_hexPair h)
  | char c =>
    unfold Piece.write
    dsimp only
    split
    · next hc => exact .escaped (by rcases hc with rfl | rfl <;> rfl)
    · next hc =>
      split
      · next hb => exact .escaped (by rw [hb]; rfl)
      split
      · next hf => exact .escaped (by rw [hf]; rfl)
      split
      · next hn => exact .escaped (by rw [hn]; rfl)
      split
      · next hr => exact .escaped (by rw [hr]; rfl)
      split
      · next ht => exact .escaped (by rw [ht]; rfl)
      · next hb hf hn hr ht =>
        have hlow : ' ' ≤ c := by simpa [Piece.Proper, isNamed, hb, hf, hn, hr, ht] using h
        exact .plain hlow (fun h => hc (.inl h)) (fun h => hc (.inr h))

/-- A string whose pieces have written forms is written as them. -/
theorem Literal.writes {l : Literal} (h : ∀ piece ∈ l, piece.Proper) :
    Literal.Writes l (l.flatMap Piece.write ++ ['"']) := by
  induction l with
  | nil => exact .nil
  | cons piece l ih =>
    obtain ⟨hpiece, hl⟩ := List.forall_mem_cons.1 h
    rw [List.flatMap_cons, List.append_assoc]
    exact .cons hpiece.writes (ih hl)

/-- A character without a name is a control character. -/
theorem toNat_lt_of_not_isNamed {c : Char} (h : ¬isNamed c = true) : c.toNat < 32 := by
  have hlow : ¬ ' ' ≤ c := by
    intro hle
    exact h (by simp [isNamed, hle])
  exact UInt32.lt_iff_toNat_lt.1 (Char.not_le.1 hlow)

/-- The string of a text has a written form. -/
theorem Literal.proper_ofText (text : String) : ∀ piece ∈ Literal.ofText text, piece.Proper := by
  intro piece hpiece
  obtain ⟨c, -, rfl⟩ := List.mem_map.1 hpiece
  split
  · next hc => exact hc
  · next hc =>
    have hlt := toNat_lt_of_not_isNamed hc
    show c.toNat < 2 ^ 16
    omega

/-- A unit that is no half of a pair is a character by itself. -/
theorem Literal.chars?_unit_cons {n : Nat} (hhigh : isHigh n = false) (hlow : isLow n = false)
    (l : Literal) : chars? (.unit n :: l) = (chars? l).map (Char.ofNat n :: ·) := by
  rcases l with _ | ⟨_ | low, l⟩
  · simp [chars?, hhigh, hlow]
  · simp [chars?, hhigh, hlow]
  · rw [chars?, if_neg (by simp [hhigh]), if_neg (by simp [hlow])]

/-- The text of a string is found again. -/
@[simp] theorem Literal.text?_ofText (text : String) : (Literal.ofText text).text? = some text := by
  have hchars (cs : List Char) :
      chars? (cs.map fun c => if isNamed c then .char c else .unit c.toNat) = some cs := by
    induction cs with
    | nil => rfl
    | cons c cs ih =>
      rw [List.map_cons]
      split
      · rw [chars?, ih, Option.map_some]
      · next hc =>
        have hlt := toNat_lt_of_not_isNamed hc
        have hhigh : isHigh c.toNat = false := by simp [isHigh]; omega
        have hlow : isLow c.toNat = false := by simp [isLow]; omega
        rw [chars?_unit_cons hhigh hlow, ih, Option.map_some, Char.ofNat_toNat]
  rw [text?, ofText, hchars, Option.map_some, String.ofList_toList]

/-! ## Parts with commas between them -/

/-- Parts with commas between them, each behind the same blanks. -/
def spaced (bs : List Char) : List (List Char) → List Char
  | [] => []
  | [cs] => bs ++ cs
  | cs :: more => bs ++ cs ++ ',' :: spaced bs more

theorem compactItems_eq (js : List Json) : compactItems js = spaced [] (js.map compact) := by
  induction js with
  | nil => rfl
  | cons j js ih =>
    cases js with
    | nil => rfl
    | cons j' js =>
      rw [compactItems, ih]
      · rfl
      · simp

theorem indentedItems_eq (level : Nat) (js : List Json) :
    indentedItems level js = spaced (newline level) (js.map (indented level)) := by
  induction js with
  | nil => rfl
  | cons j js ih =>
    cases js with
    | nil => rfl
    | cons j' js =>
      rw [indentedItems, ih]
      · rfl
      · simp

/-- A name and a value with a colon between them, and blanks behind that. -/
def member (bs : List Char) (write : Json → List Char) (m : Literal × Json) : List Char :=
  m.1.write ++ ':' :: (bs ++ write m.2)

theorem compactMembers_eq (ms : List (Literal × Json)) :
    compactMembers ms = spaced [] (ms.map (member [] compact)) := by
  induction ms with
  | nil => rfl
  | cons m ms ih =>
    obtain ⟨l, j⟩ := m
    cases ms with
    | nil => rfl
    | cons m' ms =>
      rw [compactMembers, ih]
      · simp [spaced, member]
      · simp

theorem indentedMembers_eq (level : Nat) (ms : List (Literal × Json)) :
    indentedMembers level ms =
      spaced (newline level) (ms.map (member [' '] (indented level))) := by
  induction ms with
  | nil => rfl
  | cons m ms ih =>
    obtain ⟨l, j⟩ := m
    cases ms with
    | nil => simp [indentedMembers, spaced, member]
    | cons m' ms =>
      rw [indentedMembers, ih]
      · simp [spaced, member]
      · simp

theorem blank_nil : Blank [] := fun c hc => by cases hc

theorem blank_newline (level : Nat) : Blank (newline level) := by
  intro c hc
  rcases List.mem_cons.1 hc with rfl | hc
  · rfl
  · rw [List.eq_of_mem_replicate hc]
    rfl

section Spaced

variable {bs close : List Char} (hbs : Blank bs) (hclose : Blank close) {write : Json → List Char}

include hbs hclose

theorem exists_writesItems {js : List Json} (hne : js ≠ []) (h : ∀ j ∈ js, Writes j (write j)) :
    ∃ cs, spaced bs (js.map write) ++ (close ++ [']']) = bs ++ cs ∧ WritesItems js cs := by
  induction js with
  | nil => exact absurd rfl hne
  | cons j js ih =>
    obtain ⟨hj, hjs⟩ := List.forall_mem_cons.1 h
    cases js with
    | nil => exact ⟨_, List.append_assoc .., .last hj hclose⟩
    | cons j' js =>
      obtain ⟨cs, heq, hcs⟩ := ih (List.cons_ne_nil _ _) hjs
      refine ⟨_, ?_, .more hj blank_nil hbs hcs⟩
      rw [← heq]
      simp [spaced]

/-- Items behind blanks, with commas between them and blanks at the end. -/
theorem writes_array {js : List Json} (hne : js ≠ []) (h : ∀ j ∈ js, Writes j (write j)) :
    Writes (.array js) ('[' :: (spaced bs (js.map write) ++ (close ++ [']']))) := by
  obtain ⟨cs, heq, hcs⟩ := exists_writesItems hbs hclose hne h
  rw [heq]
  exact .array hbs hcs

variable {after : List Char} (hafter : Blank after)

include hafter

theorem exists_writesMembers {ms : List (Literal × Json)} (hne : ms ≠ [])
    (hnames : ∀ m ∈ ms, ∀ piece ∈ m.1, piece.Proper) (h : ∀ m ∈ ms, Writes m.2 (write m.2)) :
    ∃ cs, spaced bs (ms.map (member after write)) ++ (close ++ ['}']) = bs ++ cs ∧
      WritesMembers ms cs := by
  induction ms with
  | nil => exact absurd rfl hne
  | cons m ms ih =>
    obtain ⟨hname, hnames⟩ := List.forall_mem_cons.1 hnames
    obtain ⟨hm, hms⟩ := List.forall_mem_cons.1 h
    have hname := Literal.writes hname
    cases ms with
    | nil =>
      refine ⟨_, ?_, .last hname blank_nil hafter hm hclose⟩
      simp [spaced, member, Literal.write]
    | cons m' ms =>
      obtain ⟨cs, heq, hcs⟩ := ih (List.cons_ne_nil _ _) hnames hms
      refine ⟨_, ?_, .more hname blank_nil hafter hm blank_nil hbs hcs⟩
      rw [← heq]
      simp [spaced, member, Literal.write]

/-- Members behind blanks, with commas between them and blanks at the end. -/
theorem writes_object {ms : List (Literal × Json)} (hne : ms ≠ [])
    (hnames : ∀ m ∈ ms, ∀ piece ∈ m.1, piece.Proper) (h : ∀ m ∈ ms, Writes m.2 (write m.2)) :
    Writes (.object ms) ('{' :: (spaced bs (ms.map (member after write)) ++ (close ++ ['}']))) := by
  obtain ⟨cs, heq, hcs⟩ := exists_writesMembers hbs hclose hafter hne hnames h
  rw [heq]
  exact .object hbs hcs

end Spaced

/-! ## Documents -/

/-- Whether a document has a written form: its numbers are what their characters write, and so are
its strings. -/
inductive Proper : Json → Prop where
  | null : Proper .null
  | bool (b : Bool) : Proper (.bool b)
  | number {n : Number} (hn : n.Writes n.write) : Proper (.number n)
  | string {l : Literal} (hl : ∀ piece ∈ l, piece.Proper) : Proper (.string l)
  | array {js : List Json} (hjs : ∀ j ∈ js, Proper j) : Proper (.array js)
  | object {ms : List (Literal × Json)} (hnames : ∀ m ∈ ms, ∀ piece ∈ m.1, piece.Proper)
      (hms : ∀ m ∈ ms, Proper m.2) : Proper (.object ms)

/-- The form without blanks writes the document. -/
theorem Proper.writes_compact {j : Json} (h : j.Proper) : Writes j (compact j) := by
  induction h with
  | null => exact .null
  | bool b => cases b with
    | true => exact .yes
    | false => exact .no
  | number hn => exact .number hn
  | string hl => exact .string (Literal.writes hl)
  | @array js _ ih =>
    cases js with
    | nil => exact .noItems blank_nil
    | cons j js =>
      rw [compact, compactItems_eq]
      exact writes_array blank_nil blank_nil (List.cons_ne_nil j js) ih
  | @object ms hnames _ ih =>
    cases ms with
    | nil => exact .noMembers blank_nil
    | cons m ms =>
      rw [compact, compactMembers_eq]
      exact writes_object blank_nil blank_nil blank_nil (List.cons_ne_nil m ms) hnames ih

/-- The form with one part to a line writes the document, at any level. -/
theorem Proper.writes_indented {j : Json} (h : j.Proper) (level : Nat) :
    Writes j (indented level j) := by
  have hline := blank_newline
  induction h generalizing level with
  | null => exact .null
  | bool b => cases b with
    | true => exact .yes
    | false => exact .no
  | number hn => exact .number hn
  | string hl => exact .string (Literal.writes hl)
  | @array js _ ih =>
    cases js with
    | nil => exact .noItems blank_nil
    | cons j js =>
      rw [indented, indentedItems_eq, List.append_assoc]
      · exact writes_array (hline (level + 1)) (hline level) (List.cons_ne_nil j js)
          fun j hj => ih j hj (level + 1)
      · simp
  | @object ms hnames _ ih =>
    cases ms with
    | nil => exact .noMembers blank_nil
    | cons m ms =>
      have hspace : Blank [' '] := by simp [Blank, isBlank]
      rw [indented, indentedMembers_eq, List.append_assoc]
      · exact writes_object (hline (level + 1)) (hline level) hspace (List.cons_ne_nil m ms) hnames
          fun m hm => ih m hm (level + 1)
      · simp

/-- **Both forms of a proper document write it.** -/
theorem Proper.document {j : Json} (h : j.Proper) :
    Document (compactText j) j ∧ Document (indentedText j) j := by
  constructor
  · exact ⟨[], compact j, [], by simp [compactText], blank_nil, h.writes_compact, blank_nil⟩
  · exact ⟨[], indented 0 j, [], by simp [indentedText], blank_nil, h.writes_indented 0, blank_nil⟩

/-! ## Parts of documents -/

@[simp] theorem proper_text (s : String) : (text s).Proper := .string (Literal.proper_ofText s)

@[simp] theorem proper_nat (n : Nat) : (nat n).Proper := by
  have hwrites : (Number.ofNat n).Writes _ :=
    .mk (Decimal.digits_ne_nil n) (Decimal.numeral_digits n) (Decimal.no_leading_zero n) .absent
      .absent
  exact .number hwrites.writes_write

@[simp] theorem proper_float (x : Float) : (float x).Proper := by
  unfold float
  split
  · next n hn =>
    unfold Number.ofFloat? at hn
    split at hn
    · next n' hread =>
      cases hn
      obtain ⟨taken, -, hwrites⟩ := Number.exists_writes_of_read? hread
      exact .number hwrites.writes_write
    · cases hn
  · exact .null

theorem proper_option {α : Type} {write : α → Json} (h : ∀ a, (write a).Proper) (o : Option α) :
    (option write o).Proper := by
  cases o with
  | none => exact .null
  | some a => exact h a

theorem proper_list {α : Type} {write : α → Json} (h : ∀ a, (write a).Proper) (as : List α) :
    (list write as).Proper := by
  refine .array fun j hj => ?_
  obtain ⟨a, -, rfl⟩ := List.mem_map.1 hj
  exact h a

theorem proper_record {members : List (String × Json)} (h : ∀ m ∈ members, m.2.Proper) :
    (record members).Proper := by
  refine .object (fun m hm => ?_) fun m hm => ?_
  · obtain ⟨m', -, rfl⟩ := List.mem_map.1 hm
    exact Literal.proper_ofText m'.1
  · obtain ⟨m', hm', rfl⟩ := List.mem_map.1 hm
    exact h m' hm'

/-! ## Parts that are found again -/

@[simp] theorem text?_text (s : String) : text? (text s) = some s := Literal.text?_ofText s

@[simp] theorem natBelow?_nat {bound n : Nat} (h : n < bound) :
    (nat n).natBelow? bound = some n := by
  simp [nat, natBelow?, Number.natBelow?, Number.ofNat, h]

/-- Whether a double is read from the text that is written for it. -/
def ReadsBack (x : Float) : Prop := (read? (Number.layout.write x)).bind float? = some x

instance (x : Float) : Decidable (ReadsBack x) :=
  inferInstanceAs (Decidable (_ = some x))

/-- A finite double is found again if its text is read as it. -/
theorem float?_float {x : Float} (hx : x.isFinite = true) (h : ReadsBack x) :
    (float x).float? = some x := by
  obtain ⟨n, hn⟩ := Number.exists_writes_write hx
  have hread : read? (Number.layout.write x) = some (.number n) :=
    Document.read?_eq ⟨[], _, [], by simp, blank_nil, .number hn, blank_nil⟩
  rw [ReadsBack, hread, Option.bind_some] at h
  rw [float, Number.ofFloat?_eq_some hn]
  exact h

-- one in eleven, rounded, is read as its neighbour
example : ¬ReadsBack 0.09090909090909091 := by decide +kernel

@[simp] theorem word?_text {α : Type} (meaning : String → Option α) (s : String) :
    (text s).word? meaning = meaning s := by
  simp [text, word?]

theorem option?_option {α : Type} {read : Json → Option α} {write : α → Json}
    (hread : ∀ a, read (write a) = some a) (hnull : ∀ a, write a ≠ .null) (o : Option α) :
    option? read (option write o) = some o := by
  cases o with
  | none => rfl
  | some a =>
    rw [option, option?]
    · rw [hread, Option.map_some]
    · exact hnull a

theorem list?_list {α : Type} {read : Json → Option α} {write : α → Json}
    (hread : ∀ a, read (write a) = some a) (as : List α) :
    list? read (list write as) = some as := by
  show (as.map write).mapM read = some as
  induction as with
  | nil => rfl
  | cons a as ih =>
    rw [List.map_cons, List.mapM_cons, hread, ih]
    rfl

end StoreTrial.Json
