import StoreTrial.Resp.Encode

/-!
# The frames inside a value

A value is made of frames: itself, and those of its elements, keys and values at every depth.
`Value.frames` lists them, so a condition on all of them is a condition on the members of a list,
and `Value.induction` is the induction over this structure with one case for each way of holding
other values.

## Main results

* `Value.induction` — induction with the elements of an aggregate as hypotheses.
* `Value.everywhere_array` and its companions — a condition everywhere, one level at a time.
-/

namespace StoreTrial.Resp.Value

/-! ## Induction -/

/-- Whether a value holds no other values. -/
def IsLeaf : Value → Prop
  | .array _ | .map _ | .set _ | .push _ => False
  | .simple _ | .error _ | .integer _ | .bulk _ | .null | .boolean _ | .double _ => True

/-- Induction over values, with the elements of an aggregate as hypotheses. -/
@[elab_as_elim]
theorem induction {motive : Value → Prop} (leaf : ∀ v, v.IsLeaf → motive v)
    (array : ∀ items, (∀ v ∈ items, motive v) → motive (.array items))
    (set : ∀ items, (∀ v ∈ items, motive v) → motive (.set items))
    (push : ∀ items, (∀ v ∈ items, motive v) → motive (.push items))
    (map : ∀ entries, (∀ e ∈ entries, motive e.1 ∧ motive e.2) → motive (.map entries))
    (v : Value) : motive v := by
  refine @Value.rec motive (fun items => ∀ v ∈ items, motive v)
    (fun entries => ∀ e ∈ entries, motive e.1 ∧ motive e.2) (fun e => motive e.1 ∧ motive e.2)
    ?_ ?_ ?_ ?_ ?_ ?_ ?_ ?_ ?_ ?_ ?_ ?_ ?_ ?_ ?_ ?_ v
  · exact fun text => leaf _ trivial
  · exact fun message => leaf _ trivial
  · exact fun n => leaf _ trivial
  · exact fun payload => leaf _ trivial
  · exact leaf _ trivial
  · exact array
  · exact fun b => leaf _ trivial
  · exact fun x => leaf _ trivial
  · exact map
  · exact set
  · exact push
  · intro v hv
    cases hv
  · intro v items hhead htail w hw
    rcases List.mem_cons.1 hw with rfl | hw
    · exact hhead
    · exact htail w hw
  · intro e he
    cases he
  · intro e entries hhead htail f hf
    rcases List.mem_cons.1 hf with rfl | hf
    · exact hhead
    · exact htail f hf
  · exact fun key value hkey hvalue => ⟨hkey, hvalue⟩

/-! ## All frames of a value -/

mutual

/-- The frames that a value is made of, itself first. -/
def frames : Value → List Value
  | .array items => .array items :: framesOfItems items
  | .set items => .set items :: framesOfItems items
  | .push items => .push items :: framesOfItems items
  | .map entries => .map entries :: framesOfEntries entries
  | .simple text => [.simple text]
  | .error message => [.error message]
  | .integer n => [.integer n]
  | .bulk payload => [.bulk payload]
  | .null => [.null]
  | .boolean b => [.boolean b]
  | .double x => [.double x]

/-- The frames of a list of values. -/
def framesOfItems : List Value → List Value
  | [] => []
  | v :: vs => v.frames ++ framesOfItems vs

/-- The frames of a list of pairs. -/
def framesOfEntries : List (Value × Value) → List Value
  | [] => []
  | (k, v) :: es => k.frames ++ v.frames ++ framesOfEntries es

end

theorem mem_framesOfItems {w : Value} {items : List Value} :
    w ∈ framesOfItems items ↔ ∃ v ∈ items, w ∈ v.frames := by
  induction items with
  | nil => simp [framesOfItems]
  | cons v items ih => simp [framesOfItems, ih]

theorem mem_framesOfEntries {w : Value} {entries : List (Value × Value)} :
    w ∈ framesOfEntries entries ↔ ∃ e ∈ entries, w ∈ e.1.frames ∨ w ∈ e.2.frames := by
  induction entries with
  | nil => simp [framesOfEntries]
  | cons e entries ih =>
    obtain ⟨k, v⟩ := e
    simp only [framesOfEntries, List.mem_append, ih, List.mem_cons, exists_eq_or_imp]

/-! ## Keys and values in turn -/

/-- The keys and values of a map as one list. -/
def inTurn (entries : List (Value × Value)) : List Value := entries.flatMap fun e => [e.1, e.2]

@[simp] theorem inTurn_nil : inTurn [] = [] := rfl

@[simp] theorem inTurn_cons (e : Value × Value) (entries : List (Value × Value)) :
    inTurn (e :: entries) = e.1 :: e.2 :: inTurn entries := rfl

@[simp] theorem length_inTurn (entries : List (Value × Value)) :
    (inTurn entries).length = 2 * entries.length := by
  induction entries with
  | nil => rfl
  | cons e entries ih =>
    simp only [inTurn_cons, List.length_cons, ih]
    omega

theorem forall_mem_inTurn {p : Value → Prop} {entries : List (Value × Value)} :
    (∀ v ∈ inTurn entries, p v) ↔ ∀ e ∈ entries, p e.1 ∧ p e.2 := by
  simp only [inTurn, List.mem_flatMap, List.mem_cons, List.not_mem_nil, or_false]
  constructor
  · intro h e he
    exact ⟨h e.1 ⟨e, he, .inl rfl⟩, h e.2 ⟨e, he, .inr rfl⟩⟩
  · rintro h v ⟨e, he, rfl | rfl⟩
    · exact (h e he).1
    · exact (h e he).2

/-! ## Conditions everywhere -/

/-- Whether a condition on single frames holds of every frame of a value. -/
def Everywhere (p : Value → Prop) (v : Value) : Prop := ∀ w ∈ v.frames, p w

instance {p : Value → Prop} [DecidablePred p] (v : Value) : Decidable (v.Everywhere p) :=
  inferInstanceAs (Decidable (∀ w ∈ v.frames, p w))

section Everywhere

variable {p : Value → Prop}

theorem everywhere_leaf {v : Value} (h : v.IsLeaf) : v.Everywhere p ↔ p v := by
  cases v <;> first | exact h.elim | simp [Everywhere, frames]

private theorem everywhere_items {items : List Value} :
    (∀ w ∈ framesOfItems items, p w) ↔ ∀ v ∈ items, v.Everywhere p := by
  constructor
  · exact fun h v hv w hw => h w (mem_framesOfItems.2 ⟨v, hv, hw⟩)
  · intro h w hw
    obtain ⟨v, hv, hw⟩ := mem_framesOfItems.1 hw
    exact h v hv w hw

theorem everywhere_array {items : List Value} :
    (Value.array items).Everywhere p ↔ p (.array items) ∧ ∀ v ∈ items, v.Everywhere p := by
  rw [← everywhere_items]
  simp only [Everywhere, frames, List.forall_mem_cons]

theorem everywhere_set {items : List Value} :
    (Value.set items).Everywhere p ↔ p (.set items) ∧ ∀ v ∈ items, v.Everywhere p := by
  rw [← everywhere_items]
  simp only [Everywhere, frames, List.forall_mem_cons]

theorem everywhere_push {items : List Value} :
    (Value.push items).Everywhere p ↔ p (.push items) ∧ ∀ v ∈ items, v.Everywhere p := by
  rw [← everywhere_items]
  simp only [Everywhere, frames, List.forall_mem_cons]

theorem everywhere_map {entries : List (Value × Value)} :
    (Value.map entries).Everywhere p ↔
      p (.map entries) ∧ ∀ e ∈ entries, e.1.Everywhere p ∧ e.2.Everywhere p := by
  simp only [Everywhere, frames, List.forall_mem_cons, mem_framesOfEntries]
  constructor
  · rintro ⟨hself, h⟩
    exact ⟨hself, fun e he => ⟨fun w hw => h w ⟨e, he, .inl hw⟩, fun w hw => h w ⟨e, he, .inr hw⟩⟩⟩
  · rintro ⟨hself, h⟩
    refine ⟨hself, ?_⟩
    rintro w ⟨e, he, hw | hw⟩
    · exact (h e he).1 w hw
    · exact (h e he).2 w hw

end Everywhere

/-! ## What a frame must be like to be written -/

/-- Whether the length or the count of a frame can be announced in 63 bits. -/
def Fits : Value → Prop
  | .bulk payload => payload.length < 2 ^ 63
  | .array items | .set items | .push items => items.length < 2 ^ 63
  | .map entries => entries.length < 2 ^ 63
  | .simple _ | .error _ | .integer _ | .null | .boolean _ | .double _ => True

instance : DecidablePred Fits
  | .bulk payload => inferInstanceAs (Decidable (payload.length < 2 ^ 63))
  | .array items | .set items | .push items => inferInstanceAs (Decidable (items.length < 2 ^ 63))
  | .map entries => inferInstanceAs (Decidable (entries.length < 2 ^ 63))
  | .simple _ | .error _ | .integer _ | .null | .boolean _ | .double _ => isTrue trivial

/-- Whether the text of a frame stays on its line: it does not hold the pair that ends one. -/
def OneLine : Value → Prop
  | .simple text | .error text => ¬ crlf <:+: Bytes.ofText text
  | .integer _ | .bulk _ | .null | .array _ | .boolean _ | .double _ | .map _ | .set _
  | .push _ => True

instance : DecidablePred OneLine
  | .simple text | .error text => inferInstanceAs (Decidable (¬ crlf <:+: Bytes.ofText text))
  | .integer _ | .bulk _ | .null | .array _ | .boolean _ | .double _ | .map _ | .set _
  | .push _ => isTrue trivial

end StoreTrial.Resp.Value
