import Mathlib.Data.List.Pairwise
import StoreTrial.Config.Record

/-!
# Records are read in any order

The members of an object assign the fields that they name, one after another.  Fields that can be
assigned in any order make the order of members irrelevant, and with each name at most once all that
counts is what is found under it: reading an object member by member comes to looking up every field
of the record once.  Members under other names are passed over, wherever they stand.

## Main results

* `assignMembers_eq_overrideAll` — reading member by member is looking up field by field.
* `assignMembers_perm` — the order of members does not matter.
* `readRecord_alike` — nor do members under unknown names.
-/

namespace StoreTrial.Config

open Json (Literal)

/-! ## Members and their names -/

/-- Whether a member has a name. -/
def named (name : String) (m : Literal × Json) : Bool := m.1.text? == some name

/-- The value of the first member with a name. -/
def valueOf? (members : List (Literal × Json)) (name : String) : Option Json :=
  (members.find? (named name)).map (·.2)

@[simp] theorem named_iff {name : String} {m : Literal × Json} :
    named name m = true ↔ m.1.text? = some name := beq_iff_eq

theorem valueOf?_cons_of_named {m : Literal × Json} {name : String} (h : named name m = true)
    (members : List (Literal × Json)) : valueOf? (m :: members) name = some m.2 := by
  rw [valueOf?, List.find?_cons_of_pos h]
  rfl

theorem valueOf?_cons_of_not_named {m : Literal × Json} {name : String} (h : ¬ named name m = true)
    (members : List (Literal × Json)) : valueOf? (m :: members) name = valueOf? members name := by
  rw [valueOf?, List.find?_cons_of_neg h, valueOf?]

theorem valueOf?_eq_none {members : List (Literal × Json)} {name : String}
    (h : ∀ m ∈ members, ¬ named name m = true) : valueOf? members name = none := by
  rw [valueOf?, List.find?_eq_none.2 h]
  rfl

/-! ## Fields that are independent -/

/-- Whether two fields can be assigned in either order. -/
def Field.Commutes {σ : Type} (f g : Field σ) : Prop :=
  ∀ j k s, (f.assign j s).bind (g.assign k) = (g.assign k s).bind (f.assign j)

instance {σ : Type} : Std.Symm (Field.Commutes (σ := σ)) := ⟨fun _ _ h j k s => (h k j s).symm⟩

/-- Fields that store to different places commute.  The simplifier finds this for every two fields
of a record. -/
@[simp] theorem commutes_field {σ α β : Type} {name name' : String} {read : Json → Option α}
    {read' : Json → Option β} {store : σ → α → σ} {store' : σ → β → σ}
    (h : ∀ s a b, store' (store s a) b = store (store' s b) a) :
    (field name read store).Commutes (field name' read' store') := by
  intro j k s
  simp only [field, Option.bind_map]
  cases read j <;> cases read' k <;> simp [h]

/-- Fields under names of their own that can be assigned in any order. -/
structure Independent {σ : Type} (fields : List (Field σ)) : Prop where
  nodup : (fields.map (·.name)).Nodup
  commutes : fields.Pairwise Field.Commutes

section Fields

variable {σ : Type} {fields : List (Field σ)}

theorem Independent.tail {f : Field σ} (h : Independent (f :: fields)) : Independent fields :=
  ⟨(List.nodup_cons.1 h.nodup).2, (List.pairwise_cons.1 h.commutes).2⟩

theorem Independent.name_ne {f g : Field σ} (h : Independent (f :: fields)) (hg : g ∈ fields) :
    g.name ≠ f.name := by
  intro heq
  apply (List.nodup_cons.1 h.nodup).1
  exact List.mem_map.2 ⟨g, hg, heq⟩

/-! ## Looking up every field -/

/-- Assigns a field what is found under its name. -/
def Field.override (f : Field σ) (members : List (Literal × Json)) : σ → Option σ :=
  match valueOf? members f.name with
  | some v => f.assign v
  | none => some

/-- Assigns every field what is found under its name. -/
def overrideAll (members : List (Literal × Json)) : List (Field σ) → σ → Option σ
  | [], s => some s
  | f :: fields, s => (f.override members s).bind (overrideAll members fields)

theorem Field.override_of_eq_none {f : Field σ} {members : List (Literal × Json)}
    (h : valueOf? members f.name = none) : f.override members = some := by
  rw [override, h]

theorem Field.override_of_eq_some {f : Field σ} {members : List (Literal × Json)} {v : Json}
    (h : valueOf? members f.name = some v) : f.override members = f.assign v := by
  rw [override, h]

theorem Field.override_of_not_named {f : Field σ} {members : List (Literal × Json)}
    (h : ∀ m ∈ members, ¬ named f.name m = true) : f.override members = some :=
  override_of_eq_none (valueOf?_eq_none h)

theorem Field.override_cons_of_not_named {f : Field σ} {m : Literal × Json}
    (h : ¬ named f.name m = true) (members : List (Literal × Json)) :
    f.override (m :: members) = f.override members := by
  rw [override, valueOf?_cons_of_not_named h, override]

theorem Field.override_cons_of_named {f : Field σ} {m : Literal × Json} (h : named f.name m = true)
    (members : List (Literal × Json)) : f.override (m :: members) = f.assign m.2 :=
  override_of_eq_some (valueOf?_cons_of_named h members)

/-- A field that commutes with another also does when it is looked up. -/
theorem Field.Commutes.override {f g : Field σ} (h : f.Commutes g)
    (members : List (Literal × Json)) (j : Json) (s : σ) :
    (g.override members s).bind (f.assign j) = (f.assign j s).bind (g.override members) := by
  unfold Field.override
  cases valueOf? members g.name with
  | some v => exact (h j v s).symm
  | none => simp

theorem overrideAll_cons_of_not_named {m : Literal × Json}
    (h : ∀ f ∈ fields, ¬ named f.name m = true) (members : List (Literal × Json)) :
    overrideAll (m :: members) fields = overrideAll members fields := by
  induction fields with
  | nil => rfl
  | cons f fields ih =>
    rw [List.forall_mem_cons] at h
    funext s
    rw [overrideAll, overrideAll, Field.override_cons_of_not_named h.1, ih h.2]

/-- A member that comes first can be assigned first, if no other has its name. -/
theorem overrideAll_cons_of_named (hfields : Independent fields) {f : Field σ} (hf : f ∈ fields)
    {m : Literal × Json} (hm : named f.name m = true) {members : List (Literal × Json)}
    (hmembers : ∀ m ∈ members, ¬ named f.name m = true) (s : σ) :
    overrideAll (m :: members) fields s = (f.assign m.2 s).bind (overrideAll members fields) := by
  have hother {g : Field σ} (hne : g.name ≠ f.name) : ¬ named g.name m = true := by
    intro hg
    rw [named_iff] at hm hg
    exact hne (Option.some.inj (hg.symm.trans hm))
  induction fields generalizing s with
  | nil => cases hf
  | cons g fields ih =>
    rw [overrideAll]
    rcases List.mem_cons.1 hf with rfl | htail
    · have hrest := overrideAll_cons_of_not_named
        (fun g hg => hother (hfields.name_ne hg)) members
      rw [Field.override_cons_of_named hm, hrest]
      congr 1
      funext s'
      rw [overrideAll, Field.override_of_not_named hmembers, Option.bind_some]
    · have hne : g.name ≠ f.name := fun h => hfields.name_ne htail h.symm
      have hcommutes : f.Commutes g :=
        Std.Symm.symm _ _ ((List.pairwise_cons.1 hfields.commutes).1 f htail)
      rw [Field.override_cons_of_not_named (hother hne), funext (ih hfields.tail htail),
        ← Option.bind_assoc, hcommutes.override, Option.bind_assoc]
      rfl

/-- What occurs once at most and comes first does not come again. -/
theorem not_of_countP_cons_le_one {α : Type} {p : α → Bool} {a : α} {as : List α}
    (h : (a :: as).countP p ≤ 1) (ha : p a = true) : ∀ b ∈ as, ¬ p b = true := by
  rw [List.countP_cons_of_pos ha] at h
  exact List.countP_eq_zero.1 (by omega)

/-- Reading member by member is looking up field by field, as long as names are texts and no name of
a field occurs twice. -/
theorem assignMembers_eq_overrideAll (hfields : Independent fields)
    {members : List (Literal × Json)} (htexts : ∀ m ∈ members, m.1.text?.isSome)
    (honce : ∀ f ∈ fields, members.countP (named f.name) ≤ 1) {seen : List String}
    (hseen : ∀ m ∈ members, ∀ name ∈ seen, ¬ named name m = true) (s : σ) :
    assignMembers fields seen members s = overrideAll members fields s := by
  induction members generalizing seen s with
  | nil =>
    -- nothing is found, and every field stays as it is
    clear hfields honce
    induction fields with
    | nil => rfl
    | cons f fields ih => exact ih
  | cons m members ih =>
    obtain ⟨l, v⟩ := m
    obtain ⟨htext, htexts⟩ := List.forall_mem_cons.1 htexts
    obtain ⟨hnew, hseen⟩ := List.forall_mem_cons.1 hseen
    obtain ⟨name, hname⟩ := Option.isSome_iff_exists.1 htext
    have honce' (f : Field σ) (hf : f ∈ fields) : members.countP (named f.name) ≤ 1 :=
      Nat.le_trans (List.sublist_cons_self _ _).countP_le (honce f hf)
    rw [assignMembers, hname, Option.bind_some]
    split
    · next hfind =>
      have hunknown (f : Field σ) (hf : f ∈ fields) : ¬ named f.name (l, v) = true := by
        rw [named_iff, hname, Option.some_inj]
        intro heq
        exact List.find?_eq_none.1 hfind f hf (beq_iff_eq.2 heq.symm)
      rw [ih htexts honce' hseen, overrideAll_cons_of_not_named hunknown]
    · next f hfind =>
      obtain rfl : f.name = name := by simpa using List.find?_some hfind
      have hf : f ∈ fields := List.mem_of_find?_eq_some hfind
      have hnamed : named f.name (l, v) = true := named_iff.2 hname
      have hlast := not_of_countP_cons_le_one (honce f hf) hnamed
      rw [if_neg fun hmem => hnew f.name hmem hnamed,
        overrideAll_cons_of_named hfields hf hnamed hlast]
      congr 1
      funext s'
      apply ih htexts honce'
      intro m hm
      exact List.forall_mem_cons.2 ⟨hlast m hm, hseen m hm⟩

/-! ## Members in another order -/

/-- The order in which fields have been named does not matter. -/
theorem assignMembers_congr_seen {seen seen' : List String} (h : ∀ name, name ∈ seen ↔ name ∈ seen')
    (members : List (Literal × Json)) :
    assignMembers fields seen members = assignMembers fields seen' members := by
  induction members generalizing seen seen' with
  | nil => rfl
  | cons m members ih =>
    obtain ⟨l, v⟩ := m
    funext s
    have hrest (name : String) : assignMembers fields (name :: seen) members =
        assignMembers fields (name :: seen') members := ih fun other => by simp [h]
    simp only [assignMembers, h, ih h, hrest]

section Heads

variable (members : List (Literal × Json)) (seen : List String) {m : Literal × Json}

theorem assignMembers_cons_of_text_none (h : m.1.text? = none) :
    assignMembers fields seen (m :: members) = fun _ => none := by
  funext s
  obtain ⟨l, v⟩ := m
  rw [assignMembers, h, Option.bind_none]

theorem assignMembers_cons_of_unknown {name : String} (h : m.1.text? = some name)
    (hfind : fields.find? (·.name == name) = none) :
    assignMembers fields seen (m :: members) = assignMembers fields seen members := by
  funext s
  obtain ⟨l, v⟩ := m
  rw [assignMembers, h, Option.bind_some, hfind]

theorem assignMembers_cons_of_known {name : String} (h : m.1.text? = some name) {f : Field σ}
    (hfind : fields.find? (·.name == name) = some f) :
    assignMembers fields seen (m :: members) = fun s =>
      if name ∈ seen then none
      else (f.assign m.2 s).bind (assignMembers fields (name :: seen) members) := by
  funext s
  obtain ⟨l, v⟩ := m
  rw [assignMembers, h, Option.bind_some, hfind]

end Heads

/-- Two members under known names can change places. -/
theorem assignMembers_swap_of_known (hfields : Independent fields) {a b : Literal × Json}
    {name name' : String} (ha : a.1.text? = some name) (hb : b.1.text? = some name')
    {f g : Field σ} (hfinda : fields.find? (·.name == name) = some f)
    (hfindb : fields.find? (·.name == name') = some g) (members : List (Literal × Json))
    (seen : List String) :
    assignMembers fields seen (a :: b :: members) =
      assignMembers fields seen (b :: a :: members) := by
  rw [assignMembers_cons_of_known _ _ ha hfinda, assignMembers_cons_of_known _ _ hb hfindb,
    assignMembers_cons_of_known _ _ hb hfindb, assignMembers_cons_of_known _ _ ha hfinda]
  funext s
  -- a name that occurs twice leaves nothing, whichever member is assigned first
  by_cases hseen : name ∈ seen
  · simp [hseen]
  by_cases hseen' : name' ∈ seen
  · simp [hseen']
  by_cases heq : name = name'
  · simp [heq]
  have hf : f.name = name := by simpa using List.find?_some hfinda
  have hg : g.name = name' := by simpa using List.find?_some hfindb
  have hcommutes : f.Commutes g := by
    apply hfields.commutes.forall (List.mem_of_find?_eq_some hfinda)
      (List.mem_of_find?_eq_some hfindb)
    rintro rfl
    exact heq (hf.symm.trans hg)
  have hboth : assignMembers fields (name' :: name :: seen) members =
      assignMembers fields (name :: name' :: seen) members := by
    apply assignMembers_congr_seen
    intro other
    simp only [List.mem_cons, or_left_comm]
  simp only [List.mem_cons, hseen, hseen', heq, Ne.symm heq, or_self, if_false, hboth]
  rw [← Option.bind_assoc, ← Option.bind_assoc, hcommutes]

/-- A name that is no text leaves nothing, also where it comes second. -/
theorem assignMembers_cons_cons_of_text_none {a b : Literal × Json} (hb : b.1.text? = none)
    (members : List (Literal × Json)) (seen : List String) :
    assignMembers fields seen (a :: b :: members) = fun _ => none := by
  cases ha : a.1.text? with
  | none => exact assignMembers_cons_of_text_none _ _ ha
  | some name =>
    cases hfind : fields.find? (·.name == name) with
    | none =>
      rw [assignMembers_cons_of_unknown _ _ ha hfind, assignMembers_cons_of_text_none _ _ hb]
    | some f =>
      rw [assignMembers_cons_of_known _ _ ha hfind, assignMembers_cons_of_text_none _ _ hb]
      simp

/-- Two members that follow one another can change places. -/
theorem assignMembers_swap (hfields : Independent fields) (a b : Literal × Json)
    (members : List (Literal × Json)) (seen : List String) :
    assignMembers fields seen (a :: b :: members) =
      assignMembers fields seen (b :: a :: members) := by
  cases ha : a.1.text? with
  | none =>
    rw [assignMembers_cons_of_text_none _ _ ha, assignMembers_cons_cons_of_text_none ha]
  | some name =>
  cases hb : b.1.text? with
  | none =>
    rw [assignMembers_cons_cons_of_text_none hb, assignMembers_cons_of_text_none _ _ hb]
  | some name' =>
  cases hfinda : fields.find? (·.name == name) with
  | none =>
    rw [assignMembers_cons_of_unknown _ _ ha hfinda]
    cases hfindb : fields.find? (·.name == name') with
    | none =>
      rw [assignMembers_cons_of_unknown _ _ hb hfindb, assignMembers_cons_of_unknown _ _ hb hfindb,
        assignMembers_cons_of_unknown _ _ ha hfinda]
    | some g =>
      rw [assignMembers_cons_of_known _ _ hb hfindb, assignMembers_cons_of_known _ _ hb hfindb,
        assignMembers_cons_of_unknown _ _ ha hfinda]
  | some f =>
  cases hfindb : fields.find? (·.name == name') with
  | none =>
    rw [assignMembers_cons_of_unknown _ _ hb hfindb, assignMembers_cons_of_known _ _ ha hfinda,
      assignMembers_cons_of_known _ _ ha hfinda, assignMembers_cons_of_unknown _ _ hb hfindb]
  | some g => exact assignMembers_swap_of_known hfields ha hb hfinda hfindb members seen

/-- The order of members does not matter. -/
theorem assignMembers_perm (hfields : Independent fields) {members members' : List (Literal × Json)}
    (h : members.Perm members') (seen : List String) :
    assignMembers fields seen members = assignMembers fields seen members' := by
  induction h generalizing seen with
  | nil => rfl
  | cons m _ ih =>
    funext s
    obtain ⟨l, v⟩ := m
    simp only [assignMembers, ih]
  | swap a b members => exact assignMembers_swap hfields b a members seen
  | trans _ _ ih ih' => rw [ih, ih']

/-! ## Members that are passed over -/

/-- Members that differ in their order, and in those under names that are not known. -/
inductive Alike (known : List String) :
    List (Literal × Json) → List (Literal × Json) → Prop where
  | perm {members members' : List (Literal × Json)} (h : members.Perm members') :
      Alike known members members'
  | insert {m : Literal × Json} {name : String} (hname : m.1.text? = some name)
      (hunknown : name ∉ known) (members : List (Literal × Json)) :
      Alike known members (m :: members)
  | symm {members members' : List (Literal × Json)} (h : Alike known members members') :
      Alike known members' members
  | trans {members members' members'' : List (Literal × Json)} (h : Alike known members members')
      (h' : Alike known members' members'') : Alike known members members''

/-- Members that are alike are read alike. -/
theorem assignMembers_alike (hfields : Independent fields)
    {members members' : List (Literal × Json)}
    (h : Alike (fields.map (·.name)) members members') (seen : List String) :
    assignMembers fields seen members = assignMembers fields seen members' := by
  induction h with
  | perm h => exact assignMembers_perm hfields h seen
  | @insert m name hname hunknown members =>
    have hfind : fields.find? (·.name == name) = none := by
      apply List.find?_eq_none.2
      intro f hf heq
      exact hunknown (List.mem_map.2 ⟨f, hf, beq_iff_eq.1 heq⟩)
    rw [assignMembers_cons_of_unknown members seen hname hfind]
  | symm _ ih => exact ih.symm
  | trans _ _ ih ih' => exact ih.trans ih'

/-- Objects that are alike are read as the same record. -/
theorem readRecord_alike (hfields : Independent fields) {members members' : List (Literal × Json)}
    (h : Alike (fields.map (·.name)) members members') (s : σ) :
    readRecord fields s (.object members) = readRecord fields s (.object members') :=
  congrFun (assignMembers_alike hfields h []) s

/-- What stands under a name counts for what it is read as. -/
theorem assignMembers_cons_congr {name : String} {l : Literal} (h : l.text? = some name)
    {f : Field σ} (hfind : fields.find? (·.name == name) = some f) {v v' : Json}
    (hassign : f.assign v = f.assign v') (members : List (Literal × Json)) (seen : List String) :
    assignMembers fields seen ((l, v) :: members) =
      assignMembers fields seen ((l, v') :: members) := by
  rw [assignMembers_cons_of_known members seen (m := (l, v)) h hfind,
    assignMembers_cons_of_known members seen (m := (l, v')) h hfind, hassign]

end Fields

end StoreTrial.Config
