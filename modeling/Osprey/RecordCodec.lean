/-
**Records with named fields, written by one program and read by another.**

A record is written as an object: one member for each field that has a value, under the field's
name.  A reader looks its own fields up by name; a field that may be absent reads as absent when
there is no member, or a null one, and every other member is ignored.  The writer's fields and the
reader's need not be the same, which is how two versions of a program, or two languages, get on.

How a value of each type is written is a parameter of both sides.

Main definitions:

* `RecordCodec.FieldSpec`, `RecordCodec.Codec` — a field, and the writing and reading of values;
* `RecordCodec.encode`, `RecordCodec.decode` — writing and reading a record;
* `RecordCodec.cellAt`, `RecordCodec.valueOf` — what a record holds under a name;
* `RecordCodec.Readable`, `RecordCodec.Supplies` — a reader's fields fit a writer's record, and all
  that are needed are there.

Main results:

* `RecordCodec.lookup_encode` — a written record holds under each name what the record holds;
* `RecordCodec.decode_eq` — **a reader gets the writer's values by name**, or nothing when a field
  it needs is not there;
* `RecordCodec.decode_same`, `RecordCodec.decode_by_older`, `RecordCodec.decode_by_newer` — the same
  fields on both sides, and fields that only one side has.
-/

import Mathlib.Data.List.Basic
import Mathlib.Data.List.Nodup

set_option relaxedAutoImplicit false
set_option autoImplicit false

namespace RecordCodec

variable {τ V J : Type}

/-- A field: its name, the type of its values, and whether it may be absent. -/
structure FieldSpec (τ : Type) where
  name : String
  type : τ
  optional : Bool
  deriving DecidableEq, Repr

/-- How one side writes and reads the values of each type. -/
structure Codec (τ V J : Type) where
  enc : τ → V → J
  dec : τ → J → Option V

/-- Write a record: a member for each field that has a value. -/
def encode (c : Codec τ V J) : List (FieldSpec τ) → List (Option V) → List (String × J)
  | f :: fields, some v :: values => (f.name, c.enc f.type v) :: encode c fields values
  | _ :: fields, none :: values => encode c fields values
  | _, _ => []

variable [DecidableEq J]

/-- Read one field. -/
def decodeField (null : J) (c : Codec τ V J) (f : FieldSpec τ) (object : List (String × J)) :
    Option (Option V) :=
  match List.lookup f.name object with
  | none => if f.optional then some none else none
  | some j => if f.optional = true ∧ j = null then some none else (c.dec f.type j).map some

/-- Read a record; members that are no field of the reader's are ignored. -/
def decode (null : J) (c : Codec τ V J) : List (FieldSpec τ) → List (String × J) →
    Option (List (Option V))
  | [], _ => some []
  | f :: fields, object => do
      let v ← decodeField null c f object
      let values ← decode null c fields object
      some (v :: values)

/-! ### What a record holds under a name -/

/-- The type and the value under a name, if there is one. -/
def cellAt : List (FieldSpec τ) → List (Option V) → String → Option (τ × V)
  | f :: fields, v :: values, name =>
      if f.name = name then v.map fun v => (f.type, v) else cellAt fields values name
  | _, _, _ => none

theorem cellAt_of_not_mem {fields : List (FieldSpec τ)} {values : List (Option V)} {name : String}
    (h : name ∉ fields.map FieldSpec.name) : cellAt fields values name = none := by
  induction fields generalizing values with
  | nil => rfl
  | cons f fields ih =>
      rw [List.map_cons, List.mem_cons, not_or] at h
      cases values with
      | nil => rfl
      | cons v values =>
          rw [cellAt, if_neg (Ne.symm h.1)]
          exact ih h.2

/-- The value under a name, if there is one. -/
def valueOf (fields : List (FieldSpec τ)) (values : List (Option V)) (name : String) : Option V :=
  (cellAt fields values name).map Prod.snd

theorem valueOf_of_not_mem {fields : List (FieldSpec τ)} {values : List (Option V)} {name : String}
    (h : name ∉ fields.map FieldSpec.name) : valueOf fields values name = none := by
  rw [valueOf, cellAt_of_not_mem h]
  rfl

omit [DecidableEq J] in
/-- A written record has no member but its fields'. -/
theorem lookup_encode_of_not_mem {c : Codec τ V J} {fields : List (FieldSpec τ)}
    {values : List (Option V)} {name : String} (h : name ∉ fields.map FieldSpec.name) :
    List.lookup name (encode c fields values) = none := by
  induction fields generalizing values with
  | nil => rfl
  | cons f fields ih =>
      rw [List.map_cons, List.mem_cons, not_or] at h
      cases values with
      | nil => rfl
      | cons v values =>
          cases v with
          | none => exact ih h.2
          | some v =>
              rw [encode, List.lookup_cons, show (name == f.name) = false by simpa using h.1]
              exact ih h.2

omit [DecidableEq J] in
/-- **A written record holds under each name what the record holds.** -/
theorem lookup_encode {c : Codec τ V J} {fields : List (FieldSpec τ)} {values : List (Option V)}
    (hdistinct : (fields.map FieldSpec.name).Nodup) (name : String) :
    List.lookup name (encode c fields values)
      = (cellAt fields values name).map fun cell => c.enc cell.1 cell.2 := by
  induction fields generalizing values with
  | nil => rfl
  | cons f fields ih =>
      rw [List.map_cons, List.nodup_cons] at hdistinct
      cases values with
      | nil => rfl
      | cons v values =>
          by_cases hname : f.name = name
          · subst hname
            cases v with
            | none =>
                rw [encode, lookup_encode_of_not_mem hdistinct.1, cellAt, if_pos rfl]
                rfl
            | some v =>
                rw [encode, List.lookup_cons_self, cellAt, if_pos rfl]
                rfl
          · rw [cellAt, if_neg hname, ← ih hdistinct.2]
            cases v with
            | none => rfl
            | some v =>
                rw [encode, List.lookup_cons,
                  show (name == f.name) = false by simpa using Ne.symm hname]

/-! ### Reading what another has written -/

/-- What the reader's codec has to make of the writer's record: a field that both have is of one
type, its value comes back, and is not taken for an absent one. -/
structure Readable (null : J) (writer reader : Codec τ V J) (fields : List (FieldSpec τ))
    (cell : String → Option (τ × V)) : Prop where
  type : ∀ f ∈ fields, ∀ t v, cell f.name = some (t, v) → t = f.type
  back : ∀ f ∈ fields, ∀ t v, cell f.name = some (t, v) → reader.dec t (writer.enc t v) = some v
  present : ∀ f ∈ fields, f.optional = true → ∀ t v, cell f.name = some (t, v) →
    writer.enc t v ≠ null

/-- Every field that is needed has a value. -/
def Supplies (cell : String → Option (τ × V)) (fields : List (FieldSpec τ)) : Prop :=
  ∀ f ∈ fields, f.optional = true ∨ (cell f.name).isSome = true

instance (cell : String → Option (τ × V)) (fields : List (FieldSpec τ)) :
    Decidable (Supplies cell fields) :=
  inferInstanceAs (Decidable (∀ f ∈ fields, f.optional = true ∨ (cell f.name).isSome = true))

theorem supplies_cons {cell : String → Option (τ × V)} {f : FieldSpec τ}
    {fields : List (FieldSpec τ)} :
    Supplies cell (f :: fields) ↔
      (f.optional = true ∨ (cell f.name).isSome = true) ∧ Supplies cell fields :=
  List.forall_mem_cons

/-- One field reads as the writer's value under its name. -/
theorem decodeField_eq {null : J} {writer reader : Codec τ V J} {fields : List (FieldSpec τ)}
    {cell : String → Option (τ × V)} (h : Readable null writer reader fields cell) {f : FieldSpec τ}
    (hf : f ∈ fields) {object : List (String × J)}
    (hobject : List.lookup f.name object = (cell f.name).map fun c => writer.enc c.1 c.2) :
    decodeField null reader f object =
      if f.optional = true ∨ (cell f.name).isSome = true then
        some ((cell f.name).map Prod.snd) else none := by
  rw [decodeField, hobject]
  cases hcell : cell f.name with
  | none => simp
  | some c =>
      obtain ⟨t, v⟩ := c
      obtain rfl := h.type f hf t v hcell
      have hback := h.back f hf f.type v hcell
      have hpresent : ¬ (f.optional = true ∧ writer.enc f.type v = null) := fun hnull =>
        h.present f hf hnull.1 f.type v hcell hnull.2
      simp [hback, hpresent]

/-- **A reader gets the writer's values by name.**  It reads exactly when every field it needs has
a value; the fields it does not need and does not find are absent, and whatever else the object
holds, in whatever order, does not matter. -/
theorem decode_eq {null : J} {writer reader : Codec τ V J} {fields : List (FieldSpec τ)}
    {cell : String → Option (τ × V)} (h : Readable null writer reader fields cell)
    {object : List (String × J)} (hobject : ∀ f ∈ fields,
      List.lookup f.name object = (cell f.name).map fun c => writer.enc c.1 c.2) :
    decode null reader fields object =
      if Supplies cell fields then
        some (fields.map fun f => (cell f.name).map Prod.snd) else none := by
  induction fields with
  | nil => simp [decode, Supplies]
  | cons f fields ih =>
      have hrest : Readable null writer reader fields cell :=
        { type := fun g hg => h.type g (List.mem_cons_of_mem _ hg)
          back := fun g hg => h.back g (List.mem_cons_of_mem _ hg)
          present := fun g hg => h.present g (List.mem_cons_of_mem _ hg) }
      have hhead := decodeField_eq h List.mem_cons_self (hobject f List.mem_cons_self)
      have htail := ih hrest fun g hg => hobject g (List.mem_cons_of_mem _ hg)
      rw [decode, hhead, htail]
      by_cases hf : f.optional = true ∨ (cell f.name).isSome = true
      · by_cases hfields : Supplies cell fields
        · rw [if_pos hf, if_pos hfields, if_pos (supplies_cons.mpr ⟨hf, hfields⟩)]
          rfl
        · rw [if_pos hf, if_neg hfields, if_neg fun hall => hfields (supplies_cons.mp hall).2]
          rfl
      · rw [if_neg hf, if_neg fun hall => hf (supplies_cons.mp hall).1]
        rfl

/-! ### Records that fit their fields -/

/-- A value belongs to its field: absent only where it may be, good for its type otherwise. -/
def Fits (good : τ → V → Prop) (f : FieldSpec τ) (value : Option V) : Prop :=
  match value with
  | none => f.optional = true
  | some v => good f.type v

/-- Two codecs understand one another about the good values.  Only values of a nullable type may be
written as null. -/
structure Interoperable (null : J) (writer reader : Codec τ V J) (good : τ → V → Prop)
    (nullable : τ → Prop) : Prop where
  back : ∀ t v, good t v → reader.dec t (writer.enc t v) = some v
  present : ∀ t v, good t v → ¬ nullable t → writer.enc t v ≠ null

omit [DecidableEq J] in
/-- What a fitting record holds under a name belongs to the field of that name. -/
theorem cellAt_of_fits {good : τ → V → Prop} {fields : List (FieldSpec τ)}
    {values : List (Option V)} (hfits : List.Forall₂ (Fits good) fields values) {name : String}
    {t : τ} {v : V}
    (h : cellAt fields values name = some (t, v)) :
    good t v ∧ ∃ f ∈ fields, f.name = name ∧ f.type = t := by
  induction hfits with
  | nil => cases h
  | @cons f value fields values hhead _ ih =>
      by_cases hname : f.name = name
      · rw [cellAt, if_pos hname, Option.map_eq_some_iff] at h
        obtain ⟨w, rfl, heq⟩ := h
        cases heq
        exact ⟨hhead, f, List.mem_cons_self, hname, rfl⟩
      · rw [cellAt, if_neg hname] at h
        obtain ⟨hgood, g, hg, hmatch⟩ := ih h
        exact ⟨hgood, g, List.mem_cons_of_mem _ hg, hmatch⟩

omit [DecidableEq J] in
/-- A fitting record holds a value under the name of every field that is needed. -/
theorem cellAt_isSome_of_fits {good : τ → V → Prop} {fields : List (FieldSpec τ)}
    {values : List (Option V)} (hdistinct : (fields.map FieldSpec.name).Nodup)
    (hfits : List.Forall₂ (Fits good) fields values) {f : FieldSpec τ} (hf : f ∈ fields) :
    f.optional = true ∨ (cellAt fields values f.name).isSome = true := by
  induction hfits with
  | nil => cases hf
  | @cons g value fields values hhead _ ih =>
      rw [List.map_cons, List.nodup_cons] at hdistinct
      rcases List.mem_cons.mp hf with rfl | hf
      · cases value with
        | none => exact .inl hhead
        | some v => exact .inr (by simp [cellAt])
      · have hne : g.name ≠ f.name := fun heq => hdistinct.1 (heq ▸ List.mem_map_of_mem hf)
        rw [cellAt, if_neg hne]
        exact ih hdistinct.2 hf

omit [DecidableEq J] in
/-- Looked up name by name, a record gives its values. -/
theorem map_valueOf {good : τ → V → Prop} {fields : List (FieldSpec τ)} {values : List (Option V)}
    (hdistinct : (fields.map FieldSpec.name).Nodup)
    (hfits : List.Forall₂ (Fits good) fields values) :
    (fields.map fun f => valueOf fields values f.name) = values := by
  induction hfits with
  | nil => rfl
  | @cons f value fields values _ _ ih =>
      rw [List.map_cons, List.nodup_cons] at hdistinct
      have htail :
          (fields.map fun g => valueOf (f :: fields) (value :: values) g.name)
            = fields.map fun g => valueOf fields values g.name := by
        refine List.map_congr_left fun g hg => ?_
        have hne : f.name ≠ g.name := fun heq => hdistinct.1 (heq ▸ List.mem_map_of_mem hg)
        rw [valueOf, cellAt, if_neg hne, valueOf]
      rw [List.map_cons, htail, ih hdistinct.2, valueOf, cellAt, if_pos rfl]
      cases value <;> rfl

omit [DecidableEq J] in
/-- A reader can make sense of a fitting record when the fields the two share are of one type. -/
theorem readable_of_fits {null : J} {writer reader : Codec τ V J} {good : τ → V → Prop}
    {nullable : τ → Prop} (hinter : Interoperable null writer reader good nullable)
    {fields mine : List (FieldSpec τ)} {values : List (Option V)}
    (hfits : List.Forall₂ (Fits good) fields values)
    (hshared : ∀ f ∈ mine, ∀ g ∈ fields, g.name = f.name → g.type = f.type)
    (hnullable : ∀ f ∈ mine, f.optional = true → ¬ nullable f.type) :
    Readable null writer reader mine (cellAt fields values) := by
  refine ⟨fun f hf t v hcell => ?_, fun f hf t v hcell => ?_, fun f hf hopt t v hcell => ?_⟩
  · obtain ⟨-, g, hg, hname, rfl⟩ := cellAt_of_fits hfits hcell
    exact hshared f hf g hg hname
  · exact hinter.back t v (cellAt_of_fits hfits hcell).1
  · obtain ⟨hgood, g, hg, hname, rfl⟩ := cellAt_of_fits hfits hcell
    refine hinter.present _ v hgood ?_
    rw [hshared f hf g hg hname]
    exact hnullable f hf hopt

/-- **The same fields on both sides: the record comes back**, however its members are ordered and
whatever else is among them. -/
theorem decode_same {null : J} {writer reader : Codec τ V J} {good : τ → V → Prop}
    {nullable : τ → Prop} (hinter : Interoperable null writer reader good nullable)
    {fields : List (FieldSpec τ)} (hdistinct : (fields.map FieldSpec.name).Nodup)
    (hnullable : ∀ f ∈ fields, f.optional = true → ¬ nullable f.type)
    {values : List (Option V)} (hfits : List.Forall₂ (Fits good) fields values)
    {object : List (String × J)} (hobject : ∀ f ∈ fields,
      List.lookup f.name object = List.lookup f.name (encode writer fields values)) :
    decode null reader fields object = some values := by
  have hshared : ∀ f ∈ fields, ∀ g ∈ fields, g.name = f.name → g.type = f.type :=
    fun f hf g hg hname => congrArg FieldSpec.type (List.inj_on_of_nodup_map hdistinct hg hf hname)
  have hsupplies : Supplies (cellAt fields values) fields :=
    fun f hf => cellAt_isSome_of_fits hdistinct hfits hf
  rw [decode_eq (readable_of_fits hinter hfits hshared hnullable) fun f hf =>
    (hobject f hf).trans (lookup_encode hdistinct _), if_pos hsupplies]
  exact congrArg some (map_valueOf hdistinct hfits)

/-- **A reader that has some of the fields** reads the values of those, wherever they stand. -/
theorem decode_by_older {null : J} {writer reader : Codec τ V J} {good : τ → V → Prop}
    {nullable : τ → Prop} (hinter : Interoperable null writer reader good nullable)
    {fields mine : List (FieldSpec τ)} (hdistinct : (fields.map FieldSpec.name).Nodup)
    (hmine : mine ⊆ fields) (hnullable : ∀ f ∈ mine, f.optional = true → ¬ nullable f.type)
    {values : List (Option V)} (hfits : List.Forall₂ (Fits good) fields values) :
    decode null reader mine (encode writer fields values)
      = some (mine.map fun f => valueOf fields values f.name) := by
  have hshared : ∀ f ∈ mine, ∀ g ∈ fields, g.name = f.name → g.type = f.type :=
    fun f hf g hg hname =>
      congrArg FieldSpec.type (List.inj_on_of_nodup_map hdistinct hg (hmine hf) hname)
  have hsupplies : Supplies (cellAt fields values) mine :=
    fun f hf => cellAt_isSome_of_fits hdistinct hfits (hmine hf)
  rw [decode_eq (readable_of_fits hinter hfits hshared hnullable) fun f _ =>
    lookup_encode hdistinct _, if_pos hsupplies]
  rfl

/-- **A reader that has more fields**, wherever they stand, reads the record exactly when none of
the fields it has more is needed, and those are then absent. -/
theorem decode_by_newer {null : J} {writer reader : Codec τ V J} {good : τ → V → Prop}
    {nullable : τ → Prop} (hinter : Interoperable null writer reader good nullable)
    {fields mine : List (FieldSpec τ)} (hold : (fields.map FieldSpec.name).Nodup)
    (hdistinct : (mine.map FieldSpec.name).Nodup) (hfields : fields ⊆ mine)
    (hnullable : ∀ f ∈ mine, f.optional = true → ¬ nullable f.type)
    {values : List (Option V)} (hfits : List.Forall₂ (Fits good) fields values) :
    decode null reader mine (encode writer fields values) =
      if ∀ f ∈ mine, f.name ∉ fields.map FieldSpec.name → f.optional = true then
        some (mine.map fun f => valueOf fields values f.name)
      else none := by
  have hshared : ∀ f ∈ mine, ∀ g ∈ fields, g.name = f.name → g.type = f.type :=
    fun f hf g hg hname =>
      congrArg FieldSpec.type (List.inj_on_of_nodup_map hdistinct (hfields hg) hf hname)
  have hsupplies : Supplies (cellAt fields values) mine ↔
      ∀ f ∈ mine, f.name ∉ fields.map FieldSpec.name → f.optional = true := by
    refine forall₂_congr fun f hf => ?_
    by_cases hname : f.name ∈ fields.map FieldSpec.name
    · obtain ⟨g, hg, hgname⟩ := List.mem_map.mp hname
      obtain rfl := List.inj_on_of_nodup_map hdistinct (hfields hg) hf hgname
      exact iff_of_true (cellAt_isSome_of_fits hold hfits hg) fun hnot => absurd hname hnot
    · rw [cellAt_of_not_mem hname]
      simp [hname]
  rw [decode_eq (readable_of_fits hinter hfits hshared hnullable) fun f _ => lookup_encode hold _]
  exact if_congr hsupplies rfl rfl

end RecordCodec
