/-
**Message bodies in Rust and in Swift.**

Every message type that has a body schema becomes a struct in both languages, and a case of the
union of bodies; decoding an envelope selects the struct by the message type.  A type without a
schema is reserved, and decoding it is an error of its own.  Whether the selection has an arm for
every type, and only one, is read off here from how the registry was built.

Swift has no type for free-form JSON, so a schema can fail to be written in Swift; which schemas do
is stated exactly.

Main definitions:

* `Proto.Decoding`, `Proto.BodyTarget`, `Proto.bodyTarget` — the emitted union and its functions;
* `Proto.swiftType` — the type of a field;
* `Proto.SwiftProperty`, `Proto.SwiftStruct`, `Proto.emitSwift` — the emitted structs;
* `Proto.MessageDef.layout` — what a message looks like on the wire.

Main results:

* `Proto.defined_eq_some_iff` — an entry's schema is the message of its name;
* `Proto.bodyTarget_valid_iff` — which bodies compile as far as names go;
* `Proto.body_dispatch` — **every type is decoded with its own schema, or answered as reserved, in
  both languages**;
* `Proto.emitSwift_isOk_iff` — **which loaded schemas have a Swift form**;
* `Proto.body_evolution` — **what two builds make of one another's bodies**.
-/

import Osprey.ProtoTargets
import Osprey.RecordCodec

set_option relaxedAutoImplicit false
set_option autoImplicit false

namespace Osprey.Proto

open EnumTarget Checks

/-! ### The union of bodies -/

/-- What decoding a body does for one message type. -/
inductive Decoding
  | body (struct case : String)
  | deferred
  deriving DecidableEq, Repr

/-- The emitted union of bodies, and the two `match` expressions about it. -/
structure BodyTarget where
  cases : List String
  structs : List String
  messageType : List (Arm String String)
  decode : List (Arm String Decoding)
  otherwise : Option Decoding
  deriving DecidableEq, Repr

/-- The union, given how a language spells a wire name and a struct.  The arm for everything else is
there only when some type is reserved. -/
def bodyTarget (spell : String → String) (structName : MessageDef → String) (schema : Schema) :
    BodyTarget where
  cases := schema.messages.map fun m => spell m.wire
  structs := schema.messages.map structName
  messageType := schema.messages.map fun m => ⟨[spell m.wire], spell m.wire⟩
  decode := schema.messages.map fun m => ⟨[spell m.wire], .body (structName m) (spell m.wire)⟩
  otherwise := if schema.registry.any fun e => e.defined.isNone then some .deferred else none

/-- `emitEnvelope` of the Rust emitter. -/
def rustBodies (casing : Casing) (schema : Schema) : BodyTarget :=
  bodyTarget (pascal casing) MessageDef.rustName schema

/-- `emitEnvelope` of the Swift emitter. -/
def swiftBodies (casing : Casing) (schema : Schema) : BodyTarget :=
  bodyTarget (swiftCase casing) MessageDef.swiftName schema

/-- The body a message type is decoded to. -/
def BodyTarget.decodeBody (t : BodyTarget) (case : String) : Option Decoding :=
  select t.decode t.otherwise case

/-- The message type a body belongs to. -/
def BodyTarget.typeOf (t : BodyTarget) (case : String) : Option String :=
  select t.messageType none case

/-- What decoding is meant to do for an entry. -/
def RegistryEntry.decoding (spell : String → String) (structName : MessageDef → String)
    (e : RegistryEntry) : Decoding :=
  match e.defined with
  | some m => .body (structName m) (spell m.wire)
  | none => .deferred

/-! ### Messages and entries -/

section Messages

variable {casing : Casing} {schema : Schema}

theorem mem_definedIn {messages : List MessageDef} {group : GroupDef} {m : MessageDef} :
    m ∈ definedIn messages group ↔ m ∈ messages ∧ m.group = group.name := by
  simp [definedIn]

/-- Every message has an entry, in the group it names. -/
theorem Schema.Sound.entry_of_message (h : schema.Sound casing) {m : MessageDef}
    (hm : m ∈ schema.messages) :
    ∃ e ∈ schema.registry, e.wire = m.wire ∧ e.group.name = m.group := by
  obtain ⟨g, hg, hname⟩ := h.rules.declared m hm
  have hwire : m.wire ∈ namesOf schema.messages g :=
    List.mem_append_left _ (List.mem_map_of_mem (mem_definedIn.mpr ⟨hm, hname.symm⟩))
  refine ⟨entryOf casing schema.messages g m.wire, ?_, rfl, hname⟩
  rw [h.registry]
  exact (mem_entries casing).mpr ⟨g, hg, m.wire, hwire, rfl⟩

/-- The messages of one group have distinct names. -/
theorem Schema.Sound.definedIn_nodup (h : schema.Sound casing) {g : GroupDef}
    (hg : g ∈ schema.groups) : ((definedIn schema.messages g).map MessageDef.wire).Nodup := by
  have hgroup := (List.nodup_flatMap.mp h.rules.distinct).1 g hg
  exact (List.nodup_append'.mp hgroup).1

/-- **An entry's schema is the message of its name**, and it has one exactly when there is such a
message. -/
theorem defined_eq_some_iff (h : schema.Sound casing) {e : RegistryEntry}
    (he : e ∈ schema.registry) {m : MessageDef} :
    e.defined = some m ↔ m ∈ schema.messages ∧ m.wire = e.wire := by
  obtain ⟨hgroup, -, heq⟩ := h.entry he
  have hdefined : e.defined = (definedIn schema.messages e.group).find? fun m => m.wire == e.wire :=
    (congrArg RegistryEntry.defined heq).trans rfl
  rw [hdefined]
  constructor
  · intro hfind
    exact ⟨(mem_definedIn.mp (List.mem_of_find?_eq_some hfind)).1, by
      simpa using List.find?_some hfind⟩
  · rintro ⟨hm, hwire⟩
    obtain ⟨e', he', hwire', hgroup'⟩ := h.entry_of_message hm
    obtain rfl : e' = e :=
      List.inj_on_of_nodup_map h.wires_nodup he' he (hwire'.trans hwire)
    rw [← hwire]
    exact find?_eq_some_of_nodup (h.definedIn_nodup hgroup)
      (mem_definedIn.mpr ⟨hm, hgroup'.symm⟩)

theorem Schema.Sound.messages_nodup (h : schema.Sound casing) : schema.messages.Nodup := by
  rw [List.nodup_iff_sublist]
  intro m hsub
  have hm : m ∈ schema.messages := hsub.subset List.mem_cons_self
  obtain ⟨g, hg, hname⟩ := h.rules.declared m hm
  have htwice : List.Sublist [m, m] (definedIn schema.messages g) := by
    have hfilter := hsub.filter fun m => m.group == g.name
    simpa [definedIn, hname] using hfilter
  exact List.nodup_iff_sublist.mp (List.Nodup.of_map _ (h.definedIn_nodup hg)) m htwice

/-- No two messages have one wire name. -/
theorem Schema.Sound.message_wires_nodup (h : schema.Sound casing) :
    (schema.messages.map MessageDef.wire).Nodup := by
  refine List.Nodup.map_on ?_ h.messages_nodup
  intro m hm m' hm' hwire
  obtain ⟨e, he, hentry, -⟩ := h.entry_of_message hm
  have hdefined := (defined_eq_some_iff h he).mpr ⟨hm, hentry.symm⟩
  have hdefined' := (defined_eq_some_iff h he).mpr ⟨hm', hwire.symm.trans hentry.symm⟩
  exact Option.some.inj (hdefined.symm.trans hdefined')

/-- Spellings that keep the entries apart keep the messages apart. -/
theorem Schema.Sound.message_spellings_nodup (h : schema.Sound casing) {spell : String → String}
    (hdistinct : (schema.registry.map fun e => spell e.wire).Nodup) :
    (schema.messages.map fun m => spell m.wire).Nodup := by
  refine List.Nodup.map_on ?_ h.messages_nodup
  intro m hm m' hm' hspell
  obtain ⟨e, he, hentry, -⟩ := h.entry_of_message hm
  obtain ⟨e', he', hentry', -⟩ := h.entry_of_message hm'
  have hsame : e = e' := List.inj_on_of_nodup_map hdistinct he he' (by
    simpa [hentry, hentry'] using hspell)
  exact List.inj_on_of_nodup_map h.message_wires_nodup hm hm' (by
    rw [← hentry, ← hentry', hsame])

/-! ### Decoding a body -/

variable {spell : String → String} {structName : MessageDef → String}

/-- Decoding does for an entry what it is meant to do. -/
theorem decodeBody_eq (h : schema.Sound casing)
    (hdistinct : (schema.registry.map fun e => spell e.wire).Nodup) {e : RegistryEntry}
    (he : e ∈ schema.registry) :
    (bodyTarget spell structName schema).decodeBody (spell e.wire)
      = some (e.decoding spell structName) := by
  rw [RegistryEntry.decoding]
  cases hdefined : e.defined with
  | some m =>
      obtain ⟨hm, hwire⟩ := (defined_eq_some_iff h he).mp hdefined
      rw [← hwire]
      exact select_map (h.message_spellings_nodup hdistinct) hm
  | none =>
      have hno : ∀ arm ∈ (bodyTarget spell structName schema).decode,
          spell e.wire ∉ arm.patterns := by
        intro arm harm hin
        obtain ⟨m, hm, rfl⟩ := List.mem_map.mp harm
        obtain ⟨e', he', hentry, -⟩ := h.entry_of_message hm
        have hspell : spell e.wire = spell e'.wire := by
          rw [hentry]
          exact List.mem_singleton.mp hin
        obtain rfl := List.inj_on_of_nodup_map hdistinct he he' hspell
        have hsome := (defined_eq_some_iff h he).mpr ⟨hm, hentry.symm⟩
        rw [hdefined] at hsome
        cases hsome
      have hany : (schema.registry.any fun e => e.defined.isNone) = true :=
        List.any_eq_true.mpr ⟨e, he, by rw [hdefined]; rfl⟩
      rw [BodyTarget.decodeBody, select_of_not_mem hno, bodyTarget, hany]
      rfl

/-- A body goes out under the type it is decoded by. -/
theorem typeOf_eq (h : schema.Sound casing)
    (hdistinct : (schema.registry.map fun e => spell e.wire).Nodup) {m : MessageDef}
    (hm : m ∈ schema.messages) :
    (bodyTarget spell structName schema).typeOf (spell m.wire) = some (spell m.wire) :=
  select_map (h.message_spellings_nodup hdistinct) hm

/-- The arm for everything else is there exactly when some type needs it. -/
theorem otherwise_isSome_iff :
    (bodyTarget spell structName schema).otherwise.isSome = true ↔
      ∃ e ∈ schema.registry, e.defined = none := by
  rw [bodyTarget]
  by_cases h : (schema.registry.any fun e => e.defined.isNone) = true
  · rw [if_pos h]
    simpa using h
  · rw [if_neg h]
    simpa using h

/-- What the compilers ask of the union: no case and no struct is declared twice, and the two
`match` expressions list declared cases only and all of them. -/
structure BodyTarget.Valid (t : BodyTarget) (types : List String) : Prop where
  cases : t.cases.Nodup
  structs : t.structs.Nodup
  messageType : Covers t.cases t.messageType none
  decode : Covers types t.decode t.otherwise

/-- **Which bodies compile as far as names go**: beside what the registry asks for, only the names
of the structs have to be told apart. -/
theorem bodyTarget_valid_iff (h : schema.Sound casing)
    (hdistinct : (schema.registry.map fun e => spell e.wire).Nodup) :
    (bodyTarget spell structName schema).Valid (schema.registry.map fun e => spell e.wire) ↔
      (schema.messages.map structName).Nodup := by
  refine ⟨fun hvalid => hvalid.structs, fun hstructs => ?_⟩
  refine ⟨h.message_spellings_nodup hdistinct, hstructs, ⟨?_, ?_⟩, ⟨?_, ?_⟩⟩
  · intro arm harm case hcase
    obtain ⟨m, hm, rfl⟩ := List.mem_map.mp harm
    rw [List.mem_singleton.mp hcase]
    exact List.mem_map_of_mem hm
  · intro case hcase
    obtain ⟨m, hm, rfl⟩ := List.mem_map.mp hcase
    have hselect : (bodyTarget spell structName schema).typeOf (spell m.wire) = _ :=
      typeOf_eq h hdistinct hm
    rw [BodyTarget.typeOf] at hselect
    rw [hselect]
    rfl
  · intro arm harm case hcase
    obtain ⟨m, hm, rfl⟩ := List.mem_map.mp harm
    obtain ⟨e, he, hwire, -⟩ := h.entry_of_message hm
    rw [List.mem_singleton.mp hcase, ← hwire]
    exact List.mem_map_of_mem he
  · intro case hcase
    obtain ⟨e, he, rfl⟩ := List.mem_map.mp hcase
    have hselect : (bodyTarget spell structName schema).decodeBody (spell e.wire) = _ :=
      decodeBody_eq h hdistinct he
    rw [BodyTarget.decodeBody] at hselect
    rw [hselect]
    rfl

end Messages

/-- **Decoding selects the schema by the type, in both languages alike**: a type with a schema is
decoded to that schema's struct and goes out again under the same type, a reserved type is answered
as reserved, and there is an arm for everything else only where some type is reserved. -/
theorem body_dispatch (casing : Casing) (schema : Schema) (h : schema.Sound casing)
    (hrust : (schema.registry.map fun e => pascal casing e.wire).Nodup)
    (hswift : (schema.registry.map fun e => swiftCase casing e.wire).Nodup) :
    (∀ e ∈ schema.registry,
        (rustBodies casing schema).decodeBody (pascal casing e.wire)
            = some (e.decoding (pascal casing) MessageDef.rustName) ∧
          (swiftBodies casing schema).decodeBody (swiftCase casing e.wire)
            = some (e.decoding (swiftCase casing) MessageDef.swiftName)) ∧
      (∀ m ∈ schema.messages,
        (∃ e ∈ schema.registry, e.wire = m.wire ∧ e.defined = some m) ∧
          (rustBodies casing schema).typeOf (pascal casing m.wire) = some (pascal casing m.wire) ∧
          (swiftBodies casing schema).typeOf (swiftCase casing m.wire)
            = some (swiftCase casing m.wire)) ∧
      ((rustBodies casing schema).otherwise.isSome = true ↔
        ∃ e ∈ schema.registry, e.defined = none) ∧
      ((swiftBodies casing schema).otherwise.isSome = true ↔
        ∃ e ∈ schema.registry, e.defined = none) := by
  refine ⟨fun e he => ⟨decodeBody_eq h hrust he, decodeBody_eq h hswift he⟩, fun m hm => ?_,
    otherwise_isSome_iff, otherwise_isSome_iff⟩
  obtain ⟨e, he, hwire, -⟩ := h.entry_of_message hm
  exact ⟨⟨e, he, hwire, (defined_eq_some_iff h he).mpr ⟨hm, hwire.symm⟩⟩,
    typeOf_eq h hrust hm, typeOf_eq h hswift hm⟩

theorem body_dispatch_small :
    (rustBodies .ascii small).decodeBody "MetricsTick" = some .deferred ∧
      (swiftBodies .ascii small).decodeBody "metricsTick" = some .deferred :=
  have h := (body_dispatch .ascii small small_sound (by decide) (by decide)).1
    ⟨"metrics.tick", ⟨"metrics", "", true, ["metrics.tick"], ["metrics.tick"]⟩, "MetricsTick",
      "metricsTick", true, none⟩ (.tail _ (.head _))
  h

/-! ### The types of fields -/

/-- `SCALAR_MAP`. -/
def scalarMap : List (String × String) :=
  [("string", "String"), ("bool", "Bool"), ("u16", "UInt16"), ("u32", "UInt32"),
   ("u64", "UInt64"), ("i32", "Int32"), ("i64", "Int64"), ("f64", "Double")]

/-- `swiftType`. -/
def swiftType (t : ResolvedType) : Except String String := do
  let base ← match t.kind with
    | .scalar =>
        let name := t.name
        match List.lookup name scalarMap with
        | some mapped => pure mapped
        | none => .error s!"no Swift mapping for scalar `{name}`"
    | .uuid => pure "UUID"
    | .bytes => pure "Data"
    | .messageType => pure t.name
    | .enum => pure t.name
    | .json => .error "the `json` type has no Swift mapping; the envelope body is generic"
  pure (if t.array then "[" ++ base ++ "]" else base)

structure SwiftProperty where
  wire : String
  ident : String
  type : String
  doc : String
  deriving DecidableEq, Repr

structure SwiftStruct where
  name : String
  properties : List SwiftProperty
  deriving DecidableEq, Repr

section Emission

variable (casing : Casing)

/-- `toProperty`. -/
def toProperty (field : FieldDef) : Except String SwiftProperty := do
  let type ← swiftType field.type
  pure
    { wire := field.name
      ident := swiftCase casing field.name
      type := if field.optional then type ++ "?" else type
      doc := field.doc }

/-- The struct of one message. -/
def toStruct (m : MessageDef) : Except String SwiftStruct := do
  let properties ← mapIndexed (fun _ => toProperty casing) 0 m.fields
  pure { name := m.swiftName, properties }

/-- The envelope header: every field but the free-form body, which has to be there. -/
def emitHeader (schema : Schema) : Except String SwiftStruct := do
  require (schema.envelopeFields.any fun f => f.type.kind == .json)
    "envelope has no `json` body field"
  let properties ← mapIndexed (fun _ => toProperty casing) 0
    (schema.envelopeFields.filter fun f => f.type.kind != .json)
  pure { name := "EnvelopeHeader", properties }

/-- The structs of `emitSwift`, in the order in which they are written. -/
def emitSwift (schema : Schema) : Except String (List SwiftStruct) := do
  let bodies ← mapIndexed (fun _ => toStruct casing) 0 schema.messages
  let header ← emitHeader casing schema
  pure (bodies ++ [header])

end Emission

/-! ### Which schemas have a Swift form -/

/-- A name that resolves to a scalar is a scalar's. -/
theorem kindOf_scalar {enumNames : List String} {inner : String}
    (h : kindOf enumNames inner = some .scalar) : inner ∈ scalars := by
  unfold kindOf at h
  split at h
  · assumption
  · repeat' split at h
    all_goals cases h

/-- Every scalar has a Swift type. -/
theorem scalarMap_of_mem {name : String} (h : name ∈ scalars) :
    ∃ mapped, List.lookup name scalarMap = some mapped := by
  simp only [scalars, List.mem_cons, List.not_mem_nil, or_false] at h
  rcases h with rfl | rfl | rfl | rfl | rfl | rfl | rfl | rfl <;> exact ⟨_, rfl⟩

/-- A resolved type has a Swift form exactly when it is not free-form JSON. -/
theorem swiftType_isOk_iff {enumNames : List String} {t : ResolvedType}
    (h : kindOf enumNames t.name = some t.kind) :
    (∃ text, swiftType t = .ok text) ↔ t.kind ≠ .json := by
  unfold swiftType
  cases hkind : t.kind with
  | scalar =>
      obtain ⟨mapped, hmapped⟩ := scalarMap_of_mem (kindOf_scalar (hkind ▸ h))
      simp [hmapped, bind, Except.bind, pure, Except.pure]
  | json => simp [bind, Except.bind]
  | uuid => simp [bind, Except.bind, pure, Except.pure]
  | bytes => simp [bind, Except.bind, pure, Except.pure]
  | messageType => simp [bind, Except.bind, pure, Except.pure]
  | enum => simp [bind, Except.bind, pure, Except.pure]

section Emitted

variable {casing : Casing}

theorem toProperty_isOk_iff {enumNames : List String} {f : FieldDef} (h : f.Sound enumNames) :
    (∃ p, toProperty casing f = .ok p) ↔ f.type.kind ≠ .json := by
  rw [← swiftType_isOk_iff h.resolved]
  simp only [toProperty, bind_eq_ok, pure_eq_ok]
  constructor
  · rintro ⟨_, text, htext, -⟩
    exact ⟨text, htext⟩
  · rintro ⟨text, htext⟩
    exact ⟨_, text, htext, rfl⟩

theorem toStruct_isOk_iff {enumNames : List String} {m : MessageDef}
    (h : ∀ f ∈ m.fields, f.Sound enumNames) :
    (∃ s, toStruct casing m = .ok s) ↔ ∀ f ∈ m.fields, f.type.kind ≠ .json := by
  have hfields : (∃ s, toStruct casing m = .ok s) ↔
      ∃ properties, mapIndexed (fun _ => toProperty casing) 0 m.fields = .ok properties := by
    simp only [toStruct, bind_eq_ok, pure_eq_ok]
    constructor
    · rintro ⟨_, properties, hproperties, -⟩
      exact ⟨properties, hproperties⟩
    · rintro ⟨properties, hproperties⟩
      exact ⟨_, properties, hproperties, rfl⟩
  rw [hfields, mapIndexed_isOk_iff]
  exact forall₂_congr fun f hf => toProperty_isOk_iff (h f hf)

theorem emitHeader_isOk_iff {schema : Schema} (h : schema.Sound casing) :
    (∃ s, emitHeader casing schema = .ok s) ↔
      ∃ f ∈ schema.envelopeFields, f.type.kind = .json := by
  have hothers : ∃ properties, mapIndexed (fun _ => toProperty casing) 0
      (schema.envelopeFields.filter fun f => f.type.kind != .json) = .ok properties := by
    rw [mapIndexed_isOk_iff]
    intro f hf
    obtain ⟨hmem, hkind⟩ := List.mem_filter.mp hf
    exact (toProperty_isOk_iff (h.envelope f hmem)).mpr (by simpa using hkind)
  obtain ⟨properties, hproperties⟩ := hothers
  have hbody : (schema.envelopeFields.any fun f => f.type.kind == .json) = true ↔
      ∃ f ∈ schema.envelopeFields, f.type.kind = .json := by
    simp
  simp only [emitHeader, bind_eq_ok, pure_eq_ok, require_eq_ok, hbody]
  constructor
  · rintro ⟨_, _, hjson, -⟩
    exact hjson
  · intro hjson
    exact ⟨_, (), hjson, properties, hproperties, rfl⟩

/-- **Which loaded schemas have a Swift form**: those whose envelope has a free-form body and whose
messages have no free-form field.  Nothing else that loads can fail to be written. -/
theorem emitSwift_isOk_iff (casing : Casing) (schema : Schema) (h : schema.Sound casing) :
    (∃ structs, emitSwift casing schema = .ok structs) ↔
      (∃ f ∈ schema.envelopeFields, f.type.kind = .json) ∧
        ∀ m ∈ schema.messages, ∀ f ∈ m.fields, f.type.kind ≠ .json := by
  have hbodies : (∃ bodies, mapIndexed (fun _ => toStruct casing) 0 schema.messages = .ok bodies) ↔
      ∀ m ∈ schema.messages, ∀ f ∈ m.fields, f.type.kind ≠ .json := by
    rw [mapIndexed_isOk_iff]
    exact forall₂_congr fun m hm => toStruct_isOk_iff (h.fields m hm)
  rw [← hbodies, ← emitHeader_isOk_iff h]
  simp only [emitSwift, bind_eq_ok, pure_eq_ok]
  constructor
  · rintro ⟨_, bodies, hbodies, header, hheader, -⟩
    exact ⟨⟨header, hheader⟩, bodies, hbodies⟩
  · rintro ⟨⟨header, hheader⟩, bodies, hbodies⟩
    exact ⟨_, bodies, hbodies, header, hheader, rfl⟩

theorem emitSwift_isOk_iff_small : ∃ structs, emitSwift .ascii small = .ok structs :=
  (emitSwift_isOk_iff .ascii small small_sound).mpr ⟨⟨_, List.mem_cons_self, rfl⟩, by decide⟩

end Emitted

/-! ### Bodies on the wire -/

open RecordCodec

/-- The wire form of a field, the same in both languages. -/
def FieldDef.field (f : FieldDef) : FieldSpec ResolvedType := ⟨f.name, f.type, f.optional⟩

/-- The wire form of a message. -/
def MessageDef.layout (m : MessageDef) : List (FieldSpec ResolvedType) :=
  m.fields.map FieldDef.field

/-- A free-form value can be written as null; no other can. -/
def Nullable (t : ResolvedType) : Prop := t.kind = .json

section Wire

variable {V J : Type} [DecidableEq J]

/-- **A message body between two builds.**  `newer` has the fields of `older` and maybe more, in any
order.  Whichever languages the two are in, as long as their codecs understand one another: the
older build reads, by name, what the newer one wrote and ignores what it does not know; the newer
one reads what the older one wrote exactly when everything that only it has may be absent, and finds
it absent; and between builds of one version the body comes back whatever else the object holds and
in whatever order. -/
theorem body_evolution (null : J) (writer reader : Codec ResolvedType V J)
    (good : ResolvedType → V → Prop) (hinter : Interoperable null writer reader good Nullable)
    (older newer : MessageDef) (hkept : older.layout ⊆ newer.layout)
    (holder : (older.layout.map FieldSpec.name).Nodup)
    (hnewer : (newer.layout.map FieldSpec.name).Nodup)
    (hjson : ∀ f ∈ newer.layout, f.optional = true → ¬Nullable f.type) :
    (∀ values, List.Forall₂ (Fits good) newer.layout values →
      decode null reader older.layout (encode writer newer.layout values)
        = some (older.layout.map fun f => valueOf newer.layout values f.name)) ∧
      ∀ values, List.Forall₂ (Fits good) older.layout values →
        decode null reader newer.layout (encode writer older.layout values)
            = (if ∀ f ∈ newer.layout, f.name ∉ older.layout.map FieldSpec.name → f.optional = true
              then some (newer.layout.map fun f => valueOf older.layout values f.name)
              else none) ∧
          (∀ f ∈ newer.layout, f.name ∉ older.layout.map FieldSpec.name →
            valueOf older.layout values f.name = none) ∧
          ∀ object, (∀ f ∈ older.layout,
              List.lookup f.name object = List.lookup f.name (encode writer older.layout values)) →
            decode null reader older.layout object = some values := by
  have hold : ∀ f ∈ older.layout, f.optional = true → ¬Nullable f.type :=
    fun f hf => hjson f (hkept hf)
  refine ⟨fun values hfits => decode_by_older hinter hnewer hkept hold hfits,
    fun values hfits => ⟨decode_by_newer hinter holder hnewer hkept hjson hfits, ?_, ?_⟩⟩
  · exact fun f _ hnot => valueOf_of_not_mem hnot
  · exact fun object hobject => decode_same hinter holder hold hfits hobject

end Wire

/-- Numbers, written as they are; nothing is written as null. -/
def plainCodec : Codec ResolvedType ℕ (Option ℕ) where
  enc _ v := some v
  dec _ j := j

/-- A field that may be absent is put before the one that was there. -/
theorem body_evolution_small :
    decode none plainCodec
        [⟨"load", ⟨.scalar, "u32", false⟩, true⟩, ⟨"uptime", ⟨.scalar, "u32", false⟩, false⟩]
        (encode plainCodec [⟨"uptime", ⟨.scalar, "u32", false⟩, false⟩] [some 7])
      = some [none, some 7] :=
  ((body_evolution none plainCodec plainCodec (fun _ _ => True)
    ⟨fun _ _ _ => rfl, by simp [plainCodec]⟩
    ⟨"status", "core", "StatusBody", "StatusBody", "",
      [⟨"uptime", ⟨.scalar, "u32", false⟩, false, ""⟩]⟩
    ⟨"status", "core", "StatusBody", "StatusBody", "",
      [⟨"load", ⟨.scalar, "u32", false⟩, true, ""⟩, ⟨"uptime", ⟨.scalar, "u32", false⟩, false, ""⟩]⟩
    (by decide) (by decide) (by decide) (by simp [MessageDef.layout, FieldDef.field, Nullable])).2
    [some 7] (.cons trivial .nil)).1

end Osprey.Proto
