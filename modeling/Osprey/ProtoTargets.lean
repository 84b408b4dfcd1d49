/-
**The registry and the value enums in Rust and in Swift.**

Both languages get the same enumeration of message types, each under its own spelling: the cases
with their wire names, the capability a type needs, the channel it travels on, and the type of its
body.  The emitted functions are `match` expressions over the spelled cases; what they compute
depends on the spellings only through which of them coincide.

What the compilers check of the names is stated on its own (`RegistryTarget.Valid`), so that it can
be told for which schemas the output compiles as far as names go, and what it computes when it does.

Swift compares strings up to canonical equivalence, and the model compares them by code points.  The
two agree on wire names made of `a`–`z`, digits and separators: such a name is equivalent to no
other text.

Main definitions:

* `Proto.Channel`, `Proto.RegistryTarget`, `Proto.RustRegistry` — the emitted registry;
* `Proto.rustRegistry`, `Proto.swiftRegistry` — what the two emitters write;
* `Proto.Schema.lookup` — what the schema itself says of a wire name;
* `Proto.openCases` — an emitted open enum.

Main results:

* `Proto.registryTarget_valid_iff` — **the emitted registry is valid exactly when no two spellings
  coincide**;
* `Proto.targets_valid_iff_words` — for plain names that is the same condition in both languages;
* `Proto.rust_registry_roundTrip` — reading and writing message types in Rust;
* `Proto.registry_agree` — **both languages say of every text what the schema says**;
* `Proto.openEnum_relay` — a value keeps its text through a peer that does not know it.
-/

import Osprey.ProtoRegistry
import Osprey.EnumTarget

set_option relaxedAutoImplicit false
set_option autoImplicit false

namespace Osprey.Proto

open EnumTarget

variable (casing : Casing)

/-! ### The emitted registry -/

/-- Which data channel a message must travel on. -/
inductive Channel
  | reliable
  | unreliable
  deriving DecidableEq, Repr

/-- The parts of the emitted registry that both languages have. -/
structure RegistryTarget where
  cases : Spelled String
  capability : List (Arm String (Option String))
  channel : List (Arm String Channel)
  channelOtherwise : Option Channel
  deriving DecidableEq, Repr

/-- `schema.registry.filter((e) => e.group.name === group.name)`. -/
def members (schema : Schema) (group : GroupDef) : List RegistryEntry :=
  schema.registry.filter fun e => e.group.name == group.name

/-- The arm of one group, unless it has no members. -/
def capabilityArm (caseName : RegistryEntry → String) (capabilityName : GroupDef → String)
    (schema : Schema) (group : GroupDef) : Option (Arm String (Option String)) :=
  if members schema group = [] then none
  else some
    { patterns := (members schema group).map caseName
      value := if group.capability then some (capabilityName group) else none }

/-- The entries that may be dropped on the way. -/
def unreliableEntries (schema : Schema) : List RegistryEntry :=
  schema.registry.filter RegistryEntry.unreliable

/-- The emitted registry, given how a language spells an entry and a capability. -/
def registryTarget (caseName : RegistryEntry → String) (capabilityName : GroupDef → String)
    (schema : Schema) : RegistryTarget where
  cases := schema.registry.map fun e => (caseName e, e.wire)
  capability := schema.groups.filterMap (capabilityArm caseName capabilityName schema)
  channel :=
    if unreliableEntries schema = [] then []
    else [⟨(unreliableEntries schema).map caseName, .unreliable⟩]
  channelOtherwise := some .reliable

/-- The Rust registry also lists its variants and writes the wire spelling as a `match`. -/
structure RustRegistry extends RegistryTarget where
  all : List String
  asStr : List (Arm String String)
  deriving DecidableEq, Repr

/-- Rust's spelling of a capability. -/
def rustCapability (group : GroupDef) : String := pascal casing group.name

/-- `emitRegistry` of the Rust emitter. -/
def rustRegistry (schema : Schema) : RustRegistry where
  toRegistryTarget := registryTarget RegistryEntry.rustVariant (rustCapability casing) schema
  all := schema.registry.map RegistryEntry.rustVariant
  asStr := schema.registry.map fun e => ⟨[e.rustVariant], e.wire⟩

/-- Swift case spelling for a wire name, backticked when it is a keyword. -/
def swiftCase (wire : String) : String := swiftIdent (camel casing wire)

/-- Swift's spelling of an entry. -/
def swiftEntry (e : RegistryEntry) : String := swiftIdent e.swiftCase

/-- Swift's spelling of a capability. -/
def swiftCapability (group : GroupDef) : String := swiftCase casing group.name

/-- `emitMessageType` of the Swift emitter. -/
def swiftRegistry (schema : Schema) : RegistryTarget :=
  registryTarget swiftEntry (swiftCapability casing) schema

/-! ### What it computes -/

/-- `capability()`: nothing when no arm lists the case, else the capability named, if any. -/
def RegistryTarget.capabilityOf (t : RegistryTarget) (case : String) : Option (Option String) :=
  select t.capability none case

def RegistryTarget.channelOf (t : RegistryTarget) (case : String) : Option Channel :=
  select t.channel t.channelOtherwise case

/-- `as_str`. -/
def RustRegistry.asStrOf (r : RustRegistry) (case : String) : Option String :=
  select r.asStr none case

/-- `from_str`: the first of `ALL` whose `as_str` is the text. -/
def RustRegistry.fromStr (r : RustRegistry) (value : String) : Option String :=
  r.all.find? fun candidate => r.asStrOf candidate == some value

/-- The cases of an emitted open enum. -/
def openCases (caseName : String → String) (values : List EnumValueDef) : Spelled String :=
  values.map fun v => (caseName v.wire, v.wire)

/-- The values of the synthesised `Capability` enum. -/
def capabilityValues (schema : Schema) : List EnumValueDef :=
  schema.capabilities.map fun g => ⟨g.name, g.doc⟩

/-- What a peer reads off a wire name: the wire name of the capability it needs, and its channel. -/
def RegistryTarget.view (t : RegistryTarget) (capabilities : Spelled String) (wire : String) :
    Option (Option String × Channel) := do
  let case ← caseOf t.cases wire
  let capability ← t.capabilityOf case
  let channel ← t.channelOf case
  match capability with
  | none => some (none, channel)
  | some name => do
      let spelling ← wireOf capabilities (.declared name)
      some (some spelling, channel)

/-! ### What the compilers ask of the names -/

/-- No case is declared twice, every arm lists declared cases, every `match` is exhaustive, and a
capability that is named is declared. -/
structure RegistryTarget.Valid (t : RegistryTarget) (capabilities : List String) : Prop where
  distinct : (t.cases.map Prod.fst).Nodup
  capability : Covers (t.cases.map Prod.fst) t.capability none
  channel : Covers (t.cases.map Prod.fst) t.channel t.channelOtherwise
  declared : ∀ arm ∈ t.capability, ∀ name ∈ arm.value, name ∈ capabilities

/-! ### What the schema says -/

/-- The group that decides about an entry's capability: the first declared under the name. -/
def Schema.decider (schema : Schema) (e : RegistryEntry) : Option GroupDef :=
  schema.groups.find? fun g => g.name == e.group.name

def RegistryEntry.channel (e : RegistryEntry) : Channel :=
  if e.unreliable then .unreliable else .reliable

/-- What the schema says of a wire name. -/
def Schema.lookup (schema : Schema) (wire : String) : Option (Option String × Channel) := do
  let e ← schema.registry.find? fun e => e.wire == wire
  let g ← schema.decider e
  some (if g.capability then some g.name else none, e.channel)

/-! ### Entries of a sound schema -/

theorem mem_entries {groups : List GroupDef} {messages : List MessageDef} {e : RegistryEntry} :
    e ∈ entries casing groups messages ↔
      ∃ g ∈ groups, ∃ wire ∈ namesOf messages g, entryOf casing messages g wire = e := by
  simp [entries, groupEntries]

theorem entries_wires (groups : List GroupDef) (messages : List MessageDef) :
    (entries casing groups messages).map RegistryEntry.wire = wires groups messages := by
  rw [entries, wires, List.map_flatMap]
  congr 1
  funext g
  rw [groupEntries, List.map_map]
  exact List.map_id _

variable {casing} {schema : Schema}

theorem Schema.Sound.registry_wires (h : schema.Sound casing) :
    schema.registry.map RegistryEntry.wire = wires schema.groups schema.messages := by
  rw [h.registry, entries_wires]

theorem Schema.Sound.wires_nodup (h : schema.Sound casing) :
    (schema.registry.map RegistryEntry.wire).Nodup := by
  rw [h.registry_wires]
  exact h.rules.distinct

/-- Where an entry comes from. -/
theorem Schema.Sound.entry (h : schema.Sound casing) {e : RegistryEntry}
    (he : e ∈ schema.registry) :
    e.group ∈ schema.groups ∧ e.wire ∈ namesOf schema.messages e.group ∧
      e = entryOf casing schema.messages e.group e.wire := by
  rw [h.registry] at he
  obtain ⟨g, hg, wire, hwire, rfl⟩ := (mem_entries casing).mp he
  exact ⟨hg, hwire, rfl⟩

theorem Schema.Sound.rustVariant_eq (h : schema.Sound casing) {e : RegistryEntry}
    (he : e ∈ schema.registry) : e.rustVariant = pascal casing e.wire :=
  (congrArg RegistryEntry.rustVariant (h.entry he).2.2).trans rfl

theorem Schema.Sound.swiftCase_eq (h : schema.Sound casing) {e : RegistryEntry}
    (he : e ∈ schema.registry) : e.swiftCase = camel casing e.wire :=
  (congrArg RegistryEntry.swiftCase (h.entry he).2.2).trans rfl

/-- The group that decides about an entry is there. -/
theorem Schema.Sound.decider_isSome (h : schema.Sound casing) {e : RegistryEntry}
    (he : e ∈ schema.registry) : (schema.decider e).isSome = true := by
  rw [Schema.decider, List.find?_isSome]
  exact ⟨e.group, (h.entry he).1, by simp⟩

/-! ### The emitted matches, case by case -/

section Emitted

variable {caseName : RegistryEntry → String} {capabilityName : GroupDef → String}

/-- Where the spellings are distinct, a spelled list lists exactly the entries it was made from. -/
theorem mem_map_caseName_iff (hdistinct : (schema.registry.map caseName).Nodup)
    {sub : List RegistryEntry} (hsub : sub ⊆ schema.registry) {e : RegistryEntry}
    (he : e ∈ schema.registry) : caseName e ∈ sub.map caseName ↔ e ∈ sub := by
  constructor
  · intro h
    obtain ⟨e', he', heq⟩ := List.mem_map.mp h
    rwa [← List.inj_on_of_nodup_map hdistinct (hsub he') he heq]
  · exact fun h => List.mem_map_of_mem h

theorem mem_members {group : GroupDef} {e : RegistryEntry} :
    e ∈ members schema group ↔ e ∈ schema.registry ∧ e.group.name = group.name := by
  simp [members]

theorem members_subset (group : GroupDef) : members schema group ⊆ schema.registry :=
  List.filter_subset_self _

theorem unreliableEntries_subset : unreliableEntries schema ⊆ schema.registry :=
  List.filter_subset_self _

/-- The `match` on the capability finds the first group under the entry's group name. -/
theorem select_capability (hdistinct : (schema.registry.map caseName).Nodup) {e : RegistryEntry}
    (he : e ∈ schema.registry) (groups : List GroupDef) :
    select (groups.filterMap (capabilityArm caseName capabilityName schema)) none (caseName e)
      = (groups.find? fun g => g.name == e.group.name).map
          fun g => if g.capability then some (capabilityName g) else none := by
  induction groups with
  | nil => rfl
  | cons g groups ih =>
      by_cases hname : g.name = e.group.name
      · have hmem : e ∈ members schema g := mem_members.mpr ⟨he, hname.symm⟩
        have hne : members schema g ≠ [] := List.ne_nil_of_mem hmem
        rw [List.filterMap_cons_some (b := ⟨(members schema g).map caseName,
          if g.capability then some (capabilityName g) else none⟩) (by simp [capabilityArm, hne])]
        have hfound : caseName e ∈ (members schema g).map caseName := List.mem_map_of_mem hmem
        simp [select, hname, hfound]
      · have hnot : e ∉ members schema g := fun hmem => hname (mem_members.mp hmem).2.symm
        rw [List.find?_cons_of_neg (by simpa using hname), ← ih]
        by_cases hempty : members schema g = []
        · rw [List.filterMap_cons_none (by simp [capabilityArm, hempty])]
        · rw [List.filterMap_cons_some (b := ⟨(members schema g).map caseName,
            if g.capability then some (capabilityName g) else none⟩)
            (by simp [capabilityArm, hempty])]
          have hskip : caseName e ∉ (members schema g).map caseName := fun hin =>
            hnot ((mem_map_caseName_iff hdistinct (members_subset g) he).mp hin)
          simp only [select, hskip, decide_false, Bool.false_eq_true, not_false_eq_true,
            List.find?_cons_of_neg]

theorem capabilityOf_caseName (hdistinct : (schema.registry.map caseName).Nodup)
    {e : RegistryEntry} (he : e ∈ schema.registry) :
    (registryTarget caseName capabilityName schema).capabilityOf (caseName e)
      = (schema.decider e).map fun g => if g.capability then some (capabilityName g) else none :=
  select_capability hdistinct he schema.groups

theorem mem_unreliableEntries {e : RegistryEntry} :
    e ∈ unreliableEntries schema ↔ e ∈ schema.registry ∧ e.unreliable = true := by
  simp [unreliableEntries]

theorem channelOf_caseName (hdistinct : (schema.registry.map caseName).Nodup)
    {e : RegistryEntry} (he : e ∈ schema.registry) :
    (registryTarget caseName capabilityName schema).channelOf (caseName e) = some e.channel := by
  have hlisted : caseName e ∈ (unreliableEntries schema).map caseName ↔ e.unreliable = true := by
    rw [mem_map_caseName_iff hdistinct unreliableEntries_subset he, mem_unreliableEntries]
    exact and_iff_right he
  simp only [RegistryTarget.channelOf, registryTarget, RegistryEntry.channel]
  by_cases hempty : unreliableEntries schema = []
  · have hno : e.unreliable = false := by
      rw [hempty] at hlisted
      simpa using hlisted
    simp [hempty, hno, select]
  · rw [if_neg hempty]
    by_cases hun : e.unreliable = true
    · simp [select, hun, hlisted.mpr hun]
    · have hno : ∀ arm ∈ [(⟨(unreliableEntries schema).map caseName, .unreliable⟩ :
          Arm String Channel)], caseName e ∉ arm.patterns := by
        intro arm harm
        obtain rfl := List.mem_singleton.mp harm
        exact fun hin => hun (hlisted.mp hin)
      rw [select_of_not_mem hno]
      simp [hun]

end Emitted

/-! ### Which schemas give valid names -/

theorem registryTarget_cases (caseName : RegistryEntry → String)
    (capabilityName : GroupDef → String) (schema : Schema) :
    (registryTarget caseName capabilityName schema).cases.map Prod.fst
      = schema.registry.map caseName := by
  simp [registryTarget, Function.comp_def]

/-- **The emitted registry is valid exactly when no two spellings coincide.**  That every `match` is
exhaustive and names only what is declared comes from the schema. -/
theorem registryTarget_valid_iff (h : schema.Sound casing) (caseName : RegistryEntry → String)
    (capabilityName : GroupDef → String) :
    (registryTarget caseName capabilityName schema).Valid (schema.capabilities.map capabilityName)
      ↔ (schema.registry.map caseName).Nodup := by
  rw [← registryTarget_cases caseName capabilityName schema]
  refine ⟨fun hvalid => hvalid.distinct, fun hdistinct => ?_⟩
  have hnames : (schema.registry.map caseName).Nodup :=
    registryTarget_cases caseName capabilityName schema ▸ hdistinct
  refine ⟨hdistinct, ⟨?_, ?_⟩, ⟨?_, ?_⟩, ?_⟩
  · intro arm harm case hcase
    obtain ⟨g, -, hg⟩ := List.mem_filterMap.mp harm
    rw [capabilityArm] at hg
    split at hg
    · cases hg
    · cases hg
      rw [registryTarget_cases]
      exact List.map_subset _ (members_subset g) hcase
  · rw [registryTarget_cases]
    intro case hcase
    obtain ⟨e, he, rfl⟩ := List.mem_map.mp hcase
    have hselect : (registryTarget caseName capabilityName schema).capabilityOf (caseName e) = _ :=
      capabilityOf_caseName hnames he
    rw [RegistryTarget.capabilityOf] at hselect
    rw [hselect, Option.isSome_map]
    exact h.decider_isSome he
  · intro arm harm case hcase
    rw [registryTarget] at harm
    split at harm
    · cases harm
    · obtain rfl := List.mem_singleton.mp harm
      rw [registryTarget_cases]
      exact List.map_subset _ unreliableEntries_subset hcase
  · rw [registryTarget_cases]
    intro case hcase
    obtain ⟨e, he, rfl⟩ := List.mem_map.mp hcase
    have hselect : (registryTarget caseName capabilityName schema).channelOf (caseName e) = _ :=
      channelOf_caseName hnames he
    rw [RegistryTarget.channelOf] at hselect
    rw [hselect]
    rfl
  · intro arm harm name hname
    obtain ⟨g, hg, harm⟩ := List.mem_filterMap.mp harm
    rw [capabilityArm] at harm
    split at harm
    · cases harm
    · cases harm
      by_cases hcap : g.capability = true
      · obtain rfl : capabilityName g = name := by simpa [hcap] using hname
        refine List.mem_map_of_mem ?_
        rw [h.capabilities]
        exact List.mem_filter.mpr ⟨hg, hcap⟩
      · simp [hcap] at hname

/-- Spellings that identify the same items give duplicates at the same time. -/
theorem nodup_map_iff {α β γ : Type} {f : α → β} {g : α → γ} {items : List α}
    (hfg : ∀ a ∈ items, ∀ b ∈ items, (f a = f b ↔ g a = g b)) :
    (items.map f).Nodup ↔ (items.map g).Nodup := by
  rw [List.Nodup, List.Nodup, List.pairwise_map, List.pairwise_map]
  exact List.Pairwise.iff_of_mem fun ha hb => not_congr (hfg _ ha _ hb)

/-- On plain names the Swift spelling keeps apart what has different pieces. -/
theorem swiftCase_eq_iff {wire wire' : String} (h : Plain wire) (h' : Plain wire') :
    swiftCase casing wire = swiftCase casing wire' ↔ words wire = words wire' := by
  rw [swiftCase, swiftCase, swiftIdent_inj (camel_head_ne casing h) (camel_head_ne casing h')]
  exact camel_eq_iff casing h h'

/-- **For plain names both languages accept the same schemas**: those in which no two wire names
have the same pieces. -/
theorem targets_valid_iff_words (casing : Casing) (schema : Schema) (h : schema.Sound casing)
    (hplain : ∀ e ∈ schema.registry, Plain e.wire) :
    ((rustRegistry casing schema).Valid (schema.capabilities.map (rustCapability casing)) ↔
        (schema.registry.map fun e => words e.wire).Nodup) ∧
      ((swiftRegistry casing schema).Valid (schema.capabilities.map (swiftCapability casing)) ↔
        (schema.registry.map fun e => words e.wire).Nodup) := by
  constructor
  · refine (registryTarget_valid_iff h _ _).trans (nodup_map_iff fun e he e' he' => ?_)
    rw [h.rustVariant_eq he, h.rustVariant_eq he']
    exact pascal_eq_iff casing (hplain e he) (hplain e' he')
  · refine (registryTarget_valid_iff h _ _).trans (nodup_map_iff fun e he e' he' => ?_)
    rw [swiftEntry, swiftEntry, h.swiftCase_eq he, h.swiftCase_eq he']
    exact swiftCase_eq_iff (hplain e he) (hplain e' he')

theorem targets_valid_iff_words_small :
    (rustRegistry .ascii small).Valid (small.capabilities.map (rustCapability .ascii)) ∧
      (swiftRegistry .ascii small).Valid (small.capabilities.map (swiftCapability .ascii)) :=
  have h := targets_valid_iff_words .ascii small small_sound (by decide)
  ⟨h.1.mpr (by decide), h.2.mpr (by decide)⟩

/-! ### Reading and writing message types -/

/-- A text is read as the spelling of the entry with that wire name. -/
theorem caseOf_registry (caseName : RegistryEntry → String) (capabilityName : GroupDef → String)
    (schema : Schema) (text : String) :
    caseOf (registryTarget caseName capabilityName schema).cases text
      = (schema.registry.find? fun e => e.wire == text).map caseName := by
  simp [registryTarget, caseOf, List.find?_map, Function.comp_def]

theorem asStrOf_rustVariant (hdistinct : (schema.registry.map RegistryEntry.rustVariant).Nodup)
    {e : RegistryEntry} (he : e ∈ schema.registry) :
    (rustRegistry casing schema).asStrOf e.rustVariant = some e.wire :=
  select_map hdistinct he

/-- `from_str` and the derived deserialiser read the same. -/
theorem fromStr_eq_caseOf (hdistinct : (schema.registry.map RegistryEntry.rustVariant).Nodup)
    (text : String) :
    (rustRegistry casing schema).fromStr text = caseOf (rustRegistry casing schema).cases text := by
  have hread : caseOf (rustRegistry casing schema).cases text
      = (schema.registry.find? fun e => e.wire == text).map RegistryEntry.rustVariant :=
    caseOf_registry _ _ schema text
  rw [hread, RustRegistry.fromStr]
  show (schema.registry.map RegistryEntry.rustVariant).find? _ = _
  rw [List.find?_map]
  congr 1
  refine List.find?_congr fun e he => ?_
  rw [Function.comp_apply, asStrOf_rustVariant hdistinct he]
  simp

/-- **Message types in Rust.**  Where the variants are distinct, `from_str` and the derived
deserialiser agree, they read exactly the registered wire names, and reading and writing are inverse
to one another. -/
theorem rust_registry_roundTrip (casing : Casing) (schema : Schema) (h : schema.Sound casing)
    (hdistinct : (schema.registry.map RegistryEntry.rustVariant).Nodup) :
    (∀ text, (rustRegistry casing schema).fromStr text
        = caseOf (rustRegistry casing schema).cases text) ∧
      (∀ text, (rustRegistry casing schema).fromStr text = none ↔
        text ∉ wires schema.groups schema.messages) ∧
      (∀ text variant, (rustRegistry casing schema).fromStr text = some variant →
        (rustRegistry casing schema).asStrOf variant = some text) ∧
      ∀ e ∈ schema.registry,
        (rustRegistry casing schema).asStrOf e.rustVariant = some e.wire ∧
          (rustRegistry casing schema).fromStr e.wire = some e.rustVariant := by
  have hread : ∀ text, caseOf (rustRegistry casing schema).cases text
      = (schema.registry.find? fun e => e.wire == text).map RegistryEntry.rustVariant :=
    caseOf_registry _ _ schema
  refine ⟨fromStr_eq_caseOf hdistinct, fun text => ?_, fun text variant hvariant => ?_,
    fun e he => ⟨asStrOf_rustVariant hdistinct he, ?_⟩⟩
  · rw [fromStr_eq_caseOf hdistinct, hread, ← h.registry_wires]
    simp
  · rw [fromStr_eq_caseOf hdistinct, hread, Option.map_eq_some_iff] at hvariant
    obtain ⟨e, hfind, rfl⟩ := hvariant
    have htext : e.wire = text := by simpa using List.find?_some hfind
    rw [asStrOf_rustVariant hdistinct (List.mem_of_find?_eq_some hfind), htext]
  · rw [fromStr_eq_caseOf hdistinct, hread, find?_eq_some_of_nodup h.wires_nodup he]
    rfl

theorem rust_registry_roundTrip_small :
    (rustRegistry .ascii small).fromStr "metrics.tick" = some "MetricsTick" ∧
      (rustRegistry .ascii small).asStrOf "MetricsTick" = some "metrics.tick" :=
  have h := (rust_registry_roundTrip .ascii small small_sound (by decide)).2.2.2
    ⟨"metrics.tick", ⟨"metrics", "", true, ["metrics.tick"], ["metrics.tick"]⟩, "MetricsTick",
      "metricsTick", true, none⟩ (.tail _ (.head _))
  ⟨h.2, h.1⟩

/-! ### Both languages say the same -/

/-- A declared capability is written under its wire name. -/
theorem wireOf_capability (h : schema.Sound casing) {spell : String → String}
    (hdistinct : ((openCases spell (capabilityValues schema)).map Prod.fst).Nodup) {g : GroupDef}
    (hg : g ∈ schema.groups) (hcap : g.capability = true) :
    wireOf (openCases spell (capabilityValues schema)) (.declared (spell g.name))
      = some g.name := by
  have hmem : (spell g.name, g.name) ∈ openCases spell (capabilityValues schema) := by
    refine List.mem_map.mpr ⟨⟨g.name, g.doc⟩, ?_, rfl⟩
    refine List.mem_map.mpr ⟨g, ?_, rfl⟩
    rw [h.capabilities]
    exact List.mem_filter.mpr ⟨hg, hcap⟩
  exact spellingOf_of_mem hdistinct hmem

/-- What a peer reads off a wire name is what the schema says of it. -/
theorem view_eq_lookup (h : schema.Sound casing) {caseName : RegistryEntry → String}
    {spell : String → String} (hnames : (schema.registry.map caseName).Nodup)
    (hcapabilities : ((openCases spell (capabilityValues schema)).map Prod.fst).Nodup)
    (wire : String) :
    (registryTarget caseName (fun g => spell g.name) schema).view
        (openCases spell (capabilityValues schema)) wire = schema.lookup wire := by
  rw [RegistryTarget.view, Schema.lookup, caseOf_registry]
  cases hfind : schema.registry.find? fun e => e.wire == wire with
  | none => rfl
  | some e =>
      have he := List.mem_of_find?_eq_some hfind
      obtain ⟨g, hg⟩ := Option.isSome_iff_exists.mp (h.decider_isSome he)
      have hgroup : g ∈ schema.groups := List.mem_of_find?_eq_some hg
      simp only [Option.map_some, Option.bind_eq_bind, Option.bind_some,
        capabilityOf_caseName hnames he, channelOf_caseName hnames he, hg]
      by_cases hcap : g.capability = true
      · simp only [hcap, if_true, wireOf_capability h hcapabilities hgroup hcap, Option.bind_some]
      · simp only [hcap, if_false, Bool.false_eq_true]

/-- **The two languages agree with the schema, and so with each other**: of every text, known or
not, both read the same capability and the same channel. -/
theorem registry_agree (casing : Casing) (schema : Schema) (h : schema.Sound casing)
    (hrust : (schema.registry.map RegistryEntry.rustVariant).Nodup)
    (hswift : (schema.registry.map swiftEntry).Nodup)
    (hrustCapability :
      ((openCases (pascal casing) (capabilityValues schema)).map Prod.fst).Nodup)
    (hswiftCapability :
      ((openCases (swiftCase casing) (capabilityValues schema)).map Prod.fst).Nodup)
    (wire : String) :
    (rustRegistry casing schema).view (openCases (pascal casing) (capabilityValues schema)) wire
        = schema.lookup wire ∧
      (swiftRegistry casing schema).view
        (openCases (swiftCase casing) (capabilityValues schema)) wire = schema.lookup wire :=
  ⟨view_eq_lookup h hrust hrustCapability wire, view_eq_lookup h hswift hswiftCapability wire⟩

theorem registry_agree_small :
    (rustRegistry .ascii small).view (openCases (pascal .ascii) (capabilityValues small))
        "metrics.tick" = some (some "metrics", .unreliable) ∧
      (swiftRegistry .ascii small).view (openCases (swiftCase .ascii) (capabilityValues small))
        "metrics.tick" = some (some "metrics", .unreliable) :=
  have h := registry_agree .ascii small small_sound (by decide) (by decide) (by decide) (by decide)
    "metrics.tick"
  have hlookup : small.lookup "metrics.tick" = some (some "metrics", .unreliable) := by decide
  ⟨h.1.trans hlookup, h.2.trans hlookup⟩

/-! ### Open enums across versions -/

theorem openCases_wires (caseName : String → String) (values : List EnumValueDef) :
    (openCases caseName values).map Prod.snd = values.map EnumValueDef.wire := by
  simp [openCases, Function.comp_def]

/-- One build's version of an open enum: how it spells the cases, and the values it knows. -/
structure EnumBuild where
  caseName : String → String
  values : List EnumValueDef

def EnumBuild.cases (build : EnumBuild) : Spelled String := openCases build.caseName build.values

/-- **An open enum across versions.**  A value goes out from one build, through any chain of builds
that know other values, and back: a declared value comes back as it was, and so does an unknown text
unless it is one the first build knows after all. -/
theorem openEnum_relay (mine : EnumBuild) (peers : List EnumBuild)
    (hpeers : ∀ peer ∈ peers, (peer.cases.map Prod.fst).Nodup)
    (hwires : (mine.values.map EnumValueDef.wire).Nodup) (value : OpenValue String) (raw : String)
    (hraw : wireOf mine.cases value = some raw) :
    (relayThrough (peers.map EnumBuild.cases) raw).map (ofWire mine.cases) = some value ↔
      ∀ text, value = .unknown text → text ∉ mine.values.map EnumValueDef.wire := by
  have hcases : ∀ cases ∈ peers.map EnumBuild.cases, (cases.map Prod.fst).Nodup := by
    intro cases hmem
    obtain ⟨peer, hpeer, rfl⟩ := List.mem_map.mp hmem
    exact hpeers peer hpeer
  have hspelled : mine.cases.map Prod.snd = mine.values.map EnumValueDef.wire :=
    openCases_wires _ _
  rw [relayThrough_eq hcases, Option.map_some, Option.some_inj,
    ofWire_wireOf_iff (hspelled ▸ hwires) hraw, hspelled]
  cases value with
  | declared case => simp
  | unknown text => simp

/-- A Swift build that knows one platform more than the Rust build in between. -/
theorem openEnum_relay_small :
    (relayThrough [(⟨pascal .ascii, [⟨"windows", ""⟩]⟩ : EnumBuild).cases] "linux").map
        (ofWire (⟨swiftCase .ascii, [⟨"windows", ""⟩, ⟨"linux", ""⟩]⟩ : EnumBuild).cases)
      = some (.declared "linux") :=
  (openEnum_relay ⟨swiftCase .ascii, [⟨"windows", ""⟩, ⟨"linux", ""⟩]⟩
    [⟨pascal .ascii, [⟨"windows", ""⟩]⟩] (by decide) (by decide) (.declared "linux") "linux"
    (by decide)).mpr (fun _ h => by cases h)

end Osprey.Proto
