/-
**What the registry of message types makes sure of.**

The registry is built group by group, name by name, with a set of the names seen so far, and the
first thing that is wrong stops it.  Here the loop is replaced by what it comes to: it succeeds
exactly when four conditions hold of the groups and messages together, its result is then the
concatenation of the groups' entries in the order of the file, and when it fails the text names one
of the things that is wrong.

Main definitions:

* `Proto.wires`, `Proto.entries` — the names and the entries of all groups, in order;
* `Proto.RegistryRules` — the four conditions;
* `Proto.Offence` — a message text, with what is wrong when it is the answer;
* `Proto.Schema.Sound` — what the emitters rely on.

Main results:

* `Proto.buildRegistry_eq_ok_iff` — **success is exactly the four conditions**;
* `Proto.buildRegistry_offence` — **failure names an offender**;
* `Proto.loadSchema_sound` — **a loaded schema is sound**.
-/

import Osprey.ProtoSchema

set_option relaxedAutoImplicit false
set_option autoImplicit false

namespace Osprey.Proto

open Checks

variable (casing : Casing)

/-! ### The conditions -/

/-- Every name, in registry order. -/
def wires (groups : List GroupDef) (messages : List MessageDef) : List String :=
  groups.flatMap (namesOf messages)

/-- The entries of one group. -/
def groupEntries (messages : List MessageDef) (group : GroupDef) : List RegistryEntry :=
  (namesOf messages group).map (entryOf casing messages group)

/-- The entries of every group. -/
def entries (groups : List GroupDef) (messages : List MessageDef) : List RegistryEntry :=
  groups.flatMap (groupEntries casing messages)

/-- What has to hold of the groups and messages. -/
structure RegistryRules (groups : List GroupDef) (messages : List MessageDef) : Prop where
  declared : ∀ m ∈ messages, ∃ g ∈ groups, g.name = m.group
  unreliable : ∀ g ∈ groups, ∀ un ∈ g.unreliable, un ∈ namesOf messages g
  distinct : (wires groups messages).Nodup
  spelled : ∀ wire ∈ wires groups messages, isRustKeyword (pascal casing wire) = false

/-- The text of an error, together with what is wrong. -/
inductive Offence (groups : List GroupDef) (messages : List MessageDef) : String → Prop
  | undeclared (m : MessageDef) (groupName : String) (hm : m ∈ messages)
      (hname : m.group = groupName) (hno : ∀ g ∈ groups, g.name ≠ groupName) :
      Offence groups messages s!"message group `{groupName}` is not declared in [[groups]]"
  | unreliable (g : GroupDef) (name un : String) (hg : g ∈ groups) (hname : g.name = name)
      (hun : un ∈ g.unreliable) (hno : un ∉ namesOf messages g) :
      Offence groups messages s!"group `{name}`: `{un}` in `unreliable` is not one of its messages"
  | duplicate (before after : List String) (wire : String)
      (hwires : wires groups messages = before ++ wire :: after) (hseen : wire ∈ before) :
      Offence groups messages s!"duplicate message type `{wire}`"
  | keyword (wire variant : String) (hwire : wire ∈ wires groups messages)
      (hvariant : pascal casing wire = variant) (hkeyword : isRustKeyword variant = true) :
      Offence groups messages s!"message type `{wire}` becomes the Rust keyword `{variant}`"

/-! ### One name, one group -/

theorem pushEntry_eq_ok {messages : List MessageDef} {group : GroupDef} {b b' : Building}
    {wire : String} :
    pushEntry casing messages group b wire = .ok b' ↔
      wire ∉ b.seen ∧ isRustKeyword (pascal casing wire) = false ∧
        b' = ⟨b.seen ++ [wire], b.registry ++ [entryOf casing messages group wire]⟩ := by
  simp only [pushEntry, bind_eq_ok, require_eq_ok, pure_eq_ok]
  constructor
  · rintro ⟨_, hseen, _, hspelled, rfl⟩
    exact ⟨hseen, hspelled, rfl⟩
  · rintro ⟨hseen, hspelled, rfl⟩
    exact ⟨(), hseen, (), hspelled, rfl⟩

/-- The names of a group all go in exactly when they are new, distinct and no keywords. -/
theorem pushNames_eq_ok {messages : List MessageDef} {group : GroupDef} {names : List String}
    {b b' : Building} :
    names.foldlM (pushEntry casing messages group) b = .ok b' ↔
      names.Nodup ∧ (∀ wire ∈ names, wire ∉ b.seen) ∧
        (∀ wire ∈ names, isRustKeyword (pascal casing wire) = false) ∧
        b' = ⟨b.seen ++ names, b.registry ++ names.map (entryOf casing messages group)⟩ := by
  induction names generalizing b with
  | nil =>
      simp only [List.foldlM_nil, pure_eq_ok, List.map_nil, List.append_nil]
      constructor
      · rintro rfl
        simp
      · rintro ⟨-, -, -, rfl⟩
        rfl
  | cons wire names ih =>
      rw [List.foldlM_cons, bind_eq_ok]
      constructor
      · rintro ⟨t, ht, hrest⟩
        obtain ⟨hseen, hspelled, rfl⟩ := (pushEntry_eq_ok casing).mp ht
        obtain ⟨hnodup, hnew, hspelled', rfl⟩ := ih.mp hrest
        have hfresh : wire ∉ names := fun hmem =>
          hnew wire hmem (List.mem_append_right _ List.mem_cons_self)
        refine ⟨List.nodup_cons.mpr ⟨hfresh, hnodup⟩, ?_, ?_, by simp⟩
        · exact List.forall_mem_cons.mpr
            ⟨hseen, fun w hw hin => hnew w hw (List.mem_append_left _ hin)⟩
        · exact List.forall_mem_cons.mpr ⟨hspelled, hspelled'⟩
      · rintro ⟨hnodup, hnew, hspelled, rfl⟩
        obtain ⟨hfresh, hnodup⟩ := List.nodup_cons.mp hnodup
        obtain ⟨hseen, hnew⟩ := List.forall_mem_cons.mp hnew
        obtain ⟨hhead, hspelled⟩ := List.forall_mem_cons.mp hspelled
        refine ⟨_, (pushEntry_eq_ok casing).mpr ⟨hseen, hhead, rfl⟩,
          ih.mpr ⟨hnodup, ?_, hspelled, ?_⟩⟩
        · intro w hw hin
          rcases List.mem_append.mp hin with hin | hin
          · exact hnew w hw hin
          · obtain rfl := List.mem_singleton.mp hin
            exact hfresh hw
        · simp

theorem checkUnreliable_eq_ok {messages : List MessageDef} {group : GroupDef} {un : String} :
    checkUnreliable messages group un = .ok () ↔ un ∈ namesOf messages group :=
  require_eq_ok

theorem pushGroup_eq_ok {messages : List MessageDef} {group : GroupDef} {b b' : Building} :
    pushGroup casing messages b group = .ok b' ↔
      (∀ un ∈ group.unreliable, un ∈ namesOf messages group) ∧
        (namesOf messages group).foldlM (pushEntry casing messages group) b = .ok b' := by
  simp only [pushGroup, bind_eq_ok, each_eq_ok, checkUnreliable_eq_ok]
  exact ⟨fun ⟨_, hall, hrest⟩ => ⟨hall, hrest⟩, fun ⟨hall, hrest⟩ => ⟨(), hall, hrest⟩⟩

/-! ### All groups -/

/-- The groups all go in exactly when their names together are new, distinct and no keywords, and
every name listed as unreliable is one of its group's. -/
theorem pushGroups_eq_ok {messages : List MessageDef} {groups : List GroupDef} {b b' : Building} :
    groups.foldlM (pushGroup casing messages) b = .ok b' ↔
      (∀ g ∈ groups, ∀ un ∈ g.unreliable, un ∈ namesOf messages g) ∧
        (wires groups messages).Nodup ∧ (∀ wire ∈ wires groups messages, wire ∉ b.seen) ∧
        (∀ wire ∈ wires groups messages, isRustKeyword (pascal casing wire) = false) ∧
        b' = ⟨b.seen ++ wires groups messages, b.registry ++ entries casing groups messages⟩ := by
  induction groups generalizing b with
  | nil =>
      simp only [List.foldlM_nil, pure_eq_ok, wires, entries, List.flatMap_nil, List.append_nil]
      constructor
      · rintro rfl
        simp
      · rintro ⟨-, -, -, -, rfl⟩
        rfl
  | cons g groups ih =>
      have hwires : wires (g :: groups) messages = namesOf messages g ++ wires groups messages :=
        List.flatMap_cons
      have hentries : entries casing (g :: groups) messages
          = groupEntries casing messages g ++ entries casing groups messages := List.flatMap_cons
      rw [List.foldlM_cons, bind_eq_ok, hwires, hentries, List.forall_mem_cons,
        List.nodup_append', List.forall_mem_append, List.forall_mem_append]
      constructor
      · rintro ⟨t, ht, hrest⟩
        obtain ⟨hun, hnames⟩ := (pushGroup_eq_ok casing).mp ht
        obtain ⟨hnodup, hnew, hspelled, rfl⟩ := (pushNames_eq_ok casing).mp hnames
        obtain ⟨hun', hnodup', hnew', hspelled', rfl⟩ := ih.mp hrest
        refine ⟨⟨hun, hun'⟩, ⟨hnodup, hnodup', ?_⟩, ⟨hnew, ?_⟩, ⟨hspelled, hspelled'⟩, ?_⟩
        · exact fun w hw hw' => hnew' w hw' (List.mem_append_right _ hw)
        · exact fun w hw hin => hnew' w hw (List.mem_append_left _ hin)
        · simp [groupEntries]
      · rintro ⟨⟨hun, hun'⟩, ⟨hnodup, hnodup', hdisjoint⟩, ⟨hnew, hnew'⟩,
          ⟨hspelled, hspelled'⟩, rfl⟩
        refine ⟨_, (pushGroup_eq_ok casing).mpr
          ⟨hun, (pushNames_eq_ok casing).mpr ⟨hnodup, hnew, hspelled, rfl⟩⟩, ih.mpr
          ⟨hun', hnodup', ?_, hspelled', ?_⟩⟩
        · intro w hw hin
          rcases List.mem_append.mp hin with hin | hin
          · exact hnew' w hw hin
          · exact hdisjoint hin hw
        · simp [groupEntries]

theorem checkDeclared_eq_ok {groups : List GroupDef} {m : MessageDef} :
    checkDeclared groups m = .ok () ↔ ∃ g ∈ groups, g.name = m.group := by
  rw [checkDeclared, require_eq_ok]
  simp

/-- **The registry is built exactly when its conditions hold**, and it is then the entries of the
groups, in the order of the file. -/
theorem buildRegistry_eq_ok_iff {groups : List GroupDef} {messages : List MessageDef}
    {registry : List RegistryEntry} :
    buildRegistry casing groups messages = .ok registry ↔
      RegistryRules casing groups messages ∧ registry = entries casing groups messages := by
  simp only [buildRegistry, bind_eq_ok, each_eq_ok, checkDeclared_eq_ok, pushGroups_eq_ok,
    pure_eq_ok, List.nil_append]
  constructor
  · rintro ⟨_, hdeclared, b, ⟨hun, hnodup, -, hspelled, rfl⟩, rfl⟩
    exact ⟨⟨hdeclared, hun, hnodup, hspelled⟩, rfl⟩
  · rintro ⟨⟨hdeclared, hun, hnodup, hspelled⟩, rfl⟩
    exact ⟨(), hdeclared, _, ⟨hun, hnodup, fun _ _ hin => List.not_mem_nil hin, hspelled, rfl⟩, rfl⟩

/-! ### What an error says -/

/-- The error of one name, the groups before it and the names before it in its group being in. -/
theorem pushEntry_offence {messages : List MessageDef} {done rest : List GroupDef}
    {group : GroupDef} {before after : List String} {b : Building} {wire e : String}
    (hnames : namesOf messages group = before ++ wire :: after)
    (hseen : b.seen = wires done messages ++ before)
    (h : pushEntry casing messages group b wire = .error e) :
    Offence casing (done ++ group :: rest) messages e := by
  have hwires : wires (done ++ group :: rest) messages
      = (wires done messages ++ before) ++ wire :: (after ++ wires rest messages) := by
    simp [wires, hnames]
  rw [pushEntry, bind_eq_error] at h
  rcases h with h | ⟨_, -, h⟩
  · obtain ⟨hin, rfl⟩ := require_eq_error.mp h
    exact .duplicate _ _ wire hwires (hseen ▸ not_not.mp hin)
  · rcases bind_eq_error.mp h with h | ⟨_, -, h⟩
    · obtain ⟨hkeyword, rfl⟩ := require_eq_error.mp h
      refine .keyword wire _ ?_ rfl (by simpa using hkeyword)
      rw [hwires]
      simp
    · exact absurd h pure_ne_error

/-- The error of one group, the groups before it being in. -/
theorem pushGroup_offence {messages : List MessageDef} {done rest : List GroupDef}
    {group : GroupDef} {b : Building} {e : String} (hseen : b.seen = wires done messages)
    (h : pushGroup casing messages b group = .error e) :
    Offence casing (done ++ group :: rest) messages e := by
  rw [pushGroup, bind_eq_error] at h
  rcases h with h | ⟨_, -, h⟩
  · obtain ⟨un, hun, hcheck⟩ := each_error_mem h
    obtain ⟨hno, rfl⟩ := require_eq_error.mp hcheck
    exact .unreliable group _ un (by simp) rfl hun hno
  · obtain ⟨before, wire, after, t, hnames, hbefore, hwire⟩ := foldlM_error h
    obtain ⟨-, -, -, rfl⟩ := (pushNames_eq_ok casing).mp hbefore
    exact pushEntry_offence casing hnames (by rw [hseen]) hwire

/-- **A registry that is not built answers with the name of an offender.** -/
theorem buildRegistry_offence {groups : List GroupDef} {messages : List MessageDef} {e : String}
    (h : buildRegistry casing groups messages = .error e) : Offence casing groups messages e := by
  rw [buildRegistry, bind_eq_error] at h
  rcases h with h | ⟨_, -, h⟩
  · obtain ⟨m, hm, hcheck⟩ := each_error_mem h
    obtain ⟨hno, rfl⟩ := require_eq_error.mp hcheck
    exact .undeclared m _ hm rfl (by simpa using hno)
  · rcases bind_eq_error.mp h with h | ⟨_, -, h⟩
    · obtain ⟨done, group, rest, t, rfl, hdone, hgroup⟩ := foldlM_error h
      obtain ⟨-, -, -, -, rfl⟩ := (pushGroups_eq_ok casing).mp hdone
      exact pushGroup_offence casing (List.nil_append _) hgroup
    · exact absurd h pure_ne_error

/-- An offence is against one of the conditions. -/
theorem Offence.not_rules {groups : List GroupDef} {messages : List MessageDef} {e : String}
    (h : Offence casing groups messages e) : ¬ RegistryRules casing groups messages := by
  intro rules
  cases h with
  | undeclared m groupName hm hname hno =>
      obtain ⟨g, hg, heq⟩ := rules.declared m hm
      exact hno g hg (heq.trans hname)
  | unreliable g name un hg hname hun hno => exact hno (rules.unreliable g hg un hun)
  | duplicate before after wire hwires hseen =>
      have hnodup := rules.distinct
      rw [hwires, List.nodup_append'] at hnodup
      exact hnodup.2.2 hseen List.mem_cons_self
  | keyword wire variant hwire hvariant hkeyword =>
      have hspelled := rules.spelled wire hwire
      rw [hvariant, hkeyword] at hspelled
      cases hspelled

/-- **Building the registry**: it succeeds on exactly the groups and messages that follow the rules,
with every entry in file order, and what it answers otherwise names what breaks a rule. -/
theorem buildRegistry_spec (groups : List GroupDef) (messages : List MessageDef) :
    (∀ registry, buildRegistry casing groups messages = .ok registry ↔
        RegistryRules casing groups messages ∧ registry = entries casing groups messages) ∧
      ∀ e, buildRegistry casing groups messages = .error e →
        ¬ RegistryRules casing groups messages ∧ Offence casing groups messages e := by
  refine ⟨fun registry => buildRegistry_eq_ok_iff casing, fun e he => ?_⟩
  have hoffence := buildRegistry_offence casing he
  exact ⟨hoffence.not_rules casing, hoffence⟩

/-! ### A loaded schema -/

/-- What the emitters rely on of a field. -/
structure FieldDef.Sound (enumNames : List String) (f : FieldDef) : Prop where
  spelled : isRustKeyword f.name = false
  resolved : kindOf enumNames f.type.name = some f.type.kind
  element : f.type.array = true → f.type.kind ∉ [.bytes, .json, .messageType]
  present : f.optional = true → f.type.kind ≠ .bytes

/-- The names a field's type may refer to. -/
def Schema.enumNames (s : Schema) : List String := s.enums.map EnumDef.name ++ ["Capability"]

/-- What the emitters rely on of a schema. -/
structure Schema.Sound (s : Schema) : Prop where
  rules : RegistryRules casing s.groups s.messages
  registry : s.registry = entries casing s.groups s.messages
  capabilities : s.capabilities = s.groups.filter GroupDef.capability
  versions : s.minProtocolVersion ≤ s.protocolVersion
  values : ∀ e ∈ s.enums, e.values ≠ [] ∧
    ∀ v ∈ e.values, isRustKeyword (pascal casing v.wire) = false
  fields : ∀ m ∈ s.messages, ∀ f ∈ m.fields, f.Sound s.enumNames
  envelope : ∀ f ∈ s.envelopeFields, f.Sound s.enumNames

theorem resolveType_eq_ok {spec what : String} {enumNames : List String} {type : ResolvedType}
    (h : resolveType spec enumNames what = .ok type) :
    kindOf enumNames type.name = some type.kind ∧
      (type.array = true → type.kind ∉ [.bytes, .json, .messageType]) := by
  rw [resolveType] at h
  split at h
  · cases h
  · rename_i kind hkind
    obtain ⟨_, hrequire, h⟩ := bind_eq_ok.mp h
    obtain rfl := pure_eq_ok.mp h
    exact ⟨hkind, fun harray hmem => require_eq_ok.mp hrequire ⟨harray, hmem⟩⟩

theorem parseField_sound {enumNames : List String} {what : String} {i : ℕ} {entry : Toml}
    {f : FieldDef} (h : parseField enumNames what i entry = .ok f) : f.Sound enumNames := by
  simp only [parseField, bind_eq_ok, require_eq_ok, pure_eq_ok] at h
  obtain ⟨t, -, name, -, _, hspelled, spec, -, type, htype, _, hpresent, doc, -, rfl⟩ := h
  obtain ⟨hresolved, helement⟩ := resolveType_eq_ok htype
  exact ⟨hspelled, hresolved, helement, fun hopt hbytes => hpresent ⟨hopt, hbytes⟩⟩

theorem parseFields_sound {raw : Option Toml} {enumNames : List String} {what : String}
    {fields : List FieldDef} (h : parseFields raw enumNames what = .ok fields) :
    ∀ f ∈ fields, f.Sound enumNames := by
  obtain ⟨items, -, h⟩ := bind_eq_ok.mp h
  intro f hf
  obtain ⟨j, entry, -, hok⟩ := mapIndexed_mem h f hf
  exact parseField_sound hok

theorem parseEnum_sound {i : ℕ} {entry : Toml} {e : EnumDef}
    (h : parseEnum casing i entry = .ok e) :
    e.values ≠ [] ∧ ∀ v ∈ e.values, isRustKeyword (pascal casing v.wire) = false := by
  simp only [parseEnum, bind_eq_ok, require_eq_ok, pure_eq_ok, each_eq_ok, checkEnumValue] at h
  obtain ⟨t, -, name, -, raw, -, values, -, _, hne, _, hspelled, doc, -, rfl⟩ := h
  exact ⟨hne, hspelled⟩

theorem parseEnums_sound {raw : Option Toml} {enums : List EnumDef}
    (h : parseEnums casing raw = .ok enums) :
    ∀ e ∈ enums, e.values ≠ [] ∧
      ∀ v ∈ e.values, isRustKeyword (pascal casing v.wire) = false := by
  cases raw with
  | none =>
      cases h
      simp
  | some v =>
      obtain ⟨items, -, h⟩ := bind_eq_ok.mp h
      intro e he
      obtain ⟨j, entry, -, hok⟩ := mapIndexed_mem h e he
      exact parseEnum_sound casing hok

theorem parseMessages_sound {raw : Option Toml} {enumNames : List String}
    {messages : List MessageDef} (h : parseMessages casing raw enumNames = .ok messages) :
    ∀ m ∈ messages, ∀ f ∈ m.fields, f.Sound enumNames := by
  cases raw with
  | none =>
      cases h
      simp
  | some v =>
      obtain ⟨items, -, h⟩ := bind_eq_ok.mp h
      intro m hm
      obtain ⟨j, entry, -, hok⟩ := mapIndexed_mem h m hm
      simp only [parseMessage, bind_eq_ok, pure_eq_ok] at hok
      obtain ⟨t, -, wire, -, fields, hfields, group, -, rustName, -, swiftName, -, doc, -, rfl⟩ :=
        hok
      exact parseFields_sound hfields

/-- **A schema that loads is sound**: whatever the file says, the emitters never see a duplicate or
misspelt name, a message outside its groups, an empty enum, an unknown type, or a version range
upside down. -/
theorem loadSchema_sound (root : Toml) (s : Schema) (h : loadSchema casing root = .ok s) :
    s.Sound casing := by
  simp only [loadSchema, bind_eq_ok, require_eq_ok, pure_eq_ok] at h
  obtain ⟨t, -, m, -, envelope, -, groups, -, enums, henums, messages, hmessages, registry,
    hregistry, version, -, least, -, _, hversions, rustOut, -, swiftOut, -, envelopeDoc, -, fields,
    hfields, rfl⟩ := h
  obtain ⟨hrules, rfl⟩ := (buildRegistry_eq_ok_iff casing).mp hregistry
  exact
    { rules := hrules
      registry := rfl
      capabilities := rfl
      versions := hversions
      values := parseEnums_sound casing henums
      fields := parseMessages_sound casing hmessages
      envelope := parseFields_sound hfields }

/-! ### A small schema -/

/-- Two groups, one message with a schema and one reserved name. -/
def smallRoot : Toml := .table
  [("meta", .table [("protocol_version", .number 2), ("min_protocol_version", .number 1),
      ("rust_out", .text "rust"), ("swift_out", .text "swift")]),
   ("envelope", .table
      [("fields", .array [.table [("name", .text "body"), ("type", .text "json")]])]),
   ("groups", .array
      [.table [("name", .text "core"), ("capability", .bool false)],
       .table [("name", .text "metrics"), ("deferred", .array [.text "metrics.tick"]),
         ("unreliable", .array [.text "metrics.tick"])]]),
   ("messages", .array
      [.table [("type", .text "hello"), ("group", .text "core"),
         ("fields", .array [.table
           [("name", .text "name"), ("type", .text "string"), ("optional", .bool true)]])]])]

/-- The same, loaded. -/
def small : Schema where
  protocolVersion := 2
  minProtocolVersion := 1
  rustOut := "rust"
  swiftOut := "swift"
  envelopeDoc := ""
  envelopeFields := [⟨"body", ⟨.json, "json", false⟩, false, ""⟩]
  groups := [⟨"core", "", false, [], []⟩, ⟨"metrics", "", true, ["metrics.tick"], ["metrics.tick"]⟩]
  enums := []
  messages := [⟨"hello", "core", "HelloBody", "HelloBody", "",
    [⟨"name", ⟨.scalar, "string", false⟩, true, ""⟩]⟩]
  registry := entries .ascii
    [⟨"core", "", false, [], []⟩, ⟨"metrics", "", true, ["metrics.tick"], ["metrics.tick"]⟩]
    [⟨"hello", "core", "HelloBody", "HelloBody", "",
      [⟨"name", ⟨.scalar, "string", false⟩, true, ""⟩]⟩]
  capabilities := [⟨"metrics", "", true, ["metrics.tick"], ["metrics.tick"]⟩]

/-- It loads, and is therefore sound. -/
theorem loadSchema_sound_small : small.Sound .ascii :=
  loadSchema_sound .ascii smallRoot small rfl

/-- Its soundness, field by field. -/
theorem small_sound : small.Sound .ascii where
  rules := ⟨by decide, by decide, by decide, by decide⟩
  registry := rfl
  capabilities := rfl
  versions := by decide
  values := by decide
  fields := by
    intro m hm f hf
    obtain rfl := List.mem_singleton.mp hm
    obtain rfl := List.mem_singleton.mp hf
    exact ⟨by decide, by decide, by decide, by decide⟩
  envelope := by
    intro f hf
    obtain rfl := List.mem_singleton.mp hf
    exact ⟨by decide, by decide, by decide, by decide⟩

end Osprey.Proto
