/-
**Reading the message registry.**

The protocol is written down once, in a TOML file.  The generator parses the file, checks it, and
builds the ordered registry of message types from which both languages are emitted.  Every failure
is an error that names what it is about; what is left after a success is a schema the emitters can
rely on.

The TOML parser itself is a library, so what is read here is its result: a tree of values.  A
missing key and a value of the wrong type are told apart, as the source tells them apart.

Main definitions:

* `Proto.Toml` — what the parser answers;
* `Proto.FieldDef`, `Proto.GroupDef`, `Proto.EnumDef`, `Proto.MessageDef`, `Proto.RegistryEntry`,
  `Proto.Schema` — the checked model;
* `Proto.parseFields`, `Proto.parseGroups`, `Proto.parseEnums`, `Proto.parseMessages` — the tables;
* `Proto.buildRegistry`, `Proto.loadSchema` — the registry and the whole.
-/

import Osprey.WireNames
import Osprey.Checks

set_option relaxedAutoImplicit false
set_option autoImplicit false

namespace Osprey.Proto

open Checks

/-! ### What the parser answers -/

/-- A TOML value.  A date is an object without any of the keys asked for.  The numbers are the finite
ones: `nan` and `inf` are left out. -/
inductive Toml
  | text (s : String)
  | number (q : ℚ)
  | bool (b : Bool)
  | date
  | array (items : List Toml)
  | table (entries : List (String × Toml))

/-- The keys of a table. -/
abbrev Table := List (String × Toml)

/-- `table[key]`; an absent key is `undefined`. -/
def Table.get (table : Table) (key : String) : Option Toml := List.lookup key table

def asTable (value : Option Toml) (what : String) : Except String Table :=
  match value with
  | some (.table entries) => .ok entries
  | some .date => .ok []
  | _ => .error s!"{what}: expected a table"

def asArray (value : Option Toml) (what : String) : Except String (List Toml) :=
  match value with
  | some (.array items) => .ok items
  | _ => .error s!"{what}: expected an array"

def str (table : Table) (key what : String) : Except String String :=
  match table.get key with
  | some (.text s) => .ok s
  | _ => .error s!"{what}: missing required string `{key}`"

def optStr (table : Table) (key : String) : Except String String :=
  match table.get key with
  | none => .ok ""
  | some (.text s) => .ok s
  | _ => .error s!"`{key}` must be a string"

def int (table : Table) (key what : String) : Except String ℚ :=
  match table.get key with
  | some (.number q) => .ok q
  | _ => .error s!"{what}: missing required integer `{key}`"

def strArray (table : Table) (key what : String) : Except String (List String) :=
  match table.get key with
  | none => .ok []
  | some v => do
      let items ← asArray (some v) s!"{what}.{key}"
      mapIndexed (fun i item => match item with
        | .text s => .ok s
        | _ => .error s!"{what}.{key}[{i}]: expected a string") 0 items

/-! ### The checked model -/

inductive TypeKind
  | scalar
  | uuid
  | bytes
  | json
  | messageType
  | enum
  deriving DecidableEq, Repr

/-- For `scalar`, `name` is the TOML spelling; for `enum` the enum name. -/
structure ResolvedType where
  kind : TypeKind
  name : String
  array : Bool
  deriving DecidableEq, Repr

structure FieldDef where
  name : String
  type : ResolvedType
  optional : Bool
  doc : String
  deriving DecidableEq, Repr

structure EnumValueDef where
  wire : String
  doc : String
  deriving DecidableEq, Repr

structure EnumDef where
  name : String
  doc : String
  values : List EnumValueDef
  deriving DecidableEq, Repr

structure MessageDef where
  wire : String
  group : String
  rustName : String
  swiftName : String
  doc : String
  fields : List FieldDef
  deriving DecidableEq, Repr

structure GroupDef where
  name : String
  doc : String
  capability : Bool
  deferred : List String
  unreliable : List String
  deriving DecidableEq, Repr

/-- `defined` is `none` for a name-only reservation whose body schema is not yet designed. -/
structure RegistryEntry where
  wire : String
  group : GroupDef
  rustVariant : String
  swiftCase : String
  unreliable : Bool
  defined : Option MessageDef
  deriving DecidableEq, Repr

structure Schema where
  protocolVersion : ℚ
  minProtocolVersion : ℚ
  rustOut : String
  swiftOut : String
  envelopeDoc : String
  envelopeFields : List FieldDef
  groups : List GroupDef
  enums : List EnumDef
  messages : List MessageDef
  registry : List RegistryEntry
  capabilities : List GroupDef
  deriving DecidableEq, Repr

/-! ### Types and fields -/

/-- `SCALARS`. -/
def scalars : List String := ["string", "bool", "u16", "u32", "u64", "i32", "i64", "f64"]

/-- The characters `String.prototype.trim` takes off. -/
def isTrimmed (c : Char) : Bool :=
  c.toNat ∈ [9, 10, 11, 12, 13, 32, 160, 0x1680, 0x2028, 0x2029, 0x202F, 0x205F, 0x3000, 0xFEFF]
    || (0x2000 ≤ c.toNat && c.toNat ≤ 0x200A)

def trim (cs : List Char) : List Char :=
  ((cs.dropWhile isTrimmed).reverse.dropWhile isTrimmed).reverse

/-- `spec.startsWith('[') && spec.endsWith(']')`. -/
def isArraySpec (spec : String) : Bool :=
  spec.toList.head? == some '[' && spec.toList.getLast? == some ']'

/-- `spec.slice(1, -1).trim()` of an array, the whole specification otherwise. -/
def innerSpec (spec : String) : String :=
  if isArraySpec spec then String.ofList (trim (spec.toList.drop 1).dropLast) else spec

/-- The kind a name stands for. -/
def kindOf (enumNames : List String) (inner : String) : Option TypeKind :=
  if inner ∈ scalars then some .scalar
  else if inner = "uuid" then some .uuid
  else if inner = "bytes" then some .bytes
  else if inner = "json" then some .json
  else if inner = "MessageType" then some .messageType
  else if inner ∈ enumNames then some .enum
  else none

def resolveType (spec : String) (enumNames : List String) (what : String) :
    Except String ResolvedType :=
  match kindOf enumNames (innerSpec spec) with
  | none => .error s!"{what}: unknown type `{spec}`"
  | some kind => do
      require (¬ (isArraySpec spec = true ∧ kind ∈ [.bytes, .json, .messageType]))
        s!"{what}: `{spec}` is not a supported array element type"
      pure ⟨kind, innerSpec spec, isArraySpec spec⟩

/-- `t.optional === true`. -/
def isTrue : Option Toml → Bool
  | some (.bool b) => b
  | _ => false

def parseField (enumNames : List String) (what : String) (i : ℕ) (entry : Toml) :
    Except String FieldDef := do
  let t ← asTable (some entry) s!"{what}.fields[{i}]"
  let name ← str t "name" s!"{what}.fields[{i}]"
  require (isRustKeyword name = false)
    s!"{what}.fields[{i}]: `{name}` is a Rust keyword; rename the wire field"
  let optional := isTrue (t.get "optional")
  let spec ← str t "type" s!"{what}.{name}"
  let type ← resolveType spec enumNames s!"{what}.{name}"
  require (¬ (optional = true ∧ type.kind = .bytes))
    s!"{what}.{name}: optional `bytes` is not supported by the base64 serde helper"
  let doc ← optStr t "doc"
  pure { name, type, optional, doc }

def parseFields (raw : Option Toml) (enumNames : List String) (what : String) :
    Except String (List FieldDef) := do
  let entries ← asArray raw s!"{what}.fields"
  mapIndexed (parseField enumNames what) 0 entries

/-! ### Groups, enums and messages -/

/-- `t.capability !== false`. -/
def isNotFalse : Option Toml → Bool
  | some (.bool b) => b
  | _ => true

def parseGroup (i : ℕ) (entry : Toml) : Except String GroupDef := do
  let t ← asTable (some entry) s!"groups[{i}]"
  let name ← str t "name" s!"groups[{i}]"
  let doc ← optStr t "doc"
  let capability := isNotFalse (t.get "capability")
  let deferred ← strArray t "deferred" s!"group `{name}`"
  let unreliable ← strArray t "unreliable" s!"group `{name}`"
  pure { name, doc, capability, deferred, unreliable }

def parseGroups (raw : Option Toml) : Except String (List GroupDef) := do
  let entries ← asArray raw "groups"
  mapIndexed parseGroup 0 entries

variable (casing : Casing)

def parseEnumValue (name : String) (j : ℕ) (v : Toml) : Except String EnumValueDef := do
  let vt ← asTable (some v) s!"enum `{name}`.values[{j}]"
  let wire ← str vt "name" s!"enum `{name}`.values[{j}]"
  let doc ← optStr vt "doc"
  pure { wire, doc }

/-- The check of one value of an enum. -/
def checkEnumValue (name : String) (v : EnumValueDef) : Except String Unit :=
  let wire := v.wire
  let variant := pascal casing wire
  require (isRustKeyword variant = false)
    s!"enum `{name}`: value `{wire}` becomes the Rust keyword `{variant}`"

def parseEnum (i : ℕ) (entry : Toml) : Except String EnumDef := do
  let t ← asTable (some entry) s!"enums[{i}]"
  let name ← str t "name" s!"enums[{i}]"
  let raw ← asArray (t.get "values") s!"enum `{name}`.values"
  let values ← mapIndexed (parseEnumValue name) 0 raw
  require (values ≠ []) s!"enum `{name}`: needs at least one value"
  each (checkEnumValue casing name) values
  let doc ← optStr t "doc"
  pure { name, doc, values }

def parseEnums (raw : Option Toml) : Except String (List EnumDef) :=
  match raw with
  | none => .ok []
  | some v => do
      let entries ← asArray (some v) "enums"
      mapIndexed (parseEnum casing) 0 entries

/-- `optStr(t, key) || fallback`: an empty name counts as absent. -/
def nameOr (table : Table) (key fallback : String) : Except String String := do
  let given ← optStr table key
  pure (if given = "" then fallback else given)

def parseMessage (enumNames : List String) (i : ℕ) (entry : Toml) : Except String MessageDef := do
  let t ← asTable (some entry) s!"messages[{i}]"
  let wire ← str t "type" s!"messages[{i}]"
  let fields ← parseFields (t.get "fields") enumNames s!"message `{wire}`"
  let group ← str t "group" s!"message `{wire}`"
  let rustName ← nameOr t "rust_name" (pascal casing wire ++ "Body")
  let swiftName ← nameOr t "swift_name" (pascal casing wire ++ "Body")
  let doc ← optStr t "doc"
  pure { wire, group, rustName, swiftName, doc, fields }

def parseMessages (raw : Option Toml) (enumNames : List String) : Except String (List MessageDef) :=
  match raw with
  | none => .ok []
  | some v => do
      let entries ← asArray (some v) "messages"
      mapIndexed (parseMessage casing enumNames) 0 entries

/-! ### The registry -/

/-- `byGroup.get(group.name) ?? []`. -/
def definedIn (messages : List MessageDef) (group : GroupDef) : List MessageDef :=
  messages.filter fun m => m.group == group.name

/-- `[...defined.map((m) => m.wire), ...group.deferred]`. -/
def namesOf (messages : List MessageDef) (group : GroupDef) : List String :=
  (definedIn messages group).map MessageDef.wire ++ group.deferred

/-- The entry pushed for one name of a group. -/
def entryOf (messages : List MessageDef) (group : GroupDef) (wire : String) : RegistryEntry where
  wire := wire
  group := group
  rustVariant := pascal casing wire
  swiftCase := camel casing wire
  unreliable := group.unreliable.contains wire
  defined := (definedIn messages group).find? fun m => m.wire == wire

/-- `seen` and `registry` of the loop. -/
structure Building where
  seen : List String
  registry : List RegistryEntry
  deriving DecidableEq, Repr

/-- The body of the loop over the names of a group. -/
def pushEntry (messages : List MessageDef) (group : GroupDef) (b : Building) (wire : String) :
    Except String Building := do
  require (wire ∉ b.seen) s!"duplicate message type `{wire}`"
  let variant := pascal casing wire
  require (isRustKeyword variant = false)
    s!"message type `{wire}` becomes the Rust keyword `{variant}`"
  pure { seen := b.seen ++ [wire], registry := b.registry ++ [entryOf casing messages group wire] }

/-- The check of one name listed as unreliable. -/
def checkUnreliable (messages : List MessageDef) (group : GroupDef) (un : String) :
    Except String Unit :=
  let name := group.name
  require (un ∈ namesOf messages group)
    s!"group `{name}`: `{un}` in `unreliable` is not one of its messages"

/-- The body of the loop over the groups. -/
def pushGroup (messages : List MessageDef) (b : Building) (group : GroupDef) :
    Except String Building := do
  each (checkUnreliable messages group) group.unreliable
  (namesOf messages group).foldlM (pushEntry casing messages group) b

/-- The check that a message's group is declared.  The source checks every group once, in the order
in which the messages first name them, which stops at the same group. -/
def checkDeclared (groups : List GroupDef) (m : MessageDef) : Except String Unit :=
  let groupName := m.group
  require (groups.any fun g => g.name == groupName)
    s!"message group `{groupName}` is not declared in [[groups]]"

/-- Group declaration order decides enum variant order. -/
def buildRegistry (groups : List GroupDef) (messages : List MessageDef) :
    Except String (List RegistryEntry) := do
  each (checkDeclared groups) messages
  let b ← groups.foldlM (pushGroup casing messages) { seen := [], registry := [] }
  pure b.registry

/-- `root` is what the TOML parser answered. -/
def loadSchema (root : Toml) : Except String Schema := do
  let root ← asTable (some root) "messages.toml"
  let meta' ← asTable (root.get "meta") "[meta]"
  let envelope ← asTable (root.get "envelope") "[envelope]"
  let groups ← parseGroups (root.get "groups")
  let enums ← parseEnums casing (root.get "enums")
  -- The capability enum is synthesised from the group table rather than declared.
  let enumNames := enums.map EnumDef.name ++ ["Capability"]
  let messages ← parseMessages casing (root.get "messages") enumNames
  let registry ← buildRegistry casing groups messages
  let protocolVersion ← int meta' "protocol_version" "[meta]"
  let minProtocolVersion ← int meta' "min_protocol_version" "[meta]"
  require (minProtocolVersion ≤ protocolVersion)
    "[meta]: min_protocol_version exceeds protocol_version"
  let rustOut ← str meta' "rust_out" "[meta]"
  let swiftOut ← str meta' "swift_out" "[meta]"
  let envelopeDoc ← optStr envelope "doc"
  let envelopeFields ← parseFields (envelope.get "fields") enumNames "envelope"
  pure {
    protocolVersion, minProtocolVersion, rustOut, swiftOut, envelopeDoc, envelopeFields,
    groups, enums, messages, registry, capabilities := groups.filter GroupDef.capability }

end Osprey.Proto
