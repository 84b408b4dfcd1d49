/-
**Enumerations in generated code.**

A generator emits an enumeration as a list of named cases, and functions on it as `match`
expressions whose arms list cases.  The compiler of the target language accepts them when no case
is declared twice, every arm names declared cases only, and every case is covered; what they
compute is then settled by the first arm that lists the case.

An open enumeration has one more case, which carries the text it was read from.

Texts are compared code point by code point.  A language that compares strings up to canonical
equivalence does the same where the spellings hold no character that has other equivalents, as with
plain lower-case names.

Main definitions:

* `EnumTarget.Arm`, `EnumTarget.select` — a `match`, the first arm that lists the case wins;
* `EnumTarget.Covers` — what the compiler asks of a `match`;
* `EnumTarget.Spelled` — the cases of an enumeration with their wire spellings, read and written;
* `EnumTarget.OpenValue` — a value of an open enumeration;
* `EnumTarget.relayThrough` — a text passed on by one peer after the other.

Main results:

* `EnumTarget.select_map` — a `match` with one arm for each item looks the item up;
* `EnumTarget.spellingOf_caseOf`, `EnumTarget.caseOf_spellingOf` — reading and writing a closed
  enumeration;
* `EnumTarget.wireOf_ofWire` — **an open enumeration gives back every text**;
* `EnumTarget.ofWire_wireOf_iff` — which values come back;
* `EnumTarget.relayThrough_eq` — no chain of peers changes a text.
-/

import Mathlib.Data.List.Basic
import Mathlib.Data.List.Nodup

set_option relaxedAutoImplicit false
set_option autoImplicit false

namespace EnumTarget

variable {ν β ι κ : Type}

/-- Where no two items have one key, an item is found by its key. -/
theorem find?_eq_some_of_nodup [BEq κ] [LawfulBEq κ] {key : ι → κ} {items : List ι}
    (hdistinct : (items.map key).Nodup) {item : ι} (hitem : item ∈ items) :
    (items.find? fun i => key i == key item) = some item := by
  induction items with
  | nil => cases hitem
  | cons i rest ih =>
      rw [List.map_cons, List.nodup_cons] at hdistinct
      rcases List.mem_cons.mp hitem with rfl | hrest
      · simp
      · have hne : key i ≠ key item := fun heq => hdistinct.1 (heq ▸ List.mem_map_of_mem hrest)
        rw [List.find?_cons_of_neg (by simpa using hne)]
        exact ih hdistinct.2 hrest

/-! ### Match expressions -/

/-- The cases an arm lists, and what it answers. -/
structure Arm (ν β : Type) where
  patterns : List ν
  value : β
  deriving DecidableEq, Repr

variable [DecidableEq ν]

/-- The first arm that lists the case answers; `otherwise` is the wildcard arm, if there is one. -/
def select (arms : List (Arm ν β)) (otherwise : Option β) (case : ν) : Option β :=
  match arms.find? fun arm => decide (case ∈ arm.patterns) with
  | some arm => some arm.value
  | none => otherwise

/-- What the compiler asks of a `match` over the declared cases. -/
structure Covers (cases : List ν) (arms : List (Arm ν β)) (otherwise : Option β) : Prop where
  known : ∀ arm ∈ arms, ∀ case ∈ arm.patterns, case ∈ cases
  exhaustive : ∀ case ∈ cases, (select arms otherwise case).isSome = true

theorem select_of_not_mem {arms : List (Arm ν β)} {otherwise : Option β} {case : ν}
    (h : ∀ arm ∈ arms, case ∉ arm.patterns) : select arms otherwise case = otherwise := by
  have hnone : arms.find? (fun arm => decide (case ∈ arm.patterns)) = none :=
    List.find?_eq_none.mpr fun arm harm => by simpa using h arm harm
  rw [select, hnone]

/-- A `match` whose arms stand for items, one case each, finds the item by its case. -/
theorem select_map {name : ι → ν} {answer : ι → β} {items : List ι} {otherwise : Option β}
    (hdistinct : (items.map name).Nodup) {item : ι} (hitem : item ∈ items) :
    select (items.map fun i => ⟨[name i], answer i⟩) otherwise (name item)
      = some (answer item) := by
  have hfind : (items.map fun i => (⟨[name i], answer i⟩ : Arm ν β)).find?
      (fun arm => decide (name item ∈ arm.patterns)) = some ⟨[name item], answer item⟩ := by
    rw [List.find?_map]
    have hkey : ((fun arm : Arm ν β => decide (name item ∈ arm.patterns)) ∘
        fun i => ⟨[name i], answer i⟩) = fun i => name i == name item := by
      funext i
      rw [Bool.eq_iff_iff, Function.comp_apply, decide_eq_true_iff, beq_iff_eq,
        List.mem_singleton]
      exact eq_comm
    rw [hkey, find?_eq_some_of_nodup hdistinct hitem]
    rfl
  rw [select, hfind]

/-! ### Cases and their spellings -/

/-- The declared cases with their wire spellings, in the order of declaration. -/
abbrev Spelled (ν : Type) := List (ν × String)

/-- Write a case. -/
def spellingOf (cases : Spelled ν) (case : ν) : Option String :=
  (cases.find? fun c => c.1 == case).map Prod.snd

/-- Read a text. -/
def caseOf (cases : Spelled ν) (text : String) : Option ν :=
  (cases.find? fun c => c.2 == text).map Prod.fst

theorem spellingOf_of_mem {cases : Spelled ν} (hdistinct : (cases.map Prod.fst).Nodup)
    {c : ν × String} (hc : c ∈ cases) : spellingOf cases c.1 = some c.2 := by
  rw [spellingOf, find?_eq_some_of_nodup hdistinct hc]
  rfl

omit [DecidableEq ν] in
theorem caseOf_of_mem {cases : Spelled ν} (hdistinct : (cases.map Prod.snd).Nodup)
    {c : ν × String} (hc : c ∈ cases) : caseOf cases c.2 = some c.1 := by
  rw [caseOf, find?_eq_some_of_nodup hdistinct hc]
  rfl

omit [DecidableEq ν] in
/-- What is read is a declared case with that spelling. -/
theorem mem_of_caseOf {cases : Spelled ν} {text : String} {case : ν}
    (h : caseOf cases text = some case) : (case, text) ∈ cases := by
  rw [caseOf, Option.map_eq_some_iff] at h
  obtain ⟨c, hfind, rfl⟩ := h
  have htext : c.2 = text := by simpa using List.find?_some hfind
  rw [← htext]
  exact List.mem_of_find?_eq_some hfind

theorem mem_of_spellingOf {cases : Spelled ν} {text : String} {case : ν}
    (h : spellingOf cases case = some text) : (case, text) ∈ cases := by
  rw [spellingOf, Option.map_eq_some_iff] at h
  obtain ⟨c, hfind, rfl⟩ := h
  have hcase : c.1 = case := by simpa using List.find?_some hfind
  rw [← hcase]
  exact List.mem_of_find?_eq_some hfind

omit [DecidableEq ν] in
/-- Reading fails on exactly the texts that spell nothing. -/
theorem caseOf_eq_none_iff {cases : Spelled ν} {text : String} :
    caseOf cases text = none ↔ text ∉ cases.map Prod.snd := by
  simp only [caseOf, Option.map_eq_none_iff, List.find?_eq_none, beq_iff_eq, List.mem_map,
    not_exists, not_and]

/-- **What is read is written back as it was.** -/
theorem spellingOf_caseOf {cases : Spelled ν} (hdistinct : (cases.map Prod.fst).Nodup)
    {text : String} {case : ν} (h : caseOf cases text = some case) :
    spellingOf cases case = some text :=
  spellingOf_of_mem hdistinct (mem_of_caseOf h)

/-- **What is written is read back as it was.** -/
theorem caseOf_spellingOf {cases : Spelled ν} (hdistinct : (cases.map Prod.snd).Nodup)
    {text : String} {case : ν} (h : spellingOf cases case = some text) :
    caseOf cases text = some case :=
  caseOf_of_mem hdistinct (mem_of_spellingOf h)

/-! ### Open enumerations -/

/-- A declared case, or a text nobody declared. -/
inductive OpenValue (ν : Type)
  | declared (case : ν)
  | unknown (raw : String)
  deriving DecidableEq, Repr

/-- `From<String>`: the first case so spelled, the text itself otherwise. -/
def ofWire (cases : Spelled ν) (raw : String) : OpenValue ν :=
  match caseOf cases raw with
  | some case => .declared case
  | none => .unknown raw

/-- `as_str`: the spelling of a declared case, and the text of an undeclared one. -/
def wireOf (cases : Spelled ν) : OpenValue ν → Option String
  | .declared case => spellingOf cases case
  | .unknown raw => some raw

/-- **An open enumeration gives back every text it reads**, known or not. -/
theorem wireOf_ofWire {cases : Spelled ν} (hdistinct : (cases.map Prod.fst).Nodup) (raw : String) :
    wireOf cases (ofWire cases raw) = some raw := by
  unfold ofWire
  split
  · rename_i case hcase
    exact spellingOf_caseOf hdistinct hcase
  · rfl

omit [DecidableEq ν] in
/-- A text is kept as unknown exactly when no case is so spelled. -/
theorem ofWire_eq_unknown_iff {cases : Spelled ν} {raw : String} :
    ofWire cases raw = .unknown raw ↔ raw ∉ cases.map Prod.snd := by
  rw [← caseOf_eq_none_iff]
  unfold ofWire
  split
  · rename_i case hcase
    simp [hcase]
  · rename_i hcase
    simp [hcase]

/-- **Which values come back from the wire**: every declared case, and an unknown text exactly when
it really is unknown. -/
theorem ofWire_wireOf_iff {cases : Spelled ν} (hspelling : (cases.map Prod.snd).Nodup)
    {value : OpenValue ν} {raw : String} (h : wireOf cases value = some raw) :
    ofWire cases raw = value ↔
      match value with
      | .declared _ => True
      | .unknown raw => raw ∉ cases.map Prod.snd := by
  cases value with
  | declared case =>
      have hcase := caseOf_spellingOf hspelling h
      simp [ofWire, hcase]
  | unknown raw' =>
      obtain rfl : raw' = raw := Option.some.inj h
      exact ofWire_eq_unknown_iff

/-- A text that is read and written again by one peer after the other. -/
def relayThrough : List (Spelled ν) → String → Option String
  | [], raw => some raw
  | cases :: rest, raw => (wireOf cases (ofWire cases raw)).bind (relayThrough rest)

/-- **A text survives every chain of peers**, whatever each of them knows. -/
theorem relayThrough_eq {peers : List (Spelled ν)}
    (h : ∀ cases ∈ peers, (cases.map Prod.fst).Nodup) (raw : String) :
    relayThrough peers raw = some raw := by
  induction peers with
  | nil => rfl
  | cons cases rest ih =>
      rw [relayThrough, wireOf_ofWire (h cases List.mem_cons_self) raw, Option.bind_some]
      exact ih fun c hc => h c (List.mem_cons_of_mem _ hc)

end EnumTarget
