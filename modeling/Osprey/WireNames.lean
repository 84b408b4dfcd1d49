/-
**The spelling of a wire name in the generated code.**

The registry of message types is written once, under wire names such as `fs.read.begin`; the
generator spells each of them as a Rust variant, a Swift case and a Swift property.  Two wire names
that are spelled alike give generated code that declares one name twice, so what matters about the
spelling is which names it keeps apart.

A name is split at its dots, underscores and hyphens; every piece gets a capital letter, and the
pieces are run together.  Where every piece starts with a small letter and has no capital letter in
it, the capitals of the result mark where the pieces began, and nothing is lost but the choice of
separator (`pascal_eq_iff`).  For other names more can be lost.

Letters outside ASCII are capitalised by the tables of the language the generator is written in;
they are a parameter, of which only the ASCII part is fixed.

Main definitions:

* `Proto.Casing` — the case tables;
* `Proto.words`, `Proto.pascal`, `Proto.camel` — the spelling;
* `Proto.isRustKeyword`, `Proto.swiftIdent` — the reserved words of the two languages;
* `Proto.Plain` — names whose pieces start with a small letter and have no capital one.

Main results:

* `Proto.isRustKeyword_pascal_iff` — the only keyword a spelling can become is `Self`;
* `Proto.pascal_eq_iff`, `Proto.camel_eq_iff` — **plain names are spelled alike exactly when they
  have the same pieces**;
* `Proto.swiftIdent_inj` — the backticks around a Swift keyword keep names apart.
-/

import Mathlib

set_option relaxedAutoImplicit false
set_option autoImplicit false

namespace Osprey.Proto

/-! ### Blocks that announce themselves -/

section Blocks

variable {α : Type} {starts : α → Prop}

/-- A block: its first element starts a block, no later one does. -/
def IsBlock (starts : α → Prop) : List α → Prop
  | [] => False
  | a :: rest => starts a ∧ ∀ b ∈ rest, ¬ starts b

/-- What follows a block begins with a start, or is empty. -/
theorem flatten_head_starts {blocks : List (List α)} (h : ∀ block ∈ blocks, IsBlock starts block) :
    ∀ a ∈ blocks.flatten.head?, starts a := by
  intro a ha
  cases blocks with
  | nil => cases ha
  | cons block rest =>
      have hblock := h block List.mem_cons_self
      cases block with
      | nil => exact hblock.elim
      | cons b tail =>
          obtain rfl : b = a := by simpa using ha
          exact hblock.1

/-- Two tails without starts, each followed by something that begins with a start, are where they
meet the same. -/
theorem append_inj_of_starts {s t : List α} : ∀ {p q : List α}, (∀ a ∈ p, ¬ starts a) →
    (∀ a ∈ q, ¬ starts a) → (∀ a ∈ s.head?, starts a) → (∀ a ∈ t.head?, starts a) →
    p ++ s = q ++ t → p = q ∧ s = t := by
  intro p
  induction p with
  | nil =>
      intro q _ hq hs _ heq
      cases q with
      | nil => exact ⟨rfl, by simpa using heq⟩
      | cons b q =>
          have hhead : b ∈ s.head? := by
            rw [show s = b :: (q ++ t) by simpa using heq]
            rfl
          exact absurd (hs b hhead) (hq b List.mem_cons_self)
  | cons a p ih =>
      intro q hp hq hs ht heq
      cases q with
      | nil =>
          have hhead : a ∈ t.head? := by
            rw [show t = a :: (p ++ s) by simpa using heq.symm]
            rfl
          exact absurd (ht a hhead) (hp a List.mem_cons_self)
      | cons b q =>
          obtain ⟨rfl, hrest⟩ := List.cons.inj heq
          obtain ⟨rfl, rfl⟩ := ih (fun c hc => hp c (List.mem_cons_of_mem _ hc))
            (fun c hc => hq c (List.mem_cons_of_mem _ hc)) hs ht hrest
          exact ⟨rfl, rfl⟩

/-- **Blocks can be read back** from their concatenation. -/
theorem flatten_inj_of_blocks : ∀ {bs cs : List (List α)}, (∀ b ∈ bs, IsBlock starts b) →
    (∀ c ∈ cs, IsBlock starts c) → bs.flatten = cs.flatten → bs = cs := by
  intro bs
  induction bs with
  | nil =>
      intro cs _ hcs heq
      cases cs with
      | nil => rfl
      | cons c cs =>
          have hc := hcs c List.mem_cons_self
          cases c with
          | nil => exact hc.elim
          | cons a tail => cases heq
  | cons b bs ih =>
      intro cs hbs hcs heq
      have hb := hbs b List.mem_cons_self
      cases b with
      | nil => exact hb.elim
      | cons a tail =>
          cases cs with
          | nil => cases heq
          | cons c cs =>
              have hc := hcs c List.mem_cons_self
              cases c with
              | nil => exact hc.elim
              | cons a' tail' =>
                  have hbs' : ∀ b ∈ bs, IsBlock starts b :=
                    fun b hb => hbs b (List.mem_cons_of_mem _ hb)
                  have hcs' : ∀ c ∈ cs, IsBlock starts c :=
                    fun c hc => hcs c (List.mem_cons_of_mem _ hc)
                  simp only [List.flatten_cons, List.cons_append, List.cons.injEq] at heq
                  obtain ⟨rfl, hrest⟩ := heq
                  obtain ⟨rfl, hflat⟩ := append_inj_of_starts hb.2 hc.2
                    (flatten_head_starts hbs') (flatten_head_starts hcs') hrest
                  rw [ih hbs' hcs' hflat]

end Blocks

/-! ### Case tables -/

/-- The upper- and lower-case tables.  A letter can become several; within ASCII it becomes the one
letter everybody expects, and no capital form begins with an ASCII small letter. -/
structure Casing where
  upper : Char → List Char
  lower : Char → List Char
  upper_ascii : ∀ c : Char, c.isLower = true → upper c = [c.toUpper]
  lower_ascii : ∀ c : Char, c.isUpper = true → lower c = [c.toLower]
  upper_head : ∀ c : Char, ∃ d rest, upper c = d :: rest ∧ d.isLower = false

/-- The tables that change nothing outside ASCII. -/
def Casing.ascii : Casing where
  upper c := [c.toUpper]
  lower c := [c.toLower]
  upper_ascii _ _ := rfl
  lower_ascii _ _ := rfl
  upper_head c := ⟨c.toUpper, [], rfl, Char.isLower_toUpper_eq_false c⟩

/-! ### The spelling -/

/-- `WORD_SEPARATORS`. -/
def isSeparator (c : Char) : Bool := c == '.' || c == '_' || c == '-'

/-- The pieces of a wire name.  A run of separators separates once, and empty pieces are dropped. -/
def words (wire : String) : List (List Char) :=
  (wire.toList.splitOnP isSeparator).filter fun w => !w.isEmpty

variable (casing : Casing)

/-- `w.charAt(0).toUpperCase() + w.slice(1)`. -/
def capitalise : List Char → List Char
  | [] => []
  | c :: rest => casing.upper c ++ rest

/-- `hello.ok` becomes `HelloOk`. -/
def pascal (wire : String) : String :=
  String.ofList ((words wire).map (capitalise casing)).flatten

/-- `p.charAt(0).toLowerCase() + p.slice(1)`. -/
def decapitalise : List Char → List Char
  | [] => []
  | c :: rest => casing.lower c ++ rest

/-- `hello.ok` becomes `helloOk`. -/
def camel (wire : String) : String :=
  String.ofList (decapitalise casing (pascal casing wire).toList)

example : pascal .ascii "fs.read.begin" = "FsReadBegin" := by decide

example : camel .ascii "bad_request" = "badRequest" := by decide

/-- Rust keywords that would produce uncompilable field or variant names. -/
def rustKeywords : List String :=
  ["as", "break", "const", "continue", "crate", "dyn", "else", "enum", "extern",
   "false", "fn", "for", "if", "impl", "in", "let", "loop", "match", "mod",
   "move", "mut", "pub", "ref", "return", "self", "Self", "static", "struct",
   "super", "trait", "true", "type", "unsafe", "use", "where", "while", "async",
   "await", "abstract", "become", "box", "do", "final", "macro", "override",
   "priv", "try", "typeof", "unsized", "virtual", "yield"]

def isRustKeyword (name : String) : Bool := rustKeywords.contains name

/-- Swift keywords that need backticks when used as a property name. -/
def swiftKeywords : List String :=
  ["associatedtype", "class", "deinit", "enum", "extension", "fileprivate",
   "func", "import", "init", "inout", "internal", "let", "open", "operator",
   "private", "protocol", "public", "rethrows", "static", "struct", "subscript",
   "typealias", "var", "break", "case", "continue", "default", "defer", "do",
   "else", "fallthrough", "for", "guard", "if", "in", "repeat", "return",
   "switch", "where", "while", "as", "catch", "false", "is", "nil", "super",
   "self", "Self", "throw", "throws", "true", "try", "Type", "Protocol"]

/-- Swift property spelling, backticked when it collides with a keyword. -/
def swiftIdent (name : String) : String :=
  if swiftKeywords.contains name then "`" ++ name ++ "`" else name

/-! ### Keywords -/

/-- Every keyword but `Self` begins with a small letter. -/
theorem rustKeywords_head : ∀ keyword ∈ rustKeywords,
    keyword = "Self" ∨ ∃ c ∈ keyword.toList.head?, c.isLower = true := by
  simp [rustKeywords]

theorem pascal_toList (wire : String) :
    (pascal casing wire).toList = ((words wire).map (capitalise casing)).flatten :=
  String.toList_ofList

theorem words_ne_nil {wire : String} {w : List Char} (h : w ∈ words wire) : w ≠ [] := by
  rintro rfl
  simp [words] at h

/-- No spelling begins with a small letter. -/
theorem pascal_head (wire : String) :
    ∀ c ∈ (pascal casing wire).toList.head?, c.isLower = false := by
  intro c hc
  rw [pascal_toList] at hc
  cases hwords : words wire with
  | nil =>
      rw [hwords] at hc
      cases hc
  | cons w rest =>
      have hmem : w ∈ words wire := by simp [hwords]
      have hne : w ≠ [] := words_ne_nil hmem
      cases w with
      | nil => exact absurd rfl hne
      | cons d tail =>
          obtain ⟨e, more, hupper, hlower⟩ := casing.upper_head d
          rw [hwords] at hc
          obtain rfl : e = c := by simpa [capitalise, hupper] using hc
          exact hlower

/-- **The only keyword a spelling can become is `Self`**. -/
theorem isRustKeyword_pascal_iff (wire : String) :
    isRustKeyword (pascal casing wire) = true ↔ pascal casing wire = "Self" := by
  constructor
  · intro h
    rcases rustKeywords_head _ (List.contains_iff_mem.mp h) with hself | ⟨c, hc, hlower⟩
    · exact hself
    · have hupper := pascal_head casing wire c hc
      rw [hlower] at hupper
      cases hupper
  · intro h
    rw [h]
    decide

/-! ### Plain names -/

/-- A piece that starts with a small letter and has no capital letter. -/
def PlainWord : List Char → Prop
  | [] => False
  | c :: rest => c.isLower = true ∧ ∀ d ∈ rest, d.isUpper = false

instance : DecidablePred PlainWord
  | [] => isFalse id
  | _ :: rest => @instDecidableAnd _ _ _ (List.decidableBAll (fun d => d.isUpper = false) rest)

/-- A name with nothing but plain pieces. -/
def Plain (wire : String) : Prop := ∀ w ∈ words wire, PlainWord w

instance (wire : String) : Decidable (Plain wire) :=
  List.decidableBAll PlainWord (words wire)

/-- A plain piece, capitalised. -/
theorem capitalise_plain {c : Char} {rest : List Char} (h : PlainWord (c :: rest)) :
    capitalise casing (c :: rest) = c.toUpper :: rest := by
  simp [capitalise, casing.upper_ascii c h.1]

/-- A capitalised plain piece is a block that its capital announces. -/
theorem capitalise_isBlock {w : List Char} (h : PlainWord w) :
    IsBlock (fun c => c.isUpper = true) (capitalise casing w) := by
  cases w with
  | nil => exact h.elim
  | cons c rest =>
      rw [capitalise_plain casing h]
      refine ⟨?_, ?_⟩
      · show c.toUpper.isUpper = true
        rw [Char.isUpper_toUpper_eq_isAlpha, Char.isAlpha, h.1, Bool.or_true]
      · intro d hd hupper
        rw [h.2 d hd] at hupper
        cases hupper

/-- The small letter comes back. -/
theorem toLower_toUpper_of_isLower {c : Char} (h : c.isLower = true) : c.toUpper.toLower = c := by
  have hnot : ¬ c.isUpper = true := by
    intro hupper
    simp only [Char.isLower, Char.isUpper, Bool.and_eq_true, decide_eq_true_eq,
      UInt32.le_iff_toNat_le] at h hupper
    have hle : c.val.toNat ≤ 90 := hupper.2
    have hge : 97 ≤ c.val.toNat := h.1
    omega
  rw [Char.toLower_toUpper_eq_toLower, Char.toLower_eq_of_not_isUpper hnot]

/-- Capitalising loses nothing of a plain piece. -/
theorem capitalise_inj {w w' : List Char} (h : PlainWord w) (h' : PlainWord w')
    (heq : capitalise casing w = capitalise casing w') : w = w' := by
  cases w with
  | nil => exact h.elim
  | cons c rest =>
      cases w' with
      | nil => exact h'.elim
      | cons d rest' =>
          rw [capitalise_plain casing h, capitalise_plain casing h', List.cons.injEq] at heq
          rw [← toLower_toUpper_of_isLower h.1, ← toLower_toUpper_of_isLower h'.1, heq.1, heq.2]

theorem map_capitalise_inj : ∀ {ws ws' : List (List Char)}, (∀ w ∈ ws, PlainWord w) →
    (∀ w ∈ ws', PlainWord w) → ws.map (capitalise casing) = ws'.map (capitalise casing) →
    ws = ws' := by
  intro ws
  induction ws with
  | nil =>
      intro ws' _ _ heq
      exact (List.map_eq_nil_iff.mp heq.symm).symm
  | cons w ws ih =>
      intro ws' h h' heq
      cases ws' with
      | nil => cases heq
      | cons w' ws' =>
          rw [List.map_cons, List.map_cons, List.cons.injEq] at heq
          rw [capitalise_inj casing (h w List.mem_cons_self) (h' w' List.mem_cons_self) heq.1,
            ih (fun v hv => h v (List.mem_cons_of_mem _ hv))
              (fun v hv => h' v (List.mem_cons_of_mem _ hv)) heq.2]

/-- **Plain names have one Pascal spelling exactly when they have the same pieces**: only the choice
of separators is lost. -/
theorem pascal_eq_iff {wire wire' : String} (h : Plain wire) (h' : Plain wire') :
    pascal casing wire = pascal casing wire' ↔ words wire = words wire' := by
  constructor
  · intro heq
    have hflat : ((words wire).map (capitalise casing)).flatten
        = ((words wire').map (capitalise casing)).flatten := by
      rw [← pascal_toList, ← pascal_toList, heq]
    have hblocks : ∀ {name : String}, Plain name →
        ∀ b ∈ (words name).map (capitalise casing), IsBlock (fun c => c.isUpper = true) b := by
      intro name hname b hb
      obtain ⟨w, hw, rfl⟩ := List.mem_map.mp hb
      exact capitalise_isBlock casing (hname w hw)
    exact map_capitalise_inj casing h h' (flatten_inj_of_blocks (hblocks h) (hblocks h') hflat)
  · intro heq
    rw [pascal, pascal, heq]

/-- The camel spelling of a plain name is its Pascal spelling with the first capital taken back. -/
theorem camel_plain {wire : String} (h : Plain wire) :
    ((pascal casing wire).toList = [] ∧ (camel casing wire).toList = []) ∨
      ∃ c rest, c.isLower = true ∧ (pascal casing wire).toList = c.toUpper :: rest
        ∧ (camel casing wire).toList = c :: rest := by
  rw [camel, String.toList_ofList]
  cases hwords : words wire with
  | nil =>
      have hnil : (pascal casing wire).toList = [] := by rw [pascal_toList, hwords]; rfl
      exact .inl ⟨hnil, by rw [hnil]; rfl⟩
  | cons w ws =>
      have hw : PlainWord w := h w (by simp [hwords])
      cases w with
      | nil => exact hw.elim
      | cons c rest =>
          have hcons : (pascal casing wire).toList
              = c.toUpper :: (rest ++ (ws.map (capitalise casing)).flatten) := by
            rw [pascal_toList, hwords, List.map_cons, capitalise_plain casing hw]
            rfl
          have hupper : c.toUpper.isUpper = true := by
            rw [Char.isUpper_toUpper_eq_isAlpha, Char.isAlpha, hw.1, Bool.or_true]
          refine .inr ⟨c, _, hw.1, hcons, ?_⟩
          rw [hcons, decapitalise, casing.lower_ascii _ hupper, toLower_toUpper_of_isLower hw.1]
          rfl

/-- **The camel spelling keeps the same names apart** as the Pascal spelling. -/
theorem camel_eq_iff {wire wire' : String} (h : Plain wire) (h' : Plain wire') :
    camel casing wire = camel casing wire' ↔ words wire = words wire' := by
  rw [← pascal_eq_iff casing h h', ← String.toList_inj, ← String.toList_inj]
  rcases camel_plain casing h with ⟨hp, hc⟩ | ⟨c, rest, hlow, hp, hc⟩ <;>
    rcases camel_plain casing h' with ⟨hp', hc'⟩ | ⟨c', rest', hlow', hp', hc'⟩ <;>
    rw [hp, hc, hp', hc']
  · simp
  · simp
  · rw [List.cons.injEq, List.cons.injEq]
    constructor
    · rintro ⟨rfl, rfl⟩
      exact ⟨rfl, rfl⟩
    · rintro ⟨hupper, rfl⟩
      exact ⟨by rw [← toLower_toUpper_of_isLower hlow, hupper, toLower_toUpper_of_isLower hlow'],
        rfl⟩

/-- A camel spelling of a plain name does not begin with a backtick. -/
theorem camel_head_ne {wire : String} (h : Plain wire) :
    (camel casing wire).toList.head? ≠ some '`' := by
  rcases camel_plain casing h with ⟨-, hc⟩ | ⟨c, rest, hlow, -, hc⟩ <;> rw [hc]
  · simp
  · rintro heq
    obtain rfl : c = '`' := by simpa using heq
    revert hlow
    decide

/-- Backticks keep names apart that do not begin with one. -/
theorem swiftIdent_inj {name name' : String} (h : name.toList.head? ≠ some '`')
    (h' : name'.toList.head? ≠ some '`') : swiftIdent name = swiftIdent name' ↔ name = name' := by
  have hquoted : ∀ n : String, ("`" ++ n ++ "`").toList.head? = some '`' := fun n => by
    simp [String.toList_append]
  refine ⟨fun heq => ?_, fun heq => by rw [heq]⟩
  unfold swiftIdent at heq
  split at heq <;> split at heq
  · have hlist := congrArg String.toList heq
    simpa [String.toList_append, String.toList_inj] using hlist
  · exact absurd (heq ▸ hquoted name) h'
  · exact absurd (heq ▸ hquoted name') h
  · exact heq

end Osprey.Proto
