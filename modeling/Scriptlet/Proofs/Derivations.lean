import Mathlib.Data.List.Forall2
import Mathlib.Data.List.Nodup
import Scriptlet.Proofs.Grammar
import Scriptlet.Tree.Parser.Statement

/-!
# Derivations

What a parser needs to know of the grammar: which token is meant by a spelling, at which tokens an expression
begins, and how phrases that are left recursive are read from left to right. An `else` can always be given to
the nearest `if`.
-/
namespace Scriptlet

/-! ## Spellings -/

def Symbol.all : List Symbol :=
  [.leftParen, .rightParen, .leftBrace, .rightBrace, .leftBracket, .rightBracket, .comma, .dot, .minus, .plus,
    .semicolon, .colon, .slash, .star, .modulo, .exponent, .bang, .bangEqual, .equal, .equalEqual, .greater,
    .greaterEqual, .less, .lessEqual, .shiftLeft, .shiftRight]

theorem Symbol.mem_all (s : Symbol) : s ∈ Symbol.all := by
  cases s <;> decide

namespace Token

/-- The kinds of token that have a spelling. -/
def Kind.spelled : List Kind := Symbol.all.map .symbol ++ Keyword.all.map .keyword

theorem Kind.mem_spelled {k : Kind} {text : String} (h : k.spelling? = some text) : k ∈ spelled := by
  cases k with
  | symbol s => exact List.mem_append_left _ (List.mem_map_of_mem s.mem_all)
  | keyword w => exact List.mem_append_right _ (List.mem_map_of_mem w.mem_all)
  | _ => cases h

theorem Kind.nodup_spelling : (Kind.spelled.map Kind.spelling?).Nodup := by decide +kernel

/-- No two kinds of token have the same spelling. -/
theorem Kind.eq_of_spelling {k k' : Kind} {text : String} (h : k.spelling? = some text)
    (h' : k'.spelling? = some text) : k = k' :=
  List.inj_on_of_nodup_map nodup_spelling (mem_spelled h) (mem_spelled h') (h.trans h'.symm)

theorem spells_symbol {t : Token} {s : Symbol} : t.Spells s.text ↔ t.kind = .symbol s :=
  ⟨fun h => Kind.eq_of_spelling h rfl, fun h => congrArg Kind.spelling? h⟩

theorem spells_keyword {t : Token} {w : Keyword} : t.Spells w.text ↔ t.kind = .keyword w :=
  ⟨fun h => Kind.eq_of_spelling h rfl, fun h => congrArg Kind.spelling? h⟩

theorem Spells.unique {t : Token} {text text' : String} (h : t.Spells text) (h' : t.Spells text') :
    text = text' :=
  Option.some.inj (h.symm.trans h')

/-- A token with a property of its kind is not of a kind without it. -/
theorem not_spells_of {t : Token} {property : Kind → Bool} (ht : property t.kind = true) {k : Kind}
    {text : String} (hk : k.spelling? = some text) (hproperty : property k = false) : ¬t.Spells text := by
  intro hs
  rw [Kind.eq_of_spelling hs hk, hproperty] at ht
  cases ht

theorem isEnd_iff {t : Token} : t.isEnd = true ↔ t.kind = .endOfInput := by
  unfold isEnd
  split <;> simp_all

theorem Spells.kind_ne {t : Token} {text : String} (h : t.Spells text) : t.kind ≠ .endOfInput := by
  intro he
  rw [Spells, he] at h
  cases h

theorem Spells.not_end {t : Token} {text : String} (h : t.Spells text) : t.isEnd = false := by
  rw [Bool.eq_false_iff, Ne, isEnd_iff]
  exact h.kind_ne

end Token

namespace Parser

/-! ## Operators -/

/-- The entries of the table are spelled like their meanings, which are the texts of the level. -/
def SpeltBy {β : Type} (text : β → String) (table : List (Token.Kind × β)) (level : List String) : Prop :=
  table.map (fun entry => (entry.1.spelling?, text entry.2)) = level.map fun word => (some word, word)

theorem SpeltBy.lookup_iff {β : Type} {text : β → String} (hinj : Function.Injective text)
    {table : List (Token.Kind × β)} {level : List String} (h : SpeltBy text table level) {kind : Token.Kind}
    {op : β} : table.lookup kind = some op ↔ text op ∈ level ∧ kind.spelling? = some (text op) := by
  have entries : ∀ entry ∈ table, text entry.2 ∈ level ∧ entry.1.spelling? = some (text entry.2) := by
    intro entry hentry
    have mem := List.mem_map_of_mem (f := fun entry => (entry.1.spelling?, text entry.2)) hentry
    rw [h] at mem
    obtain ⟨word, hword, heq⟩ := List.mem_map.1 mem
    obtain ⟨hs, ht⟩ := Prod.mk.inj heq
    exact ⟨ht ▸ hword, by rw [← hs, ← ht]⟩
  have found : ∀ op', table.lookup kind = some op' → (kind, op') ∈ table := by
    intro op' hop
    obtain ⟨before, after, htable, -⟩ := List.lookup_eq_some_iff.1 hop
    rw [htable]
    exact List.mem_append_right _ (List.mem_cons_self ..)
  constructor
  · exact fun hop => entries _ (found op hop)
  · rintro ⟨hmem, hkind⟩
    have mem := List.mem_map_of_mem (f := fun word => (some word, word)) hmem
    rw [← h] at mem
    obtain ⟨entry, hentry, heq⟩ := List.mem_map.1 mem
    have hk : entry.1 = kind := Token.Kind.eq_of_spelling (Prod.mk.inj heq).1 hkind
    cases hop : table.lookup kind with
    | none =>
      have := List.lookup_eq_none_iff.1 hop entry hentry
      simp [hk] at this
    | some op' =>
      have spelled := (entries _ (found op' hop)).2
      exact congrArg some (hinj (Option.some.inj (spelled.symm.trans hkind)))

theorem Infix.text_injective : Function.Injective Infix.text := by
  have nodup : ((tiers.flatten.map Prod.snd).map Infix.text).Nodup := by decide +kernel
  have mem : ∀ op, op ∈ tiers.flatten.map Prod.snd := by
    rintro (op | op) <;> cases op <;> decide +kernel
  exact fun op op' h => List.inj_on_of_nodup_map nodup (mem op) (mem op') h

theorem tiers_spelt : List.Forall₂ (SpeltBy Infix.text) tiers Grammar.levels := by
  simp only [tiers, Grammar.levels, List.forall₂_cons, List.forall₂_nil_left_iff]
  exact ⟨rfl, rfl, rfl, rfl, rfl, rfl, rfl, rfl, rfl, rfl, rfl, trivial⟩

theorem signs_lookup_iff {kind : Token.Kind} {op : UnaryOp} :
    signs.lookup kind = some op ↔ kind.spelling? = some op.text := by
  have hinj : Function.Injective UnaryOp.text := by
    intro op op' h
    cases op <;> cases op' <;> first | rfl | exact absurd h (by decide)
  have hspelt : SpeltBy UnaryOp.text signs ["!", "-"] := rfl
  have hmem : op.text ∈ ["!", "-"] := by cases op <;> decide
  rw [hspelt.lookup_iff hinj, and_iff_right hmem]

end Parser

/-! ## Trees without identities -/

theorem Expr.listBare_eq (es : List Expr) : listBare es = es.map bare := by
  induction es with
  | nil => rfl
  | cons e es ih => rw [listBare, ih, List.map_cons]

theorem Stmt.listBare_eq (ss : List Stmt) : listBare ss = ss.map bare := by
  induction ss with
  | nil => rfl
  | cons s ss ih => rw [listBare, ih, List.map_cons]

theorem Stmt.routinesBare_eq (ds : List FunctionDecl) : routinesBare ds = ds.map routineBare := by
  induction ds with
  | nil => rfl
  | cons d ds ih => rw [routinesBare, ih, List.map_cons]

namespace Parser

theorem Infix.bare_join (op : Infix) (line : Nat) (l r : Expr) :
    (op.join line l r).bare = op.join line l.bare r.bare := by
  cases op <;> rw [Infix.join, Expr.bare, Infix.join]

open Grammar in
theorem bare_forLoop {start start' : Option Stmt} {condition condition' increment increment' : Option Expr}
    {body body' : Stmt} (hs : start'.map Stmt.bare = start.map Stmt.bare)
    (hc : condition'.map Expr.bare = condition.map Expr.bare)
    (hi : increment'.map Expr.bare = increment.map Expr.bare) (hb : body'.bare = body.bare) :
    (forLoop start' condition' increment' body').bare = (forLoop start condition increment body).bare := by
  have getD : ∀ c : Option Expr, (c.getD (.literal (.bool true))).bare =
      (c.map Expr.bare).getD (.literal (.bool true)) := by
    intro c
    cases c with
    | none => rw [Option.getD_none, Expr.bare]; rfl
    | some c => rfl
  cases start' with
  | none =>
    cases start with
    | none => simp only [forLoop, Stmt.bare, getD, hc, hi, hb]
    | some s => cases hs
  | some s' =>
    cases start with
    | none => cases hs
    | some s => simp only [forLoop, Stmt.bare, Stmt.listBare, getD, hc, hi, hb, Option.some.inj hs]

end Parser

/-! ## First tokens -/

/-- An expression can begin with the token. -/
def Token.Kind.beginsExpression : Token.Kind → Bool
  | .identifier | .string _ | .number _ | .keyword .true | .keyword .false | .keyword .null | .keyword .this
  | .keyword .super | .symbol .leftParen | .symbol .leftBracket | .symbol .bang | .symbol .minus => true
  | _ => false

/-- A statement can begin with the token. -/
def Token.Kind.beginsStatement : Token.Kind → Bool
  | .keyword .for | .keyword .if | .keyword .while | .keyword .do | .keyword .print | .keyword .return
  | .keyword .break | .keyword .continue | .symbol .leftBrace => true
  | k => k.beginsExpression

/-- A declaration can begin with the token. -/
def Token.Kind.beginsDeclaration : Token.Kind → Bool
  | .keyword .classWord | .keyword .fun | .keyword .let | .keyword .const | .keyword .import => true
  | k => k.beginsStatement

/-- A member of a class can begin with the token. -/
def Token.Kind.beginsMember : Token.Kind → Bool
  | .identifier | .keyword .static => true
  | _ => false

theorem Token.Kind.beginsStatement_of_expression {k : Kind} (h : k.beginsExpression = true) :
    k.beginsStatement = true := by
  unfold beginsStatement
  split
  iterate 9 rfl
  exact h

theorem Token.Kind.beginsDeclaration_of_statement {k : Kind} (h : k.beginsStatement = true) :
    k.beginsDeclaration = true := by
  unfold beginsDeclaration
  split
  iterate 5 rfl
  exact h

namespace Grammar

/-- The first of the tokens is of such a kind. -/
def StartsWith (property : Token.Kind → Bool) (ts : List Token) : Prop :=
  ∃ t us, ts = t :: us ∧ property t.kind = true

namespace StartsWith

variable {property : Token.Kind → Bool} {ts : List Token}

theorem append (h : StartsWith property ts) (us : List Token) : StartsWith property (ts ++ us) := by
  obtain ⟨t, rest, rfl, ht⟩ := h
  exact ⟨t, rest ++ us, rfl, ht⟩

theorem of_kind {t : Token} {k : Token.Kind} (ht : t.kind = k) (h : property k = true) (us : List Token) :
    StartsWith property (t :: us) :=
  ⟨t, us, rfl, by rwa [ht]⟩

theorem of_spells {t : Token} {k : Token.Kind} {text : String} (ht : t.Spells text)
    (hk : k.spelling? = some text) (h : property k = true) (us : List Token) : StartsWith property (t :: us) :=
  of_kind (Token.Kind.eq_of_spelling ht hk) h us

theorem mono {property' : Token.Kind → Bool} (h : StartsWith property ts)
    (himp : ∀ {k}, property k = true → property' k = true) : StartsWith property' ts := by
  obtain ⟨t, us, rfl, ht⟩ := h
  exact ⟨t, us, rfl, himp ht⟩

theorem ne_nil (h : StartsWith property ts) : ts ≠ [] := by
  obtain ⟨t, us, rfl, -⟩ := h
  exact List.cons_ne_nil t us

end StartsWith

theorem beginsExpression_of_literal {k : Token.Kind} {v : Literal} (h : k.literal? = some v) :
    k.beginsExpression = true := by
  unfold Token.Kind.literal? at h
  split at h <;> first | rfl | cases h

theorem Derives.starts {p : Phrase} {ts : List Token} (h : Derives p ts) :
    StartsWith Token.Kind.beginsExpression ts ∨ p = .arguments [] := by
  induction h with
  | assign id ht | identifier id ht => exact .inl (.of_kind ht rfl _)
  | set _ _ _ _ _ ih => exact .inl ((ih.resolve_right (nomatch ·)).append _)
  | value _ ih | operand _ ih | tighter _ ih | unsigned _ ih | first _ ih | lastArgument _ ih =>
    exact .inl (ih.resolve_right (nomatch ·))
  | join _ _ _ _ ih | invoke _ _ _ _ _ ih | get _ _ _ ih | argument _ _ _ _ ih =>
    exact .inl ((ih.resolve_right (nomatch ·)).append _)
  | @sign op _ _ _ ht =>
    cases op with
    | negate => exact .inl (.of_spells (k := .symbol .minus) ht rfl rfl _)
    | not => exact .inl (.of_spells (k := .symbol .bang) ht rfl rfl _)
  | literal ht => exact .inl (.of_kind rfl (beginsExpression_of_literal ht) _)
  | this id ht => exact .inl (.of_spells (k := .keyword .this) ht rfl rfl _)
  | group ht => exact .inl (.of_spells (k := .symbol .leftParen) ht rfl rfl _)
  | array ht => exact .inl (.of_spells (k := .symbol .leftBracket) ht rfl rfl _)
  | super id ht => exact .inl (.of_spells (k := .keyword .super) ht rfl rfl _)
  | noArgument => exact .inr rfl

theorem Derives.expression_starts {e : Expr} {ts : List Token} (h : Derives (.expression e) ts) :
    StartsWith Token.Kind.beginsExpression ts :=
  h.starts.resolve_right (nomatch ·)

/-! ## Reading from left to right -/

/-- Operators of a level with their right operands, joined to the tree before them. -/
inductive Chain (level : List String) (rows : List (List String)) : Expr → List Token → Expr → Prop where
  | done {e : Expr} : Chain level rows e [] e
  | more {l r e : Expr} {op : Parser.Infix} {t : Token} {us vs : List Token} : op.text ∈ level →
    t.Spells op.text → Derives (.level rows r) us → Chain level rows (op.join t.line l r) vs e →
    Chain level rows l (t :: (us ++ vs)) e

section Chains

variable {level : List String} {rows : List (List String)} {l r e : Expr} {ts us vs : List Token}

theorem Chain.trans (h : Chain level rows l ts r) (h' : Chain level rows r us e) :
    Chain level rows l (ts ++ us) e := by
  induction h with
  | done => exact h'
  | more hop ht hr _ ih =>
    rw [List.cons_append, List.append_assoc]
    exact .more hop ht hr (ih h')

/-- Operands of one level are a first operand and a chain. -/
theorem Derives.chain (h : Derives (.level (level :: rows) e) ts) :
    ∃ l us vs, ts = us ++ vs ∧ Derives (.level rows l) us ∧ Chain level rows l vs e := by
  generalize hp : Phrase.level (level :: rows) e = p at h
  induction h generalizing e with
  | tighter h =>
    cases hp
    exact ⟨_, _, [], (List.append_nil _).symm, h, .done⟩
  | @join l' r _ _ _ _ _ _ _ hop ht hr ih =>
    cases hp
    obtain ⟨l, us, vs, rfl, hl, hc⟩ := ih rfl
    have last := Chain.more (l := l') hop ht hr .done
    rw [List.append_nil] at last
    exact ⟨l, us, _, List.append_assoc .., hl, hc.trans last⟩
  | _ => cases hp

theorem Chain.derives (h : Chain level rows l us e) (hl : Derives (.level (level :: rows) l) ts) :
    Derives (.level (level :: rows) e) (ts ++ us) := by
  induction h generalizing ts with
  | done => rwa [List.append_nil]
  | more hop ht hr _ ih =>
    have := ih (.join hl hop ht hr)
    rwa [List.append_assoc] at this

end Chains

/-- Calls and property reads behind a tree. -/
inductive Suffixes : Expr → List Token → Expr → Prop where
  | done {e : Expr} : Suffixes e [] e
  | invoke {f e : Expr} {es : List Expr} {opening closing : Token} {us vs : List Token} :
    opening.Spells "(" → Derives (.arguments es) us → es.length ≤ longest → closing.Spells ")" →
    Suffixes (.call f closing.line es) vs e → Suffixes f (opening :: (us ++ closing :: vs)) e
  | get {o e : Expr} {dot t : Token} {vs : List Token} : dot.Spells "." → t.kind = .identifier →
    Suffixes (.get o t.name) vs e → Suffixes o (dot :: t :: vs) e

section Calls

variable {f e : Expr} {ts us : List Token}

theorem Suffixes.trans {g : Expr} (h : Suffixes f ts g) (h' : Suffixes g us e) :
    Suffixes f (ts ++ us) e := by
  induction h with
  | done => exact h'
  | invoke ho hes hl hc _ ih =>
    rw [List.cons_append, List.append_assoc]
    exact .invoke ho hes hl hc (ih h')
  | get hd ht _ ih => exact .get hd ht (ih h')

/-- A call is a primary expression with suffixes. -/
theorem Derives.suffixes (h : Derives (.call e) ts) :
    ∃ f us vs, ts = us ++ vs ∧ Derives (.primary f) us ∧ Suffixes f vs e := by
  generalize hp : Phrase.call e = p at h
  induction h generalizing e with
  | first h =>
    cases hp
    exact ⟨_, _, [], (List.append_nil _).symm, h, .done⟩
  | invoke _ ho hes hl hc ih =>
    cases hp
    obtain ⟨f, us, vs, rfl, hf, hs⟩ := ih rfl
    exact ⟨f, us, _, List.append_assoc .., hf, hs.trans (.invoke ho hes hl hc .done)⟩
  | get _ hd ht ih =>
    cases hp
    obtain ⟨f, us, vs, rfl, hf, hs⟩ := ih rfl
    exact ⟨f, us, _, List.append_assoc .., hf, hs.trans (.get hd ht .done)⟩
  | _ => cases hp

theorem Suffixes.derives (h : Suffixes f us e) (hf : Derives (.call f) ts) :
    Derives (.call e) (ts ++ us) := by
  induction h generalizing ts with
  | done => rwa [List.append_nil]
  | invoke ho hes hl hc _ ih =>
    have := ih (.invoke hf ho hes hl hc)
    simpa using this
  | get hd ht _ ih =>
    have := ih (.get hf hd ht)
    simpa using this

/-- No call begins with a sign. -/
theorem Derives.call_starts (h : Derives (.call e) ts) :
    StartsWith (fun k => (Parser.signs.lookup k).isNone) ts := by
  obtain ⟨f, us, vs, rfl, hf, -⟩ := h.suffixes
  refine .append ?_ vs
  cases hf with
  | literal ht =>
    refine .of_kind rfl ?_ _
    unfold Token.Kind.literal? at ht
    split at ht
    iterate 5 next hk => rw [hk]; rfl
    cases ht
  | this id ht => exact .of_spells (k := .keyword .this) ht rfl rfl _
  | identifier id ht => exact .of_kind ht rfl _
  | group ht => exact .of_spells (k := .symbol .leftParen) ht rfl rfl _
  | array ht => exact .of_spells (k := .symbol .leftBracket) ht rfl rfl _
  | super id ht => exact .of_spells (k := .keyword .super) ht rfl rfl _

theorem Derives.level_of_call (h : Derives (.call e) ts) (rows : List (List String)) :
    Derives (.level rows e) ts := by
  induction rows with
  | nil => exact .operand (.unsigned h)
  | cons level rows ih => exact .tighter ih

theorem Derives.of_identifier {t : Token} (id : NodeId) (ht : t.kind = .identifier)
    (rows : List (List String)) : Derives (.level rows (.variable ⟨id, t.name⟩)) [t] :=
  (Derives.first (.identifier id ht)).level_of_call rows

theorem Derives.separated {es : List Expr} (h : Derives (.arguments es) ts) :
    Separated (fun e => Derives (.expression e)) es ts := by
  generalize hp : Phrase.arguments es = p at h
  induction h generalizing es with
  | noArgument => cases hp; exact .none
  | lastArgument h => cases hp; exact .last h
  | argument h hc _ hne _ ih => cases hp; exact .more h hc (ih rfl) hne
  | _ => cases hp

theorem Separated.derives {es : List Expr} (h : Separated (fun e => Derives (.expression e)) es ts) :
    Derives (.arguments es) ts := by
  induction h with
  | none => exact .noArgument
  | last h => exact .lastArgument h
  | more h hc _ hne ih => exact .argument h hc ih hne

section Items

variable {α : Type} {Item : α → List Token → Prop} {as : List α}

theorem Separated.length_le (h : Separated Item as ts) (hne : ∀ a ts, Item a ts → ts ≠ []) :
    as.length ≤ ts.length := by
  induction h with
  | none => exact Nat.le_refl 0
  | last ha => exact List.length_pos_iff.2 (hne _ _ ha)
  | more ha _ _ _ ih =>
    have := List.length_pos_iff.2 (hne _ _ ha)
    simp only [List.length_append, List.length_cons]
    omega

/-- No item is longer than the whole. -/
theorem Separated.bounded {k : Nat} (h : Separated Item as ts) (hk : ts.length < k) :
    Separated (fun a us => Item a us ∧ us.length < k) as ts := by
  induction h with
  | none => exact .none
  | last ha => exact .last ⟨ha, hk⟩
  | more ha hc _ hne ih =>
    simp only [List.length_append, List.length_cons] at hk
    exact .more ⟨ha, by omega⟩ hc (ih (by omega)) hne

end Items

/-- Items one after another. -/
inductive Sequence {α : Type} (Item : α → List Token → Prop) : List α → List Token → Prop where
  | nil : Sequence Item [] []
  | cons {a : α} {as : List α} {ts us : List Token} : Item a ts → Sequence Item as us →
    Sequence Item (a :: as) (ts ++ us)

section Items

variable {α : Type} {Item : α → List Token → Prop} {as : List α}

theorem Sequence.length_le (h : Sequence Item as ts) (hne : ∀ a ts, Item a ts → ts ≠ []) :
    as.length ≤ ts.length := by
  induction h with
  | nil => exact Nat.le_refl 0
  | cons ha _ ih =>
    have := List.length_pos_iff.2 (hne _ _ ha)
    simp only [List.length_append, List.length_cons]
    omega

theorem Sequence.bounded {k : Nat} (h : Sequence Item as ts) (hk : ts.length < k) :
    Sequence (fun a us => Item a us ∧ us.length < k) as ts := by
  induction h with
  | nil => exact .nil
  | cons ha _ ih =>
    rw [List.length_append] at hk
    exact .cons ⟨ha, by omega⟩ (ih (by omega))

end Items

/-! ## Targets of assignments -/

theorem Derives.unary_of_level {rows : List (List String)}
    (hjoin : ∀ (op : Parser.Infix) line l r, e ≠ op.join line l r) (h : Derives (.level rows e) ts) :
    Derives (.unary e) ts := by
  induction rows with
  | nil => cases h with | operand h => exact h
  | cons level rows ih =>
    generalize hp : Phrase.level (level :: rows) e = p at h
    cases h with
    | tighter h => cases hp; exact ih h
    | join => cases hp; exact absurd rfl (hjoin _ _ _ _)
    | _ => cases hp

/-- A variable is an identifier alone. -/
theorem Derives.of_variable {rows : List (List String)} {v : Variable}
    (h : Derives (.level rows (.variable v)) ts) : Identifier v.name ts := by
  have hu := h.unary_of_level fun op _ _ _ => by cases op <;> exact (nomatch ·)
  cases hu with
  | unsigned hc =>
    cases hc with
    | first hp => cases hp with | identifier id ht => exact ⟨ht⟩

/-- A property read is a call with a dot and an identifier behind it. -/
theorem Derives.of_get {rows : List (List String)} {o : Expr} {name : Name}
    (h : Derives (.level rows (.get o name)) ts) :
    ∃ us dot t, ts = us ++ [dot, t] ∧ Derives (.call o) us ∧ dot.Spells "." ∧ t.kind = .identifier ∧
      name = t.name := by
  have hu := h.unary_of_level fun op _ _ _ => by cases op <;> exact (nomatch ·)
  cases hu with
  | unsigned hc =>
    cases hc with
    | first hp => cases hp
    | get ho hd ht => exact ⟨_, _, _, rfl, ho, hd, ht, rfl⟩

end Calls

/-! ## Statements -/

section Statements

variable {nearest : Bool} {s : Stmt} {ts : List Token}

theorem Builds.exprStmt_starts (h : Builds nearest (.exprStmt s) ts) :
    StartsWith Token.Kind.beginsExpression ts := by
  cases h with
  | exprStmt he => exact he.expression_starts.append _

theorem Builds.statement_starts {d : Bool} (h : Builds nearest (.statement d s) ts) :
    StartsWith Token.Kind.beginsStatement ts := by
  cases h with
  | expression h => exact h.exprStmt_starts.mono Token.Kind.beginsStatement_of_expression
  | forStmt hw => exact .of_spells (k := .keyword .for) hw rfl rfl _
  | ifThen hw | ifElse hw => exact .of_spells (k := .keyword .if) hw rfl rfl _
  | whileStmt hw => exact .of_spells (k := .keyword .while) hw rfl rfl _
  | doWhile hw => exact .of_spells (k := .keyword .do) hw rfl rfl _
  | printStmt hw => exact .of_spells (k := .keyword .print) hw rfl rfl _
  | returnStmt hw => exact .of_spells (k := .keyword .return) hw rfl rfl _
  | breakStmt hw => exact .of_spells (k := .keyword .break) hw rfl rfl _
  | continueStmt hw => exact .of_spells (k := .keyword .continue) hw rfl rfl _
  | block ho => exact .of_spells (k := .symbol .leftBrace) ho rfl rfl _

theorem Builds.declaration_starts (h : Builds nearest (.declaration s) ts) :
    StartsWith Token.Kind.beginsDeclaration ts := by
  cases h with
  | classDecl hw => exact .of_spells (k := .keyword .classWord) hw rfl rfl _
  | funDecl hw => exact .of_spells (k := .keyword .fun) hw rfl rfl _
  | variableDecl h =>
    cases h with
    | letDecl hw => exact .of_spells (k := .keyword .let) hw rfl rfl _
  | constDecl hw => exact .of_spells (k := .keyword .const) hw rfl rfl _
  | importStmt hw => exact .of_spells (k := .keyword .import) hw rfl rfl _
  | plain h => exact h.statement_starts.mono Token.Kind.beginsDeclaration_of_statement

theorem Sequence.declarations {ss : List Stmt}
    (h : Sequence (fun s => Builds nearest (.declaration s)) ss ts) :
    Builds nearest (.declarations ss) ts := by
  induction h with
  | nil => exact .noDeclaration
  | cons hs _ ih => exact .declarations hs ih

theorem Builds.sequence {ss : List Stmt} (h : Builds nearest (.declarations ss) ts) :
    Sequence (fun s => Builds nearest (.declaration s)) ss ts := by
  generalize hc : Clause.declarations ss = c at h
  induction h generalizing ss with
  | noDeclaration => cases hc; exact .nil
  | declarations hs _ _ ih => cases hc; exact .cons hs (ih rfl)
  | _ => cases hc

/-- A member of a class, with the word `static` if it is one. -/
inductive BuildsMember (nearest : Bool) : Parser.Member → List Token → Prop where
  | method {d : FunctionDecl} {ts : List Token} : Builds nearest (.function d) ts →
    BuildsMember nearest (.method d) ts
  | static {d : FunctionDecl} {word : Token} {ts : List Token} : word.Spells "static" →
    Builds nearest (.function d) ts → BuildsMember nearest (.static d) (word :: ts)

theorem BuildsMember.starts {m : Parser.Member} (h : BuildsMember nearest m ts) :
    StartsWith Token.Kind.beginsMember ts := by
  cases h with
  | method h => cases h with | function ht => exact .of_kind ht rfl _
  | static hw => exact .of_spells (k := .keyword .static) hw rfl rfl _

theorem Sequence.members {ms : List Parser.Member} (h : Sequence (BuildsMember nearest) ms ts) :
    Builds nearest (.members (ms.filterMap Parser.Member.method?) (ms.filterMap Parser.Member.static?)) ts := by
  induction h with
  | nil => exact .noMember
  | cons hm _ ih =>
    cases hm with
    | method h => exact .method h ih
    | static hw h => exact .staticMethod hw h ih

theorem Builds.memberSequence {methods statics : List FunctionDecl}
    (h : Builds nearest (.members methods statics) ts) :
    ∃ ms, Sequence (BuildsMember nearest) ms ts ∧ methods = ms.filterMap Parser.Member.method? ∧
      statics = ms.filterMap Parser.Member.static? := by
  generalize hc : Clause.members methods statics = c at h
  induction h generalizing methods statics with
  | noMember => cases hc; exact ⟨[], .nil, rfl, rfl⟩
  | method hd _ _ ih =>
    cases hc
    obtain ⟨ms, hms, rfl, rfl⟩ := ih rfl
    exact ⟨.method _ :: ms, .cons (.method hd) hms, rfl, rfl⟩
  | staticMethod hw hd _ _ ih =>
    cases hc
    obtain ⟨ms, hms, rfl, rfl⟩ := ih rfl
    exact ⟨.static _ :: ms, .cons (.static hw hd) hms, rfl, rfl⟩
  | _ => cases hc

end Statements

/-! ## The nearest `if` -/

/-- An `else` behind a dangling statement belongs to the last `if` of the statement. -/
theorem Builds.attach {s t : Stmt} {d : Bool} {other : Token} {ts us : List Token}
    (h : Builds true (.statement true s) ts) (ho : other.Spells "else")
    (ht : Builds true (.statement d t) us) :
    ∃ d' s', Builds true (.statement d' s') (ts ++ other :: us) := by
  generalize hc : Clause.statement true s = c at h
  induction h generalizing s with
  | @ifThen word opening closing c s dangling ts vs hw hopen hcond hclose hs ih =>
    cases dangling with
    | false => exact ⟨d, _, by simpa using .ifElse hw hopen hcond hclose hs (fun _ => rfl) ho ht⟩
    | true =>
      obtain ⟨d', s', h'⟩ := ih rfl
      exact ⟨true, _, by simpa using .ifThen hw hopen hcond hclose h'⟩
  | ifElse hw hopen hcond hclose hs hinner helse _ _ ih =>
    cases hc
    obtain ⟨d', s', h'⟩ := ih rfl
    exact ⟨d', _, by simpa using .ifElse hw hopen hcond hclose hs hinner helse h'⟩
  | whileStmt hw hopen hcond hclose _ ih =>
    cases hc
    obtain ⟨d', s', h'⟩ := ih rfl
    exact ⟨d', _, by simpa using .whileStmt hw hopen hcond hclose h'⟩
  | forStmt hw hopen hstart hcond hsemi hinc hclose _ _ ih =>
    cases hc
    obtain ⟨d', s', h'⟩ := ih rfl
    exact ⟨d', _, by simpa using .forStmt hw hopen hstart hcond hsemi hinc hclose h'⟩
  | _ => cases hc

/-- A clause of the same sort is derived with every `else` at its nearest `if`. -/
def Clause.Nearest (ts : List Token) : Clause → Prop
  | .declarations _ => ∃ ss, Builds true (.declarations ss) ts
  | .declaration _ => ∃ s, Builds true (.declaration s) ts
  | .statement _ _ => ∃ d s, Builds true (.statement d s) ts
  | .letDecl _ => ∃ s, Builds true (.letDecl s) ts
  | .exprStmt _ => ∃ s, Builds true (.exprStmt s) ts
  | .start _ => ∃ s, Builds true (.start s) ts
  | .function _ => ∃ d, Builds true (.function d) ts
  | .members _ _ => ∃ methods statics, Builds true (.members methods statics) ts

/-- What is derived is also derived with every `else` at its nearest `if`. -/
theorem Builds.nearest {c : Clause} {ts : List Token} (h : Builds false c ts) : c.Nearest ts := by
  induction h with
  | noDeclaration => exact ⟨_, .noDeclaration⟩
  | declarations _ _ ih ih' =>
    obtain ⟨s, hs⟩ := ih
    obtain ⟨ss, hss⟩ := ih'
    exact ⟨_, .declarations hs hss⟩
  | classDecl hw ht hsuper ho _ hc ih =>
    obtain ⟨methods, statics, hm⟩ := ih
    exact ⟨_, .classDecl hw ht hsuper ho hm hc⟩
  | funDecl hw _ ih =>
    obtain ⟨d, hd⟩ := ih
    exact ⟨_, .funDecl hw hd⟩
  | variableDecl _ ih =>
    obtain ⟨s, hs⟩ := ih
    exact ⟨_, .variableDecl hs⟩
  | constDecl hw ht he hd hs => exact ⟨_, .constDecl hw ht he hd hs⟩
  | importStmt hw ht hs => exact ⟨_, .importStmt hw ht hs⟩
  | plain _ ih =>
    obtain ⟨d, s, hs⟩ := ih
    exact ⟨_, .plain hs⟩
  | letDecl hw ht hi hs => exact ⟨_, .letDecl hw ht hi hs⟩
  | exprStmt he hs => exact ⟨_, .exprStmt he hs⟩
  | function ht ho hp hl hc hleft _ hright ih =>
    obtain ⟨body, hbody⟩ := ih
    exact ⟨_, .function ht ho hp hl hc hleft hbody hright⟩
  | noMember => exact ⟨_, _, .noMember⟩
  | method _ _ ih ih' =>
    obtain ⟨d, hd⟩ := ih
    obtain ⟨methods, statics, hm⟩ := ih'
    exact ⟨_, _, .method hd hm⟩
  | staticMethod hw _ _ ih ih' =>
    obtain ⟨d, hd⟩ := ih
    obtain ⟨methods, statics, hm⟩ := ih'
    exact ⟨_, _, .staticMethod hw hd hm⟩
  | expression _ ih =>
    obtain ⟨s, hs⟩ := ih
    exact ⟨_, _, .expression hs⟩
  | noStart hs => exact ⟨_, .noStart hs⟩
  | letStart _ ih =>
    obtain ⟨s, hs⟩ := ih
    exact ⟨_, .letStart hs⟩
  | exprStart _ ih =>
    obtain ⟨s, hs⟩ := ih
    exact ⟨_, .exprStart hs⟩
  | forStmt hw ho _ hcond hs hinc hc _ ih ih' =>
    obtain ⟨start, hstart⟩ := ih
    obtain ⟨d, body, hbody⟩ := ih'
    exact ⟨_, _, .forStmt hw ho hstart hcond hs hinc hc hbody⟩
  | ifThen hw ho hcond hc _ ih =>
    obtain ⟨d, s, hs⟩ := ih
    exact ⟨_, _, .ifThen hw ho hcond hc hs⟩
  | ifElse hw ho hcond hc _ _ he _ ih ih' =>
    obtain ⟨d, s, hs⟩ := ih
    obtain ⟨d', t, ht⟩ := ih'
    cases d with
    | false => exact ⟨_, _, .ifElse hw ho hcond hc hs (fun _ => rfl) he ht⟩
    | true =>
      -- the branch ends in an `if` without `else`, which is nearer
      obtain ⟨_, s', hs'⟩ := hs.attach he ht
      exact ⟨_, _, .ifThen hw ho hcond hc hs'⟩
  | whileStmt hw ho hcond hc _ ih =>
    obtain ⟨d, s, hs⟩ := ih
    exact ⟨_, _, .whileStmt hw ho hcond hc hs⟩
  | doWhile hw _ ha ho hcond hc hsemi ih =>
    obtain ⟨d, s, hs⟩ := ih
    exact ⟨_, _, .doWhile hw hs ha ho hcond hc hsemi⟩
  | printStmt hw he hs => exact ⟨_, _, .printStmt hw he hs⟩
  | returnStmt hw he hs => exact ⟨_, _, .returnStmt hw he hs⟩
  | breakStmt hw hs => exact ⟨_, _, .breakStmt hw hs⟩
  | continueStmt hw hs => exact ⟨_, _, .continueStmt hw hs⟩
  | block ho _ hc ih =>
    obtain ⟨body, hbody⟩ := ih
    exact ⟨_, _, .block ho hbody hc⟩

end Grammar

end Scriptlet
