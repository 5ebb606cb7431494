import Scriptlet.Proofs.Derivations
import Scriptlet.Proofs.Parsed

/-!
# What the parser accepts is derived from the grammar

`Yields` says what a parser has read when it ends without a problem. There is one rule for each way in which
parsers are put together, and one lemma for each parser, which says that the tokens it has read are derived from
its production, with the tree it gives.
-/
namespace Scriptlet.Parser

variable {α β : Type}

open Grammar

/-- The next of these tokens. -/
def first (ts : List Token) : Token := ts.headD (Token.endOfInput 0)

theorem State.rest_eq_of_next {s : State} (h : s.next.isEnd = false) : s.rest = s.next :: s.skip.rest := by
  change s.rest = s.next :: s.rest.tail
  cases hr : s.rest with
  | nil => rw [State.next, hr] at h; cases h
  | cons t ts => rw [State.next, hr]; rfl

theorem accept_bind (kind : Token.Kind) (f : Bool → Parser β) :
    accept kind >>= f = check kind >>= fun b => if b then advance >>= fun _ => f true else f false := by
  rw [accept, bind_assoc]
  refine congrArg _ (funext fun b => ?_)
  cases b with
  | false => exact pure_bind false f
  | true => exact (bind_assoc ..).trans (congrArg _ (funext fun _ => pure_bind true f))

theorem expect_bind (kind : Token.Kind) (what : Expected) (f : Token → Parser β) :
    expect kind what >>= f = check kind >>= fun b => if b then advance >>= f else failHere what := by
  rw [expect, bind_assoc]
  refine congrArg _ (funext fun b => ?_)
  cases b <;> rfl

theorem identifier_bind (what : Expected) (f : Name → Parser β) :
    identifier what >>= f = expect .identifier what >>= fun t => f t.name := by
  rw [identifier, bind_assoc]
  exact congrArg _ (funext fun t => pure_bind t.name f)

/-- Run from these tokens, the parser ends with such a result, such tokens read and such left, unless it fails
or a problem is known by then. The end of the input is never read. -/
def Yields (tokens : List Token) (p : Parser α) (P : α → List Token → List Token → Prop) : Prop :=
  ∀ s, s.rest = tokens → Meets p s
    (fun a t => t.problems = [] → s.problems = [] ∧
      ∃ ts, tokens = ts ++ t.rest ∧ (∀ x ∈ ts, x.isEnd = false) ∧ P a ts t.rest)
    (fun _ _ => True)

namespace Yields

variable {tokens : List Token} {p : Parser α} {f : α → Parser β} {P Q : α → List Token → List Token → Prop}
  {R : β → List Token → List Token → Prop}

theorem pure {a : α} (h : P a [] tokens) : Yields tokens (Pure.pure a) P := by
  rintro s rfl
  exact Meets.pure fun hs => ⟨hs, [], rfl, fun _ hx => absurd hx List.not_mem_nil, h⟩

theorem mono (hp : Yields tokens p P) (h : ∀ a ts rest, tokens = ts ++ rest → P a ts rest → Q a ts rest) :
    Yields tokens p Q := by
  intro s hs
  refine Meets.mono (hp s hs) ?_ fun _ _ h => h
  intro a t ht hclean
  obtain ⟨hs', ts, hts, hend, hP⟩ := ht hclean
  exact ⟨hs', ts, hts, hend, h a ts t.rest hts hP⟩

theorem split (hp : Yields tokens p P) : Yields tokens p fun a ts rest => tokens = ts ++ rest ∧ P a ts rest :=
  hp.mono fun _ _ _ hts hP => ⟨hts, hP⟩

/-- What is known of the first part comes in at the end: only then it is known that it met no problem. -/
theorem bind (hp : Yields tokens p P)
    (hf : ∀ a ts rest, Yields rest (f a) fun b us left => P a ts rest → R b (ts ++ us) left) :
    Yields tokens (p >>= f) R := by
  intro s hs
  refine Meets.bind (hp s hs) fun a t ht => ?_
  by_cases hclean : t.problems = []
  · obtain ⟨hs', ts, hts, hend, hP⟩ := ht hclean
    refine Meets.mono (hf a ts t.rest t rfl) ?_ fun _ _ h => h
    intro b u hu hclean'
    obtain ⟨-, us, hus, hend', hR⟩ := hu hclean'
    refine ⟨hs', ts ++ us, by rw [hts, hus, List.append_assoc], ?_, hR hP⟩
    intro x hx
    rcases List.mem_append.1 hx with hx | hx
    · exact hend x hx
    · exact hend' x hx
  · refine Meets.mono (hf a [] t.rest t rfl) ?_ fun _ _ h => h
    exact fun b u hu hclean' => absurd (hu hclean').1 hclean

theorem map {g : α → β} (hp : Yields tokens p fun a => R (g a)) : Yields tokens (g <$> p) R :=
  fun s hs => Meets.map (hp s hs)

theorem peek {f : Token → Parser β} (h : Yields tokens (f (first tokens)) R) :
    Yields tokens (Parser.peek >>= f) R := by
  rintro s rfl
  exact h s rfl

theorem remaining {f : Nat → Parser β} (h : Yields tokens (f tokens.length) R) :
    Yields tokens (Parser.remaining >>= f) R := by
  rintro s rfl
  have step : (Parser.remaining >>= f) s = f s.unread s := rfl
  unfold Meets
  rw [step, s.unread_eq]
  exact h s rfl

theorem freshId {f : NodeId → Parser β} (h : ∀ id, Yields tokens (f id) R) :
    Yields tokens (Parser.freshId >>= f) R :=
  fun s hs => h s.nextId { s with nextId := s.nextId + 1 } hs

theorem failHere {what : Expected} : Yields tokens (Parser.failHere what) P := fun _ _ => trivial

/-- After a problem was reported it does not matter what is read. -/
theorem report {problem : Located SyntaxError} {f : Unit → Parser β}
    (h : Yields tokens (f ()) fun _ _ _ => True) : Yields tokens (Parser.report problem >>= f) R := by
  intro s hs
  refine Meets.mono (h { s with problems := s.problems ++ [problem] } hs) ?_ fun _ _ h => h
  intro b t ht hclean
  exact absurd (ht hclean).1 (by simp)

theorem tryCatch {handle : Located SyntaxError → Parser α} (hp : Yields tokens p P)
    (hh : ∀ e rest, Yields rest (handle e) fun _ _ _ => False) :
    Yields tokens (MonadExcept.tryCatch p handle) P := by
  intro s hs
  refine Meets.tryCatch (hp s hs) fun e t _ => ?_
  refine Meets.mono (hh e t.rest t rfl) ?_ fun _ _ h => h
  intro a u hu hclean
  obtain ⟨-, -, -, -, hfalse⟩ := hu hclean
  exact hfalse.elim

/-- Reading a token that was looked at. -/
theorem read {kind : Token.Kind} {f : Token → Parser β} (hk : (first tokens).kind = kind)
    (hkind : kind ≠ .endOfInput)
    (h : ∀ rest, tokens = first tokens :: rest →
      Yields rest (f (first tokens)) fun b ts => R b (first tokens :: ts)) :
    Yields tokens (advance >>= f) R := by
  rintro s rfl
  have hend : s.next.isEnd = false := by
    rw [Bool.eq_false_iff, Ne, Token.isEnd_iff]
    exact fun h => hkind (hk.symm.trans h)
  have hrest := s.rest_eq_of_next hend
  have hadvance : advance s = .ok s.next s.skip := by rw [advance_eq, hend]; rfl
  refine Meets.bind (Q := fun a t => a = s.next ∧ t = s.skip) (E := fun _ _ => True) ?_ ?_
  · unfold Meets
    rw [hadvance]
    exact ⟨rfl, rfl⟩
  · rintro _ _ ⟨rfl, rfl⟩
    refine Meets.mono (h s.skip.rest hrest s.skip rfl) ?_ fun _ _ h => h
    intro b t ht hclean
    obtain ⟨hs, ts, hts, hends, hR⟩ := ht hclean
    refine ⟨hs, s.next :: ts, by rw [hrest, hts]; rfl, ?_, hR⟩
    intro x hx
    rcases List.mem_cons.1 hx with rfl | hx
    · exact hend
    · exact hends x hx

/-- Reading a token, whatever it is. -/
theorem skip {f : Token → Parser β} (h : ∀ rest, Yields rest (f (first tokens)) fun _ _ _ => True) :
    Yields tokens (advance >>= f) fun _ _ _ => True := by
  by_cases hend : (first tokens).kind = .endOfInput
  · rintro s rfl
    have hnext : s.next.isEnd = true := Token.isEnd_iff.2 hend
    have hadvance : advance s = .ok s.next s := by rw [advance_eq, hnext]; rfl
    refine Meets.bind (Q := fun a t => a = s.next ∧ t = s) (E := fun _ _ => True) ?_ ?_
    · unfold Meets
      rw [hadvance]
      exact ⟨rfl, rfl⟩
    · rintro _ _ ⟨ha, ht⟩
      rw [ha, ht]
      exact h s.rest s rfl
  · exact read rfl hend fun rest _ => h rest

theorem check {kind : Token.Kind} {f : Bool → Parser β}
    (h : Yields tokens (f (!(first tokens).isEnd && (first tokens).kind == kind)) R) :
    Yields tokens (Parser.check kind >>= f) R := by
  rintro s rfl
  exact h s rfl

theorem atEnd {f : Bool → Parser β} (h : Yields tokens (f (first tokens).isEnd) R) :
    Yields tokens (Parser.atEnd >>= f) R := by
  rintro s rfl
  exact h s rfl

theorem accept {kind : Token.Kind} {text : String} {f : Bool → Parser β} (hk : kind.spelling? = some text)
    (hit : ∀ t rest, tokens = t :: rest → t.Spells text → Yields rest (f true) fun b ts => R b (t :: ts))
    (miss : ¬(first tokens).Spells text → Yields tokens (f false) R) :
    Yields tokens (Parser.accept kind >>= f) R := by
  rw [accept_bind]
  refine check ?_
  split
  · next h =>
    rw [Bool.and_eq_true, Bool.not_eq_true', beq_iff_eq] at h
    have hs : (first tokens).Spells text := (congrArg Token.Kind.spelling? h.2).trans hk
    refine read rfl ?_ fun rest hrest => hit _ rest hrest hs
    exact fun he => absurd (Token.isEnd_iff.2 he) (by rw [h.1]; exact Bool.false_ne_true)
  · next h =>
    refine miss fun hs => h ?_
    rw [Bool.and_eq_true, Bool.not_eq_true', beq_iff_eq]
    exact ⟨hs.not_end, Token.Kind.eq_of_spelling hs hk⟩

/-- An expected token is of its kind. -/
theorem expect {kind : Token.Kind} {what : Expected} {f : Token → Parser β}
    (h : ∀ t rest, tokens = t :: rest → t.kind = kind → Yields rest (f t) fun b ts => R b (t :: ts)) :
    Yields tokens (Parser.expect kind what >>= f) R := by
  rw [expect_bind]
  refine check ?_
  split
  · next hc =>
    rw [Bool.and_eq_true, Bool.not_eq_true', beq_iff_eq] at hc
    refine read rfl ?_ fun rest hrest => h _ rest hrest hc.2
    exact fun he => absurd (Token.isEnd_iff.2 he) (by rw [hc.1]; exact Bool.false_ne_true)
  · exact failHere

theorem symbol {sym : Symbol} {what : Expected} {f : Token → Parser β}
    (h : ∀ t rest, tokens = t :: rest → t.Spells sym.text → Yields rest (f t) fun b ts => R b (t :: ts)) :
    Yields tokens (Parser.symbol sym what >>= f) R :=
  expect fun t rest ht hk => h t rest ht (Token.spells_symbol.2 hk)

theorem identifier {what : Expected} {f : Name → Parser β}
    (h : ∀ t rest, tokens = t :: rest → t.kind = .identifier →
      Yields rest (f t.name) fun b ts => R b (t :: ts)) :
    Yields tokens (Parser.identifier what >>= f) R := by
  rw [identifier_bind]
  exact expect h

end Yields

/-! ## Lists -/

section Lists

variable {Item : α → List Token → Prop}

/-- Each item reads a token, so either the stop was met or as many tokens were read as turns were allowed. -/
theorem itemsUntil_yields {stop : Parser Bool} {item : Parser (Option α)} {Stop : List Token → Prop}
    (hstop : ∀ tokens, Yields tokens stop fun b ts rest => ts = [] ∧ (b = true → Stop rest))
    (hitem : ∀ tokens, Yields tokens item fun a ts _ => ts ≠ [] ∧ ∃ x, a = some x ∧ Item x ts) (n : Nat)
    (tokens : List Token) :
    Yields tokens (itemsUntil stop item n) fun as ts rest =>
      Sequence Item as ts ∧ (n ≤ ts.length ∨ Stop rest) := by
  induction n generalizing tokens with
  | zero => exact .pure ⟨.nil, .inl (Nat.zero_le _)⟩
  | succ n ih =>
    refine .bind (hstop tokens) fun b us rest => ?_
    cases b with
    | true =>
      refine .pure ?_
      rintro ⟨rfl, hs⟩
      exact ⟨.nil, .inr (hs rfl)⟩
    | false =>
      refine .bind (hitem rest) fun a ts rest' => .bind (ih rest') fun as vs left => .pure ?_
      rintro ⟨hseq, hlast⟩ ⟨hne, x, rfl, hx⟩ ⟨rfl, -⟩
      rw [List.append_nil, List.nil_append]
      refine ⟨.cons hx hseq, hlast.imp_left fun hn => ?_⟩
      have := List.length_pos_iff.2 hne
      rw [List.length_append]
      omega

theorem commaSeparated_yields {item : Parser α} (hitem : ∀ tokens, Yields tokens item fun a ts _ => Item a ts)
    (hne : ∀ a ts, Item a ts → ts ≠ []) (list : Listed) (n count : Nat) (tokens : List Token) :
    Yields tokens (commaSeparated list item n count) fun as ts _ =>
      tokens.length ≤ n → 0 < n → as ≠ [] ∧ Separated Item as ts ∧ count + as.length ≤ longest := by
  induction n generalizing count tokens with
  | zero => exact .pure fun _ h => absurd h (Nat.lt_irrefl 0)
  | succ n ih =>
    have items : Yields tokens (do
        let first ← item
        if ← accept (.symbol .comma) then
          return first :: (← commaSeparated list item n (count + 1))
        return [first]) fun as ts _ => count < longest → tokens.length ≤ n + 1 →
          as ≠ [] ∧ Separated Item as ts ∧ count + as.length ≤ longest := by
      refine .bind (hitem tokens).split fun a ts rest => .accept rfl ?_ fun _ => ?_
      · rintro comma rest' rfl hcomma
        refine .bind (ih (count + 1) rest') fun as us left => .pure ?_
        rintro hrec ⟨rfl, ha⟩ hcount hlen
        have hpos := List.length_pos_iff.2 (hne a ts ha)
        rw [List.length_append, List.length_cons] at hlen
        obtain ⟨has, hseparated, hlongest⟩ := hrec (by omega) (by omega)
        rw [List.append_nil]
        refine ⟨List.cons_ne_nil _ _, .more ha hcomma hseparated has, ?_⟩
        rw [List.length_cons]
        omega
      · refine .pure ?_
        rintro ⟨-, ha⟩ hcount _
        rw [List.append_nil]
        exact ⟨List.cons_ne_nil _ _, .last ha, hcount⟩
    by_cases hcount : count ≥ listLimit
    · rw [commaSeparated, if_pos hcount]
      exact .peek (.report (items.mono fun _ _ _ _ _ => trivial))
    · rw [commaSeparated, if_neg hcount]
      exact items.mono fun as ts _ _ h hlen _ => h (Nat.lt_of_not_le hcount) hlen

theorem listUntil_yields {item : Parser α} (hitem : ∀ tokens, Yields tokens item fun a ts _ => Item a ts)
    (hne : ∀ a ts, Item a ts → ts ≠ []) (closing : Symbol) (list : Listed) (tokens : List Token) :
    Yields tokens (listUntil closing list item) fun as ts _ => Separated Item as ts ∧ as.length ≤ longest := by
  refine .check ?_
  split
  · exact .pure ⟨.none, Nat.zero_le _⟩
  · refine .remaining ?_
    cases tokens with
    | nil => exact .pure ⟨.none, Nat.zero_le _⟩
    | cons t ts =>
      refine (commaSeparated_yields hitem hne list _ 0 _).mono fun as us _ _ h => ?_
      obtain ⟨-, hs, hl⟩ := h (Nat.le_refl _) (Nat.succ_pos _)
      exact ⟨hs, by rwa [Nat.zero_add] at hl⟩

end Lists

/-! ## Expressions -/

/-- What the parser reads is derived as an expression. -/
abbrev YieldsExpr (p : Parser Expr) : Prop :=
  ∀ tokens, Yields tokens p fun e ts _ => Derives (.expression e) ts

theorem arguments_yields {expression : Parser Expr} (h : YieldsExpr expression) (closing : Symbol)
    (list : Listed) (tokens : List Token) :
    Yields tokens (listUntil closing list expression) fun es ts _ =>
      Derives (.arguments es) ts ∧ es.length ≤ longest :=
  (listUntil_yields h (fun _ _ he => he.expression_starts.ne_nil) closing list tokens).mono
    fun _ _ _ _ hes => ⟨hes.1.derives, hes.2⟩

theorem primary_yields {expression : Parser Expr} (h : YieldsExpr expression) (tokens : List Token) :
    Yields tokens (primary expression) fun e ts _ => Derives (.primary e) ts := by
  refine .peek ?_
  split
  · next hk => exact .read hk (by simp) fun _ _ => .pure (.literal (by rw [hk]; rfl))
  · next hk => exact .read hk (by simp) fun _ _ => .pure (.literal (by rw [hk]; rfl))
  · next hk => exact .read hk (by simp) fun _ _ => .pure (.literal (by rw [hk]; rfl))
  · next hk => exact .read hk (by simp) fun _ _ => .pure (.literal (by rw [hk]; rfl))
  · next hk => exact .read hk (by simp) fun _ _ => .pure (.literal (by rw [hk]; rfl))
  · next hk =>
    refine .read hk (by simp) fun _ _ => .symbol fun dot _ _ hdot => .identifier fun t _ _ ht => ?_
    exact .freshId fun id => .pure (.super id (Token.spells_keyword.2 hk) hdot ht)
  · next hk =>
    exact .read hk (by simp) fun _ _ => .freshId fun id => .pure (.this id (Token.spells_keyword.2 hk))
  · next hk => exact .read hk (by simp) fun _ _ => .freshId fun id => .pure (.identifier id hk)
  · next hk =>
    refine .read hk (by simp) fun rest _ => .bind (h rest) fun e ts _ => .symbol fun closing _ _ hc => ?_
    exact .pure fun he => .group (Token.spells_symbol.2 hk) he hc
  · next hk =>
    refine .read hk (by simp) fun rest _ => .bind (arguments_yields h _ _ rest) fun es ts _ => ?_
    refine .symbol fun closing _ _ hc => .pure fun hes => ?_
    exact .array (Token.spells_symbol.2 hk) hes.1 hes.2 hc
  · exact .failHere

theorem suffixes_yields {expression : Parser Expr} (h : YieldsExpr expression) (n : Nat) (f : Expr)
    (tokens : List Token) :
    Yields tokens (suffixes expression n f) fun e ts _ => Suffixes f ts e := by
  induction n generalizing f tokens with
  | zero => exact .pure .done
  | succ n ih =>
    refine .accept rfl ?_ fun _ => .accept rfl ?_ fun _ => .pure .done
    · intro opening rest _ hopen
      refine .bind (arguments_yields h _ _ rest) fun es us _ => .symbol fun closing left _ hc => ?_
      refine (ih _ left).mono fun e vs _ _ hs hes => ?_
      exact .invoke hopen hes.1 hes.2 hc hs
    · intro dot rest _ hdot
      refine .identifier fun t left _ ht => (ih _ left).mono fun e vs _ _ hs => ?_
      exact .get hdot ht hs

theorem call_yields {expression : Parser Expr} (h : YieldsExpr expression) (tokens : List Token) :
    Yields tokens (call expression) fun e ts _ => Derives (.call e) ts := by
  refine .bind (primary_yields h tokens) fun f ts rest => .remaining ?_
  exact (suffixes_yields h _ f rest).mono fun e us _ _ hs hf => hs.derives (.first hf)

theorem unaryUpTo_yields {expression : Parser Expr} (h : YieldsExpr expression) (n : Nat)
    (tokens : List Token) : Yields tokens (unaryUpTo expression n) fun e ts _ => Derives (.unary e) ts := by
  induction n generalizing tokens with
  | zero => exact .failHere
  | succ n ih =>
    refine .peek ?_
    split
    · exact (call_yields h tokens).mono fun _ _ _ _ he => .unsigned he
    · next op hop =>
      have hs : (first tokens).Spells op.text := signs_lookup_iff.1 hop
      refine .read rfl hs.kind_ne fun rest _ => .bind (ih rest) fun e ts _ => .pure fun he => ?_
      rw [List.append_nil]
      exact .sign hs he

theorem unary_yields {expression : Parser Expr} (h : YieldsExpr expression) (tokens : List Token) :
    Yields tokens (unary expression) fun e ts _ => Derives (.unary e) ts :=
  .remaining (unaryUpTo_yields h _ tokens)

theorem chain_yields {operand : Parser Expr} {rows : List (List String)}
    (h : ∀ tokens, Yields tokens operand fun e ts _ => Derives (.level rows e) ts) {tier : Tier}
    {level : List String} (hspelt : SpeltBy Infix.text tier level) (n : Nat) (l : Expr)
    (tokens : List Token) :
    Yields tokens (chain tier operand n l) fun e ts _ => Chain level rows l ts e := by
  induction n generalizing l tokens with
  | zero => exact .pure .done
  | succ n ih =>
    refine .peek ?_
    split
    · exact .pure .done
    · next op hop =>
      obtain ⟨hmem, hs⟩ : op.text ∈ level ∧ (first tokens).Spells op.text :=
        (hspelt.lookup_iff Infix.text_injective).1 hop
      refine .read rfl hs.kind_ne fun rest _ => .bind (h rest) fun r us left => ?_
      exact (ih _ left).mono fun e vs _ _ hc hr => .more hmem hs hr hc

theorem tiered_yields {operand : Parser Expr}
    (h : ∀ tokens, Yields tokens operand fun e ts _ => Derives (.unary e) ts) {tiers : List Tier}
    {rows : List (List String)} (hspelt : List.Forall₂ (SpeltBy Infix.text) tiers rows)
    (tokens : List Token) :
    Yields tokens (tiered operand tiers) fun e ts _ => Derives (.level rows e) ts := by
  induction hspelt generalizing tokens with
  | nil => exact (h tokens).mono fun _ _ _ _ he => .operand he
  | cons hlevel _ ih =>
    refine .bind (ih tokens) fun l ts rest => .remaining ?_
    exact (chain_yields ih hlevel _ l rest).mono fun e us _ _ hc hl => hc.derives (.tighter hl)

theorem assignment_yields {expression : Parser Expr} (h : YieldsExpr expression) :
    YieldsExpr (assignment expression) := by
  intro tokens
  refine .bind (tiered_yields (unary_yields h) tiers_spelt tokens) fun l ts rest => .peek ?_
  refine .accept rfl ?_ fun _ => .pure fun hl => by rw [List.append_nil]; exact .value hl
  intro equal rest' _ hequal
  refine .bind (h rest') fun e us left => ?_
  split
  · next v =>
    refine .freshId fun id => .pure fun he hl => ?_
    obtain ⟨id', name⟩ := v
    cases hl.of_variable with
    | mk ht =>
      rw [List.append_nil]
      exact .assign id ht hequal he
  · refine .pure fun he hl => ?_
    obtain ⟨vs, dot, t, rfl, ho, hdot, ht, rfl⟩ := hl.of_get
    rw [List.append_nil, List.append_assoc]
    exact .set ho hdot ht hequal he
  · exact .report (.pure trivial)

theorem expressionUpTo_yields (n : Nat) : YieldsExpr (expressionUpTo n) := by
  induction n with
  | zero => exact fun _ => .failHere
  | succ n ih => exact assignment_yields ih

theorem expression_yields : YieldsExpr expression := fun tokens => .remaining (expressionUpTo_yields _ tokens)

/-! ## Statements -/

/-- The statement was read as far as it goes: if it is dangling, no `else` is left behind it. -/
abbrev Whole (nearest : Bool) (s : Stmt) (ts rest : List Token) : Prop :=
  ∃ d, Builds nearest (.statement d s) ts ∧ (d = true → ¬(first rest).Spells "else")

/-- What the parsers for nested parts read is derived. -/
structure Nested.Sound (nearest : Bool) (nested : Nested) : Prop where
  statement : ∀ tokens, Yields tokens nested.statement (Whole nearest)
  declaration : ∀ tokens, Yields tokens nested.declaration fun a ts _ =>
    ∃ s, a = some s ∧ Builds nearest (.declaration s) ts

section Statements

variable {nearest : Bool} {nested : Nested}

theorem atBrace_yields (tokens : List Token) :
    Yields tokens atBrace fun b ts rest =>
      ts = [] ∧ (b = true → (first rest).Spells "\x7d" ∨ (first rest).isEnd = true) := by
  refine .check (.atEnd (.pure ⟨rfl, fun hb => ?_⟩))
  rw [Bool.or_eq_true, Bool.and_eq_true, beq_iff_eq] at hb
  exact hb.imp_left fun h => Token.spells_symbol.2 h.2

theorem block_yields (h : nested.Sound nearest) (tokens : List Token) :
    Yields tokens (block nested) fun body ts _ =>
      ∃ us right, ts = us ++ [right] ∧ Builds nearest (.declarations body) us ∧ right.Spells "\x7d" := by
  have item : ∀ tokens, Yields tokens nested.declaration fun a ts _ =>
      ts ≠ [] ∧ ∃ s, a = some s ∧ Builds nearest (.declaration s) ts := by
    intro tokens
    refine (h.declaration tokens).mono fun a ts _ _ ha => ?_
    obtain ⟨s, rfl, hs⟩ := ha
    exact ⟨hs.declaration_starts.ne_nil, s, rfl, hs⟩
  refine .remaining (.bind (itemsUntil_yields atBrace_yields item _ tokens) fun body us rest => ?_)
  exact .symbol fun right _ _ hr => .pure fun hbody => ⟨us, right, rfl, hbody.1.declarations, hr⟩

theorem parameters_yields (tokens : List Token) :
    Yields tokens (listUntil .rightParen .parameters (identifier .parameterName)) fun params ts _ =>
      Separated Identifier params ts ∧ params.length ≤ longest := by
  have item : ∀ tokens, Yields tokens (identifier .parameterName) fun name ts _ => Identifier name ts := by
    intro tokens
    rw [← bind_pure (identifier .parameterName)]
    exact .identifier fun t _ _ ht => .pure ⟨ht⟩
  refine listUntil_yields item ?_ _ _ tokens
  rintro _ _ ⟨_⟩
  exact List.cons_ne_nil _ _

theorem routine_yields (h : nested.Sound nearest) (role : RoutineRole) (tokens : List Token) :
    Yields tokens (routine nested role) fun d ts _ => Builds nearest (.function d) ts := by
  refine .identifier fun t _ _ ht => .symbol fun opening _ _ ho => ?_
  refine .bind (parameters_yields _) fun params ts _ => ?_
  refine .symbol fun closing _ _ hc => .symbol fun left rest _ hl => ?_
  refine .bind (block_yields h rest) fun body us _ => .pure ?_
  rintro ⟨vs, right, rfl, hbody, hr⟩ ⟨hparams, hlength⟩
  rw [List.append_nil]
  exact .function ht ho hparams hlength hc hl hbody hr

theorem member_yields (h : nested.Sound nearest) (tokens : List Token) :
    Yields tokens (member nested) fun m ts _ => BuildsMember nearest m ts := by
  refine .accept rfl ?_ fun _ => ?_
  · intro word rest _ hw
    refine .bind (routine_yields h _ rest) fun d ts _ => .pure fun hd => ?_
    rw [List.append_nil]
    exact .static hw hd
  · refine .bind (routine_yields h _ tokens) fun d ts _ => .pure fun hd => ?_
    rw [List.append_nil]
    exact .method hd

theorem superclassClause_yields (tokens : List Token) :
    Yields tokens superclassClause fun superclass ts _ => Superclass superclass ts := by
  refine .accept rfl ?_ fun _ => .pure .none
  intro colon rest _ hcolon
  exact .identifier fun t _ _ ht => .freshId fun id => .pure (.some id hcolon ht)

theorem classDeclaration_yields (h : nested.Sound nearest) {word : Token} (hw : word.Spells "class")
    (tokens : List Token) :
    Yields tokens (classDeclaration nested) fun s ts _ => Builds nearest (.declaration s) (word :: ts) := by
  have item : ∀ tokens, Yields tokens (some <$> member nested) fun a ts _ =>
      ts ≠ [] ∧ ∃ m, a = some m ∧ BuildsMember nearest m ts :=
    fun tokens => .map ((member_yields h tokens).mono fun m _ _ _ hm => ⟨hm.starts.ne_nil, m, rfl, hm⟩)
  refine .identifier fun t rest _ ht => .bind (superclassClause_yields rest) fun superclass ts _ => ?_
  refine .symbol fun opening rest' _ ho => .remaining ?_
  refine .bind (itemsUntil_yields atBrace_yields item _ rest') fun ms us _ => ?_
  refine .symbol fun closing _ _ hc => .pure fun hms hsuper => ?_
  exact .classDecl hw ht hsuper ho hms.1.members hc

theorem initializer_yields (tokens : List Token) :
    Yields tokens initializer fun value ts _ => Initial value ts := by
  refine .accept rfl ?_ fun _ => .pure .none
  intro equal rest _ hequal
  exact .map ((expression_yields rest).mono fun e _ _ _ he => .some hequal he)

theorem letDeclaration_yields {word : Token} (hw : word.Spells "let") (tokens : List Token) :
    Yields tokens letDeclaration fun s ts _ => Builds nearest (.letDecl s) (word :: ts) := by
  refine .identifier fun t rest _ ht => .bind (initializer_yields rest) fun value ts _ => ?_
  exact .symbol fun semicolon _ _ hs => .pure fun hvalue => .letDecl hw ht hvalue hs

theorem constDeclaration_yields {word : Token} (hw : word.Spells "const") (tokens : List Token) :
    Yields tokens constDeclaration fun s ts _ => Builds nearest (.declaration s) (word :: ts) := by
  refine .identifier fun t _ _ ht => .symbol fun equal rest _ hequal => ?_
  refine .bind (expression_yields rest) fun e ts _ => .symbol fun semicolon _ _ hs => ?_
  exact .pure fun he => .constDecl hw ht hequal he hs

theorem importStatement_yields {word : Token} (hw : word.Spells "import") (tokens : List Token) :
    Yields tokens (importStatement word.line) fun s ts _ => Builds nearest (.declaration s) (word :: ts) := by
  refine .peek ?_
  split
  · next hk =>
    exact .read hk (by simp) fun _ _ => .symbol fun semicolon _ _ hs => .pure (.importStmt hw hk hs)
  · exact .failHere

theorem expressionStatement_yields (nearest : Bool) (tokens : List Token) :
    Yields tokens expressionStatement fun s ts _ => Builds nearest (.exprStmt s) ts := by
  refine .bind (expression_yields tokens) fun e ts _ => .symbol fun semicolon _ _ hs => ?_
  exact .pure fun he => .exprStmt he hs

theorem optionalExpression_yields (closing : Symbol) (tokens : List Token) :
    Yields tokens (optionalExpression closing) fun e ts _ => Optionally e ts := by
  refine .check ?_
  split
  · exact .pure .none
  · exact .map ((expression_yields tokens).mono fun _ _ _ _ he => .some he)

theorem forStart_yields (nearest : Bool) (tokens : List Token) :
    Yields tokens forStart fun s ts _ => Builds nearest (.start s) ts := by
  refine .accept rfl (fun semicolon _ _ hs => .pure (.noStart hs)) fun _ => .accept rfl ?_ fun _ => ?_
  · intro word rest _ hw
    exact .map ((letDeclaration_yields hw rest).mono fun _ _ _ _ hs => .letStart hs)
  · exact .map ((expressionStatement_yields nearest tokens).mono fun _ _ _ _ hs => .exprStart hs)

theorem parenthesizedCondition_yields (what : Expected) (tokens : List Token) :
    Yields tokens (parenthesizedCondition what) fun c ts _ =>
      ∃ opening us closing, ts = opening :: (us ++ [closing]) ∧ opening.Spells "(" ∧
        Derives (.expression c) us ∧ closing.Spells ")" := by
  refine .symbol fun opening rest _ ho => .bind (expression_yields rest) fun c us _ => ?_
  exact .symbol fun closing _ _ hc => .pure fun hcond => ⟨opening, us, closing, rfl, ho, hcond, hc⟩

theorem forStatement_yields (h : nested.Sound nearest) {word : Token} (hw : word.Spells "for")
    (tokens : List Token) : Yields tokens (forStatement nested) fun s ts => Whole nearest s (word :: ts) := by
  refine .symbol fun opening rest _ ho => .bind (forStart_yields nearest rest) fun start ts rest' => ?_
  refine .bind (optionalExpression_yields _ rest') fun condition us _ => ?_
  refine .symbol fun semicolon rest _ hs => .bind (optionalExpression_yields _ rest) fun increment vs _ => ?_
  refine .symbol fun closing rest _ hc => .bind (h.statement rest) fun body ws left => ?_
  have done : Whole nearest body ws left → Optionally increment vs → Optionally condition us →
      Builds nearest (.start start) ts → Whole nearest (forLoop start condition increment body)
        (word :: opening :: (ts ++ (us ++ semicolon :: (vs ++ closing :: (ws ++ []))))) left := by
    rintro ⟨d, hbody, helse⟩ hinc hcond hstart
    rw [List.append_nil]
    exact ⟨d, .forStmt hw ho hstart hcond hs hinc hc hbody, helse⟩
  cases start with
  | none => exact .pure done
  | some s => exact .pure done

theorem ifStatement_yields (h : nested.Sound nearest) {word : Token} (hw : word.Spells "if")
    (tokens : List Token) : Yields tokens (ifStatement nested) fun s ts => Whole nearest s (word :: ts) := by
  refine .bind (parenthesizedCondition_yields _ tokens) fun c ts rest => ?_
  refine .bind (h.statement rest) fun s us rest' => .accept rfl ?_ fun hno => .pure ?_
  · rintro other rest'' rfl he
    refine .bind (h.statement rest'') fun t vs left => .pure ?_
    rintro ⟨d, ht, helse⟩ ⟨d', hs, hnext⟩ ⟨opening, ws, closing, rfl, ho, hc, hclose⟩
    have hd' : d' = false := by
      cases d' with
      | false => rfl
      | true => exact absurd he (hnext rfl)
    subst hd'
    refine ⟨d, ?_, helse⟩
    have := Builds.ifElse hw ho hc hclose hs (fun _ => rfl) he ht
    simpa using this
  · rintro ⟨d, hs, -⟩ ⟨opening, ws, closing, rfl, ho, hc, hclose⟩
    refine ⟨true, ?_, fun _ => hno⟩
    have := Builds.ifThen hw ho hc hclose hs
    simpa using this

theorem whileStatement_yields (h : nested.Sound nearest) {word : Token} (hw : word.Spells "while")
    (tokens : List Token) : Yields tokens (whileStatement nested) fun s ts => Whole nearest s (word :: ts) := by
  refine .bind (parenthesizedCondition_yields _ tokens) fun c ts rest => ?_
  refine .bind (h.statement rest) fun s us _ => .pure ?_
  rintro ⟨d, hs, helse⟩ ⟨opening, ws, closing, rfl, ho, hc, hclose⟩
  refine ⟨d, ?_, helse⟩
  have := Builds.whileStmt hw ho hc hclose hs
  simpa using this

theorem doWhileStatement_yields (h : nested.Sound nearest) {word : Token} (hw : word.Spells "do")
    (tokens : List Token) : Yields tokens (doWhileStatement nested) fun s ts => Whole nearest s (word :: ts) := by
  refine .bind (h.statement tokens) fun s ts rest => .expect fun again rest' _ ha => ?_
  refine .bind (parenthesizedCondition_yields _ rest') fun c us _ => .symbol fun semicolon _ _ hs => .pure ?_
  rintro ⟨opening, ws, closing, rfl, ho, hc, hclose⟩ ⟨d, hbody, -⟩
  refine ⟨false, ?_, (nomatch ·)⟩
  have := Builds.doWhile hw hbody (Token.spells_keyword.2 ha) ho hc hclose hs
  simpa using this

theorem printStatement_yields {word : Token} (hw : word.Spells "print") (tokens : List Token) :
    Yields tokens printStatement fun s ts => Whole nearest s (word :: ts) := by
  refine .bind (expression_yields tokens) fun e ts _ => .symbol fun semicolon _ _ hs => .pure fun he => ?_
  exact ⟨false, .printStmt hw he hs, (nomatch ·)⟩

theorem returnStatement_yields {word : Token} (hw : word.Spells "return") (tokens : List Token) :
    Yields tokens (returnStatement word.line) fun s ts => Whole nearest s (word :: ts) := by
  refine .bind (optionalExpression_yields _ tokens) fun e ts _ => .symbol fun semicolon _ _ hs => ?_
  exact .pure fun he => ⟨false, .returnStmt hw he hs, (nomatch ·)⟩

theorem statementWith_yields (h : nested.Sound nearest) (tokens : List Token) :
    Yields tokens (statementWith nested) (Whole nearest) := by
  refine .peek ?_
  split
  · next hk => exact .read hk (by simp) fun rest _ => forStatement_yields h (Token.spells_keyword.2 hk) rest
  · next hk => exact .read hk (by simp) fun rest _ => ifStatement_yields h (Token.spells_keyword.2 hk) rest
  · next hk => exact .read hk (by simp) fun rest _ => whileStatement_yields h (Token.spells_keyword.2 hk) rest
  · next hk => exact .read hk (by simp) fun rest _ => doWhileStatement_yields h (Token.spells_keyword.2 hk) rest
  · next hk => exact .read hk (by simp) fun rest _ => returnStatement_yields (Token.spells_keyword.2 hk) rest
  · next hk =>
    refine .read hk (by simp) fun _ _ => .symbol fun semicolon _ _ hs => .pure ?_
    exact ⟨false, .breakStmt (Token.spells_keyword.2 hk) hs, (nomatch ·)⟩
  · next hk =>
    refine .read hk (by simp) fun _ _ => .symbol fun semicolon _ _ hs => .pure ?_
    exact ⟨false, .continueStmt (Token.spells_keyword.2 hk) hs, (nomatch ·)⟩
  · next hk =>
    refine .read hk (by simp) fun rest _ => .bind (block_yields h rest) fun body ts _ => .pure ?_
    rintro ⟨us, right, rfl, hbody, hr⟩
    rw [List.append_nil]
    exact ⟨false, .block (Token.spells_symbol.2 hk) hbody hr, (nomatch ·)⟩
  · next hk => exact .read hk (by simp) fun rest _ => printStatement_yields (Token.spells_keyword.2 hk) rest
  · refine (expressionStatement_yields nearest tokens).mono fun s ts _ _ hs => ?_
    exact ⟨false, .expression hs, (nomatch ·)⟩

theorem declarationBody_yields (h : nested.Sound nearest) (tokens : List Token) :
    Yields tokens (declarationBody nested) fun s ts _ => Builds nearest (.declaration s) ts := by
  refine .peek ?_
  split
  · next hk => exact .read hk (by simp) fun rest _ => classDeclaration_yields h (Token.spells_keyword.2 hk) rest
  · next hk =>
    refine .read hk (by simp) fun rest _ => .bind (routine_yields h _ rest) fun d ts _ => .pure fun hd => ?_
    rw [List.append_nil]
    exact .funDecl (Token.spells_keyword.2 hk) hd
  · next hk =>
    refine .read hk (by simp) fun rest _ => ?_
    exact (letDeclaration_yields (Token.spells_keyword.2 hk) rest).mono fun _ _ _ _ hs => .variableDecl hs
  · next hk => exact .read hk (by simp) fun rest _ => constDeclaration_yields (Token.spells_keyword.2 hk) rest
  · next hk => exact .read hk (by simp) fun rest _ => importStatement_yields (Token.spells_keyword.2 hk) rest
  · refine (statementWith_yields h tokens).mono fun s ts _ _ hs => ?_
    obtain ⟨d, hs, -⟩ := hs
    exact .plain hs

theorem skipToStatement_yields (last : Token) (n : Nat) (tokens : List Token) :
    Yields tokens (skipToStatement last n) fun _ _ _ => True := by
  induction n generalizing last tokens with
  | zero => exact .pure trivial
  | succ n ih =>
    refine .peek ?_
    split
    · exact .pure trivial
    · exact .skip fun rest => ih _ rest

theorem synchronize_yields (tokens : List Token) : Yields tokens synchronize fun _ _ _ => True :=
  .skip fun rest => .remaining (skipToStatement_yields _ _ rest)

theorem declarationWith_yields (h : nested.Sound nearest) (tokens : List Token) :
    Yields tokens (declarationWith nested) fun a ts _ =>
      ∃ s, a = some s ∧ Builds nearest (.declaration s) ts := by
  refine .tryCatch (.map ((declarationBody_yields h tokens).mono fun s _ _ _ hs => ⟨s, rfl, hs⟩)) ?_
  exact fun _ rest => .report (.bind (synchronize_yields rest) fun _ _ _ => .pure fun _ => trivial)

end Statements

theorem nested_sound (nearest : Bool) (n : Nat) :
    Nested.Sound nearest ⟨statementUpTo n, declarationUpTo n⟩ := by
  induction n with
  | zero => exact ⟨fun _ => .failHere, fun _ => .failHere⟩
  | succ n ih => exact ⟨statementWith_yields ih, declarationWith_yields ih⟩

/-- If the text is parsed without a problem, everything before the end is derived as a program. -/
theorem program_yields (nearest : Bool) (tokens : List Token) :
    Yields tokens program fun ss ts rest =>
      Builds nearest (.declarations ss) ts ∧ (first rest).isEnd = true := by
  have stop : ∀ tokens, Yields tokens atEnd fun b ts rest => ts = [] ∧ (b = true → (first rest).isEnd = true) := by
    intro tokens
    rw [← bind_pure atEnd]
    exact .atEnd (.pure ⟨rfl, id⟩)
  have item : ∀ tokens, Yields tokens declaration fun a ts _ =>
      ts ≠ [] ∧ ∃ s, a = some s ∧ Builds nearest (.declaration s) ts := by
    intro tokens
    refine .remaining (((nested_sound nearest (tokens.length + 1)).declaration tokens).mono ?_)
    rintro a ts _ _ ⟨s, rfl, hs⟩
    exact ⟨hs.declaration_starts.ne_nil, s, rfl, hs⟩
  refine .remaining ((itemsUntil_yields stop item _ tokens).mono fun ss ts rest htokens hss => ?_)
  refine ⟨hss.1.declarations, hss.2.elim (fun hlen => ?_) id⟩
  rw [htokens, List.length_append] at hlen
  have hrest : rest = [] := List.length_eq_zero_iff.1 (by omega)
  rw [hrest]
  rfl

end Scriptlet.Parser
