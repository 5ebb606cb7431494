import Scriptlet.Proofs.ParserSound

/-!
# What is derived from the grammar is accepted by the parser

`Reads` says that a parser succeeds and where it ends. A production with an open end is only read to its end if
what follows cannot continue it; what may continue a phrase is told by the spelling of the next token. The trees
are those of the derivation except for the identities.
-/
namespace Scriptlet.Parser

variable {α β γ : Type}

open Grammar

/-- Run from these tokens, the parser succeeds without a problem, with such a result and the given rest. -/
def Reads (tokens rest : List Token) (p : Parser α) (Q : α → Prop) : Prop :=
  ∀ s, s.rest = tokens → ∃ a t, p s = .ok a t ∧ t.rest = rest ∧ t.problems = s.problems ∧ Q a

namespace Reads

variable {tokens rest middle : List Token} {p : Parser α} {f : α → Parser β} {P : α → Prop} {Q : β → Prop}

theorem pure {a : α} (h : P a) : Reads rest rest (Pure.pure a) P := fun s hs => ⟨a, s, rfl, hs, rfl, h⟩

theorem bind (hp : Reads tokens middle p P) (hf : ∀ a, P a → Reads middle rest (f a) Q) :
    Reads tokens rest (p >>= f) Q := by
  intro s hs
  obtain ⟨a, t, hpa, ht, hproblems, ha⟩ := hp s hs
  obtain ⟨b, u, hfb, hu, hproblems', hb⟩ := hf a ha t ht
  have hbind : (p >>= f) s = f a t := by
    change EStateM.bind p f s = f a t
    rw [EStateM.bind, hpa]
  exact ⟨b, u, hbind.trans hfb, hu, hproblems'.trans hproblems, hb⟩

theorem mono {P' : α → Prop} (hp : Reads tokens rest p P) (h : ∀ a, P a → P' a) : Reads tokens rest p P' := by
  intro s hs
  obtain ⟨a, t, hpa, ht, hproblems, ha⟩ := hp s hs
  exact ⟨a, t, hpa, ht, hproblems, h a ha⟩

theorem map {g : α → β} (hp : Reads tokens rest p fun a => Q (g a)) : Reads tokens rest (g <$> p) Q := by
  rw [map_eq_pure_bind]
  exact bind hp fun _ ha => pure ha

theorem peek {f : Token → Parser β} (h : Reads tokens rest (f (first tokens)) Q) :
    Reads tokens rest (Parser.peek >>= f) Q := by
  rintro s rfl
  exact h s rfl

theorem look {t : Token} {f : Token → Parser β} (h : Reads (t :: tokens) rest (f t) Q) :
    Reads (t :: tokens) rest (Parser.peek >>= f) Q :=
  peek h

theorem remaining {f : Nat → Parser β} (h : Reads tokens rest (f tokens.length) Q) :
    Reads tokens rest (Parser.remaining >>= f) Q := by
  rintro s rfl
  obtain ⟨b, t, hfb, ht⟩ := h s rfl
  have step : (Parser.remaining >>= f) s = f s.unread s := rfl
  rw [← s.unread_eq] at hfb
  exact ⟨b, t, step.trans hfb, ht⟩

theorem freshId {f : NodeId → Parser β} (h : ∀ id, Reads tokens rest (f id) Q) :
    Reads tokens rest (Parser.freshId >>= f) Q :=
  fun s hs => h s.nextId { s with nextId := s.nextId + 1 } hs

theorem read {t : Token} {f : Token → Parser β} (ht : t.kind ≠ .endOfInput)
    (h : Reads tokens rest (f t) Q) : Reads (t :: tokens) rest (advance >>= f) Q := by
  intro s hs
  have hnext : s.next = t := by rw [State.next, hs]; rfl
  have hend : t.isEnd = false := by
    rw [Bool.eq_false_iff, Ne, Token.isEnd_iff]
    exact ht
  have hskip : s.skip.rest = tokens := by
    change s.rest.tail = tokens
    rw [hs]
    rfl
  have hbind : (advance >>= f) s = f t s.skip := by
    change EStateM.bind advance f s = f t s.skip
    rw [EStateM.bind, advance_eq, hnext, hend]
    rfl
  obtain ⟨b, u, hfb, hu, hproblems, hb⟩ := h s.skip hskip
  exact ⟨b, u, hbind.trans hfb, hu, hproblems, hb⟩

theorem check {kind : Token.Kind} {f : Bool → Parser β}
    (h : Reads tokens rest (f (!(first tokens).isEnd && (first tokens).kind == kind)) Q) :
    Reads tokens rest (Parser.check kind >>= f) Q := by
  rintro s rfl
  exact h s rfl

theorem atEnd {f : Bool → Parser β} (h : Reads tokens rest (f (first tokens).isEnd) Q) :
    Reads tokens rest (Parser.atEnd >>= f) Q := by
  rintro s rfl
  exact h s rfl

section Lookahead

variable {kind : Token.Kind} {text : String} {t : Token}

theorem checkHit {f : Bool → Parser β} (hk : kind.spelling? = some text) (ht : (first tokens).Spells text)
    (h : Reads tokens rest (f true) Q) : Reads tokens rest (Parser.check kind >>= f) Q := by
  refine check ?_
  rwa [ht.not_end, Token.Kind.eq_of_spelling ht hk, beq_self_eq_true]

theorem checkMiss {f : Bool → Parser β} (hk : kind.spelling? = some text) (ht : ¬(first tokens).Spells text)
    (h : Reads tokens rest (f false) Q) : Reads tokens rest (Parser.check kind >>= f) Q := by
  refine check ?_
  have hne : ((first tokens).kind == kind) = false :=
    beq_false_of_ne fun he => ht ((congrArg Token.Kind.spelling? he).trans hk)
  rwa [hne, Bool.and_false]

theorem acceptHit {f : Bool → Parser β} (hk : kind.spelling? = some text) (ht : t.Spells text)
    (h : Reads tokens rest (f true) Q) : Reads (t :: tokens) rest (Parser.accept kind >>= f) Q := by
  rw [accept_bind]
  exact checkHit hk ht (read ht.kind_ne h)

theorem acceptMiss {f : Bool → Parser β} (hk : kind.spelling? = some text) (ht : ¬(first tokens).Spells text)
    (h : Reads tokens rest (f false) Q) : Reads tokens rest (Parser.accept kind >>= f) Q := by
  rw [accept_bind]
  exact checkMiss hk ht h

theorem expect {what : Expected} {f : Token → Parser β} (hk : kind ≠ .endOfInput) (ht : t.kind = kind)
    (h : Reads tokens rest (f t) Q) : Reads (t :: tokens) rest (Parser.expect kind what >>= f) Q := by
  have hne : t.kind ≠ .endOfInput := ht ▸ hk
  rw [expect_bind]
  refine check ?_
  have hend : (first (t :: tokens)).isEnd = false := by
    rw [Bool.eq_false_iff, Ne, Token.isEnd_iff]
    exact hne
  have hkind : (first (t :: tokens)).kind = kind := ht
  rw [hend, hkind, beq_self_eq_true]
  exact read hne h

theorem symbol {sym : Symbol} {what : Expected} {f : Token → Parser β} (ht : t.Spells sym.text)
    (h : Reads tokens rest (f t) Q) : Reads (t :: tokens) rest (Parser.symbol sym what >>= f) Q :=
  expect (by simp) (Token.spells_symbol.1 ht) h

theorem identifier {what : Expected} {f : Name → Parser β} (ht : t.kind = .identifier)
    (h : Reads tokens rest (f t.name) Q) : Reads (t :: tokens) rest (Parser.identifier what >>= f) Q := by
  rw [identifier_bind]
  exact expect (by simp) ht h

end Lookahead

end Reads

/-- The next token has none of these spellings. -/
def Stops (texts : List String) (rest : List Token) : Prop := ∀ text ∈ texts, ¬(first rest).Spells text

theorem first_of_starts {property : Token.Kind → Bool} {ts : List Token} (h : StartsWith property ts)
    (us : List Token) : property (first (ts ++ us)).kind = true := by
  obtain ⟨t, vs, rfl, ht⟩ := h
  exact ht

theorem Stops.of_spells {texts : List String} {text : String} {t : Token} (ht : t.Spells text)
    (h : text ∉ texts) (rest : List Token) : Stops texts (t :: rest) :=
  fun _ hmem hs => h (ht.unique hs ▸ hmem)

theorem Stops.subset {texts texts' : List String} {rest : List Token} (h : Stops texts rest)
    (hsub : texts' ⊆ texts) : Stops texts' rest :=
  fun text hmem => h text (hsub hmem)

theorem Stops.next {texts : List String} {rest : List Token} (h : Stops texts rest) {text : String}
    (hmem : text ∈ texts) : ¬(first rest).Spells text :=
  h text hmem

/-! ## Lists -/

section Lists

variable {item : Parser α} {key : α → γ} {Item : α → List Token → Prop} {Follow : List Token → Prop}
  {as : List α} {ts rest : List Token}

theorem commaSeparated_reads
    (hitem : ∀ a ts rest, Item a ts → Follow rest → Reads (ts ++ rest) rest item fun b => key b = key a)
    (hcomma : ∀ t rest, t.Spells "," → Follow (t :: rest)) (list : Listed) {n count : Nat}
    (h : Separated Item as ts) (hne : as ≠ []) (hn : as.length ≤ n) (hcount : count + as.length ≤ longest)
    (hfollow : Follow rest) (hrest : ¬(first rest).Spells ",") :
    Reads (ts ++ rest) rest (commaSeparated list item n count) fun bs => bs.map key = as.map key := by
  induction h generalizing n count with
  | none => exact absurd rfl hne
  | @last a ts ha =>
    obtain ⟨n, rfl⟩ : ∃ m, n = m + 1 := Nat.exists_eq_add_one.2 hn
    have hlimit : ¬count ≥ listLimit := Nat.not_le_of_lt hcount
    rw [commaSeparated, if_neg hlimit]
    refine .bind (hitem a ts rest ha hfollow) fun b hb => .acceptMiss rfl hrest (.pure ?_)
    rw [List.map_singleton, List.map_singleton, hb]
  | @more a as comma ts us ha hc _ has ih =>
    obtain ⟨n, rfl⟩ : ∃ m, n = m + 1 := Nat.exists_eq_add_one.2 (Nat.lt_of_lt_of_le (Nat.succ_pos _) hn)
    rw [List.length_cons] at hn hcount
    have hlimit : ¬count ≥ listLimit := by
      change ¬count ≥ longest
      omega
    rw [commaSeparated, if_neg hlimit, List.append_assoc]
    refine .bind (hitem a ts _ ha (hcomma comma _ hc)) fun b hb => .acceptHit rfl hc ?_
    refine .bind (ih has (Nat.le_of_succ_le_succ hn) (by omega)) fun bs hbs => .pure ?_
    rw [List.map_cons, List.map_cons, hb, hbs]

theorem listUntil_reads
    (hitem : ∀ a ts rest, Item a ts → Follow rest → Reads (ts ++ rest) rest item fun b => key b = key a)
    (hcomma : ∀ t rest, t.Spells "," → Follow (t :: rest)) {closing : Symbol} (list : Listed)
    (hfirst : ∀ a ts, Item a ts → ∃ t us, ts = t :: us ∧ ¬t.Spells closing.text) (h : Separated Item as ts)
    (hlongest : as.length ≤ longest) {t : Token} (ht : t.Spells closing.text) (hfollow : Follow (t :: rest))
    (hclosing : closing ≠ .comma) :
    Reads (ts ++ t :: rest) (t :: rest) (listUntil closing list item) fun bs => bs.map key = as.map key := by
  have hne : ∀ a ts, Item a ts → ts ≠ [] := by
    intro a ts ha
    obtain ⟨t, us, rfl, -⟩ := hfirst a ts ha
    exact List.cons_ne_nil t us
  have hcount := h.length_le hne
  have hnot : ¬t.Spells "," := by
    intro hs
    have hkind := (Token.spells_symbol (s := .comma) |>.1 hs).symm.trans (Token.spells_symbol.1 ht)
    exact hclosing (Token.Kind.symbol.inj hkind).symm
  have hstart : as ≠ [] → ¬(first (ts ++ t :: rest)).Spells closing.text := by
    intro has
    cases h with
    | none => exact absurd rfl has
    | last ha =>
      obtain ⟨t, us, rfl, ht⟩ := hfirst _ _ ha
      exact ht
    | more ha =>
      obtain ⟨t, us, rfl, ht⟩ := hfirst _ _ ha
      exact ht
  by_cases has : as = []
  · subst has
    cases h
    exact .checkHit rfl ht (.pure rfl)
  · refine .checkMiss rfl (hstart has) (.remaining ?_)
    refine commaSeparated_reads hitem hcomma list h has ?_ (by rwa [Nat.zero_add]) hfollow hnot
    rw [List.length_append]
    omega

/-- Items are read up to a stop that does not hold where an item begins. -/
theorem itemsUntil_reads {stop : Parser Bool} {item : Parser (Option α)}
    (hitem : ∀ a ts rest, Item a ts → Follow rest →
      Reads (ts ++ rest) rest item fun b => ∃ x, b = some x ∧ key x = key a)
    (hgo : ∀ a ts rest, Item a ts → Reads (ts ++ rest) (ts ++ rest) stop (· = false))
    (hhalt : Reads rest rest stop (· = true)) (hbegin : ∀ a ts rest, Item a ts → Follow (ts ++ rest))
    (hfollow : Follow rest) (h : Sequence Item as ts) {n : Nat} (hn : as.length ≤ n) :
    Reads (ts ++ rest) rest (itemsUntil stop item n) fun bs => bs.map key = as.map key := by
  induction h generalizing n with
  | nil =>
    cases n with
    | zero => exact .pure rfl
    | succ n => exact .bind hhalt fun b hb => by subst hb; exact .pure rfl
  | @cons a as ts us ha has ih =>
    obtain ⟨n, rfl⟩ : ∃ m, n = m + 1 := Nat.exists_eq_add_one.2 (Nat.lt_of_lt_of_le (Nat.succ_pos _) hn)
    have hnext : Follow (us ++ rest) := by
      cases has with
      | nil => exact hfollow
      | cons hb =>
        rw [List.append_assoc]
        exact hbegin _ _ _ hb
    rw [List.append_assoc]
    refine .bind (hgo a ts _ ha) fun b hb => ?_
    subst hb
    refine .bind (hitem a ts _ ha hnext) fun b hb => ?_
    obtain ⟨x, rfl, hx⟩ := hb
    refine .bind (ih (Nat.le_of_succ_le_succ hn)) fun bs hbs => .pure ?_
    rw [Option.toList_some, List.singleton_append, List.map_cons, List.map_cons, hx, hbs]

end Lists

/-! ## Expressions -/

/-- The spellings with which operands of these levels go on. -/
def continuing (rows : List (List String)) : List String := "(" :: "." :: rows.flatten

/-- What is derived from the phrase with fewer than `k` tokens is read to its end, if none of the texts
follows. -/
def ReadsAs (phrase : Expr → Phrase) (texts : List String) (k : Nat) (p : Parser Expr) : Prop :=
  ∀ e ts rest, Derives (phrase e) ts → ts.length < k → Stops texts rest →
    Reads (ts ++ rest) rest p fun e' => e'.bare = e.bare

abbrev ReadsExpr (k : Nat) (p : Parser Expr) : Prop := ReadsAs .expression ("=" :: continuing levels) k p

section Expressions

variable {k : Nat} {expression : Parser Expr} {e f : Expr} {es : List Expr} {ts rest : List Token}

theorem arguments_reads (h : ReadsExpr k expression) {closing : Symbol} (list : Listed) {t : Token}
    (hes : Derives (.arguments es) ts) (hk : ts.length < k) (hlongest : es.length ≤ longest)
    (ht : t.Spells closing.text) (hclosing : closing = .rightParen ∨ closing = .rightBracket) :
    Reads (ts ++ t :: rest) (t :: rest) (listUntil closing list expression) fun es' =>
      es'.map Expr.bare = es.map Expr.bare := by
  have hitem : ∀ e us rest, Derives (.expression e) us ∧ us.length < k →
      Stops ("=" :: continuing levels) rest → Reads (us ++ rest) rest expression fun e' => e'.bare = e.bare :=
    fun e us rest he hs => h e us rest he.1 he.2 hs
  have hfirst : ∀ e us, Derives (.expression e) us ∧ us.length < k →
      ∃ t vs, us = t :: vs ∧ ¬t.Spells closing.text := by
    rintro e us ⟨he, -⟩
    obtain ⟨t, vs, rfl, hb⟩ := he.expression_starts
    refine ⟨t, vs, rfl, Token.not_spells_of (k := .symbol closing) hb rfl ?_⟩
    rcases hclosing with rfl | rfl <;> rfl
  have hstops : Stops ("=" :: continuing levels) (t :: rest) := by
    rcases hclosing with rfl | rfl <;> exact .of_spells ht (by decide) rest
  refine listUntil_reads hitem ?_ list hfirst (hes.separated.bounded hk) hlongest ht hstops ?_
  · exact fun t rest hs => .of_spells hs (by decide) rest
  · rcases hclosing with rfl | rfl <;> decide

theorem primary_reads (h : ReadsExpr k expression) : ReadsAs .primary [] (k + 1) (primary expression) := by
  intro e ts rest he hk _
  cases he with
  | literal ht =>
    unfold Token.Kind.literal? at ht
    refine .look ?_
    split at ht
    iterate 5
      next hkind =>
        cases ht
        rw [hkind]
        exact .read (by simp [hkind]) (.pure rfl)
    cases ht
  | this id ht =>
    refine .look ?_
    rw [Token.spells_keyword (w := .this) |>.1 ht]
    exact .read ht.kind_ne (.freshId fun id' => .pure rfl)
  | identifier id ht =>
    refine .look ?_
    rw [ht]
    exact .read (by simp [ht]) (.freshId fun id' => .pure rfl)
  | group ho he hc =>
    rw [List.cons_append, List.append_assoc]
    refine .look ?_
    rw [Token.spells_symbol (s := .leftParen) |>.1 ho]
    simp only [List.length_cons, List.length_append, List.length_nil] at hk
    refine .read ho.kind_ne (.bind (h _ _ _ he (by omega) (.of_spells hc (by decide) rest)) fun e' he' => ?_)
    refine .symbol hc (.pure ?_)
    rw [Expr.bare, Expr.bare, he']
  | array ho hes hl hc =>
    rw [List.cons_append, List.append_assoc]
    refine .look ?_
    rw [Token.spells_symbol (s := .leftBracket) |>.1 ho]
    simp only [List.length_cons, List.length_append, List.length_nil] at hk
    refine .read ho.kind_ne (.bind (arguments_reads h _ hes (by omega) hl hc (.inr rfl)) fun es' hes' => ?_)
    refine .symbol hc (.pure ?_)
    rw [Expr.bare, Expr.bare, Expr.listBare_eq, Expr.listBare_eq, hes']
  | super id ht hdot hm =>
    refine .look ?_
    rw [Token.spells_keyword (w := .super) |>.1 ht]
    exact .read ht.kind_ne (.symbol hdot (.identifier hm (.freshId fun id' => .pure rfl)))

theorem suffixes_reads (h : ReadsExpr k expression) (hs : Suffixes f ts e) (hk : ts.length < k + 1) {n : Nat}
    (hn : ts.length ≤ n) (hrest : Stops ["(", "."] rest) {f' : Expr} (hf : f'.bare = f.bare) :
    Reads (ts ++ rest) rest (suffixes expression n f') fun e' => e'.bare = e.bare := by
  induction hs generalizing n f' with
  | done =>
    cases n with
    | zero => exact .pure hf
    | succ n =>
      refine .acceptMiss rfl (hrest.next (by decide)) (.acceptMiss rfl (hrest.next (by decide)) ?_)
      exact .pure hf
  | invoke ho hes hl hc _ ih =>
    simp only [List.length_cons, List.length_append] at hk hn
    obtain ⟨n, rfl⟩ : ∃ m, n = m + 1 := Nat.exists_eq_add_one.2 (by omega)
    rw [List.cons_append, List.append_assoc]
    refine .acceptHit rfl ho (.bind (arguments_reads h _ hes (by omega) hl hc (.inl rfl)) fun es' hes' => ?_)
    refine .symbol hc (ih (by omega) (by omega) ?_)
    rw [Expr.bare, Expr.bare, Expr.listBare_eq, Expr.listBare_eq, hes', hf]
  | get hd ht _ ih =>
    simp only [List.length_cons] at hk hn
    obtain ⟨n, rfl⟩ : ∃ m, n = m + 1 := Nat.exists_eq_add_one.2 (by omega)
    refine .acceptMiss rfl (fun hs => absurd (hs.unique hd) (by decide)) (.acceptHit rfl hd ?_)
    refine .identifier ht (ih (by omega) (by omega) ?_)
    rw [Expr.bare, Expr.bare, hf]

theorem call_reads (h : ReadsExpr k expression) : ReadsAs .call ["(", "."] (k + 1) (call expression) := by
  intro e ts rest he hk hrest
  obtain ⟨f, us, vs, rfl, hf, hs⟩ := he.suffixes
  rw [List.length_append] at hk
  rw [List.append_assoc]
  refine .bind (primary_reads h f us _ hf (by omega) fun _ hmem => absurd hmem List.not_mem_nil) ?_
  refine fun f' hf' => .remaining (suffixes_reads h hs (by omega) ?_ hrest hf')
  rw [List.length_append]
  omega

theorem unaryUpTo_reads (h : ReadsExpr k expression) (he : Derives (.unary e) ts) (hk : ts.length < k + 1)
    {n : Nat} (hn : ts.length < n) (hrest : Stops ["(", "."] rest) :
    Reads (ts ++ rest) rest (unaryUpTo expression n) fun e' => e'.bare = e.bare := by
  induction n generalizing e ts with
  | zero => exact absurd hn (Nat.not_lt_zero _)
  | succ n ih =>
    cases he with
    | sign ht he =>
      rw [List.length_cons] at hk hn
      refine .look ?_
      rw [signs_lookup_iff.2 ht]
      refine .read ht.kind_ne (.bind (ih he (by omega) (by omega)) fun e' he' => .pure ?_)
      rw [Expr.bare, Expr.bare, he']
    | unsigned he =>
      have hcall := call_reads h e ts rest he hk hrest
      have hsign := Option.isNone_iff_eq_none.1 (first_of_starts he.call_starts rest)
      refine .peek ?_
      rw [hsign]
      exact hcall

theorem unary_reads (h : ReadsExpr k expression) : ReadsAs .unary ["(", "."] (k + 1) (unary expression) := by
  intro e ts rest he hk hrest
  refine .remaining (unaryUpTo_reads h he hk ?_ hrest)
  rw [List.length_append]
  omega

theorem continuing_sublist (level : List String) (rows : List (List String)) :
    (continuing rows).Sublist (continuing (level :: rows)) :=
  ((List.sublist_append_right level rows.flatten).cons_cons _).cons_cons _

theorem not_mem_continuing {level : List String} {rows : List (List String)}
    (hrows : (continuing (level :: rows)).Nodup) {text : String} (h : text ∈ level) :
    text ∉ continuing rows := by
  have hperm : (level ++ continuing rows).Perm (continuing (level :: rows)) :=
    List.perm_middle.trans (List.perm_middle.cons _)
  exact List.disjoint_of_nodup_append (hperm.nodup_iff.2 hrows) h

/-- What follows an operand is either an operator of the level or behind the whole chain. -/
theorem stops_of_chain {level : List String} {rows : List (List String)} {l : Expr}
    (hrows : (continuing (level :: rows)).Nodup) (hc : Chain level rows l ts e)
    (hrest : Stops (continuing (level :: rows)) rest) : Stops (continuing rows) (ts ++ rest) := by
  cases hc with
  | done => exact hrest.subset (continuing_sublist level rows).subset
  | more hop ht => exact .of_spells ht (not_mem_continuing hrows hop) _

theorem chain_reads {level : List String} {rows : List (List String)} {operand : Parser Expr} {tier : Tier}
    (hspelt : SpeltBy Infix.text tier level) (hrows : (continuing (level :: rows)).Nodup)
    (h : ReadsAs (.level rows) (continuing rows) k operand) {l : Expr} (hc : Chain level rows l ts e)
    (hk : ts.length < k) {n : Nat} (hn : ts.length ≤ n)
    (hrest : Stops (continuing (level :: rows)) rest) {l' : Expr} (hl : l'.bare = l.bare) :
    Reads (ts ++ rest) rest (chain tier operand n l') fun e' => e'.bare = e.bare := by
  have hlookup := @SpeltBy.lookup_iff _ _ Infix.text_injective _ _ hspelt
  induction hc generalizing n l' with
  | done =>
    cases n with
    | zero => exact .pure hl
    | succ n =>
      refine .peek ?_
      have hnone : tier.lookup (first ([] ++ rest)).kind = none := by
        rw [Option.eq_none_iff_forall_ne_some]
        intro op hop
        obtain ⟨hmem, hs⟩ := hlookup.1 hop
        exact hrest _ (by simp [continuing, hmem]) hs
      rw [hnone]
      exact .pure hl
  | more hop ht hr hc ih =>
    simp only [List.length_cons, List.length_append] at hk hn
    obtain ⟨n, rfl⟩ : ∃ m, n = m + 1 := Nat.exists_eq_add_one.2 (by omega)
    rw [List.cons_append, List.append_assoc]
    refine .look ?_
    rw [hlookup.2 ⟨hop, ht⟩]
    refine .read ht.kind_ne (.bind (h _ _ _ hr (by omega) (stops_of_chain hrows hc hrest)) fun r' hr' => ?_)
    refine ih (by omega) (by omega) ?_
    rw [Infix.bare_join, Infix.bare_join, hl, hr']

theorem tiered_reads {operand : Parser Expr} (h : ReadsAs .unary ["(", "."] k operand) {tiers : List Tier}
    {rows : List (List String)} (hspelt : List.Forall₂ (SpeltBy Infix.text) tiers rows)
    (hrows : (continuing rows).Nodup) : ReadsAs (.level rows) (continuing rows) k (tiered operand tiers) := by
  induction hspelt with
  | nil =>
    intro e ts rest he hk hrest
    cases he with
    | operand he => exact h e ts rest he hk hrest
  | @cons tier level tiers rows hlevel _ ih =>
    intro e ts rest he hk hrest
    have tighter := ih ((continuing_sublist level rows).nodup hrows)
    obtain ⟨l, us, vs, rfl, hl, hc⟩ := he.chain
    rw [List.length_append] at hk
    rw [List.append_assoc]
    refine .bind (tighter l us _ hl (by omega) (stops_of_chain hrows hc hrest)) fun l' hl' => .remaining ?_
    refine chain_reads hlevel hrows tighter hc (by omega) ?_ hrest hl'
    rw [List.length_append]
    omega

theorem continuing_nodup : (continuing levels).Nodup := by decide +kernel

theorem bare_eq_variable {v : Variable} (h : e.bare = (Expr.variable v).bare) :
    ∃ id, e = .variable ⟨id, v.name⟩ := by
  cases e with
  | «variable» v' =>
    rw [Expr.bare, Expr.bare, Variable.bare, Variable.bare] at h
    injection h with h
    injection h with _ h
    exact ⟨v'.id, by rw [← h]⟩
  | _ => rw [Expr.bare, Expr.bare] at h; cases h

theorem bare_eq_get {o : Expr} {name : Name} (h : e.bare = (Expr.get o name).bare) :
    ∃ o', e = .get o' name ∧ o'.bare = o.bare := by
  cases e with
  | get o' name' =>
    rw [Expr.bare, Expr.bare] at h
    injection h with ho hname
    exact ⟨o', by rw [hname], ho⟩
  | _ => rw [Expr.bare, Expr.bare] at h; cases h

theorem assignment_reads (h : ReadsExpr k expression) : ReadsExpr (k + 1) (assignment expression) := by
  intro e ts rest he hk hrest
  have left := tiered_reads (unary_reads h) tiers_spelt continuing_nodup
  have stops : ∀ {t : Token} (rest : List Token), t.Spells "=" → Stops (continuing levels) (t :: rest) :=
    fun rest ht => .of_spells ht (by decide) rest
  cases he with
  | @assign t equal e ts id ht hequal he =>
    have target := Derives.of_identifier id ht levels
    simp only [List.length_cons] at hk
    refine .bind (left _ [t] (equal :: (ts ++ rest)) target ?_ (stops _ hequal)) fun l hl => .peek ?_
    · rw [List.length_singleton]
      omega
    · obtain ⟨id', rfl⟩ := bare_eq_variable hl
      refine .acceptHit rfl hequal (.bind (h e ts rest he (by omega) hrest) fun e' he' => ?_)
      refine .freshId fun id => .pure ?_
      rw [Expr.bare, Expr.bare, he']
      rfl
  | @set o e dot t equal ts us ho hdot ht hequal he =>
    have target : Derives (.level levels (.get o t.name)) (ts ++ [dot, t]) := (ho.get hdot ht).level_of_call levels
    simp only [List.length_append, List.length_cons] at hk
    have split : ts ++ dot :: t :: equal :: us ++ rest = ts ++ [dot, t] ++ equal :: (us ++ rest) := by simp
    rw [split]
    refine .bind (left _ _ (equal :: (us ++ rest)) target ?_ (stops _ hequal)) fun l hl => .peek ?_
    · simp only [List.length_append, List.length_cons, List.length_nil]
      omega
    · obtain ⟨o', rfl, ho'⟩ := bare_eq_get hl
      refine .acceptHit rfl hequal (.bind (h e us rest he (by omega) hrest) fun e' he' => .pure ?_)
      rw [Expr.bare, Expr.bare, ho', he']
  | value he =>
    refine .bind (left e ts rest he hk (hrest.subset (List.subset_cons_self _ _))) fun l hl => .peek ?_
    exact .acceptMiss rfl (hrest.next (List.mem_cons_self ..)) (.pure hl)

theorem expressionUpTo_reads (n : Nat) : ReadsExpr n (expressionUpTo n) := by
  induction n with
  | zero => exact fun _ _ _ _ hk => absurd hk (Nat.not_lt_zero _)
  | succ n ih => exact assignment_reads ih

/-- An expression is read to its end, if it does not go on. -/
theorem expression_reads (he : Derives (.expression e) ts) (hrest : Stops ("=" :: continuing levels) rest) :
    Reads (ts ++ rest) rest Parser.expression fun e' => e'.bare = e.bare := by
  refine .remaining (expressionUpTo_reads _ e ts rest he ?_ hrest)
  rw [List.length_append]
  omega

end Expressions

/-! ## Statements -/

/-- Derived parts of fewer than `k` tokens are read to their end. Only an `else` can continue a statement. -/
structure Nested.Complete (k : Nat) (nested : Nested) : Prop where
  statement : ∀ d s ts rest, Builds true (.statement d s) ts → ts.length < k →
    (d = true → ¬(first rest).Spells "else") →
    Reads (ts ++ rest) rest nested.statement fun s' => s'.bare = s.bare
  declaration : ∀ s ts rest, Builds true (.declaration s) ts → ts.length < k → ¬(first rest).Spells "else" →
    Reads (ts ++ rest) rest nested.declaration fun a => ∃ s', a = some s' ∧ s'.bare = s.bare

section Statements

variable {k : Nat} {nested : Nested} {s : Stmt} {ts rest : List Token}

theorem stops_at_semicolon {t : Token} (h : t.Spells ";") (rest : List Token) :
    Stops ("=" :: continuing levels) (t :: rest) :=
  .of_spells h (by decide) rest

theorem stops_at_paren {t : Token} (h : t.Spells ")") (rest : List Token) :
    Stops ("=" :: continuing levels) (t :: rest) :=
  .of_spells h (by decide) rest

theorem not_else_of_declaration (hs : Builds true (.declaration s) ts) (rest : List Token) :
    ¬(first (ts ++ rest)).Spells "else" :=
  Token.not_spells_of (k := .keyword .else) (first_of_starts hs.declaration_starts rest) rfl rfl

theorem not_end_of_starts {property : Token.Kind → Bool} (h : StartsWith property ts)
    (hend : property .endOfInput = false) (rest : List Token) : (first (ts ++ rest)).isEnd = false := by
  rw [Bool.eq_false_iff, Ne, Token.isEnd_iff]
  intro hk
  have ht := first_of_starts h rest
  rw [hk, hend] at ht
  cases ht

theorem atBrace_reads_false {property : Token.Kind → Bool} (h : StartsWith property ts)
    (hend : property .endOfInput = false) (hbrace : property (.symbol .rightBrace) = false)
    (rest : List Token) : Reads (ts ++ rest) (ts ++ rest) atBrace (· = false) := by
  refine .checkMiss rfl (Token.not_spells_of (first_of_starts h rest) rfl hbrace) (.atEnd (.pure ?_))
  rw [not_end_of_starts h hend rest]
  rfl

theorem atBrace_reads_true {t : Token} (ht : t.Spells "\x7d") (rest : List Token) :
    Reads (t :: rest) (t :: rest) atBrace (· = true) :=
  .checkHit rfl ht (.atEnd (.pure (Bool.true_or _)))

theorem block_reads (h : nested.Complete k) {body : List Stmt} {right : Token}
    (hbody : Builds true (.declarations body) ts) (hk : ts.length < k) (hr : right.Spells "\x7d") :
    Reads (ts ++ right :: rest) rest (block nested) fun body' =>
      Stmt.listBare body' = Stmt.listBare body := by
  have hgo : ∀ s ts rest, Builds true (.declaration s) ts ∧ ts.length < k →
      Reads (ts ++ rest) (ts ++ rest) atBrace (· = false) :=
    fun s ts rest hs => atBrace_reads_false hs.1.declaration_starts rfl rfl rest
  have hseq := hbody.sequence.bounded hk
  have hlen := hseq.length_le fun _ _ hs => hs.1.declaration_starts.ne_nil
  refine .remaining (.bind (itemsUntil_reads (fun s ts rest hs hrest => h.declaration s ts rest hs.1 hs.2 hrest)
    hgo (atBrace_reads_true hr rest) (fun s ts rest hs => not_else_of_declaration hs.1 rest) ?_ hseq ?_)
    fun body' hbody' => .symbol hr (.pure ?_))
  · exact fun hs => absurd (hs.unique hr) (by decide)
  · rw [List.length_append]
    omega
  · rw [Stmt.listBare_eq, Stmt.listBare_eq, hbody']

theorem parameters_reads {params : List Name} {closing : Token} (hparams : Separated Identifier params ts)
    (hl : params.length ≤ longest) (hc : closing.Spells ")") :
    Reads (ts ++ closing :: rest) (closing :: rest)
      (listUntil .rightParen .parameters (identifier .parameterName)) fun names => names = params := by
  have hitem : ∀ name ts rest, Identifier name ts → True →
      Reads (ts ++ rest) rest (identifier .parameterName) fun name' => id name' = id name := by
    rintro _ _ rest ⟨ht⟩ -
    rw [← bind_pure (identifier .parameterName)]
    exact .identifier ht (.pure rfl)
  have hfirst : ∀ name ts, Identifier name ts → ∃ t us, ts = t :: us ∧ ¬t.Spells Symbol.rightParen.text := by
    rintro _ _ ⟨ht⟩
    refine ⟨_, _, rfl, fun hs => ?_⟩
    rw [Token.Spells, ht] at hs
    cases hs
  refine (listUntil_reads hitem (fun _ _ _ => trivial) _ hfirst hparams hl hc trivial (by decide)).mono ?_
  intro names hnames
  rwa [List.map_id, List.map_id] at hnames

theorem routine_reads (h : nested.Complete k) (role : RoutineRole) {d : FunctionDecl}
    (hd : Builds true (.function d) ts) (hk : ts.length < k + 1) :
    Reads (ts ++ rest) rest (routine nested role) fun d' => Stmt.routineBare d' = Stmt.routineBare d := by
  cases hd with
  | function ht ho hparams hl hc hleft hbody hright =>
    simp only [List.length_cons, List.length_append] at hk
    simp only [List.cons_append, List.append_assoc]
    refine .identifier ht (.symbol ho (.bind (parameters_reads hparams hl hc) fun params hp => ?_))
    subst hp
    refine .symbol hc (.symbol hleft (.bind (block_reads h hbody (by omega) hright) fun body' hbody' => .pure ?_))
    rw [Stmt.routineBare, Stmt.routineBare, hbody']

/-- The member with all identities left out. -/
def Member.bare : Member → Member
  | .method d => .method (Stmt.routineBare d)
  | .static d => .static (Stmt.routineBare d)

theorem Member.method?_bare (m : Member) : m.bare.method? = m.method?.map Stmt.routineBare := by
  cases m <;> rfl

theorem Member.static?_bare (m : Member) : m.bare.static? = m.static?.map Stmt.routineBare := by
  cases m <;> rfl

theorem routinesBare_methods (ms : List Member) :
    Stmt.routinesBare (ms.filterMap Member.method?) = (ms.map Member.bare).filterMap Member.method? := by
  rw [Stmt.routinesBare_eq, List.map_filterMap, List.filterMap_map]
  exact List.filterMap_congr fun m _ => m.method?_bare.symm

theorem routinesBare_statics (ms : List Member) :
    Stmt.routinesBare (ms.filterMap Member.static?) = (ms.map Member.bare).filterMap Member.static? := by
  rw [Stmt.routinesBare_eq, List.map_filterMap, List.filterMap_map]
  exact List.filterMap_congr fun m _ => m.static?_bare.symm

theorem member_reads (h : nested.Complete k) {m : Member} (hm : BuildsMember true m ts) (hk : ts.length < k) :
    Reads (ts ++ rest) rest (member nested) fun m' => m'.bare = m.bare := by
  cases hm with
  | method hd =>
    have hnot : ¬(first (ts ++ rest)).Spells "static" := by
      cases hd with
      | function ht =>
        intro hs
        have hkind := ht.symm.trans (Token.spells_keyword (w := .static) |>.1 hs)
        cases hkind
    refine .acceptMiss rfl hnot (.bind (routine_reads h _ hd (by omega)) fun d' hd' => .pure ?_)
    rw [Member.bare, Member.bare, hd']
  | static hw hd =>
    rw [List.length_cons] at hk
    refine .acceptHit rfl hw (.bind (routine_reads h _ hd (by omega)) fun d' hd' => .pure ?_)
    rw [Member.bare, Member.bare, hd']

theorem superclassClause_reads {superclass : Option Variable} {opening : Token}
    (hsuper : Superclass superclass ts) (ho : opening.Spells "\x7b") :
    Reads (ts ++ opening :: rest) (opening :: rest) superclassClause fun v =>
      v.map Variable.bare = superclass.map Variable.bare := by
  cases hsuper with
  | none => exact .acceptMiss rfl (fun hs => absurd (hs.unique ho) (by decide)) (.pure rfl)
  | some id hcolon ht => exact .acceptHit rfl hcolon (.identifier ht (.freshId fun _ => .pure rfl))

theorem classDeclaration_reads (h : nested.Complete k) {t opening closing : Token}
    {superclass : Option Variable} {methods statics : List FunctionDecl} {us : List Token}
    (ht : t.kind = .identifier) (hsuper : Superclass superclass ts) (ho : opening.Spells "\x7b")
    (hm : Builds true (.members methods statics) us) (hk : us.length < k) (hc : closing.Spells "\x7d") :
    Reads (t :: (ts ++ opening :: (us ++ closing :: rest))) rest (classDeclaration nested) fun s' =>
      s'.bare = (Stmt.classDecl t.name superclass methods statics).bare := by
  obtain ⟨ms, hms, rfl, rfl⟩ := hm.memberSequence
  have hseq := hms.bounded hk
  have hlen := hseq.length_le fun _ _ hm => hm.1.starts.ne_nil
  have hitem : ∀ m us rest, BuildsMember true m us ∧ us.length < k → True →
      Reads (us ++ rest) rest (some <$> member nested) fun a => ∃ m', a = some m' ∧ m'.bare = m.bare :=
    fun m us rest hm _ => .map ((member_reads h hm.1 hm.2).mono fun m' hm' => ⟨m', rfl, hm'⟩)
  have hgo : ∀ m us rest, BuildsMember true m us ∧ us.length < k →
      Reads (us ++ rest) (us ++ rest) atBrace (· = false) :=
    fun m us rest hm => atBrace_reads_false hm.1.starts rfl rfl rest
  refine .identifier ht (.bind (superclassClause_reads hsuper ho) fun superclass' hs' => .symbol ho ?_)
  refine .remaining (.bind (itemsUntil_reads hitem hgo (atBrace_reads_true hc rest) (fun _ _ _ _ => trivial)
    trivial hseq ?_) fun ms' hms' => .symbol hc (.pure ?_))
  · rw [List.length_append]
    omega
  · rw [Stmt.bare, Stmt.bare, hs', routinesBare_methods, routinesBare_methods, routinesBare_statics,
      routinesBare_statics, hms']

theorem initializer_reads {value : Option Expr} {semicolon : Token} (hv : Initial value ts)
    (hs : semicolon.Spells ";") :
    Reads (ts ++ semicolon :: rest) (semicolon :: rest) initializer fun v =>
      v.map Expr.bare = value.map Expr.bare := by
  cases hv with
  | none => exact .acceptMiss rfl (fun h => absurd (h.unique hs) (by decide)) (.pure rfl)
  | some hequal he =>
    refine .acceptHit rfl hequal (.map ((expression_reads he (stops_at_semicolon hs rest)).mono ?_))
    exact fun e' he' => congrArg some he'

theorem letDeclaration_reads {t semicolon : Token} {value : Option Expr} (ht : t.kind = .identifier)
    (hv : Initial value ts) (hs : semicolon.Spells ";") :
    Reads (t :: (ts ++ semicolon :: rest)) rest letDeclaration fun s' =>
      s'.bare = (Stmt.letDecl t.name value).bare := by
  refine .identifier ht (.bind (initializer_reads hv hs) fun v hv' => .symbol hs (.pure ?_))
  rw [Stmt.bare, Stmt.bare, hv']

theorem constDeclaration_reads {t equal semicolon : Token} {e : Expr} (ht : t.kind = .identifier)
    (hequal : equal.Spells "=") (he : Derives (.expression e) ts) (hs : semicolon.Spells ";") :
    Reads (t :: equal :: (ts ++ semicolon :: rest)) rest constDeclaration fun s' =>
      s'.bare = (Stmt.constDecl t.name e).bare := by
  refine .identifier ht (.symbol hequal (.bind (expression_reads he (stops_at_semicolon hs rest)) ?_))
  intro e' he'
  refine .symbol hs (.pure ?_)
  rw [Stmt.bare, Stmt.bare, he']

theorem importStatement_reads {t semicolon : Token} {path : String} (line : Nat) (ht : t.kind = .string path)
    (hs : semicolon.Spells ";") :
    Reads (t :: semicolon :: rest) rest (importStatement line) fun s' =>
      s'.bare = (Stmt.importFile line path).bare := by
  refine .look ?_
  rw [ht]
  exact .read (by simp [ht]) (.symbol hs (.pure rfl))

theorem expressionStatement_reads (hs : Builds true (.exprStmt s) ts) :
    Reads (ts ++ rest) rest expressionStatement fun s' => s'.bare = s.bare := by
  cases hs with
  | exprStmt he hsemi =>
    rw [List.append_assoc]
    refine .bind (expression_reads he (stops_at_semicolon hsemi rest)) fun e' he' => .symbol hsemi (.pure ?_)
    rw [Stmt.bare, Stmt.bare, he']

theorem optionalExpression_reads {closing : Symbol} {t : Token} {e : Option Expr} (he : Optionally e ts)
    (ht : t.Spells closing.text) (hclosing : closing = .semicolon ∨ closing = .rightParen) :
    Reads (ts ++ t :: rest) (t :: rest) (optionalExpression closing) fun e' =>
      e'.map Expr.bare = e.map Expr.bare := by
  cases he with
  | none => exact .checkHit rfl ht (.pure rfl)
  | some he =>
    have hstops : Stops ("=" :: continuing levels) (t :: rest) := by
      rcases hclosing with rfl | rfl <;> exact .of_spells ht (by decide) rest
    have hfirst : ¬(first (ts ++ t :: rest)).Spells closing.text := by
      refine Token.not_spells_of (k := .symbol closing) (first_of_starts he.expression_starts _) rfl ?_
      rcases hclosing with rfl | rfl <;> rfl
    refine .checkMiss rfl hfirst (.map ((expression_reads he hstops).mono ?_))
    exact fun e' he' => congrArg some he'

theorem forStart_reads {start : Option Stmt} (hs : Builds true (.start start) ts) :
    Reads (ts ++ rest) rest forStart fun start' => start'.map Stmt.bare = start.map Stmt.bare := by
  cases hs with
  | noStart hsemi => exact .acceptHit rfl hsemi (.pure rfl)
  | letStart hs =>
    cases hs with
    | letDecl hw ht hv hsemi =>
      rw [List.cons_append, List.cons_append, List.append_assoc]
      refine .acceptMiss rfl (fun h => absurd (h.unique hw) (by decide)) (.acceptHit rfl hw ?_)
      exact .map ((letDeclaration_reads ht hv hsemi).mono fun s' hs' => congrArg some hs')
  | exprStart hs =>
    have hb := first_of_starts hs.exprStmt_starts rest
    refine .acceptMiss rfl (Token.not_spells_of (k := .symbol .semicolon) hb rfl rfl) ?_
    refine .acceptMiss rfl (Token.not_spells_of (k := .keyword .let) hb rfl rfl) ?_
    exact .map ((expressionStatement_reads hs).mono fun s' hs' => congrArg some hs')

theorem parenthesizedCondition_reads (what : Expected) {opening closing : Token} {c : Expr}
    (ho : opening.Spells "(") (hc : Derives (.expression c) ts) (hclose : closing.Spells ")") :
    Reads (opening :: (ts ++ closing :: rest)) rest (parenthesizedCondition what) fun c' => c'.bare = c.bare :=
  .symbol ho (.bind (expression_reads hc (stops_at_paren hclose rest)) fun _ hc' => .symbol hclose (.pure hc'))

theorem forStatement_reads (h : nested.Complete k) {opening semicolon closing : Token} {start : Option Stmt}
    {condition increment : Option Expr} {body : Stmt} {d : Bool} {us vs ws : List Token}
    (ho : opening.Spells "(") (hstart : Builds true (.start start) ts) (hcond : Optionally condition us)
    (hs : semicolon.Spells ";") (hinc : Optionally increment vs) (hc : closing.Spells ")")
    (hbody : Builds true (.statement d body) ws) (hk : ws.length < k)
    (hrest : d = true → ¬(first rest).Spells "else") :
    Reads (opening :: (ts ++ (us ++ semicolon :: (vs ++ closing :: (ws ++ rest))))) rest (forStatement nested)
      fun s' => s'.bare = (forLoop start condition increment body).bare := by
  refine .symbol ho (.bind (forStart_reads hstart) fun start' hstart' => ?_)
  refine .bind (optionalExpression_reads hcond hs (.inl rfl)) fun condition' hcond' => .symbol hs ?_
  refine .bind (optionalExpression_reads hinc hc (.inr rfl)) fun increment' hinc' => .symbol hc ?_
  refine .bind (h.statement d body ws rest hbody hk hrest) fun body' hbody' => ?_
  have hbare := bare_forLoop hstart' hcond' hinc' hbody'
  cases start' with
  | none => exact .pure hbare
  | some s => exact .pure hbare

theorem whileStatement_reads (h : nested.Complete k) {opening closing : Token} {c : Expr} {d : Bool}
    {us : List Token} (ho : opening.Spells "(") (hc : Derives (.expression c) ts) (hclose : closing.Spells ")")
    (hs : Builds true (.statement d s) us) (hk : us.length < k)
    (hrest : d = true → ¬(first rest).Spells "else") :
    Reads (opening :: (ts ++ closing :: (us ++ rest))) rest (whileStatement nested) fun s' =>
      s'.bare = (Stmt.whileLoop c s none).bare := by
  refine .bind (parenthesizedCondition_reads _ ho hc hclose) fun c' hc' => ?_
  refine .bind (h.statement d s us rest hs hk hrest) fun s' hs' => .pure ?_
  rw [Stmt.bare, Stmt.bare, hc', hs']

theorem ifThen_reads (h : nested.Complete k) {opening closing : Token} {c : Expr} {d : Bool}
    {us : List Token} (ho : opening.Spells "(") (hc : Derives (.expression c) ts) (hclose : closing.Spells ")")
    (hs : Builds true (.statement d s) us) (hk : us.length < k) (hrest : ¬(first rest).Spells "else") :
    Reads (opening :: (ts ++ closing :: (us ++ rest))) rest (ifStatement nested) fun s' =>
      s'.bare = (Stmt.ifThen c s).bare := by
  refine .bind (parenthesizedCondition_reads _ ho hc hclose) fun c' hc' => ?_
  refine .bind (h.statement d s us rest hs hk fun _ => hrest) fun s' hs' => .acceptMiss rfl hrest (.pure ?_)
  rw [Stmt.bare, Stmt.bare, hc', hs']

theorem ifElse_reads (h : nested.Complete k) {opening closing other : Token} {c : Expr} {t : Stmt} {d : Bool}
    {us vs : List Token} (ho : opening.Spells "(") (hc : Derives (.expression c) ts)
    (hclose : closing.Spells ")") (hs : Builds true (.statement false s) us) (hk : us.length < k)
    (he : other.Spells "else") (ht : Builds true (.statement d t) vs) (hk' : vs.length < k)
    (hrest : d = true → ¬(first rest).Spells "else") :
    Reads (opening :: (ts ++ closing :: (us ++ other :: (vs ++ rest)))) rest (ifStatement nested) fun s' =>
      s'.bare = (Stmt.ifElse c s t).bare := by
  refine .bind (parenthesizedCondition_reads _ ho hc hclose) fun c' hc' => ?_
  refine .bind (h.statement false s us _ hs hk fun hd => absurd hd Bool.false_ne_true) fun s' hs' => ?_
  refine .acceptHit rfl he (.bind (h.statement d t vs rest ht hk' hrest) fun t' ht' => .pure ?_)
  rw [Stmt.bare, Stmt.bare, hc', hs', ht']

theorem doWhileStatement_reads (h : nested.Complete k) {again opening closing semicolon : Token} {c : Expr}
    {d : Bool} {us : List Token} (hs : Builds true (.statement d s) ts) (hk : ts.length < k)
    (ha : again.Spells "while") (ho : opening.Spells "(") (hc : Derives (.expression c) us)
    (hclose : closing.Spells ")") (hsemi : semicolon.Spells ";") :
    Reads (ts ++ again :: opening :: (us ++ closing :: semicolon :: rest)) rest (doWhileStatement nested)
      fun s' => s'.bare = (Stmt.doWhile s c).bare := by
  refine .bind (h.statement d s ts _ hs hk fun _ he => absurd (ha.unique he) (by decide)) fun s' hs' => ?_
  refine .expect (by simp) (Token.spells_keyword (w := .while) |>.1 ha) ?_
  refine .bind (parenthesizedCondition_reads _ ho hc hclose) fun c' hc' => .symbol hsemi (.pure ?_)
  rw [Stmt.bare, Stmt.bare, hs', hc']

theorem printStatement_reads {semicolon : Token} {e : Expr} (he : Derives (.expression e) ts)
    (hs : semicolon.Spells ";") :
    Reads (ts ++ semicolon :: rest) rest printStatement fun s' => s'.bare = (Stmt.print e).bare := by
  refine .bind (expression_reads he (stops_at_semicolon hs rest)) fun e' he' => .symbol hs (.pure ?_)
  rw [Stmt.bare, Stmt.bare, he']

theorem returnStatement_reads (line : Nat) {semicolon : Token} {e : Option Expr} (he : Optionally e ts)
    (hs : semicolon.Spells ";") :
    Reads (ts ++ semicolon :: rest) rest (returnStatement line) fun s' =>
      s'.bare = (Stmt.returnValue line e).bare := by
  refine .bind (optionalExpression_reads he hs (.inl rfl)) fun e' he' => .symbol hs (.pure ?_)
  rw [Stmt.bare, Stmt.bare, he']

theorem statementWith_reads (h : nested.Complete k) {d : Bool} (hs : Builds true (.statement d s) ts)
    (hk : ts.length < k + 1) (hrest : d = true → ¬(first rest).Spells "else") :
    Reads (ts ++ rest) rest (statementWith nested) fun s' => s'.bare = s.bare := by
  cases hs with
  | expression hs =>
    have hb := first_of_starts hs.exprStmt_starts rest
    refine .peek ?_
    split
    iterate 9 next hkind => rw [hkind] at hb; cases hb
    exact expressionStatement_reads hs
  | forStmt hw ho hstart hcond hsemi hinc hc hbody =>
    simp only [List.length_cons, List.length_append] at hk
    simp only [List.cons_append, List.append_assoc]
    refine .look ?_
    rw [Token.spells_keyword (w := .for) |>.1 hw]
    exact .read hw.kind_ne (forStatement_reads h ho hstart hcond hsemi hinc hc hbody (by omega) hrest)
  | ifThen hw ho hcond hc hs =>
    simp only [List.length_cons, List.length_append] at hk
    simp only [List.cons_append, List.append_assoc]
    refine .look ?_
    rw [Token.spells_keyword (w := .if) |>.1 hw]
    exact .read hw.kind_ne (ifThen_reads h ho hcond hc hs (by omega) (hrest rfl))
  | ifElse hw ho hcond hc hs hinner he ht =>
    cases hinner rfl
    simp only [List.length_cons, List.length_append] at hk
    simp only [List.cons_append, List.append_assoc]
    refine .look ?_
    rw [Token.spells_keyword (w := .if) |>.1 hw]
    exact .read hw.kind_ne (ifElse_reads h ho hcond hc hs (by omega) he ht (by omega) hrest)
  | whileStmt hw ho hcond hc hs =>
    simp only [List.length_cons, List.length_append] at hk
    simp only [List.cons_append, List.append_assoc]
    refine .look ?_
    rw [Token.spells_keyword (w := .while) |>.1 hw]
    exact .read hw.kind_ne (whileStatement_reads h ho hcond hc hs (by omega) hrest)
  | doWhile hw hs ha ho hcond hc hsemi =>
    simp only [List.length_cons, List.length_append] at hk
    simp only [List.cons_append, List.append_assoc]
    refine .look ?_
    rw [Token.spells_keyword (w := .do) |>.1 hw]
    exact .read hw.kind_ne (doWhileStatement_reads h hs (by omega) ha ho hcond hc hsemi)
  | printStmt hw he hsemi =>
    simp only [List.cons_append, List.append_assoc]
    refine .look ?_
    rw [Token.spells_keyword (w := .print) |>.1 hw]
    exact .read hw.kind_ne (printStatement_reads he hsemi)
  | returnStmt hw he hsemi =>
    simp only [List.cons_append, List.append_assoc]
    refine .look ?_
    rw [Token.spells_keyword (w := .return) |>.1 hw]
    exact .read hw.kind_ne (returnStatement_reads _ he hsemi)
  | breakStmt hw hsemi =>
    refine .look ?_
    rw [Token.spells_keyword (w := .break) |>.1 hw]
    exact .read hw.kind_ne (.symbol hsemi (.pure rfl))
  | continueStmt hw hsemi =>
    refine .look ?_
    rw [Token.spells_keyword (w := .continue) |>.1 hw]
    exact .read hw.kind_ne (.symbol hsemi (.pure rfl))
  | block ho hbody hc =>
    simp only [List.length_cons, List.length_append] at hk
    simp only [List.cons_append, List.append_assoc]
    refine .look ?_
    rw [Token.spells_symbol (s := .leftBrace) |>.1 ho]
    refine .read ho.kind_ne (.bind (block_reads h hbody (by omega) hc) fun body' hbody' => .pure ?_)
    rw [Stmt.bare, Stmt.bare, hbody']

theorem declarationBody_reads (h : nested.Complete k) (hs : Builds true (.declaration s) ts)
    (hk : ts.length < k + 1) (hrest : ¬(first rest).Spells "else") :
    Reads (ts ++ rest) rest (declarationBody nested) fun s' => s'.bare = s.bare := by
  cases hs with
  | classDecl hw ht hsuper ho hm hc =>
    simp only [List.length_cons, List.length_append] at hk
    simp only [List.cons_append, List.append_assoc]
    refine .look ?_
    rw [Token.spells_keyword (w := .classWord) |>.1 hw]
    exact .read hw.kind_ne (classDeclaration_reads h ht hsuper ho hm (by omega) hc)
  | funDecl hw hd =>
    rw [List.length_cons] at hk
    refine .look ?_
    rw [Token.spells_keyword (w := .fun) |>.1 hw]
    refine .read hw.kind_ne (.bind (routine_reads h _ hd (by omega)) fun d' hd' => .pure ?_)
    rw [Stmt.bare, Stmt.bare, hd']
  | variableDecl hs =>
    cases hs with
    | letDecl hw ht hv hsemi =>
      simp only [List.cons_append, List.append_assoc]
      refine .look ?_
      rw [Token.spells_keyword (w := .let) |>.1 hw]
      exact .read hw.kind_ne (letDeclaration_reads ht hv hsemi)
  | constDecl hw ht hequal he hsemi =>
    simp only [List.cons_append, List.append_assoc]
    refine .look ?_
    rw [Token.spells_keyword (w := .const) |>.1 hw]
    exact .read hw.kind_ne (constDeclaration_reads ht hequal he hsemi)
  | importStmt hw ht hsemi =>
    refine .look ?_
    rw [Token.spells_keyword (w := .import) |>.1 hw]
    exact .read hw.kind_ne (importStatement_reads _ ht hsemi)
  | plain hs =>
    have hfirst := first_of_starts hs.statement_starts rest
    refine .peek ?_
    split
    iterate 5 next hkind => rw [hkind] at hfirst; cases hfirst
    exact statementWith_reads h hs hk fun _ => hrest

theorem declarationWith_reads (h : nested.Complete k) (hs : Builds true (.declaration s) ts)
    (hk : ts.length < k + 1) (hrest : ¬(first rest).Spells "else") :
    Reads (ts ++ rest) rest (declarationWith nested) fun a => ∃ s', a = some s' ∧ s'.bare = s.bare := by
  intro state hstate
  have body : Reads (ts ++ rest) rest (some <$> declarationBody nested) fun a =>
      ∃ s', a = some s' ∧ s'.bare = s.bare :=
    .map ((declarationBody_reads h hs hk hrest).mono fun s' hs' => ⟨s', rfl, hs'⟩)
  obtain ⟨a, t, ha, ht⟩ := body state hstate
  exact ⟨a, t, tryCatch_of_ok ha, ht⟩

end Statements

theorem nested_complete (n : Nat) : Nested.Complete n ⟨statementUpTo n, declarationUpTo n⟩ := by
  induction n with
  | zero => exact ⟨fun _ _ _ _ _ hk => absurd hk (Nat.not_lt_zero _), fun _ _ _ _ hk => absurd hk (Nat.not_lt_zero _)⟩
  | succ n ih =>
    refine ⟨fun d s ts rest hs hk hrest => ?_, fun s ts rest hs hk hrest => ?_⟩
    · exact statementWith_reads ih hs hk hrest
    · exact declarationWith_reads ih hs hk hrest

theorem declaration_reads {s : Stmt} {ts rest : List Token} (hs : Builds true (.declaration s) ts)
    (hrest : ¬(first rest).Spells "else") :
    Reads (ts ++ rest) rest declaration fun a => ∃ s', a = some s' ∧ s'.bare = s.bare := by
  refine .remaining ((nested_complete ((ts ++ rest).length + 1)).declaration s ts rest hs ?_ hrest)
  rw [List.length_append]
  omega

theorem atEnd_reads_false {s : Stmt} {ts : List Token} (hs : Builds true (.declaration s) ts) (rest : List Token) :
    Reads (ts ++ rest) (ts ++ rest) atEnd (· = false) := by
  rw [← bind_pure atEnd]
  exact .atEnd (.pure (not_end_of_starts hs.declaration_starts rfl rest))

/-- A derived program is read up to the end of the input. -/
theorem program_reads {ss : List Stmt} {ts : List Token} {last : Token}
    (h : Builds true (.declarations ss) ts) (hlast : last.kind = .endOfInput) :
    Reads (ts ++ [last]) [last] program fun ss' => ss'.map Stmt.bare = ss.map Stmt.bare := by
  have hhalt : Reads [last] [last] atEnd (· = true) := by
    rw [← bind_pure atEnd]
    exact .atEnd (.pure (Token.isEnd_iff.2 hlast))
  have helse : ¬last.Spells "else" := fun hs => hs.kind_ne hlast
  have hlen := h.sequence.length_le fun _ _ hs => hs.declaration_starts.ne_nil
  refine .remaining (itemsUntil_reads (fun _ _ _ => declaration_reads) (fun _ _ rest hs => atEnd_reads_false hs rest)
    hhalt (fun _ _ rest hs => not_else_of_declaration hs rest) helse h.sequence ?_)
  rw [List.length_append]
  omega

end Scriptlet.Parser
