import Scriptlet.Proofs.ParserSound
import Mathlib.Logic.Function.Iterate

/-!
# Parsers read on

Two parses are laid side by side: one from a list of tokens that ends in its only end of the input, and one from
the same list with any tokens behind that end. `Alike` says that both go the same way. The counters of the two
parses differ, since they are counts of unread tokens, and so may the parsers that a counter cuts off. There is
one rule for each way in which parsers are put together and one lemma for each parser, which also says that the
parser reads a token. So no parser looks behind the end of the input, and no counter has a part in its outcome.
-/
namespace Scriptlet

/-- The tokens end in the end of the input, which stands nowhere else. -/
def Token.Closed (tokens : List Token) : Prop :=
  ∃ front last, tokens = front ++ [last] ∧ last.isEnd = true ∧ ∀ t ∈ front, t.isEnd = false

/-- Some of the tokens are left, at least the last one. -/
def Token.Left (tokens rest : List Token) : Prop := rest ≠ [] ∧ rest <:+ tokens

namespace Token

variable {tokens rest left : List Token}

theorem Closed.ne_nil (h : Closed tokens) : tokens ≠ [] := by
  obtain ⟨front, last, rfl, -, -⟩ := h
  exact List.append_ne_nil_of_right_ne_nil front (List.cons_ne_nil last [])

theorem Closed.length_pos (h : Closed tokens) : 0 < tokens.length := List.length_pos_iff.2 h.ne_nil

theorem Closed.all (h : Closed tokens) : Left tokens tokens := ⟨h.ne_nil, List.suffix_refl tokens⟩

theorem Left.trans (h : Left tokens rest) (h' : Left rest left) : Left tokens left := ⟨h'.1, h'.2.trans h.2⟩

theorem Left.length_le (h : Left tokens rest) : rest.length ≤ tokens.length := h.2.length_le

/-- What is left of closed tokens is closed. -/
theorem Closed.of_left (h : Closed tokens) (hl : Left tokens rest) : Closed rest := by
  obtain ⟨front, last, rfl, hlast, hfront⟩ := h
  obtain ⟨hne, hs⟩ := hl
  obtain ⟨init, t, rfl⟩ : ∃ init t, rest = init ++ [t] :=
    ⟨rest.dropLast, rest.getLast hne, (List.dropLast_concat_getLast hne).symm⟩
  obtain ⟨before, heq⟩ := hs
  rw [← List.append_assoc] at heq
  obtain ⟨rfl, hlasts⟩ := List.append_inj' heq rfl
  obtain rfl : t = last := (List.cons.inj hlasts).1
  exact ⟨init, t, rfl, hlast, fun u hu => hfront u (List.mem_append_right before hu)⟩

/-- Behind a token that is not the end of the input there are more. -/
theorem Closed.tail {t : Token} (h : Closed (t :: rest)) (ht : t.isEnd = false) : Left (t :: rest) rest := by
  refine ⟨?_, List.suffix_cons t rest⟩
  rintro rfl
  obtain ⟨front, last, heq, hlast, -⟩ := h
  obtain ⟨-, hlasts⟩ := List.append_inj' (show [] ++ [t] = front ++ [last] from heq) rfl
  rw [← (List.cons.inj hlasts).1, ht] at hlast
  cases hlast

end Token

namespace Parser

open Token (Closed Left)

variable {α β : Type} {beyond : List Token}

/-- The second state has more tokens behind those of the first one and is the same otherwise. -/
structure State.Extended (beyond : List Token) (s s' : State) : Prop where
  rest : s'.rest = s.rest ++ beyond
  problems : s'.problems = s.problems
  nextId : s'.nextId = s.nextId

/-- A state is told by its tokens, its problems and its next identity. -/
theorem State.Extended.eq {s s' : State} (h : s.Extended [] s') : s' = s := by
  obtain ⟨rest, unread, hu, problems, nextId⟩ := s
  obtain ⟨rest', unread', hu', problems', nextId'⟩ := s'
  obtain ⟨hrest, hproblems, hnext⟩ := h
  simp only [List.append_nil] at hrest
  subst hrest hproblems hnext hu hu'
  rfl

/-- From closed tokens, and from the same tokens with more behind them, both parsers end in the same way. Some
tokens are left, and a result with these meets `P`. -/
def Alike (beyond tokens : List Token) (p q : Parser α) (P : α → List Token → Prop) : Prop :=
  Closed tokens → ∀ s s', s.rest = tokens → s.Extended beyond s' →
    (∃ a t t', p s = .ok a t ∧ q s' = .ok a t' ∧ t.Extended beyond t' ∧ Left tokens t.rest ∧ P a t.rest) ∨
    (∃ e t t', p s = .error e t ∧ q s' = .error e t' ∧ t.Extended beyond t' ∧ Left tokens t.rest)

namespace Alike

variable {tokens : List Token} {p q : Parser α} {f g : α → Parser β} {P Q : α → List Token → Prop}
  {R : β → List Token → Prop}

/-- There are no closed tokens without a token. -/
theorem of_length_le_zero (h : tokens.length ≤ 0) : Alike beyond tokens p q P :=
  fun hc => absurd h (Nat.not_le_of_lt hc.length_pos)

theorem pure {a : α} (h : P a tokens) : Alike beyond tokens (Pure.pure a) (Pure.pure a) P := by
  rintro hc s s' rfl hs
  exact .inl ⟨a, s, s', rfl, rfl, hs, hc.all, h⟩

theorem mono (hp : Alike beyond tokens p q P) (h : ∀ a rest, Left tokens rest → P a rest → Q a rest) :
    Alike beyond tokens p q Q := by
  intro hc s s' hr hs
  obtain ⟨a, t, t', hpa, hqa, ht, hl, hP⟩ | failed := hp hc s s' hr hs
  · exact .inl ⟨a, t, t', hpa, hqa, ht, hl, h a _ hl hP⟩
  · exact .inr failed

theorem bind (hp : Alike beyond tokens p q P)
    (hf : ∀ a rest, Left tokens rest → P a rest → Alike beyond rest (f a) (g a) R) :
    Alike beyond tokens (p >>= f) (q >>= g) R := by
  intro hc s s' hr hs
  have left : (p >>= f) s = EStateM.bind p f s := rfl
  have right : (q >>= g) s' = EStateM.bind q g s' := rfl
  rw [left, right, EStateM.bind, EStateM.bind]
  obtain ⟨a, t, t', hpa, hqa, ht, hl, hP⟩ | ⟨e, t, t', hpe, hqe, ht, hl⟩ := hp hc s s' hr hs
  · rw [hpa, hqa]
    obtain ⟨b, u, u', hb, hb', hu, hl', hR⟩ | ⟨e, u, u', he, he', hu, hl'⟩ :=
      hf a t.rest hl hP (hc.of_left hl) t t' rfl ht
    · exact .inl ⟨b, u, u', hb, hb', hu, hl.trans hl', hR⟩
    · exact .inr ⟨e, u, u', he, he', hu, hl.trans hl'⟩
  · rw [hpe, hqe]
    exact .inr ⟨e, t, t', rfl, rfl, ht, hl⟩

theorem map {h : α → β} (hp : Alike beyond tokens p q fun a => R (h a)) :
    Alike beyond tokens (h <$> p) (h <$> q) R := by
  rw [map_eq_pure_bind, map_eq_pure_bind]
  exact bind hp fun _ _ _ hR => pure hR

theorem tryCatch {handle handle' : Located SyntaxError → Parser α} (hp : Alike beyond tokens p q P)
    (hh : ∀ e rest, Left tokens rest → Alike beyond rest (handle e) (handle' e) P) :
    Alike beyond tokens (MonadExcept.tryCatch p handle) (MonadExcept.tryCatch q handle') P := by
  intro hc s s' hr hs
  obtain ⟨a, t, t', hpa, hqa, ht, hl, hP⟩ | ⟨e, t, t', hpe, hqe, ht, hl⟩ := hp hc s s' hr hs
  · exact .inl ⟨a, t, t', tryCatch_of_ok hpa, tryCatch_of_ok hqa, ht, hl, hP⟩
  · rw [tryCatch_of_error hpe, tryCatch_of_error hqe]
    obtain ⟨a, u, u', ha, ha', hu, hl', hP⟩ | ⟨e, u, u', he, he', hu, hl'⟩ :=
      hh e t.rest hl (hc.of_left hl) t t' rfl ht
    · exact .inl ⟨a, u, u', ha, ha', hu, hl.trans hl', hP⟩
    · exact .inr ⟨e, u, u', he, he', hu, hl.trans hl'⟩

theorem ite {c : Prop} [Decidable c] {p' q' : Parser α} (h : c → Alike beyond tokens p q P)
    (h' : ¬c → Alike beyond tokens p' q' P) :
    Alike beyond tokens (if c then p else p') (if c then q else q') P := by
  by_cases hc : c
  · rw [if_pos hc, if_pos hc]
    exact h hc
  · rw [if_neg hc, if_neg hc]
    exact h' hc

/-! ## Single tokens -/

theorem next_eq {s s' : State} (hc : Closed s.rest) (hs : s.Extended beyond s') : s'.next = s.next := by
  unfold State.next
  rw [hs.rest]
  cases hr : s.rest with
  | nil => exact absurd hr hc.ne_nil
  | cons t ts => rfl

theorem peek {f g : Token → Parser β} (h : Alike beyond tokens (f (first tokens)) (g (first tokens)) R) :
    Alike beyond tokens (Parser.peek >>= f) (Parser.peek >>= g) R := by
  rintro hc s s' rfl hs
  have right : (Parser.peek >>= g) s' = g s'.next s' := rfl
  rw [right, next_eq hc hs]
  exact h hc s s' rfl hs

theorem check {kind : Token.Kind} {f g : Bool → Parser β}
    (h : ∀ b, (b = true → (first tokens).isEnd = false) → Alike beyond tokens (f b) (g b) R) :
    Alike beyond tokens (Parser.check kind >>= f) (Parser.check kind >>= g) R := by
  unfold Parser.check
  rw [bind_assoc, bind_assoc]
  refine peek ?_
  rw [pure_bind, pure_bind]
  refine h _ fun hb => ?_
  rw [Bool.and_eq_true, Bool.not_eq_true'] at hb
  exact hb.1

theorem remaining {f g : Nat → Parser β}
    (h : ∀ n, tokens.length ≤ n → Alike beyond tokens (f tokens.length) (g n) R) :
    Alike beyond tokens (Parser.remaining >>= f) (Parser.remaining >>= g) R := by
  rintro hc s s' rfl hs
  have left : (Parser.remaining >>= f) s = f s.unread s := rfl
  have right : (Parser.remaining >>= g) s' = g s'.unread s' := rfl
  rw [left, right, s.unread_eq]
  refine h s'.unread ?_ hc s s' rfl hs
  rw [s'.unread_eq, hs.rest, List.length_append]
  exact Nat.le_add_right _ _

theorem failHere (what : Expected) : Alike beyond tokens (Parser.failHere what) (Parser.failHere what) P := by
  refine peek ?_
  rintro hc s s' rfl hs
  exact .inr ⟨_, s, s', rfl, rfl, hs, hc.all⟩

theorem freshId {f g : NodeId → Parser β} (h : ∀ id, Alike beyond tokens (f id) (g id) R) :
    Alike beyond tokens (Parser.freshId >>= f) (Parser.freshId >>= g) R := by
  rintro hc s s' rfl hs
  have left : (Parser.freshId >>= f) s = f s.nextId { s with nextId := s.nextId + 1 } := rfl
  have right : (Parser.freshId >>= g) s' = g s'.nextId { s' with nextId := s'.nextId + 1 } := rfl
  rw [left, right, hs.nextId]
  exact h s.nextId hc _ _ rfl ⟨hs.rest, hs.problems, rfl⟩

theorem report {problem : Located SyntaxError} {f g : Unit → Parser β} (h : Alike beyond tokens (f ()) (g ()) R) :
    Alike beyond tokens (Parser.report problem >>= f) (Parser.report problem >>= g) R := by
  rintro hc s s' rfl hs
  exact h hc _ _ rfl ⟨hs.rest, congrArg (· ++ [problem]) hs.problems, hs.nextId⟩

/-- Reading a token that is not the end of the input. -/
theorem read {f g : Token → Parser β} (ht : (first tokens).isEnd = false)
    (h : ∀ rest, rest.length < tokens.length → Alike beyond rest (f (first tokens)) (g (first tokens)) R) :
    Alike beyond tokens (advance >>= f) (advance >>= g) R := by
  rintro hc s s' rfl hs
  have hrest : s.rest = s.next :: s.skip.rest := s.rest_eq_of_next ht
  have shorter : s.skip.rest.length < s.rest.length := by
    rw [hrest]
    exact Nat.lt_succ_self _
  have hskip : s.skip.Extended beyond s'.skip := by
    refine ⟨?_, hs.problems, hs.nextId⟩
    change s'.rest.tail = s.rest.tail ++ beyond
    rw [hs.rest, List.tail_append_of_ne_nil hc.ne_nil]
  have left : (advance >>= f) s = f s.next s.skip := by
    change EStateM.bind advance f s = f s.next s.skip
    rw [EStateM.bind, advance_eq, State.next, show (s.rest.headD (Token.endOfInput 0)).isEnd = false from ht]
    rfl
  have right : (advance >>= g) s' = g s.next s'.skip := by
    change EStateM.bind advance g s' = g s.next s'.skip
    rw [EStateM.bind, advance_eq, next_eq hc hs, show s.next.isEnd = false from ht]
    rfl
  have hl : Left s.rest s.skip.rest := by
    rw [hrest] at hc ⊢
    exact hc.tail ht
  rw [left, right]
  obtain ⟨b, t, t', hb, hb', ht, hl', hR⟩ | ⟨e, t, t', he, he', ht, hl'⟩ :=
    h s.skip.rest shorter (hc.of_left hl) s.skip s'.skip rfl hskip
  · exact .inl ⟨b, t, t', hb, hb', ht, hl.trans hl', hR⟩
  · exact .inr ⟨e, t, t', he, he', ht, hl.trans hl'⟩

/-- The end of the input stays. -/
theorem stay {f g : Token → Parser β} (ht : (first tokens).isEnd = true)
    (h : Alike beyond tokens (f (first tokens)) (g (first tokens)) R) :
    Alike beyond tokens (advance >>= f) (advance >>= g) R := by
  rintro hc s s' rfl hs
  have left : (advance >>= f) s = f s.next s := by
    change EStateM.bind advance f s = f s.next s
    rw [EStateM.bind, advance_eq, show s.next.isEnd = true from ht]
    rfl
  have right : (advance >>= g) s' = g s.next s' := by
    change EStateM.bind advance g s' = g s.next s'
    rw [EStateM.bind, advance_eq, next_eq hc hs, show s.next.isEnd = true from ht]
    rfl
  rw [left, right]
  exact h hc s s' rfl hs

theorem accept {kind : Token.Kind} {f g : Bool → Parser β}
    (hit : ∀ rest, rest.length < tokens.length → Alike beyond rest (f true) (g true) R)
    (miss : Alike beyond tokens (f false) (g false) R) :
    Alike beyond tokens (Parser.accept kind >>= f) (Parser.accept kind >>= g) R := by
  rw [accept_bind, accept_bind]
  refine check fun b hb => ?_
  cases b with
  | false => exact miss
  | true => exact read (hb rfl) hit

theorem expect {kind : Token.Kind} {what : Expected} {f g : Token → Parser β}
    (h : ∀ t rest, rest.length < tokens.length → Alike beyond rest (f t) (g t) R) :
    Alike beyond tokens (Parser.expect kind what >>= f) (Parser.expect kind what >>= g) R := by
  rw [expect_bind, expect_bind]
  refine check fun b hb => ?_
  cases b with
  | false => exact failHere what
  | true => exact read (hb rfl) (h _)

theorem symbol {sym : Symbol} {what : Expected} {f g : Token → Parser β}
    (h : ∀ t rest, rest.length < tokens.length → Alike beyond rest (f t) (g t) R) :
    Alike beyond tokens (Parser.symbol sym what >>= f) (Parser.symbol sym what >>= g) R :=
  expect h

theorem identifier {what : Expected} {f g : Name → Parser β}
    (h : ∀ name rest, rest.length < tokens.length → Alike beyond rest (f name) (g name) R) :
    Alike beyond tokens (Parser.identifier what >>= f) (Parser.identifier what >>= g) R := by
  rw [identifier_bind, identifier_bind]
  exact expect fun t => h t.name

end Alike

/-- On at most `k` tokens both parsers go the same way, and read a token where they succeed. -/
def Paced (beyond : List Token) (k : Nat) (p q : Parser α) : Prop :=
  ∀ tokens, tokens.length ≤ k → Alike beyond tokens p q fun _ rest => rest.length < tokens.length

namespace Paced

variable {k : Nat} {p q : Parser α}

theorem zero (p q : Parser α) : Paced beyond 0 p q := fun _ hk => .of_length_le_zero hk

theorem of_le {j : Nat} (h : Paced beyond k p q) (hj : j ≤ k) : Paced beyond j p q :=
  fun tokens ht => h tokens (Nat.le_trans ht hj)

/-- After some tokens, with some left. -/
theorem after (h : Paced beyond k p q) {tokens rest : List Token} (hk : tokens.length ≤ k)
    (hr : rest.length ≤ tokens.length) :
    Alike beyond rest p q fun _ left => left.length < tokens.length :=
  (h rest (Nat.le_trans hr hk)).mono fun _ _ _ hl => Nat.lt_of_lt_of_le hl hr

theorem map {h : α → β} (hp : Paced beyond k p q) : Paced beyond k (h <$> p) (h <$> q) :=
  fun tokens hk => .map (hp tokens hk)

theorem identifier (what : Expected) : Paced beyond k (Parser.identifier what) (Parser.identifier what) := by
  intro tokens _
  rw [← bind_pure (Parser.identifier what)]
  exact .identifier fun name rest hr => .pure hr

end Paced

/-! ## Lists -/

section Lists

variable {k : Nat}

/-- Items are read up to a stop, if the turns are as many as the tokens. -/
theorem itemsUntil_alike {stop : Parser Bool} {item item' : Parser (Option α)} {Stop : List Token → Prop}
    (hstop : ∀ tokens, Alike beyond tokens stop stop fun b rest => rest = tokens ∧ (b = true ↔ Stop rest))
    (hitem : ∀ tokens, tokens.length ≤ k → ¬Stop tokens →
      Alike beyond tokens item item' fun _ rest => rest.length < tokens.length)
    {n n' : Nat} {tokens : List Token} (hk : tokens.length ≤ k) (hn : tokens.length ≤ n)
    (hn' : tokens.length ≤ n') :
    Alike beyond tokens (itemsUntil stop item n) (itemsUntil stop item' n') fun _ rest => Stop rest := by
  -- Both counters lose one in a turn and the tokens at least one, so the tokens run out first.
  induction n generalizing n' tokens with
  | zero => exact .of_length_le_zero hn
  | succ n ih =>
    cases n' with
    | zero => exact .of_length_le_zero hn'
    | succ n' =>
      refine .bind (hstop tokens) ?_
      rintro b _ _ ⟨rfl, hb⟩
      refine .ite (fun ht => .pure (hb.1 ht)) fun hf => ?_
      refine .bind (hitem _ hk fun hs => hf (hb.2 hs)) fun first rest _ hr => ?_
      refine .bind (ih (by omega) (by omega) (by omega)) fun others left _ hs => .pure hs

theorem commaSeparated_alike {item item' : Parser α} (hitem : Paced beyond k item item') (list : Listed)
    {n n' count : Nat} {tokens : List Token} (hk : tokens.length ≤ k) (hn : tokens.length ≤ n)
    (hn' : tokens.length ≤ n') :
    Alike beyond tokens (commaSeparated list item n count) (commaSeparated list item' n' count)
      fun _ _ => True := by
  induction n generalizing n' count tokens with
  | zero => exact .of_length_le_zero hn
  | succ n ih =>
    cases n' with
    | zero => exact .of_length_le_zero hn'
    | succ n' =>
      have items : Alike beyond tokens
          (do
            let first ← item
            if ← accept (.symbol .comma) then
              return first :: (← commaSeparated list item n (count + 1))
            return [first])
          (do
            let first ← item'
            if ← accept (.symbol .comma) then
              return first :: (← commaSeparated list item' n' (count + 1))
            return [first]) fun _ _ => True := by
        refine .bind (hitem tokens hk) fun first rest _ hr => .accept (fun left hl => ?_) (.pure trivial)
        exact .bind (ih (by omega) (by omega) (by omega)) fun others _ _ _ => .pure trivial
      rw [commaSeparated, commaSeparated]
      exact .ite (fun _ => .peek (.report items)) fun _ => items

theorem listUntil_alike {item item' : Parser α} (hitem : Paced beyond k item item') (closing : Symbol)
    (list : Listed) {tokens : List Token} (hk : tokens.length ≤ k) :
    Alike beyond tokens (listUntil closing list item) (listUntil closing list item') fun _ _ => True := by
  refine .check fun b _ => .ite (fun _ => .pure trivial) fun _ => .remaining fun n hn => ?_
  exact commaSeparated_alike hitem list hk (Nat.le_refl _) hn

end Lists

/-! ## Expressions -/

section Expressions

variable {k : Nat} {expression expression' operand operand' : Parser Expr}

theorem not_end_of_kind {t : Token} {kind : Token.Kind} (hk : t.kind = kind) (hkind : kind ≠ .endOfInput) :
    t.isEnd = false := by
  rw [Bool.eq_false_iff, Ne, Token.isEnd_iff]
  exact fun h => hkind (hk.symm.trans h)

theorem primary_paced (h : Paced beyond k expression expression') :
    Paced beyond (k + 1) (primary expression) (primary expression') := by
  intro tokens hk
  refine .peek ?_
  split
  iterate 5
    next hkind =>
      exact .read (not_end_of_kind hkind (by simp)) fun rest hr => .pure hr
  · next hkind =>
    refine .read (not_end_of_kind hkind (by simp)) fun rest hr => .symbol fun _ rest₁ h₁ => ?_
    refine .identifier fun _ rest₂ h₂ => .freshId fun _ => .pure ?_
    omega
  iterate 2
    next hkind =>
      exact .read (not_end_of_kind hkind (by simp)) fun rest hr => .freshId fun _ => .pure hr
  · next hkind =>
    refine .read (not_end_of_kind hkind (by simp)) fun rest hr => ?_
    refine .bind (h rest (by omega)) fun _ rest₁ _ h₁ => .symbol fun _ rest₂ h₂ => .pure ?_
    omega
  · next hkind =>
    refine .read (not_end_of_kind hkind (by simp)) fun rest hr => ?_
    refine .bind (listUntil_alike h _ _ (by omega)) fun _ rest₁ hl _ => .symbol fun _ rest₂ h₂ => .pure ?_
    have := hl.length_le
    omega
  · exact .failHere _

theorem suffixes_alike (h : Paced beyond k expression expression') {n n' : Nat} {e : Expr}
    {tokens : List Token} (hk : tokens.length ≤ k + 1) (hn : tokens.length ≤ n) (hn' : tokens.length ≤ n') :
    Alike beyond tokens (suffixes expression n e) (suffixes expression' n' e) fun _ _ => True := by
  induction n generalizing n' e tokens with
  | zero => exact .of_length_le_zero hn
  | succ n ih =>
    cases n' with
    | zero => exact .of_length_le_zero hn'
    | succ n' =>
      refine .accept (fun rest hr => ?_) (.accept (fun rest hr => ?_) (.pure trivial))
      · refine .bind (listUntil_alike h _ _ (by omega)) fun args rest₁ hl _ => .symbol fun _ rest₂ h₂ => ?_
        have := hl.length_le
        exact ih (by omega) (by omega) (by omega)
      · exact .identifier fun _ rest₁ h₁ => ih (by omega) (by omega) (by omega)

theorem call_paced (h : Paced beyond k expression expression') :
    Paced beyond (k + 1) (call expression) (call expression') := by
  intro tokens hk
  refine .bind (primary_paced h tokens hk) fun e rest _ hr => .remaining fun n hn => ?_
  exact (suffixes_alike h (by omega) (Nat.le_refl _) hn).mono fun _ left hl _ => Nat.lt_of_le_of_lt hl.length_le hr

theorem signs_not_end {t : Token} {op : UnaryOp} (h : signs.lookup t.kind = some op) : t.isEnd = false := by
  have hs : t.Spells op.text := signs_lookup_iff.1 h
  exact hs.not_end

theorem unaryUpTo_alike (h : Paced beyond k expression expression') {n n' : Nat} {tokens : List Token}
    (hk : tokens.length ≤ k + 1) (hn : tokens.length ≤ n) (hn' : tokens.length ≤ n') :
    Alike beyond tokens (unaryUpTo expression n) (unaryUpTo expression' n') fun _ rest =>
      rest.length < tokens.length := by
  induction n generalizing n' tokens with
  | zero => exact .of_length_le_zero hn
  | succ n ih =>
    cases n' with
    | zero => exact .of_length_le_zero hn'
    | succ n' =>
      refine .peek ?_
      cases hop : signs.lookup (first tokens).kind with
      | none => exact call_paced h tokens hk
      | some op =>
        refine .read (signs_not_end hop) fun rest hr => ?_
        refine .bind (ih (by omega) (by omega) (by omega)) fun e left _ hl => .pure ?_
        omega

theorem unary_paced (h : Paced beyond k expression expression') :
    Paced beyond (k + 1) (unary expression) (unary expression') := by
  intro tokens hk
  refine .remaining fun n hn => ?_
  exact unaryUpTo_alike h hk (Nat.le_succ _) (Nat.le_succ_of_le hn)

theorem chain_alike (h : Paced beyond k operand operand') {tier : Tier}
    (htier : ∀ kind op, tier.lookup kind = some op → kind ≠ .endOfInput) {n n' : Nat} {left : Expr}
    {tokens : List Token} (hk : tokens.length ≤ k) (hn : tokens.length ≤ n) (hn' : tokens.length ≤ n') :
    Alike beyond tokens (chain tier operand n left) (chain tier operand' n' left) fun _ _ => True := by
  induction n generalizing n' left tokens with
  | zero => exact .of_length_le_zero hn
  | succ n ih =>
    cases n' with
    | zero => exact .of_length_le_zero hn'
    | succ n' =>
      refine .peek ?_
      cases hop : tier.lookup (first tokens).kind with
      | none => exact .pure trivial
      | some op =>
        refine .read (not_end_of_kind rfl (htier _ op hop)) fun rest hr => ?_
        refine .bind (h rest (by omega)) fun right rest₁ _ h₁ => ?_
        exact ih (by omega) (by omega) (by omega)

theorem tiered_paced (h : Paced beyond k operand operand') {tiers : List Tier}
    (htiers : ∀ tier ∈ tiers, ∀ kind op, tier.lookup kind = some op → kind ≠ .endOfInput) :
    Paced beyond k (tiered operand tiers) (tiered operand' tiers) := by
  induction tiers with
  | nil => exact h
  | cons tier tighter ih =>
    have tight := ih fun t ht => htiers t (List.mem_cons_of_mem _ ht)
    intro tokens hk
    refine .bind (tight tokens hk) fun left rest _ hr => .remaining fun n hn => ?_
    refine (chain_alike tight (htiers tier (List.mem_cons_self ..)) (by omega) (Nat.le_refl _) hn).mono ?_
    exact fun _ left hl _ => Nat.lt_of_le_of_lt hl.length_le hr

/-- No tier has the end of the input for an operator. -/
theorem tiers_not_end : ∀ tier ∈ tiers, ∀ kind op, tier.lookup kind = some op → kind ≠ .endOfInput := by
  intro tier htier kind op hop
  rintro rfl
  have none : ∀ tier ∈ tiers, tier.lookup Token.Kind.endOfInput = none := by decide
  rw [none tier htier] at hop
  cases hop

theorem assignment_paced (h : Paced beyond k expression expression') :
    Paced beyond (k + 1) (assignment expression) (assignment expression') := by
  intro tokens hk
  refine .bind (tiered_paced (unary_paced h) tiers_not_end tokens hk) fun left rest _ hr => .peek ?_
  refine .accept (fun rest₁ h₁ => ?_) (.pure hr)
  refine .bind (h rest₁ (by omega)) fun value rest₂ _ h₂ => ?_
  have shorter : rest₂.length < tokens.length := by omega
  split
  · exact .freshId fun _ => .pure shorter
  · exact .pure shorter
  · exact .report (.pure shorter)

/-- Whatever would be parsed inside so many assignments is not reached. -/
theorem iterate_assignment_paced (base base' : Parser Expr) {n n' : Nat} (hn : k ≤ n) (hn' : k ≤ n') :
    Paced beyond k (assignment^[n] base) (assignment^[n'] base') := by
  -- By induction on the tokens: an expression inside another one has a token before it.
  induction k generalizing n n' with
  | zero => exact .zero _ _
  | succ k ih =>
    obtain ⟨n, rfl⟩ : ∃ m, n = m + 1 := Nat.exists_eq_add_one.2 (Nat.lt_of_lt_of_le (Nat.succ_pos k) hn)
    obtain ⟨n', rfl⟩ : ∃ m, n' = m + 1 := Nat.exists_eq_add_one.2 (Nat.lt_of_lt_of_le (Nat.succ_pos k) hn')
    rw [Function.iterate_succ_apply', Function.iterate_succ_apply']
    exact assignment_paced (ih (Nat.le_of_succ_le_succ hn) (Nat.le_of_succ_le_succ hn'))

theorem expressionUpTo_eq (n : Nat) : expressionUpTo n = assignment^[n] (failHere .expression) := by
  induction n with
  | zero => rfl
  | succ n ih => rw [Function.iterate_succ_apply', ← ih, expressionUpTo]

end Expressions

theorem expression_paced (k : Nat) : Paced beyond k expression expression := by
  intro tokens _
  refine .remaining fun n hn => ?_
  rw [expressionUpTo_eq, expressionUpTo_eq]
  exact iterate_assignment_paced _ _ (Nat.le_succ _) (Nat.le_succ_of_le hn) tokens (Nat.le_refl _)

/-! ## Statements -/

/-- The parsers for nested parts go the same way on at most `k` tokens. A declaration reads a token unless it is at
the end of the input. -/
structure Nested.Paced (beyond : List Token) (k : Nat) (nested nested' : Nested) : Prop where
  statement : Parser.Paced beyond k nested.statement nested'.statement
  declaration : ∀ tokens, tokens.length ≤ k → (first tokens).isEnd = false →
    Alike beyond tokens nested.declaration nested'.declaration fun _ rest => rest.length < tokens.length

/-- A block ends before these tokens. -/
def EndsBlock (tokens : List Token) : Prop :=
  (first tokens).kind = .symbol .rightBrace ∨ (first tokens).isEnd = true

theorem atBrace_alike (tokens : List Token) :
    Alike beyond tokens atBrace atBrace fun b rest => rest = tokens ∧ (b = true ↔ EndsBlock rest) := by
  unfold atBrace Parser.check atEnd
  simp only [bind_assoc, pure_bind]
  refine .peek (.peek (.pure ⟨rfl, ?_⟩))
  rw [Bool.or_eq_true, Bool.and_eq_true, beq_iff_eq, Bool.not_eq_true']
  unfold EndsBlock
  constructor
  · exact fun h => h.imp_left And.right
  · intro h
    refine h.imp_left fun hk => ⟨not_end_of_kind hk (by simp), hk⟩

section Statements

variable {k : Nat} {nested nested' : Nested}

/-- The declarations of a block go on up to its end. -/
theorem declarations_alike (h : nested.Paced beyond k nested') {n n' : Nat} {tokens : List Token}
    (hk : tokens.length ≤ k) (hn : tokens.length ≤ n) (hn' : tokens.length ≤ n') :
    Alike beyond tokens (itemsUntil atBrace nested.declaration n) (itemsUntil atBrace nested'.declaration n')
      fun _ rest => EndsBlock rest := by
  refine itemsUntil_alike atBrace_alike (fun tokens hk hs => ?_) hk hn hn'
  exact h.declaration tokens hk (Bool.eq_false_iff.2 fun he => hs (.inr he))

theorem block_paced (h : nested.Paced beyond k nested') : Paced beyond k (block nested) (block nested') := by
  intro tokens hk
  refine .remaining fun n hn => .bind (declarations_alike h hk (Nat.le_refl _) hn) fun body rest hl _ => ?_
  exact .symbol fun _ rest₁ h₁ => .pure (Nat.lt_of_lt_of_le h₁ hl.length_le)

theorem routine_paced (h : nested.Paced beyond k nested') (role : RoutineRole) :
    Paced beyond (k + 1) (routine nested role) (routine nested' role) := by
  intro tokens hk
  refine .identifier fun name rest₁ h₁ => .symbol fun _ rest₂ h₂ => ?_
  refine .bind (listUntil_alike (k := k) (.identifier _) _ _ (by omega)) fun params rest₃ h₃ _ => ?_
  have := h₃.length_le
  refine .symbol fun _ rest₄ h₄ => .symbol fun _ rest₅ h₅ => ?_
  refine .bind (block_paced h rest₅ (by omega)) fun body rest₆ _ h₆ => .pure ?_
  omega

theorem member_paced (h : nested.Paced beyond k nested') :
    Paced beyond (k + 1) (member nested) (member nested') := by
  intro tokens hk
  refine .accept (fun rest hr => ?_) ?_
  · refine .bind ((routine_paced h _).after hk (Nat.le_of_lt hr)) fun d _ _ hl => .pure hl
  · exact .bind (routine_paced h _ tokens hk) fun d _ _ hl => .pure hl

/-- The members of a class go on up to its end. -/
theorem members_alike (h : nested.Paced beyond k nested') {n n' : Nat} {tokens : List Token}
    (hk : tokens.length ≤ k + 1) (hn : tokens.length ≤ n) (hn' : tokens.length ≤ n') :
    Alike beyond tokens (itemsUntil atBrace (some <$> member nested) n)
      (itemsUntil atBrace (some <$> member nested') n') fun _ rest => EndsBlock rest :=
  itemsUntil_alike atBrace_alike (fun tokens hk _ => (member_paced h).map tokens hk) hk hn hn'

theorem superclassClause_alike (tokens : List Token) :
    Alike beyond tokens superclassClause superclassClause fun _ _ => True :=
  .accept (fun _ _ => .identifier fun _ _ _ => .freshId fun _ => .pure trivial) (.pure trivial)

theorem classDeclaration_paced (h : nested.Paced beyond k nested') :
    Paced beyond (k + 1) (classDeclaration nested) (classDeclaration nested') := by
  intro tokens hk
  refine .identifier fun name rest₁ h₁ => .bind (superclassClause_alike rest₁) fun superclass rest₂ h₂ _ => ?_
  have := h₂.length_le
  refine .symbol fun _ rest₃ h₃ => .remaining fun n hn => ?_
  refine .bind (members_alike h (by omega) (Nat.le_refl _) hn) fun members rest₄ h₄ _ => ?_
  have := h₄.length_le
  refine .symbol fun _ rest₅ h₅ => .pure ?_
  omega

theorem initializer_alike (tokens : List Token) :
    Alike beyond tokens initializer initializer fun _ _ => True :=
  .accept (fun rest _ => .map ((expression_paced rest.length rest (Nat.le_refl _)).mono fun _ _ _ _ => trivial))
    (.pure trivial)

theorem letDeclaration_paced (k : Nat) : Paced beyond k letDeclaration letDeclaration := by
  intro tokens _
  refine .identifier fun name rest₁ h₁ => .bind (initializer_alike rest₁) fun value rest₂ h₂ _ => ?_
  have := h₂.length_le
  refine .symbol fun _ rest₃ h₃ => .pure ?_
  omega

theorem constDeclaration_paced (k : Nat) : Paced beyond k constDeclaration constDeclaration := by
  intro tokens _
  refine .identifier fun name rest₁ h₁ => .symbol fun _ rest₂ h₂ => ?_
  refine .bind (expression_paced _ rest₂ (Nat.le_refl _)) fun value rest₃ _ h₃ => .symbol fun _ rest₄ h₄ => .pure ?_
  omega

theorem importStatement_paced (k line : Nat) :
    Paced beyond k (importStatement line) (importStatement line) := by
  intro tokens _
  refine .peek ?_
  split
  · next hkind =>
    refine .read (not_end_of_kind hkind (by simp)) fun rest hr => .symbol fun _ rest₁ h₁ => .pure ?_
    exact Nat.lt_trans h₁ hr
  · exact .failHere _

theorem expressionStatement_paced (k : Nat) : Paced beyond k expressionStatement expressionStatement := by
  intro tokens hk
  refine .bind (expression_paced k tokens hk) fun e rest₁ _ h₁ => .symbol fun _ rest₂ h₂ => .pure ?_
  omega

theorem optionalExpression_alike (closing : Symbol) (tokens : List Token) :
    Alike beyond tokens (optionalExpression closing) (optionalExpression closing) fun _ _ => True := by
  refine .check fun b _ => .ite (fun _ => .pure trivial) fun _ => .map ?_
  exact (expression_paced _ tokens (Nat.le_refl _)).mono fun _ _ _ _ => trivial

theorem forStart_alike (tokens : List Token) : Alike beyond tokens forStart forStart fun _ _ => True := by
  refine .accept (fun _ _ => .pure trivial) (.accept (fun rest _ => .map ?_) (.map ?_))
  · exact (letDeclaration_paced _ rest (Nat.le_refl _)).mono fun _ _ _ _ => trivial
  · exact (expressionStatement_paced _ tokens (Nat.le_refl _)).mono fun _ _ _ _ => trivial

theorem parenthesizedCondition_paced (k : Nat) (what : Expected) :
    Paced beyond k (parenthesizedCondition what) (parenthesizedCondition what) := by
  intro tokens _
  refine .symbol fun _ rest₁ h₁ => .bind (expression_paced _ rest₁ (Nat.le_refl _)) fun e rest₂ _ h₂ => ?_
  refine .symbol fun _ rest₃ h₃ => .pure ?_
  omega

theorem forStatement_paced (h : nested.Paced beyond k nested') :
    Paced beyond k (forStatement nested) (forStatement nested') := by
  intro tokens hk
  refine .symbol fun _ rest₁ h₁ => .bind (forStart_alike rest₁) fun start rest₂ h₂ _ => ?_
  have := h₂.length_le
  refine .bind (optionalExpression_alike _ rest₂) fun condition rest₃ h₃ _ => ?_
  have := h₃.length_le
  refine .symbol fun _ rest₄ h₄ => .bind (optionalExpression_alike _ rest₄) fun increment rest₅ h₅ _ => ?_
  have := h₅.length_le
  refine .symbol fun _ rest₆ h₆ => .bind (h.statement rest₆ (by omega)) fun body rest₇ _ h₇ => ?_
  have shorter : rest₇.length < tokens.length := by omega
  cases start with
  | none => exact .pure shorter
  | some s => exact .pure shorter

theorem ifStatement_paced (h : nested.Paced beyond k nested') :
    Paced beyond k (ifStatement nested) (ifStatement nested') := by
  intro tokens hk
  refine .bind (parenthesizedCondition_paced k _ tokens hk) fun c rest₁ _ h₁ => ?_
  refine .bind (h.statement rest₁ (by omega)) fun s rest₂ _ h₂ => .accept (fun rest₃ h₃ => ?_) (.pure (by omega))
  refine .bind (h.statement rest₃ (by omega)) fun t rest₄ _ h₄ => .pure ?_
  omega

theorem whileStatement_paced (h : nested.Paced beyond k nested') :
    Paced beyond k (whileStatement nested) (whileStatement nested') := by
  intro tokens hk
  refine .bind (parenthesizedCondition_paced k _ tokens hk) fun c rest₁ _ h₁ => ?_
  refine .bind (h.statement rest₁ (by omega)) fun s rest₂ _ h₂ => .pure ?_
  omega

theorem doWhileStatement_paced (h : nested.Paced beyond k nested') :
    Paced beyond k (doWhileStatement nested) (doWhileStatement nested') := by
  intro tokens hk
  refine .bind (h.statement tokens hk) fun s rest₁ _ h₁ => .expect fun _ rest₂ h₂ => ?_
  refine .bind (parenthesizedCondition_paced k _ rest₂ (by omega)) fun c rest₃ _ h₃ => ?_
  refine .symbol fun _ rest₄ h₄ => .pure ?_
  omega

theorem printStatement_paced (k : Nat) : Paced beyond k printStatement printStatement := by
  intro tokens hk
  refine .bind (expression_paced k tokens hk) fun e rest₁ _ h₁ => .symbol fun _ rest₂ h₂ => .pure ?_
  omega

theorem returnStatement_paced (k line : Nat) :
    Paced beyond k (returnStatement line) (returnStatement line) := by
  intro tokens _
  refine .bind (optionalExpression_alike _ tokens) fun e rest₁ h₁ _ => .symbol fun _ rest₂ h₂ => .pure ?_
  exact Nat.lt_of_lt_of_le h₂ h₁.length_le

/-- A parser behind a keyword or a brace. -/
theorem Alike.behind {p q : Parser α} (h : Paced beyond k p q) {kind : Token.Kind} {tokens : List Token}
    (hk : tokens.length ≤ k + 1) (hkind : (first tokens).kind = kind) (hend : kind ≠ .endOfInput) :
    Alike beyond tokens (do let _ ← advance; p) (do let _ ← advance; q) fun _ rest =>
      rest.length < tokens.length := by
  refine .read (not_end_of_kind hkind hend) fun rest hr => ?_
  exact (h rest (by omega)).mono fun _ _ _ hl => Nat.lt_trans hl hr

theorem statementWith_paced (h : nested.Paced beyond k nested') :
    Paced beyond (k + 1) (statementWith nested) (statementWith nested') := by
  intro tokens hk
  have jump (s : Stmt) (what : Expected) :
      Paced beyond k (do let _ ← symbol .semicolon what; return s) (do let _ ← symbol .semicolon what; return s) :=
    fun _ _ => .symbol fun _ _ hr => .pure hr
  refine .peek ?_
  split
  · next hkind => exact .behind (forStatement_paced h) hk hkind (by simp)
  · next hkind => exact .behind (ifStatement_paced h) hk hkind (by simp)
  · next hkind => exact .behind (whileStatement_paced h) hk hkind (by simp)
  · next hkind => exact .behind (doWhileStatement_paced h) hk hkind (by simp)
  · next hkind => exact .behind (returnStatement_paced k _) hk hkind (by simp)
  · next hkind => exact .behind (jump _ _) hk hkind (by simp)
  · next hkind => exact .behind (jump _ _) hk hkind (by simp)
  · next hkind =>
    refine .behind (k := k) (fun tokens hk => ?_) hk hkind (by simp)
    exact .bind (block_paced h tokens hk) fun body _ _ hr => .pure hr
  · next hkind => exact .behind (printStatement_paced k) hk hkind (by simp)
  · exact expressionStatement_paced _ tokens hk

theorem declarationBody_paced (h : nested.Paced beyond k nested') :
    Paced beyond (k + 1) (declarationBody nested) (declarationBody nested') := by
  intro tokens hk
  refine .peek ?_
  split
  · next hkind => exact .behind ((classDeclaration_paced h).of_le (Nat.le_succ k)) hk hkind (by simp)
  · next hkind =>
    refine .behind (k := k) (fun tokens hk => ?_) hk hkind (by simp)
    exact .bind (routine_paced h _ tokens (Nat.le_succ_of_le hk)) fun d _ _ hr => .pure hr
  · next hkind => exact .behind (letDeclaration_paced k) hk hkind (by simp)
  · next hkind => exact .behind (constDeclaration_paced k) hk hkind (by simp)
  · next hkind => exact .behind (importStatement_paced k _) hk hkind (by simp)
  · exact statementWith_paced h tokens hk

theorem skipToStatement_alike (last : Token) {n n' : Nat} {tokens : List Token} (hn : tokens.length ≤ n)
    (hn' : tokens.length ≤ n') :
    Alike beyond tokens (skipToStatement last n) (skipToStatement last n') fun _ _ => True := by
  induction n generalizing n' last tokens with
  | zero => exact .of_length_le_zero hn
  | succ n ih =>
    cases n' with
    | zero => exact .of_length_le_zero hn'
    | succ n' =>
      refine .peek (.ite (fun _ => .pure trivial) fun hgo => ?_)
      simp only [Bool.or_eq_true, not_or, Bool.not_eq_true] at hgo
      exact .read hgo.1.1 fun rest hr => ih _ (by omega) (by omega)

/-- Going on after an error reads a token, unless it is at the end of the input. -/
theorem synchronize_alike (tokens : List Token) :
    Alike beyond tokens synchronize synchronize fun _ rest =>
      (first tokens).isEnd = false → rest.length < tokens.length := by
  cases ht : (first tokens).isEnd with
  | true =>
    refine .stay ht (.remaining fun n hn => ?_)
    exact (skipToStatement_alike _ (Nat.le_refl _) hn).mono fun _ _ _ _ h => nomatch h
  | false =>
    refine .read ht fun rest hr => .remaining fun n hn => ?_
    exact (skipToStatement_alike _ (Nat.le_refl _) hn).mono fun _ left hl _ _ => Nat.lt_of_le_of_lt hl.length_le hr

/-- A declaration reads a token, also when it fails: if no token was read before the error, the one at fault is
skipped. -/
theorem declarationWith_alike (h : nested.Paced beyond k nested') {tokens : List Token}
    (hk : tokens.length ≤ k + 1) (ht : (first tokens).isEnd = false) :
    Alike beyond tokens (declarationWith nested) (declarationWith nested') fun _ rest =>
      rest.length < tokens.length := by
  refine .tryCatch (.map (declarationBody_paced h tokens hk)) fun e rest hl => .report ?_
  refine .bind (synchronize_alike rest) fun _ left hl' hs => .pure ?_
  rcases Nat.lt_or_ge rest.length tokens.length with hlt | hge
  · exact Nat.lt_of_le_of_lt hl'.length_le hlt
  · obtain rfl : rest = tokens := hl.2.eq_of_length (Nat.le_antisymm hl.length_le hge)
    exact hs ht

end Statements

/-- One level of nesting around the parsers for nested parts. -/
def Nested.deeper (nested : Nested) : Nested := ⟨statementWith nested, declarationWith nested⟩

/-- Whatever would be parsed that deep inside is not reached. -/
theorem iterate_deeper_paced (base base' : Nested) {k n n' : Nat} (hn : k ≤ n) (hn' : k ≤ n') :
    (Nested.deeper^[n] base).Paced beyond k (Nested.deeper^[n'] base') := by
  induction k generalizing n n' with
  | zero => exact ⟨.zero _ _, fun _ hk _ => .of_length_le_zero hk⟩
  | succ k ih =>
    obtain ⟨n, rfl⟩ : ∃ m, n = m + 1 := Nat.exists_eq_add_one.2 (Nat.lt_of_lt_of_le (Nat.succ_pos k) hn)
    obtain ⟨n', rfl⟩ : ∃ m, n' = m + 1 := Nat.exists_eq_add_one.2 (Nat.lt_of_lt_of_le (Nat.succ_pos k) hn')
    rw [Function.iterate_succ_apply', Function.iterate_succ_apply']
    have inner := ih (Nat.le_of_succ_le_succ hn) (Nat.le_of_succ_le_succ hn')
    exact ⟨statementWith_paced inner, fun _ hk ht => declarationWith_alike inner hk ht⟩

/-- The parsers that a counter that ran out leaves. -/
def Nested.cut : Nested := ⟨failHere .expression, failHere .expression⟩

theorem nestedUpTo_eq (n : Nat) : (⟨statementUpTo n, declarationUpTo n⟩ : Nested) = Nested.deeper^[n] .cut := by
  induction n with
  | zero => rfl
  | succ n ih =>
    rw [Function.iterate_succ_apply', ← ih, statementUpTo, declarationUpTo]
    rfl

theorem declarationUpTo_eq (n : Nat) : declarationUpTo n = (Nested.deeper^[n] .cut).declaration := by
  rw [← nestedUpTo_eq]

/-- A declaration is parsed in the same way however deep nesting is allowed to go. -/
theorem declaration_alike (base : Nested) {n : Nat} {tokens : List Token} (hn : tokens.length ≤ n)
    (ht : (first tokens).isEnd = false) :
    Alike beyond tokens declaration (Nested.deeper^[n] base).declaration fun _ rest =>
      rest.length < tokens.length := by
  rintro hc s s' rfl hs
  have start : declaration s = (Nested.deeper^[s.unread + 1] .cut).declaration s := by
    rw [← declarationUpTo_eq]
    rfl
  rw [start]
  have deep : s.rest.length ≤ s.unread + 1 := by rw [s.unread_eq]; exact Nat.le_succ _
  exact (iterate_deeper_paced .cut base deep hn).declaration s.rest (Nat.le_refl _) ht hc s s' rfl hs

end Parser

end Scriptlet
