import Scriptlet.Proofs.ParserProgress
import Scriptlet.Proofs.Seams

/-!
# Scanning and parsing end

The tokens of every text end in the end of the input, which stands nowhere else. On such tokens no parser reads
behind the end, every declaration reads a token or skips one, and so every loop over declarations or members ends
where it should. The counters that parsers carry are large enough: with larger ones, or with other parsers where a
counter runs out, the outcome is the same.
-/
namespace Scriptlet

open Token (Closed Left)

theorem Scan.tokens_closed (inComment : Bool) (text : String) : Closed (ofText inComment text).tokens := by
  refine ⟨body inComment text, .endOfInput (lineBreaks text), tokens_eq inComment text, rfl, fun t ht => ?_⟩
  rw [Bool.eq_false_iff, Ne, Token.isEnd_iff]
  exact body_ne_end inComment text t ht

theorem Scan.front_not_end {inComment : Bool} {text : String} {t : Token}
    (ht : .token t ∈ front inComment text) : t.isEnd = false := by
  rw [Bool.eq_false_iff, Ne, Token.isEnd_iff]
  exact Token.Item.ne_end_of_mem_inPieces (Piece.cut_ne_end inComment text.toList) ht

namespace Parser

variable {α : Type}

/-! ## Parsers that never fail -/

/-- The parser succeeds from every state. -/
def Total (p : Parser α) : Prop := ∀ s, ∃ a t, p s = .ok a t

namespace Total

variable {β : Type} {p : Parser α} {f : α → Parser β}

theorem pure (a : α) : Total (Pure.pure a) := fun s => ⟨a, s, rfl⟩

theorem bind (hp : Total p) (hf : ∀ a, Total (f a)) : Total (p >>= f) := by
  intro s
  obtain ⟨a, t, ha⟩ := hp s
  obtain ⟨b, u, hb⟩ := hf a t
  refine ⟨b, u, ?_⟩
  change EStateM.bind p f s = .ok b u
  rw [EStateM.bind, ha]
  exact hb

/-- What is caught does not fail. -/
theorem tryCatch {handle : Located SyntaxError → Parser α} (hh : ∀ e, Total (handle e)) :
    Total (MonadExcept.tryCatch p handle) := by
  intro s
  cases hp : p s with
  | ok a t => exact ⟨a, t, tryCatch_of_ok hp⟩
  | error e t =>
    rw [tryCatch_of_error hp]
    exact hh e t

theorem ite {c : Prop} [Decidable c] {q : Parser α} (hp : Total p) (hq : Total q) :
    Total (if c then p else q) := by
  split
  · exact hp
  · exact hq

theorem peek : Total Parser.peek := fun s => ⟨s.next, s, rfl⟩

theorem advance : Total Parser.advance := by
  intro s
  rw [advance_eq]
  exact ⟨_, _, rfl⟩

theorem remaining : Total Parser.remaining := fun s => ⟨s.unread, s, rfl⟩

theorem report (problem : Located SyntaxError) : Total (Parser.report problem) := fun _ => ⟨_, _, rfl⟩

theorem check (kind : Token.Kind) : Total (Parser.check kind) := peek.bind fun _ => pure _

theorem atEnd : Total Parser.atEnd := peek.bind fun _ => pure _

theorem atBrace : Total Parser.atBrace := (check _).bind fun _ => atEnd.bind fun _ => pure _

theorem skipToStatement (last : Token) (n : Nat) : Total (Parser.skipToStatement last n) := by
  induction n generalizing last with
  | zero => exact pure _
  | succ n ih => exact peek.bind fun t => .ite (pure _) (advance.bind fun _ => ih t)

theorem synchronize : Total Parser.synchronize :=
  advance.bind fun _ => remaining.bind fun _ => skipToStatement _ _

theorem declarationWith (nested : Nested) : Total (Parser.declarationWith nested) :=
  tryCatch fun _ => (report _).bind fun _ => synchronize.bind fun _ => pure _

theorem itemsUntil {stop : Parser Bool} {item : Parser (Option α)} (hstop : Total stop) (hitem : Total item)
    (n : Nat) : Total (Parser.itemsUntil stop item n) := by
  induction n with
  | zero => exact pure _
  | succ n ih =>
    exact hstop.bind fun _ => .ite (pure _) (hitem.bind fun _ => ih.bind fun _ => pure _)

theorem deeper (base : Nested) {n : Nat} (hn : 0 < n) : Total (Nested.deeper^[n] base).declaration := by
  obtain ⟨n, rfl⟩ := Nat.exists_eq_add_one.2 hn
  rw [Function.iterate_succ_apply']
  exact declarationWith _

theorem declaration : Total Parser.declaration := by
  refine remaining.bind fun n => ?_
  rw [declarationUpTo_eq]
  exact deeper _ (Nat.succ_pos n)

end Total

/-! ## Outcomes -/

namespace Alike

variable {tokens : List Token} {p q : Parser α} {P : α → List Token → Prop} {s : State}

theorem same (h : Alike [] s.rest p q P) (hc : Closed s.rest) : q s = p s := by
  have hs : s.Extended [] s := ⟨(List.append_nil _).symm, rfl, rfl⟩
  obtain ⟨a, t, t', hp, hq, ht, -, -⟩ | ⟨e, t, t', hp, hq, ht, -⟩ := h hc s s rfl hs
  · rw [hp, hq, ht.eq]
  · rw [hp, hq, ht.eq]

theorem ends (h : Alike [] s.rest p q P) (hc : Closed s.rest) :
    (∃ a t, p s = .ok a t ∧ Left s.rest t.rest ∧ P a t.rest) ∨ ∃ e t, p s = .error e t ∧ Left s.rest t.rest := by
  have hs : s.Extended [] s := ⟨(List.append_nil _).symm, rfl, rfl⟩
  obtain ⟨a, t, t', hp, -, -, hl, hP⟩ | ⟨e, t, t', hp, -, -, hl⟩ := h hc s s rfl hs
  · exact .inl ⟨a, t, hp, hl, hP⟩
  · exact .inr ⟨e, t, hp, hl⟩

theorem ends_ok (h : Alike [] s.rest p q P) (hc : Closed s.rest) (hp : Total p) :
    ∃ a t, p s = .ok a t ∧ Left s.rest t.rest ∧ P a t.rest := by
  obtain ok | ⟨e, t, he, -⟩ := h.ends hc
  · exact ok
  · obtain ⟨a, t', ha⟩ := hp s
    rw [he] at ha
    cases ha

end Alike

/-! ## Loops over declarations -/

theorem atEnd_alike {beyond : List Token} (tokens : List Token) :
    Alike beyond tokens atEnd atEnd fun b rest => rest = tokens ∧ (b = true ↔ (first rest).isEnd = true) :=
  .peek (.pure ⟨rfl, Iff.rfl⟩)

/-- The declarations of a whole text go on up to the end of the input. -/
theorem itemsUntil_atEnd_alike {beyond : List Token} {k : Nat} {item item' : Parser (Option Stmt)}
    (hitem : ∀ tokens, tokens.length ≤ k → (first tokens).isEnd = false →
      Alike beyond tokens item item' fun _ rest => rest.length < tokens.length)
    {n n' : Nat} {tokens : List Token} (hk : tokens.length ≤ k) (hn : tokens.length ≤ n)
    (hn' : tokens.length ≤ n') :
    Alike beyond tokens (itemsUntil atEnd item n) (itemsUntil atEnd item' n') fun _ rest =>
      (first rest).isEnd = true :=
  itemsUntil_alike atEnd_alike (fun tokens hk ht => hitem tokens hk (Bool.eq_false_iff.2 ht)) hk hn hn'

/-- A declaration does not look behind the end of the input. -/
theorem declaration_alike_itself {beyond tokens : List Token} (ht : (first tokens).isEnd = false) :
    Alike beyond tokens declaration declaration fun _ rest => rest.length < tokens.length := by
  refine .remaining fun n hn => ?_
  rw [declarationUpTo_eq, declarationUpTo_eq]
  exact (iterate_deeper_paced _ _ (Nat.le_succ _) (Nat.le_succ_of_le hn)).declaration tokens (Nat.le_refl _) ht

theorem program_alike {beyond tokens : List Token} :
    Alike beyond tokens program program fun _ rest => (first rest).isEnd = true :=
  .remaining fun _ hn =>
    itemsUntil_atEnd_alike (fun _ _ => declaration_alike_itself) (Nat.le_refl _) (Nat.le_refl _) hn

/-! ## What every counter gives -/

section Counters

variable {s : State}

theorem length_rest_le (s : State) : s.rest.length ≤ s.unread := Nat.le_of_eq s.unread_eq.symm

/-- A declaration is found in the same way however deep nesting is allowed to go. -/
theorem declaration_ends (hc : Closed s.rest) (ht : s.next.isEnd = false) :
    ∃ found t, Left s.rest t.rest ∧ t.unread < s.unread ∧ declaration s = .ok found t ∧
      ∀ base n, s.unread ≤ n → (Nested.deeper^[n] base).declaration s = .ok found t := by
  have alike (base : Nested) (n : Nat) (hn : s.unread ≤ n) :
      Alike [] s.rest declaration (Nested.deeper^[n] base).declaration _ :=
    declaration_alike base ((length_rest_le s).trans hn) ht
  obtain ⟨found, t, hd, hl, hlt⟩ := (alike .cut s.unread (Nat.le_refl _)).ends_ok hc Total.declaration
  refine ⟨found, t, hl, ?_, hd, fun base n hn => ?_⟩
  · rw [s.unread_eq, t.unread_eq]
    exact hlt
  · rw [(alike base n hn).same hc, hd]

theorem block_ends (hc : Closed s.rest) :
    ∃ body t, Left s.rest t.rest ∧ EndsBlock t.rest ∧ ∀ base n turns, s.unread ≤ n → s.unread ≤ turns →
      itemsUntil atBrace (Nested.deeper^[n] base).declaration turns s = .ok body t := by
  have alike (base : Nested) (n turns : Nat) (hn : s.unread ≤ n) (hturns : s.unread ≤ turns) :
      Alike [] s.rest (itemsUntil atBrace (Nested.deeper^[s.unread] .cut).declaration s.unread)
        (itemsUntil atBrace (Nested.deeper^[n] base).declaration turns) _ :=
    declarations_alike (iterate_deeper_paced .cut base (Nat.le_refl _) hn) (length_rest_le s) (length_rest_le s)
      ((length_rest_le s).trans hturns)
  have total := Total.itemsUntil .atBrace (.deeper .cut (hc.length_pos.trans_le (length_rest_le s))) s.unread
  obtain ⟨body, t, hb, hl, he⟩ := (alike .cut _ _ (Nat.le_refl _) (Nat.le_refl _)).ends_ok hc total
  exact ⟨body, t, hl, he, fun base n turns hn hturns => by rw [(alike base n turns hn hturns).same hc, hb]⟩

theorem classBody_ends (hc : Closed s.rest) :
    (∃ members t, Left s.rest t.rest ∧ EndsBlock t.rest ∧ ∀ base n turns, s.unread ≤ n → s.unread ≤ turns →
      itemsUntil atBrace (some <$> member (Nested.deeper^[n] base)) turns s = .ok members t) ∨
    ∃ problem t, Left s.rest t.rest ∧ ∀ base n turns, s.unread ≤ n → s.unread ≤ turns →
      itemsUntil atBrace (some <$> member (Nested.deeper^[n] base)) turns s = .error problem t := by
  have alike (base : Nested) (n turns : Nat) (hn : s.unread ≤ n) (hturns : s.unread ≤ turns) :
      Alike [] s.rest (itemsUntil atBrace (some <$> member (Nested.deeper^[s.unread] .cut)) s.unread)
        (itemsUntil atBrace (some <$> member (Nested.deeper^[n] base)) turns) _ :=
    members_alike (iterate_deeper_paced .cut base (Nat.le_refl _) hn) (Nat.le_succ_of_le (length_rest_le s))
      (length_rest_le s) ((length_rest_le s).trans hturns)
  obtain ⟨members, t, hm, hl, he⟩ | ⟨problem, t, hm, hl⟩ :=
    (alike .cut _ _ (Nat.le_refl _) (Nat.le_refl _)).ends hc
  · exact .inl ⟨members, t, hl, he, fun base n turns hn hturns => by rw [(alike base n turns hn hturns).same hc, hm]⟩
  · exact .inr ⟨problem, t, hl, fun base n turns hn hturns => by rw [(alike base n turns hn hturns).same hc, hm]⟩

theorem program_ends (hc : Closed s.rest) :
    ∃ statements t, Left s.rest t.rest ∧ t.next.isEnd = true ∧ program s = .ok statements t ∧
      ∀ base n turns, s.unread ≤ n → s.unread ≤ turns →
        itemsUntil atEnd (Nested.deeper^[n] base).declaration turns s = .ok statements t := by
  have start : program s = itemsUntil atEnd declaration s.unread s := rfl
  have alike (base : Nested) (n turns : Nat) (hn : s.unread ≤ n) (hturns : s.unread ≤ turns) :
      Alike [] s.rest (itemsUntil atEnd declaration s.unread)
        (itemsUntil atEnd (Nested.deeper^[n] base).declaration turns) _ :=
    itemsUntil_atEnd_alike (fun _ hk ht => declaration_alike base (hk.trans hn) ht) (length_rest_le s)
      (length_rest_le s) ((length_rest_le s).trans hturns)
  have total := Total.itemsUntil .atEnd .declaration s.unread
  obtain ⟨statements, t, hp, hl, he⟩ := (alike .cut _ _ (Nat.le_refl _) (Nat.le_refl _)).ends_ok hc total
  refine ⟨statements, t, hl, he, start.trans hp, fun base n turns hn hturns => ?_⟩
  rw [(alike base n turns hn hturns).same hc, hp]

theorem expression_ends (hc : Closed s.rest) :
    (∃ e t, Left s.rest t.rest ∧ t.unread < s.unread ∧ expression s = .ok e t ∧
      ∀ base n, s.unread ≤ n → assignment^[n] base s = .ok e t) ∨
    ∃ problem t, Left s.rest t.rest ∧ expression s = .error problem t ∧
      ∀ base n, s.unread ≤ n → assignment^[n] base s = .error problem t := by
  have start : expression s = assignment^[s.unread + 1] (failHere .expression) s := by
    rw [← expressionUpTo_eq]
    rfl
  have alike (base : Parser Expr) (n : Nat) (hn : s.unread ≤ n) :
      Alike [] s.rest (assignment^[s.unread + 1] (failHere .expression)) (assignment^[n] base) _ :=
    iterate_assignment_paced _ base (Nat.le_succ _) hn s.rest (length_rest_le s)
  obtain ⟨e, t, he, hl, hlt⟩ | ⟨problem, t, he, hl⟩ := (alike (failHere .expression) _ (Nat.le_refl _)).ends hc
  · refine .inl ⟨e, t, hl, ?_, start.trans he, fun base n hn => by rw [(alike base n hn).same hc, he]⟩
    rw [s.unread_eq, t.unread_eq]
    exact hlt
  · exact .inr ⟨problem, t, hl, start.trans he, fun base n hn => by rw [(alike base n hn).same hc, he]⟩

end Counters

/-- Tokens behind the end of the input are not read. -/
theorem program_beyond {tokens : List Token} (hc : Closed tokens) (next : NodeId) (beyond : List Token) :
    ∃ statements s s', program (.ofTokens tokens next) = .ok statements s ∧ Left tokens s.rest ∧
      s.next.isEnd = true ∧ program (.ofTokens (tokens ++ beyond) next) = .ok statements s' ∧
      s.Extended beyond s' := by
  obtain ⟨statements, s, s', hp, hp', hs, hl, he⟩ | ⟨e, s, s', hp, -, -, -⟩ :=
    program_alike hc (.ofTokens tokens next) (.ofTokens (tokens ++ beyond) next) rfl ⟨rfl, rfl, rfl⟩
  · exact ⟨statements, s, s', hp, hl, he, hp', hs⟩
  · obtain ⟨statements, t, -, -, ht, -⟩ := program_ends (s := .ofTokens tokens next) hc
    rw [hp] at ht
    cases ht

end Parser

open Scriptlet.Parser in
/-- Scanning and parsing end and stay inside of what they read.

The items of every text, also of one that starts inside a comment or leaves a string or a comment open, end in the
end of the input, which is no other of its tokens. On tokens that end so, parsing a program ends on the last one
with the same statements, problems and identities whatever stands behind it. From every position, a declaration
that is not at the end succeeds, if need be after an error, and leaves fewer tokens; the loops of programs, blocks
and class bodies come to their end.

The counters of parsers have no part in this: they say how deep nesting may go and how many turns a loop may take, and
with any counters that are not less than the number of unread tokens the outcome is the same, whatever would be parsed
where a counter has run out. -/
theorem scanning_and_parsing_end :
    (∀ inComment text, Closed (Scan.ofText inComment text).tokens ∧ ∃ front line,
      (Scan.ofText inComment text).items = front ++ [.token (.endOfInput line)] ∧
      ∀ t, .token t ∈ front → t.isEnd = false) ∧
    (∀ n, declarationUpTo n = (Nested.deeper^[n] .cut).declaration ∧
      expressionUpTo n = assignment^[n] (failHere .expression)) ∧
    ∀ tokens, Closed tokens →
      (∀ next beyond, ∃ statements s s', program (.ofTokens tokens next) = .ok statements s ∧
        Left tokens s.rest ∧ s.next.isEnd = true ∧
        program (.ofTokens (tokens ++ beyond) next) = .ok statements s' ∧ s.Extended beyond s') ∧
      ∀ s : State, Left tokens s.rest →
        (s.next.isEnd = false → ∃ found t, Left s.rest t.rest ∧ t.unread < s.unread ∧
          declaration s = .ok found t ∧
          ∀ base n, s.unread ≤ n → (Nested.deeper^[n] base).declaration s = .ok found t) ∧
        (∃ statements t, Left s.rest t.rest ∧ t.next.isEnd = true ∧ program s = .ok statements t ∧
          ∀ base n turns, s.unread ≤ n → s.unread ≤ turns →
            itemsUntil atEnd (Nested.deeper^[n] base).declaration turns s = .ok statements t) ∧
        (∃ body t, Left s.rest t.rest ∧ EndsBlock t.rest ∧
          ∀ base n turns, s.unread ≤ n → s.unread ≤ turns →
            itemsUntil atBrace (Nested.deeper^[n] base).declaration turns s = .ok body t) ∧
        ((∃ members t, Left s.rest t.rest ∧ EndsBlock t.rest ∧
            ∀ base n turns, s.unread ≤ n → s.unread ≤ turns →
              itemsUntil atBrace (some <$> member (Nested.deeper^[n] base)) turns s = .ok members t) ∨
          ∃ problem t, Left s.rest t.rest ∧
            ∀ base n turns, s.unread ≤ n → s.unread ≤ turns →
              itemsUntil atBrace (some <$> member (Nested.deeper^[n] base)) turns s = .error problem t) ∧
        ((∃ e t, Left s.rest t.rest ∧ t.unread < s.unread ∧ expression s = .ok e t ∧
            ∀ base n, s.unread ≤ n → assignment^[n] base s = .ok e t) ∨
          ∃ problem t, Left s.rest t.rest ∧ expression s = .error problem t ∧
            ∀ base n, s.unread ≤ n → assignment^[n] base s = .error problem t) := by
  refine ⟨?_, fun n => ⟨declarationUpTo_eq n, expressionUpTo_eq n⟩, ?_⟩
  · intro inComment text
    exact ⟨Scan.tokens_closed inComment text, Scan.front inComment text, _, Scan.items_eq inComment text,
      fun _ => Scan.front_not_end⟩
  · intro tokens hc
    refine ⟨program_beyond hc, fun s hs => ?_⟩
    have closed := hc.of_left hs
    exact ⟨declaration_ends closed, program_ends closed, block_ends closed, classBody_ends closed,
      expression_ends closed⟩

/-- An unfinished class in an open block, parsed from its start. -/
theorem scanning_and_parsing_end_openBlock :
    ∃ statements t, Left (Scan.ofText false "\x7b class A \x7b b").tokens t.rest ∧ t.next.isEnd = true ∧
      Parser.program (.ofTokens (Scan.ofText false "\x7b class A \x7b b").tokens 0) = .ok statements t := by
  have closed := (scanning_and_parsing_end.1 false "\x7b class A \x7b b").1
  obtain ⟨statements, t, hl, ht, hp, -⟩ := ((scanning_and_parsing_end.2.2 _ closed).2 (.ofTokens _ 0) closed.all).2.1
  exact ⟨statements, t, hl, ht, hp⟩

end Scriptlet
