import Scriptlet.Proofs.LikeParses
import Scriptlet.Proofs.ParserEnds
import Scriptlet.Proofs.ParserExact

/-!
# Parsing behind other statements

A statement is recognised by its own tokens. Only behind an `if` the parser looks at one token more, for an `else`.
So tokens that parse without a problem are read in the same way whatever follows them, unless that begins with
`else`; and what follows is parsed as if it stood alone, also where it has errors and the parser has to skip tokens.
-/
namespace Scriptlet

open Grammar

namespace Parser

section Loops

variable {α κ : Type} {key : α → κ} {Item : α → List Token → Prop} {Follow : List Token → Prop}
  {as : List α} {ts rest : List Token}

/-- A loop over items reads those of a sequence and then goes on as if it began behind them. -/
theorem itemsUntil_behind {stop : Parser Bool} {item : Parser (Option α)}
    (hitem : ∀ a ts rest, Item a ts → Follow rest →
      Reads (ts ++ rest) rest item fun b => ∃ x, b = some x ∧ key x = key a)
    (hgo : ∀ a ts rest, Item a ts → Reads (ts ++ rest) (ts ++ rest) stop (· = false))
    (hbegin : ∀ a ts rest, Item a ts → Follow (ts ++ rest)) (hfollow : Follow rest) (h : Sequence Item as ts)
    (s : State) (hs : s.rest = ts ++ rest) :
    ∃ bs t, t.rest = rest ∧ t.problems = s.problems ∧ bs.map key = as.map key ∧
      ∀ n others u, itemsUntil stop item n t = .ok others u →
        itemsUntil stop item (as.length + n) s = .ok (bs ++ others) u := by
  induction h generalizing s with
  | nil =>
    refine ⟨[], s, hs, rfl, rfl, fun n others u hloop => ?_⟩
    rwa [List.length_nil, Nat.zero_add]
  | @cons a as ts us ha has ih =>
    have hnext : Follow (us ++ rest) := by
      cases has with
      | nil => exact hfollow
      | cons hb =>
        rw [List.append_assoc]
        exact hbegin _ _ _ hb
    rw [List.append_assoc] at hs
    obtain ⟨_, s₁, hstop, hs₁, hproblems₁, rfl⟩ := hgo a ts (us ++ rest) ha s hs
    obtain ⟨_, s₂, hread, hs₂, hproblems₂, x, rfl, hx⟩ := hitem a ts (us ++ rest) ha hnext s₁ hs₁
    obtain ⟨bs, t, ht, hproblems, hbs, hloop⟩ := ih s₂ hs₂
    refine ⟨x :: bs, t, ht, hproblems.trans (hproblems₂.trans hproblems₁), ?_, fun n others u hothers => ?_⟩
    · rw [List.map_cons, List.map_cons, hx, hbs]
    · rw [List.length_cons, Nat.add_right_comm, itemsUntil, bind_of_ok hstop]
      exact (bind_of_ok hread).trans (bind_of_ok (hloop n others u hothers))

end Loops

/-- On closed tokens the number of turns that a program may take has no part in its outcome. -/
theorem program_eq {s : State} (hc : Token.Closed s.rest) {turns : Nat} (h : s.unread ≤ turns) :
    itemsUntil atEnd declaration turns s = program s := by
  have alike : Alike [] s.rest (itemsUntil atEnd declaration s.unread) (itemsUntil atEnd declaration turns) _ :=
    itemsUntil_atEnd_alike (fun _ _ => declaration_alike_itself) (Nat.le_refl _) (length_rest_le s)
      ((length_rest_le s).trans h)
  exact alike.same hc

/-- A derived program is read in front of closed tokens that do not begin with `else`, and the parser goes on with
these as with a program of their own. -/
theorem program_behind {ss : List Stmt} {ts rest : List Token} (h : Builds true (.declarations ss) ts)
    (hrest : ¬(first rest).Spells "else") (hc : Token.Closed rest) (s : State) (hs : s.rest = ts ++ rest) :
    ∃ ss' t, t.rest = rest ∧ t.problems = s.problems ∧ ss'.map Stmt.bare = ss.map Stmt.bare ∧
      ∀ others u, program t = .ok others u → program s = .ok (ss' ++ others) u := by
  obtain ⟨ss', t, ht, hproblems, hss', hloop⟩ :=
    itemsUntil_behind (fun _ _ _ => declaration_reads) (fun _ _ rest hs => atEnd_reads_false hs rest)
      (fun _ _ rest hs => not_else_of_declaration hs rest) hrest h.sequence s hs
  refine ⟨ss', t, ht, hproblems, hss', fun others u hothers => ?_⟩
  -- every statement has a token, so enough turns are left for the rest
  have hlen : ss.length ≤ ts.length := h.sequence.length_le fun _ _ hs => hs.declaration_starts.ne_nil
  have hunread : s.unread = ss.length + (ts.length - ss.length + t.unread) := by
    rw [s.unread_eq, t.unread_eq, hs, ht, List.length_append]
    omega
  have hturns : itemsUntil atEnd declaration (ts.length - ss.length + t.unread) t = .ok others u := by
    rw [program_eq (ht ▸ hc) (Nat.le_add_left _ _), hothers]
  have start : program s = itemsUntil atEnd declaration s.unread s := rfl
  rw [start, hunread]
  exact hloop _ others u hturns

end Parser

/-! ## Parsing tokens anew -/

namespace Parse

/-- The lines of two texts are the same; nothing is asked of the nodes. -/
def renumbering (next next' : NodeId) : Pairing := ⟨next, next', fun _ _ => False, 0⟩

theorem renumbering_line {next next' : NodeId} {l l' : Nat} (h : (renumbering next next').Line l l') : l = l' := by
  rcases h with h | h
  · exact h.symm
  · exact h.symm

/-- Where the identities of nodes begin makes no difference besides these identities. -/
theorem ofTokens_renumbered (next next' : NodeId) (tokens : List Token) :
    (ofTokens next tokens).statements.map Stmt.bare = (ofTokens next' tokens).statements.map Stmt.bare ∧
      (ofTokens next tokens).problems = (ofTokens next' tokens).problems := by
  have like : (ofTokens next tokens).Like (renumbering next next') (ofTokens next' tokens) :=
    ofTokens_like (List.forall₂_same.2 fun t _ => ⟨rfl, rfl, .inl rfl⟩) ⟨0, rfl, rfl⟩
  constructor
  · rw [← Stmt.listBare_eq, ← Stmt.listBare_eq]
    exact Stmt.Like.listBare_eq (Stmt.Like.mono_list renumbering_line (fun _ => trivial) like.statements)
  · refine List.forall₂_eq_eq_eq ▸ like.problems.imp ?_
    rintro ⟨line, location, problem⟩ ⟨line', location', problem'⟩ ⟨hline, rfl, rfl⟩
    cases renumbering_line hline
    rfl

end Parse

/-- Let the tokens `ts` be parsed without a problem, and let `us` not begin with `else`. Then `ts` followed by `us`
is parsed into the statements of `ts` and those of `us`, where the problems are the ones of `us` alone, in their
order, whether there are any or not. The parts may be parsed with any identities for their nodes. -/
theorem parse_append (next next₁ next₂ : NodeId) (ts us : List Token) (last₁ last : Token)
    (hlast₁ : last₁.kind = .endOfInput) (hlast : last.kind = .endOfInput)
    (hts : ∀ t ∈ ts, t.kind ≠ .endOfInput) (hus : ∀ t ∈ us, t.kind ≠ .endOfInput)
    (hclean : (Parse.ofTokens next₁ (ts ++ [last₁])).problems = [])
    (helse : us.head?.map Token.kind ≠ some (.keyword .else)) :
    (Parse.ofTokens next (ts ++ us ++ [last])).statements.map Stmt.bare =
        (Parse.ofTokens next₁ (ts ++ [last₁])).statements.map Stmt.bare ++
          (Parse.ofTokens next₂ (us ++ [last])).statements.map Stmt.bare ∧
      (Parse.ofTokens next (ts ++ us ++ [last])).problems = (Parse.ofTokens next₂ (us ++ [last])).problems := by
  have hbuilds := Parse.derived true hlast₁ hts (by rw [Parse.hadError, hclean]; rfl)
  have hrest : ¬(Parser.first (us ++ [last])).Spells "else" := by
    intro hspells
    have hkind : (Parser.first (us ++ [last])).kind = .keyword .else := Token.spells_keyword.1 hspells
    cases us with
    | nil => cases hlast.symm.trans hkind
    | cons u us => exact helse (congrArg some hkind)
  have hclosed : Token.Closed (us ++ [last]) := by
    refine ⟨us, last, rfl, Token.isEnd_iff.2 hlast, fun u hu => ?_⟩
    rw [Bool.eq_false_iff, Ne, Token.isEnd_iff]
    exact hus u hu
  obtain ⟨ss, t, ht, hproblems, hss, hgo⟩ := Parser.program_behind hbuilds hrest hclosed
    (.ofTokens (ts ++ us ++ [last]) next) (List.append_assoc ts us [last])
  obtain ⟨others, u, -, -, hothers, -⟩ := Parser.program_ends (s := t) (ht ▸ hclosed)
  -- the parser arrives at `us` in the state in which it begins with `us` alone
  have hstart : t = .ofTokens (us ++ [last]) t.nextId :=
    Parser.State.Extended.eq ⟨ht.trans (List.append_nil _).symm, hproblems, rfl⟩
  have alone : Parse.ofTokens t.nextId (us ++ [last]) = ⟨others, u.problems, u.nextId⟩ :=
    Parse.ofTokens_of_ok (hstart ▸ hothers)
  obtain ⟨hstatements, hsame⟩ := Parse.ofTokens_renumbered t.nextId next₂ (us ++ [last])
  rw [alone] at hstatements hsame
  rw [Parse.ofTokens_of_ok (hgo others u hothers), List.map_append, hss, hstatements]
  exact ⟨rfl, hsame⟩

namespace MissingName

/-- The tokens of `if (a) b;`. -/
def front : List Token := Scan.body false "if (a) b;"

/-- The tokens of `let; print c;`, where a name is missing. -/
def behind : List Token := Scan.body false "let; print c;"

/-- The error behind the `if` is the one that is found without it, and the `print` is found as well. -/
theorem parse_append_recovers :
    (Parse.ofTokens 0 (front ++ [.endOfInput 0])).problems = [] ∧
      (Parse.ofTokens 0 (front ++ behind ++ [.endOfInput 0])).problems =
        (Parse.ofTokens 0 (behind ++ [.endOfInput 0])).problems ∧
      (Parse.ofTokens 0 (behind ++ [.endOfInput 0])).problems =
        [Located.atToken ⟨.symbol .semicolon, ";", 0⟩ (.expected .variableName)] ∧
      (Parse.ofTokens 0 (front ++ behind ++ [.endOfInput 0])).statements.length = 2 := by
  have clean : (Parse.ofTokens 0 (front ++ [.endOfInput 0])).problems = [] := by decide +kernel
  obtain ⟨statements, problems⟩ := parse_append 0 0 0 front behind (.endOfInput 0) (.endOfInput 0) rfl rfl
    (Scan.body_ne_end _ _) (Scan.body_ne_end _ _) clean (by decide +kernel)
  refine ⟨clean, problems, by decide +kernel, ?_⟩
  have lengths := congrArg List.length statements
  rw [List.length_append, List.length_map, List.length_map, List.length_map] at lengths
  rw [lengths]
  decide +kernel

end MissingName

end Scriptlet
