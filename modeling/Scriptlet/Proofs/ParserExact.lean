import Scriptlet.Proofs.ParserComplete

/-!
# The parser accepts exactly its grammar

A text is parsed without a problem just if it is a program of the grammar. Its statements are then the trees of
a derivation in which every `else` belongs to the nearest `if`. All such derivations have the same trees, up to
the identities of the nodes.
-/
namespace Scriptlet

open Grammar

section Programs

variable {next : NodeId} {tokens : List Token} {last : Token} {program : List Stmt}

theorem Parse.ofTokens_of_ok {ss : List Stmt} {s : Parser.State}
    (h : Parser.program (.ofTokens tokens next) = .ok ss s) :
    Parse.ofTokens next tokens = ⟨ss, s.problems, s.nextId⟩ := by
  unfold Parse.ofTokens
  dsimp only [EStateM.run]
  rw [h]

theorem Parse.ofTokens_of_error {problem : Located SyntaxError} {s : Parser.State}
    (h : Parser.program (.ofTokens tokens next) = .error problem s) :
    Parse.ofTokens next tokens = ⟨[], s.problems ++ [problem], s.nextId⟩ := by
  unfold Parse.ofTokens
  dsimp only [EStateM.run]
  rw [h]

/-- Only the end of the input is left where the next token is an end. -/
theorem eq_of_read_to_end {ts rest : List Token} (hlast : last.kind = .endOfInput)
    (honly : ∀ t ∈ tokens, t.kind ≠ .endOfInput) (h : tokens ++ [last] = ts ++ rest)
    (hts : ∀ t ∈ ts, t.isEnd = false) (hrest : (Parser.first rest).isEnd = true) : ts = tokens := by
  rcases List.append_eq_append_iff.1 h with ⟨more, rfl, hmore⟩ | ⟨more, rfl, rfl⟩
  · cases more with
    | nil => rw [List.append_nil]
    | cons t ts =>
      -- the end of the input would have been read
      obtain ⟨rfl, -⟩ := List.cons.inj hmore
      have hend := hts last (by simp)
      rw [Token.isEnd_iff.2 hlast] at hend
      cases hend
  · cases more with
    | nil => rw [List.append_nil]
    | cons t ts => exact absurd (Token.isEnd_iff.1 hrest) (honly t (by simp))

/-- What is parsed without a problem is derived. -/
theorem Parse.derived (nearest : Bool) (hlast : last.kind = .endOfInput)
    (honly : ∀ t ∈ tokens, t.kind ≠ .endOfInput)
    (h : (Parse.ofTokens next (tokens ++ [last])).hadError = false) :
    Builds nearest (.declarations (Parse.ofTokens next (tokens ++ [last])).statements) tokens := by
  have read := Parser.program_yields nearest (tokens ++ [last]) (.ofTokens (tokens ++ [last]) next) rfl
  unfold Meets at read
  cases hp : Parser.program (.ofTokens (tokens ++ [last]) next) with
  | ok ss s =>
    rw [ofTokens_of_ok hp] at h ⊢
    rw [hp] at read
    have hclean : s.problems = [] := by simpa [hadError] using h
    obtain ⟨-, ts, hsplit, hends, hss, hend⟩ := read hclean
    rwa [eq_of_read_to_end hlast honly hsplit hends hend] at hss
  | error problem s =>
    rw [ofTokens_of_error hp] at h
    simp [hadError] at h

/-- What is derived, with every `else` at the nearest `if`, is parsed without a problem. -/
theorem Parse.of_derived (hlast : last.kind = .endOfInput) (h : Builds true (.declarations program) tokens) :
    (Parse.ofTokens next (tokens ++ [last])).hadError = false ∧
      (Parse.ofTokens next (tokens ++ [last])).statements.map Stmt.bare = program.map Stmt.bare := by
  obtain ⟨ss, s, hp, -, hclean, hss⟩ :=
    Parser.program_reads h hlast (.ofTokens (tokens ++ [last]) next) rfl
  rw [ofTokens_of_ok hp]
  exact ⟨by rw [hadError, hclean]; rfl, hss⟩

end Programs

/-- For tokens that end in their only end of the input: they are parsed without a problem if and only if they
are derived as a program, and then the statements are those of the derivation with every `else` at the nearest
`if`. -/
theorem parse_exact (next : NodeId) (tokens : List Token) (last : Token) (hlast : last.kind = .endOfInput)
    (honly : ∀ t ∈ tokens, t.kind ≠ .endOfInput) :
    ((Parse.ofTokens next (tokens ++ [last])).hadError = false ↔
      ∃ program, Builds false (.declarations program) tokens) ∧
    ((Parse.ofTokens next (tokens ++ [last])).hadError = false →
      Builds true (.declarations (Parse.ofTokens next (tokens ++ [last])).statements) tokens ∧
      ∀ program, Builds true (.declarations program) tokens →
        program.map Stmt.bare = (Parse.ofTokens next (tokens ++ [last])).statements.map Stmt.bare) := by
  refine ⟨⟨fun h => ⟨_, Parse.derived false hlast honly h⟩, ?_⟩, fun h => ⟨Parse.derived true hlast honly h, ?_⟩⟩
  · rintro ⟨program, h⟩
    obtain ⟨program', h'⟩ := h.nearest
    exact (Parse.of_derived hlast h').1
  · exact fun program h' => (Parse.of_derived hlast h').2.symm

/-! ## A dangling `else` -/

namespace DanglingElse

def word (w : Keyword) : Token := ⟨.keyword w, w.text, 0⟩

def sign (s : Symbol) : Token := ⟨.symbol s, s.text, 0⟩

def name (x : String) : Token := ⟨.identifier, x, 0⟩

def use (x : String) : Expr := .variable ⟨0, x, 0⟩

/-- The text `if (a) if (b) c; else d;`. -/
def tokens : List Token :=
  [word .if, sign .leftParen, name "a", sign .rightParen, word .if, sign .leftParen, name "b", sign .rightParen,
    name "c", sign .semicolon, word .else, name "d", sign .semicolon]

theorem derives_use (x : String) : Derives (.expression (use x)) [name x] :=
  .value (Derives.of_identifier (t := name x) 0 rfl levels)

theorem builds_use (nearest : Bool) (x : String) :
    Builds nearest (.statement false (.expression (use x))) [name x, sign .semicolon] :=
  .expression (.exprStmt (derives_use x) rfl)

/-- By the productions alone the `else` may belong to the first `if`. -/
theorem builds_first : Builds false (.declarations
    [.ifElse (use "a") (.ifThen (use "b") (.expression (use "c"))) (.expression (use "d"))]) tokens := by
  have second : Builds false (.statement true (.ifThen (use "b") (.expression (use "c"))))
      (word .if :: sign .leftParen :: ([name "b"] ++ sign .rightParen :: [name "c", sign .semicolon])) :=
    .ifThen rfl rfl (derives_use "b") rfl (builds_use false "c")
  have first : Builds false
      (.statement false (.ifElse (use "a") (.ifThen (use "b") (.expression (use "c"))) (.expression (use "d"))))
      (word .if :: sign .leftParen :: ([name "a"] ++ sign .rightParen :: (_ ++ word .else ::
        [name "d", sign .semicolon]))) :=
    .ifElse rfl rfl (derives_use "a") rfl second (nomatch ·) rfl (builds_use false "d")
  exact .declarations (.plain first) .noDeclaration

/-- The nearest `if` is the second. -/
theorem builds_second : Builds true (.declarations
    [.ifThen (use "a") (.ifElse (use "b") (.expression (use "c")) (.expression (use "d")))]) tokens := by
  have second : Builds true (.statement false (.ifElse (use "b") (.expression (use "c")) (.expression (use "d"))))
      (word .if :: sign .leftParen :: ([name "b"] ++ sign .rightParen ::
        ([name "c", sign .semicolon] ++ word .else :: [name "d", sign .semicolon]))) :=
    .ifElse rfl rfl (derives_use "b") rfl (builds_use true "c") (fun _ => rfl) rfl (builds_use true "d")
  have first : Builds true
      (.statement true (.ifThen (use "a") (.ifElse (use "b") (.expression (use "c")) (.expression (use "d")))))
      (word .if :: sign .leftParen :: ([name "a"] ++ sign .rightParen :: _)) :=
    .ifThen rfl rfl (derives_use "a") rfl second
  exact .declarations (.plain first) .noDeclaration

theorem parsed_second :
    (Parse.ofTokens 0 (tokens ++ [.endOfInput 0])).hadError = false ∧
      (Parse.ofTokens 0 (tokens ++ [.endOfInput 0])).statements.map Stmt.bare =
        [.ifThen (use "a") (.ifElse (use "b") (.expression (use "c")) (.expression (use "d")))] := by
  have exact := parse_exact 0 tokens (.endOfInput 0) rfl (by decide)
  have clean := exact.1.2 ⟨_, builds_first⟩
  refine ⟨clean, ((exact.2 clean).2 _ builds_second).symm.trans ?_⟩
  simp only [List.map_cons, List.map_nil, Stmt.bare, Expr.bare, use, Variable.bare]

end DanglingElse

end Scriptlet
