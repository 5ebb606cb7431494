import Scriptlet.Proofs.NumberTexts
import Scriptlet.Proofs.Parsed
import Scriptlet.Proofs.Rescanning

/-!
# Printed literals

A literal of a parsed text is printed as a text that is scanned and parsed as this literal again, unless it is a number
too large for a double. Such a number is infinite, and an infinite number is printed as a name.
-/
namespace Scriptlet

open Piece

/-! ## Numbers of texts -/

theorem Piece.kind_of_number {p : Piece} {x : Float} {lexeme : String} (h : .ok (.number x, lexeme) ∈ p.contents) :
    p.kind = .token (.number x) := by
  unfold contents at h
  cases hk : p.kind with
  | token kind =>
    simp only [hk, List.mem_singleton, Except.ok.injEq, Prod.mk.injEq] at h
    rw [h.1]
  | _ => simp [hk] at h

/-- A number token stands for a numeral of the text. -/
theorem Scan.numeral_of_mem {inComment : Bool} {text : String} {t : Token} {x : Float}
    (ht : t ∈ (ofText inComment text).tokens) (hk : t.kind = .number x) : ∃ cs, Numeral cs x := by
  have said : (t.kind, t.lexeme) ∈ (ofText inComment text).tokens.map fun t => (t.kind, t.lexeme) :=
    List.mem_map_of_mem ht
  rw [map_tokens, content_items, contents_tokenPieces, hk] at said
  obtain ⟨c, hc, hsaid⟩ := List.mem_filterMap.1 said
  cases c with
  | error message => cases hsaid
  | ok content =>
    cases hsaid
    rcases List.mem_append.1 hc with hc | hc
    · obtain ⟨p, hp, hc⟩ := List.mem_flatMap.1 hc
      have number := kind_of_number hc
      obtain ⟨_, _, standing⟩ := stands_of_mem_cut hp
      cases standing with
      | number hv _ =>
        cases number
        exact ⟨_, hv⟩
      | _ => cases number
    · simp at hc

theorem Scan.unsigned_of_mem {inComment : Bool} {text : String} {t : Token} {x : Float}
    (ht : t ∈ (ofText inComment text).tokens) (hk : t.kind = .number x) : Number.Unsigned x := by
  obtain ⟨cs, hcs⟩ := numeral_of_mem ht hk
  cases hcs with
  | whole => exact Number.unsigned_ofScientific _ _
  | decimal => exact Number.unsigned_ofScientific _ _

/-! ## Statements of one token -/

/-- The text is scanned and parsed without an error, and this is its only statement. -/
structure ReadsAs (text : String) (next : NodeId) (s : Stmt) : Prop where
  scanned : (Scan.ofText false text).hadError = false
  closed : (Scan.ofText false text).inComment = false
  parsed : (Parse.ofTokens next (Scan.ofText false text).tokens).hadError = false
  statements : (Parse.ofTokens next (Scan.ofText false text).tokens).statements = [s]

/-- What the scan of one token before a semicolon looks like. -/
def Scan.ofSingle (kind : Token.Kind) (lexeme : String) (line : Nat) : Scan :=
  ⟨[.token ⟨kind, lexeme, line⟩, .token ⟨.symbol .semicolon, ";", line⟩, .token (.endOfInput line)], false⟩

theorem readsAs_of_scan {text lexeme : String} {kind : Token.Kind} {line : Nat} {e : Expr} {next after : NodeId}
    (scan : Scan.ofText false text = .ofSingle kind lexeme line)
    (parse : Parse.ofTokens next (Scan.ofSingle kind lexeme line).tokens = ⟨[.expression e], [], after⟩) :
    ReadsAs text next (.expression e) := by
  constructor
  · rw [scan]
    rfl
  · rw [scan]
    rfl
  · rw [scan, parse]
    rfl
  · rw [scan, parse]

theorem parse_literal {kind : Token.Kind} {v : Literal} (h : kind.literal? = some v) (lexeme : String) (line : Nat)
    (next : NodeId) : Parse.ofTokens next (Scan.ofSingle kind lexeme line).tokens =
      ⟨[.expression (.literal v)], [], next⟩ := by
  unfold Token.Kind.literal? at h
  split at h <;> cases h <;> rfl

/-- A numeral before a semicolon is scanned as a number. -/
theorem Scan.ofText_numeral {text : String} {x : Float} (h : Numeral text.toList x) :
    ∃ line, ofText false (text ++ ";") = .ofSingle (.number x) text line := by
  have longest : Longest IsNumeral text.toList [';'] := by
    generalize text.toList = cs at h
    cases h with
    | whole hne hd =>
      refine (longest_whole_iff hne hd).2 ⟨longest_of_iff.2 ⟨hd, by simp [isDigit]⟩, ?_⟩
      intro d after he
      cases he
    | decimal hne hd hfne hf =>
      exact (longest_decimal_iff hne hd hfne hf).2 (longest_of_iff.2 ⟨hf, by simp [isDigit]⟩)
  have semicolon : Longest IsMark [';'] [] := (longest_single_iff (.inl ⟨.semicolon, rfl⟩)).2 (by simp)
  have cut : IsCut false (text ++ ";").toList
      [⟨.token (.number x), text.toList⟩, ⟨.token (.symbol .semicolon), [';']⟩] := by
    rw [String.toList_append]
    refine isCut_cons.2 ⟨[';'], rfl, .number h longest, isCut_cons.2 ⟨[], rfl, ?_, isCut_nil.2 rfl⟩⟩
    exact .symbol rfl semicolon
  refine ⟨newlines text.toList, ?_⟩
  unfold ofText
  rw [← isCut_iff.1 cut]
  simp [Token.Item.ofPieces, Token.Item.ofPiece, ofSingle, endsInComment, newlines]

/-! ## Literals -/

theorem ReadsAs.unique {text : String} {next : NodeId} {s s' : Stmt} (h : ReadsAs text next s)
    (h' : ReadsAs text next s') : s = s' :=
  (List.cons.inj (h.statements.symm.trans h'.statements)).1

/-- The literal is a number too large for a double. -/
def Literal.Overflows (v : Literal) : Prop := ∃ x, v = .number x ∧ Number.decode x = .infinite false

theorem readsAs_numeral {x : Float} {b : Number.Binary} (h : Number.decode x = .finite b) (hn : b.negative = false)
    (next : NodeId) : ReadsAs (Number.treeText x ++ ";") next (.expression (.literal (.number x))) := by
  obtain ⟨line, scan⟩ := Scan.ofText_numeral (Number.numeral_treeText h hn)
  exact readsAs_of_scan scan (parse_literal rfl _ _ _)

theorem readsAs_bool (b : Bool) (next : NodeId) :
    ReadsAs ((Literal.bool b).text ++ ";") next (.expression (.literal (.bool b))) := by
  cases b with
  | false =>
    have scan : Scan.ofText false "false;" = .ofSingle (.keyword .false) "false" 0 := by decide +kernel
    exact readsAs_of_scan scan (parse_literal rfl _ _ _)
  | true =>
    have scan : Scan.ofText false "true;" = .ofSingle (.keyword .true) "true" 0 := by decide +kernel
    exact readsAs_of_scan scan (parse_literal rfl _ _ _)

theorem readsAs_null (next : NodeId) : ReadsAs (Literal.null.text ++ ";") next (.expression (.literal .null)) := by
  have scan : Scan.ofText false "null;" = .ofSingle (.keyword .null) "null" 0 := by decide +kernel
  exact readsAs_of_scan scan (parse_literal rfl _ _ _)

/-- An infinite number is printed as a name. -/
theorem Literal.Overflows.readsAs {v : Literal} (h : v.Overflows) (next : NodeId) :
    ReadsAs (v.text ++ ";") next (.expression (.variable ⟨next, "inf", 0⟩)) := by
  obtain ⟨x, rfl, hx⟩ := h
  have scan : Scan.ofText false "inf;" = .ofSingle .identifier "inf" 0 := by decide +kernel
  rw [Literal.text, Number.treeText_infinite hx]
  exact readsAs_of_scan scan rfl

theorem Literal.Overflows.not_readsAs {v : Literal} (h : v.Overflows) (next : NodeId) :
    ¬ ReadsAs (v.text ++ ";") next (.expression (.literal v)) := by
  intro back
  cases back.unique (h.readsAs next)

/-- Of the literals of a parsed text other than strings, exactly those that overflow are not printed so that they parse
back.

The text is printed with a semicolon behind it. It is scanned and parsed without an error in any case, as one expression
statement: as the same literal, or as the variable `inf` if the literal overflows. -/
theorem printed_literal_parses_back_iff (inComment : Bool) (text : String) (first next : NodeId) (v : Literal)
    (h : v ∈ Stmt.listLiterals (Parse.ofTokens first (Scan.ofText inComment text).tokens).statements)
    (hs : ∀ content, v ≠ .string content) :
    (ReadsAs ((Expr.literal v).render ++ ";") next (.expression (.literal v)) ↔ ¬ v.Overflows) ∧
      (v.Overflows →
        ReadsAs ((Expr.literal v).render ++ ";") next (.expression (.variable ⟨next, "inf", 0⟩))) := by
  have printed : (Expr.literal v).render = v.text := by rw [Expr.render]
  rw [printed]
  refine ⟨⟨fun back large => large.not_readsAs next back, fun fits => ?_⟩, fun large => large.readsAs next⟩
  cases v with
  | number x =>
    have unsigned : Number.Unsigned x := by
      obtain never | ⟨t, ht, hv⟩ := Parse.literal_cases first h
      · cases never
      · refine Scan.unsigned_of_mem ht ?_
        unfold Token.Kind.literal? at hv
        split at hv <;> cases hv
        assumption
    rcases unsigned with infinite | ⟨b, hb, hn⟩
    · exact absurd ⟨x, rfl, infinite⟩ fits
    · exact readsAs_numeral hb hn next
  | bool b => exact readsAs_bool b next
  | null => exact readsAs_null next
  | string content => exact absurd rfl (hs content)

/-- A number that a double holds only nearly, in a list behind a faulty statement. -/
theorem printed_literal_parses_back_list :
    .number 0.1 ∈
        Stmt.listLiterals (Parse.ofTokens 0 (Scan.ofText false "let 1; print [true, 0.10];").tokens).statements ∧
      ReadsAs "0.1;" 7 (.expression (.literal (.number 0.1))) := by
  have present : .number 0.1 ∈
      Stmt.listLiterals (Parse.ofTokens 0 (Scan.ofText false "let 1; print [true, 0.10];").tokens).statements := by
    decide +kernel
  have printed : (Expr.literal (.number 0.1)).render ++ ";" = "0.1;" := by decide +kernel
  have fits : ¬ (Literal.number 0.1).Overflows := by
    rintro ⟨x, he, hx⟩
    cases he
    exact absurd hx (by decide +kernel)
  rw [← printed]
  exact ⟨present, (printed_literal_parses_back_iff false _ 0 7 _ present (by simp)).1.2 fits⟩

/-- One and 309 zeros. -/
def overflowing : List Char := '1' :: List.replicate 309 '0'

/-- The literal is in the tree, but what is printed for it is parsed as something else. -/
theorem overflowing_literal_lost : ∃ v,
    Stmt.listLiterals (Parse.ofTokens 0 (Scan.ofText false (String.ofList overflowing ++ ";")).tokens).statements =
        [v] ∧
      ¬ ReadsAs ((Expr.literal v).render ++ ";") 0 (.expression (.literal v)) := by
  have digits : Of isDigit overflowing := by
    intro c hc
    rcases List.mem_cons.1 hc with rfl | hc
    · rfl
    · rw [List.eq_of_mem_replicate hc]
      rfl
  have numeral : Numeral (String.ofList overflowing).toList (Number.ofDecimal overflowing []) := by
    rw [String.toList_ofList]
    exact .whole (List.cons_ne_nil _ _) digits
  have large : (Literal.number (Number.ofDecimal overflowing [])).Overflows := ⟨_, rfl, by decide +kernel⟩
  obtain ⟨line, scan⟩ := Scan.ofText_numeral numeral
  refine ⟨_, ?_, large.not_readsAs 0⟩
  rw [scan, parse_literal rfl]
  rfl

end Scriptlet
