import Scriptlet.Proofs.LikePrograms
import Scriptlet.Proofs.ParserExact
import Scriptlet.Proofs.ScopeInvariant
import Scriptlet.Proofs.Seams

/-!
# Taking up joined texts

If a text has no problems and another one has none on its own, then the two with a line break between them have
none, and the statements of the whole are those of the parts. Whether a text has problems depends neither on what
was run before nor on its lines.
-/
namespace Scriptlet

/-! ## Grammar -/

namespace Grammar

theorem Sequence.append {α : Type} {Item : α → List Token → Prop} {as bs : List α} {ts us : List Token}
    (h : Sequence Item as ts) (h' : Sequence Item bs us) : Sequence Item (as ++ bs) (ts ++ us) := by
  induction h with
  | nil => exact h'
  | cons ha _ ih =>
    rw [List.append_assoc]
    exact .cons ha ih

theorem Builds.append {nearest : Bool} {ss ss' : List Stmt} {ts us : List Token}
    (h : Builds nearest (.declarations ss) ts) (h' : Builds nearest (.declarations ss') us) :
    Builds nearest (.declarations (ss ++ ss')) (ts ++ us) :=
  (h.sequence.append h'.sequence).declarations

end Grammar

theorem Parse.joined {n n' : NodeId} {ts us : List Token} {last last' : Token} (hlast : last.kind = .endOfInput)
    (hts : ∀ t ∈ ts, t.kind ≠ .endOfInput) (hlast' : last'.kind = .endOfInput)
    (hus : ∀ t ∈ us, t.kind ≠ .endOfInput) (h : (Parse.ofTokens n (ts ++ [last])).hadError = false)
    (h' : (Parse.ofTokens n' (us ++ [last'])).hadError = false) :
    (Parse.ofTokens n (ts ++ (us ++ [last']))).hadError = false ∧
      List.Forall₂ (Stmt.Like .lines) (Parse.ofTokens n (ts ++ (us ++ [last']))).statements
        ((Parse.ofTokens n (ts ++ [last])).statements ++ (Parse.ofTokens n' (us ++ [last'])).statements) := by
  have whole := (Parse.derived true hlast hts h).append (Parse.derived true hlast' hus h')
  obtain ⟨sound, bare⟩ : (Parse.ofTokens n (ts ++ us ++ [last'])).hadError = false ∧ _ :=
    Parse.of_derived hlast' whole
  rw [List.append_assoc] at sound bare
  refine ⟨sound, Stmt.like_of_listBare ?_⟩
  rw [Stmt.listBare_eq, Stmt.listBare_eq]
  exact bare

/-! ## Analysis -/

theorem Matching.lines_refl : Matching.lines.Refl := ⟨fun _ => trivial, fun _ => rfl⟩

namespace Analysis

theorem declareAll_nil (ss : List Stmt) : declareAll ss [] = [] := by
  induction ss with
  | nil => rfl
  | cons s ss ih =>
    have outermost : declares s [] = [] := by
      unfold declares
      cases s.declared? <;> rfl
    rw [declareAll, List.foldl_cons, outermost]
    exact ih

/-- Outside of all regions nothing is remembered but the distances. -/
theorem ofStatements_append {D : Distances} {ss : List Stmt} (hs : Stmt.ListShaped ss)
    (hp : (ofStatements D ss).problems = []) (ss' : List Stmt) :
    ofStatements D (ss ++ ss') = ofStatements (ofStatements D ss).distances ss' := by
  have scopes : (ofStatements D ss).scopes = [] :=
    ((visitStmts_effect .outermost ss hs).scopes ⟨[], D, []⟩).trans (declareAll_nil ss)
  have between : ofStatements D ss = ⟨[], (ofStatements D ss).distances, []⟩ :=
    congrArg₂ (fun scopes problems => State.mk scopes (ofStatements D ss).distances problems) scopes hp
  have joined := exec_visitStmts_append .outermost ss ss' ⟨[], D, []⟩
  exact joined.trans (congrArg (exec (visitStmts .outermost ss')) between)

/-- Problems depend neither on identities nor on what is known before. -/
theorem problems_like {c : Matching} {ss ss' : List Stmt} (h : List.Forall₂ (Stmt.Like c) ss ss')
    (D D' : Distances) :
    List.Forall₂ (Located.Like c.line) (ofStatements D ss).problems (ofStatements D' ss').problems := by
  have apart : Apart c fun _ _ => False := fun _ h => h.elim
  exact (ofStatements_like apart h fun h => h.elim).problems

/-- Statements that have no problems apart from each other have none in a row. -/
theorem problems_joined {ss ss' whole : List Stmt} (h : List.Forall₂ (Stmt.Like .lines) whole (ss ++ ss'))
    (hs : Stmt.ListShaped ss) {D D' : Distances} (hp : (ofStatements D ss).problems = [])
    (hp' : (ofStatements D' ss').problems = []) (D'' : Distances) : (ofStatements D'' whole).problems = [] := by
  have parts := problems_like h D'' D
  have second := problems_like (Stmt.list_like_refl Matching.lines_refl ss') (ofStatements D ss).distances D'
  rw [hp', List.forall₂_nil_right_iff] at second
  rw [ofStatements_append hs hp, second, List.forall₂_nil_right_iff] at parts
  exact parts

end Analysis

/-! ## Texts without problems -/

theorem Scan.like_blankLines {p : Pairing} (text : String) :
    (ofText false text).Like p (ofText false (blankLines p.shift ++ text)) where
  tokens := by
    rw [tokens_of_down (items_blankLines p.shift text)]
    apply List.forall₂_map_right_iff.2
    exact List.forall₂_same.2 fun t _ => ⟨rfl, rfl, .inr rfl⟩
  errors := by
    rw [errors_of_down (items_blankLines p.shift text)]
    apply List.forall₂_map_right_iff.2
    exact List.forall₂_same.2 fun e _ => ⟨.inr rfl, rfl⟩
  inComment := inComment_blankLines p.shift text

namespace Machine

/-- The text has no problems. -/
structure Accepts (m : Machine) (inComment : Bool) (text : String) : Prop where
  sound : (m.load inComment text).1.isSound = true
  analysed : ((m.load inComment text).2.analyse (m.load inComment text).1.statements).1 = true

variable {m m' : Machine} {c c' : Bool} {text text' : String}

theorem isSound_iff : (m.load c text).1.isSound = true ↔ (Scan.ofText c text).errors = [] ∧
    (Parse.ofTokens m.nextNode (Scan.ofText c text).tokens).hadError = false := by
  change (!(Scan.ofText c text).hadError &&
    !(Parse.ofTokens m.nextNode (Scan.ofText c text).tokens).hadError) = true ↔ _
  rw [Scan.hadError, Bool.not_not, Bool.and_eq_true, List.isEmpty_iff, Bool.not_eq_true']

/-- Texts with like tokens have problems alike, whatever was run before. -/
theorem Accepts.of_like {p : Pairing} (h : m.Accepts c text)
    (hs : (Scan.ofText c text).Like p (Scan.ofText c' text')) (hn : p.Fresh m.nextNode m'.nextNode) :
    m'.Accepts c' text' := by
  have parse := Parse.ofTokens_like hs.tokens hn
  obtain ⟨errors, parsed⟩ := isSound_iff.1 h.sound
  constructor
  · have errors' := hs.errors
    rw [errors] at errors'
    exact isSound_iff.2 ⟨List.forall₂_nil_left_iff.1 errors', parse.hadError.trans parsed⟩
  · have problems := Analysis.problems_like parse.statements (m.load c text).2.distances (m'.load c' text').2.distances
    exact (isEmpty_eq_of_forall₂ problems).trans h.analysed

/-- Blank lines in front of a text make no difference to whether it has problems. -/
theorem Accepts.blankLines (h : m.Accepts false text) (m' : Machine) (k : Nat) :
    m'.Accepts false (Scan.blankLines k ++ text) := by
  let p : Pairing := ⟨m.nextNode, m'.nextNode, fun _ _ => False, k⟩
  exact h.of_like (p := p) (Scan.like_blankLines text) ⟨0, rfl, rfl⟩

section Joined

variable {first second : String} (h : m.Accepts c first) (hc : (m.load c first).1.inComment = false)
  (h' : m'.Accepts false (Scan.blankLines (Scan.lineBreaks first + 1) ++ second))

include h hc h'

theorem parse_joined :
    (Parse.ofTokens m.nextNode (Scan.ofText c (first ++ "\n" ++ second)).tokens).hadError = false ∧
      List.Forall₂ (Stmt.Like .lines) (m.load c (first ++ "\n" ++ second)).1.statements
        ((m.load c first).1.statements ++
          (m'.load false (Scan.blankLines (Scan.lineBreaks first + 1) ++ second)).1.statements) := by
  obtain ⟨errors, parsed⟩ := isSound_iff.1 h.sound
  obtain ⟨-, parsed'⟩ := isSound_iff.1 h'.sound
  rw [Scan.tokens_eq] at parsed parsed'
  have joined := Parse.joined rfl (Scan.body_ne_end c first) rfl (Scan.body_ne_end _ _) parsed parsed'
  rwa [← Scan.tokens_eq, ← Scan.tokens_eq, ← Scan.tokens_joined errors hc] at joined

/-- Joined texts have no problems if the parts have none. -/
theorem Accepts.joined : m.Accepts c (first ++ "\n" ++ second) := by
  obtain ⟨errors, -⟩ := isSound_iff.1 h.sound
  obtain ⟨errors', -⟩ := isSound_iff.1 h'.sound
  obtain ⟨parsed, statements⟩ := parse_joined h hc h'
  constructor
  · exact isSound_iff.2 ⟨(Scan.errors_joined errors hc second).trans errors', parsed⟩
  · have problems := Analysis.problems_joined statements (m.load_takes c first).1.shaped
      (List.isEmpty_iff.1 h.analysed) (List.isEmpty_iff.1 h'.analysed)
    exact List.isEmpty_iff.2 (problems _)

end Joined

end Machine

end Scriptlet
