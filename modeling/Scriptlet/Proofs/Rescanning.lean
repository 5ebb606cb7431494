import Scriptlet.Proofs.Derivations
import Scriptlet.Proofs.ScannedPieces
import Scriptlet.Proofs.Seams

/-!
# Scanning lexemes again

No lexeme is recognised by what stands around it, and none but a string has a blank in it. So lexemes that are
written down with single spaces between them are scanned as the tokens that they came from.
-/
namespace Scriptlet

namespace Piece

/-! ## Lexemes on their own -/

theorem Longest.alone {P : List Char → Prop} {text rest : List Char} (h : Longest P text rest) :
    Longest P text [] := by
  constructor
  · exact h.holds
  · intro more hne hpre
    exact absurd (List.prefix_nil.1 hpre) hne

/-- The lexeme of a token is one whatever it is taken from. -/
theorem Stands.alone {inComment : Bool} {p : Piece} {rest : List Char} {kind : Token.Kind}
    (h : Stands inComment p rest) (hk : p.kind = .token kind) : Stands false p [] := by
  cases h with
  | symbol hs h => exact .symbol hs h.alone
  | keyword hw h => exact .keyword hw h.alone
  | identifier hw h => exact .identifier hw h.alone
  | number hv h => exact .number hv h.alone
  | string h => exact .string h
  | _ => cases hk

theorem contents_of_token {p : Piece} {kind : Token.Kind} (hk : p.kind = .token kind) :
    p.contents = [.ok (kind, String.ofList p.text)] := by
  simp [contents, hk]

/-- Only tokens give rise to something without an error. -/
theorem kind_of_contents {p : Piece} (he : ∀ message, .error message ∉ p.contents) (hne : p.contents ≠ []) :
    ∃ kind, p.kind = .token kind := by
  unfold contents at he hne
  cases hk : p.kind with
  | token kind => exact ⟨kind, rfl⟩
  | stray c => simp [hk] at he
  | openString content => simp [hk] at he
  | _ => simp [hk] at hne

/-- The pieces of a text that have items. Where there are no errors, these are its tokens. -/
def tokenPieces (pieces : List Piece) : List Piece := pieces.filter fun p => !p.contents.isEmpty

theorem contents_tokenPieces (pieces : List Piece) :
    (tokenPieces pieces).flatMap contents = pieces.flatMap contents := by
  unfold tokenPieces
  induction pieces with
  | nil => rfl
  | cons p ps ih =>
    by_cases hp : p.contents = []
    · simp [hp, ih]
    · simp [hp, ih]

theorem token_of_mem_tokenPieces {inComment : Bool} {source : List Char} {p : Piece}
    (he : ∀ message, .error message ∉ (cut inComment source).flatMap contents)
    (hp : p ∈ tokenPieces (cut inComment source)) : Stands false p [] ∧ ∃ kind, p.kind = .token kind := by
  obtain ⟨hmem, hne⟩ := List.mem_filter.1 hp
  have silent : ∀ message, .error message ∉ p.contents :=
    fun message hm => he message (List.mem_flatMap_of_mem hmem hm)
  obtain ⟨kind, hk⟩ := kind_of_contents silent (by simpa using hne)
  obtain ⟨_, _, standing⟩ := stands_of_mem_cut hmem
  exact ⟨standing.alone hk, kind, hk⟩

end Piece

namespace Scan

open Piece Token.Item

/-! ## What items say -/

theorem hadError_eq_false_iff {s : Scan} :
    s.hadError = false ↔ ∀ message, .error message ∉ s.items.map content := by
  unfold hadError errors
  rw [Bool.not_eq_false', List.isEmpty_iff, List.filterMap_eq_nil_iff]
  constructor
  · intro h message hmem
    obtain ⟨item, hitem, hc⟩ := List.mem_map.1 hmem
    cases item with
    | token t => cases hc
    | error line e => cases h _ hitem
  · intro h item hitem
    cases item with
    | token t => rfl
    | error line e => exact absurd (List.mem_map_of_mem hitem) (h e.message)

theorem map_tokens (s : Scan) : s.tokens.map (fun t => (t.kind, t.lexeme)) =
    (s.items.map content).filterMap Except.toOption := by
  unfold tokens
  rw [List.map_filterMap, List.filterMap_map]
  congr
  funext item
  cases item <;> rfl

/-- Scans that say the same have the same tokens but for their lines. -/
theorem tokens_of_content {s s' : Scan} (h : s.items.map content = s'.items.map content) :
    s.tokens.map (fun t => (t.kind, t.literal?, t.lexeme)) =
      s'.tokens.map (fun t => (t.kind, t.literal?, t.lexeme)) := by
  have kinds : s.tokens.map (fun t => (t.kind, t.lexeme)) = s'.tokens.map (fun t => (t.kind, t.lexeme)) := by
    rw [map_tokens, h, ← map_tokens]
  -- The literal of a token is part of its kind.
  have literals := congrArg (List.map fun q => (q.1, Token.literal? ⟨q.1, q.2, 0⟩, q.2)) kinds
  rw [List.map_map, List.map_map] at literals
  exact literals

/-- The tokens before the end of the input. -/
theorem filter_tokens (inComment : Bool) (text : String) :
    (ofText inComment text).tokens.filter (!·.isEnd) = body inComment text := by
  have others : ∀ t ∈ body inComment text, (!t.isEnd) = true := by
    intro t ht
    rw [Bool.not_eq_true', Bool.eq_false_iff, Ne, Token.isEnd_iff]
    exact body_ne_end inComment text t ht
  rw [tokens_eq, List.filter_append, List.filter_eq_self.2 others]
  exact List.append_nil _

theorem content_front (inComment : Bool) (text : String) :
    (front inComment text).map content = (cut inComment text.toList).flatMap contents := by
  have items := content_ofPieces 0 (cut inComment text.toList)
  change (ofText inComment text).items.map content = _ at items
  rw [items_eq, List.map_append] at items
  exact List.append_cancel_right items

/-! ## Written lexemes -/

/-- The scan ends outside comments, and this is what its items say before the end of the input. -/
structure Shows (s : Scan) (said : List (Except String (Token.Kind × String))) : Prop where
  items : s.items.map content = said ++ [.ok (.endOfInput, "")]
  closed : s.inComment = false

theorem shows_nil (line : Nat) : Shows (fromLine line false []) [] := by
  constructor
  · simp [fromLine, ofPieces, content, Token.endOfInput]
  · simp [fromLine, endsInComment]

theorem Shows.after {s : Scan} {said : List (Except String (Token.Kind × String))} (h : Shows s said) (line : Nat)
    (p : Piece) : Shows (s.after (ofPiece line p)) (p.contents ++ said) := by
  constructor
  · simp [Scan.after, content_ofPiece, h.items]
  · exact h.closed

section Written

variable {ps : List Piece} (h : ∀ p ∈ ps, Stands false p [] ∧ ∃ kind, p.kind = .token kind)

include h

theorem lexemes_of_contents :
    ((ps.flatMap contents).filterMap Except.toOption).map Prod.snd = ps.map fun p => String.ofList p.text := by
  induction ps with
  | nil => rfl
  | cons p ps ih =>
    obtain ⟨⟨-, kind, hk⟩, hps⟩ := List.forall_mem_cons.1 h
    simp [contents_of_token hk, Except.toOption, ih hps]

/-- Tokens that are written with spaces between them are scanned one by one. -/
theorem shows_written (line : Nat) :
    Shows (fromLine line false ([' '].intercalate (ps.map Piece.text))) (ps.flatMap contents) := by
  induction ps generalizing line with
  | nil => exact shows_nil line
  | cons p ps ih =>
    obtain ⟨⟨standing, kind, hk⟩, hps⟩ := List.forall_mem_cons.1 h
    have closed : p.kind ≠ .openComment := by simp [hk]
    cases ps with
    | nil =>
      have scanned := fromLine_of_stands standing closed line
      rw [List.append_nil] at scanned
      rw [List.map_singleton, List.intercalate_singleton, scanned]
      exact (shows_nil _).after _ p
    | cons q qs =>
      rw [List.map_cons, List.map_cons, List.intercalate_cons_cons, ← List.map_cons, List.append_assoc]
      generalize written : [' '].intercalate ((q :: qs).map Piece.text) = others at ih
      have space : Stands false ⟨.blank, [' ']⟩ others := .blank (by decide)
      have spaced : Stands false p ([' '] ++ others) :=
        standing.before (by simp [hk, Kind.isOpen]) (by decide) (by simp [hk]) others
      rw [fromLine_of_stands spaced closed, fromLine_of_stands space (by simp)]
      exact ((ih hps _).after _ ⟨.blank, [' ']⟩).after _ p

end Written

section Rescan

variable {inComment : Bool} {text : String}

theorem content_items (inComment : Bool) (text : String) : (ofText inComment text).items.map content =
    (tokenPieces (cut inComment text.toList)).flatMap contents ++ [.ok (.endOfInput, "")] := by
  rw [contents_tokenPieces]
  exact content_ofPieces 0 _

variable (h : (ofText inComment text).hadError = false)

include h

theorem tokenPieces_stand : ∀ p ∈ tokenPieces (cut inComment text.toList),
    Stands false p [] ∧ ∃ kind, p.kind = .token kind := by
  intro p hp
  refine token_of_mem_tokenPieces (fun message hmem => hadError_eq_false_iff.1 h message ?_) hp
  rw [content_items, contents_tokenPieces]
  exact List.mem_append_left _ hmem

/-- The lexemes of the tokens are the texts of the pieces that are tokens. -/
theorem lexemes_eq : ((ofText inComment text).tokens.filter (!·.isEnd)).map Token.lexeme =
    (tokenPieces (cut inComment text.toList)).map fun p => String.ofList p.text := by
  have both := congrArg (List.map Prod.snd) (map_tokens ⟨front inComment text, inComment⟩)
  rw [content_front, ← contents_tokenPieces, lexemes_of_contents (tokenPieces_stand h), List.map_map] at both
  rw [filter_tokens]
  exact both

theorem shows_lexemes :
    Shows (ofText false (" ".intercalate (((ofText inComment text).tokens.filter (!·.isEnd)).map Token.lexeme)))
      ((tokenPieces (cut inComment text.toList)).flatMap contents) := by
  have written := shows_written (tokenPieces_stand h) 0
  have characters : [' '].intercalate ((tokenPieces (cut inComment text.toList)).map Piece.text) =
      (" ".intercalate (((ofText inComment text).tokens.filter (!·.isEnd)).map Token.lexeme)).toList := by
    rw [lexemes_eq h, String.toList_intercalate, List.map_map]
    simp [Function.comp_def]
  rw [characters] at written
  exact written

end Rescan

/-- Scanning lexemes again gives back the tokens.

If a text is scanned without errors, in or out of a comment, then its lexemes, written with single spaces between
them, are scanned without errors, out of comments at both ends, as tokens of the same kinds with the same literals and
lexemes. -/
theorem lexemes_rescanned (inComment : Bool) (text : String) (h : (ofText inComment text).hadError = false) :
    let tokens := (ofText inComment text).tokens
    let again := ofText false (" ".intercalate ((tokens.filter (!·.isEnd)).map Token.lexeme))
    again.hadError = false ∧ again.inComment = false ∧
      again.tokens.map (fun t => (t.kind, t.literal?, t.lexeme)) =
        tokens.map (fun t => (t.kind, t.literal?, t.lexeme)) := by
  intro tokens again
  have shown := shows_lexemes h
  have same : again.items.map content = (ofText inComment text).items.map content :=
    shown.items.trans (content_items inComment text).symm
  refine ⟨?_, shown.closed, tokens_of_content same⟩
  rw [hadError_eq_false_iff, same]
  exact hadError_eq_false_iff.1 h

/-- A string over two lines with the starts of comments in it, and a point after a fraction, out of a comment. -/
theorem lexemes_rescanned_string :
    (ofText true "*/a<=\"// \n/*\"/1.5.b/*c*/<<//d").hadError = false ∧
      (ofText false "a <= \"// \n/*\" / 1.5 . b <<").tokens.map (fun t => (t.kind, t.literal?, t.lexeme)) =
        (ofText true "*/a<=\"// \n/*\"/1.5.b/*c*/<<//d").tokens.map (fun t => (t.kind, t.literal?, t.lexeme)) := by
  have sound : (ofText true "*/a<=\"// \n/*\"/1.5.b/*c*/<<//d").hadError = false := by decide +kernel
  have written : " ".intercalate (((ofText true "*/a<=\"// \n/*\"/1.5.b/*c*/<<//d").tokens.filter
      (!·.isEnd)).map Token.lexeme) = "a <= \"// \n/*\" / 1.5 . b <<" := by decide +kernel
  have again := (lexemes_rescanned true "*/a<=\"// \n/*\"/1.5.b/*c*/<<//d" sound).2.2
  rw [written] at again
  exact ⟨sound, again⟩

end Scan

end Scriptlet
