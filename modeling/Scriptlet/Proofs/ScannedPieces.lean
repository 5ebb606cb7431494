import Scriptlet.Proofs.Cuts

/-!
# What is read off the pieces of a text

Every token and every error belongs to one piece of the only cut of the text. The items come in the order of the
pieces, and each is on the line on which its piece ends.
-/
namespace Scriptlet

/-- What an item says apart from its line: the message of an error, or the kind and the lexeme of a token. -/
def Token.Item.content : Item → Except String (Token.Kind × String)
  | .token t => .ok (t.kind, t.lexeme)
  | .error _ e => .error e.message

def Token.Item.line : Item → Nat
  | .token t => t.line
  | .error line _ => line

namespace Piece

/-- What a piece gives rise to. Blanks and comments leave nothing. -/
def contents (p : Piece) : List (Except String (Token.Kind × String)) :=
  match p.kind with
  | .blank | .comment | .openComment => []
  | .token kind => [.ok (kind, String.ofList p.text)]
  | .stray c => [.error ("Unexpected character: " ++ String.singleton c)]
  | .openString content => [.error "Unterminated string.", .ok (.string content, String.ofList p.text)]

/-- Number of bytes that pieces take up in the text. -/
def byteSize (ps : List Piece) : Nat := ps.foldr (fun p size => (String.ofList p.text).utf8ByteSize + size) 0

theorem byteSize_eq (ps : List Piece) : byteSize ps = (String.ofList (ps.flatMap Piece.text)).utf8ByteSize := by
  unfold byteSize
  induction ps with
  | nil => rfl
  | cons p ps ih => rw [List.foldr_cons, ih, List.flatMap_cons, String.ofList_append, String.utf8ByteSize_append]

/-- A text is cut between whole characters. -/
theorem isValid_cut {inComment : Bool} {text : String} {before after : List Piece}
    (h : IsCut inComment text.toList (before ++ after)) : String.Pos.Raw.IsValid text ⟨byteSize before⟩ := by
  rw [String.Pos.Raw.isValid_iff_exists_append]
  refine ⟨String.ofList (before.flatMap Piece.text), String.ofList (after.flatMap Piece.text), ?_, ?_⟩
  · rw [← String.ofList_append, ← List.flatMap_append, h.whole, String.ofList_toList]
  · rw [byteSize_eq]
    rfl

/-- A piece that is left open is the last one. -/
theorem Stands.rest_eq_nil {inComment : Bool} {p : Piece} {rest : List Char} (h : Stands inComment p rest)
    (hk : p.kind.isOpen = true) : rest = [] := by
  cases h with
  | openComment _ | carriedOpen _ _ | openString _ => rfl
  | _ => cases hk

section IsCut

variable {inComment : Bool} {source : List Char} {pieces : List Piece}

theorem IsCut.text_ne_nil (h : IsCut inComment source pieces) : ∀ p ∈ pieces, p.text ≠ [] := by
  intro p hp
  obtain ⟨before, after, rfl⟩ := List.append_of_mem hp
  exact (h.stands before p after rfl).text_ne_nil

theorem IsCut.last_of_isOpen (h : IsCut inComment source pieces) {before after : List Piece} {p : Piece}
    (he : pieces = before ++ p :: after) (hk : p.kind.isOpen = true) : after = [] := by
  subst he
  have none := (h.stands before p after rfl).rest_eq_nil hk
  refine List.eq_nil_iff_forall_not_mem.2 fun q hq => ?_
  exact h.text_ne_nil q (List.mem_append_right _ (List.mem_cons_of_mem _ hq)) (List.flatMap_eq_nil_iff.1 none q hq)

end IsCut

end Piece

/-! ## Contents and lines of items -/

namespace Token.Item

open Piece

/-- The items of a piece say what the piece gives rise to, all on one line. -/
theorem map_ofPiece (line : Nat) (p : Piece) :
    (ofPiece line p).map (fun item => (item.content, item.line)) = p.contents.map (·, line) := by
  unfold ofPiece contents
  cases p.kind <;> rfl

theorem content_ofPiece (line : Nat) (p : Piece) : (ofPiece line p).map content = p.contents := by
  have both := congrArg (List.map Prod.fst) (map_ofPiece line p)
  simpa [Function.comp_def] using both

theorem content_ofPieces (line : Nat) (ps : List Piece) :
    (ofPieces line ps).map content = ps.flatMap contents ++ [.ok (.endOfInput, "")] := by
  induction ps generalizing line with
  | nil => rfl
  | cons p ps ih =>
    rw [ofPieces, List.map_append, content_ofPiece, ih, List.flatMap_cons, List.append_assoc]

end Token.Item

namespace Scan

open Piece

/-- The scanner accounts for every character.

A text is cut in exactly one way into pieces that stand one after the other: blanks, comments (the first of them may
be the rest of one that is already open), longest lexemes and characters that start nothing else. No piece is empty,
each starts and ends on the boundary of a character, and nothing follows a comment or a string that is left open. The
items say what the pieces give rise to, in their order, and end with the end of the input: nothing for blanks and
comments, a token with the text of the piece for a lexeme, the error that names it for a stray character, and both an
error and a token for a string that is left open. -/
theorem characters_accounted (inComment : Bool) (text : String) :
    ∃ pieces : List Piece, (∀ other, IsCut inComment text.toList other ↔ other = pieces) ∧
      (∀ p ∈ pieces, p.text ≠ []) ∧
      (∀ before after, pieces = before ++ after → String.Pos.Raw.IsValid text ⟨byteSize before⟩) ∧
      (∀ before p after, pieces = before ++ p :: after → p.kind.isOpen = true → after = []) ∧
      (ofText inComment text).items.map Token.Item.content =
        pieces.flatMap contents ++ [.ok (.endOfInput, "")] := by
  have standing : IsCut inComment text.toList (cut inComment text.toList) := isCut_iff.2 rfl
  refine ⟨cut inComment text.toList, fun _ => isCut_iff, standing.text_ne_nil, ?_, ?_, ?_⟩
  · intro before after he
    exact isValid_cut (he ▸ standing)
  · intro before p after he hk
    exact standing.last_of_isOpen he hk
  · exact Token.Item.content_ofPieces 0 _

end Scan

end Scriptlet
