import Scriptlet.Proofs.Cuts

/-!
# Texts joined by a line break

No piece of a text reaches over a line break unless it is a comment or a string that is left open. A comment that is
left open goes on at the start of the next line, whether it was opened in the text or before it. So the pieces of the
text that follows on the next line come after those of the text itself, but for the comment between them, which has no
items.
-/
namespace Scriptlet

namespace Piece

/-- A line break. -/
def lineBreak : Piece := ⟨.blank, ['\n']⟩

theorem cutPlain_newline (cs : List Char) : cutPlain ('\n' :: cs) = lineBreak :: cutPlain cs := by
  rw [cutPlain]
  rfl

/-! ## Comments that go on -/

/-- The text is the start of a block comment, up to the end of its line. -/
inductive LeavesOpen : Bool → List Char → Prop
  | carried {cs : List Char} (h : Unclosed cs) : LeavesOpen true cs
  | opened {cs : List Char} (h : Unclosed cs) : LeavesOpen false ('/' :: '*' :: cs)

/-- The end of a comment is not spread over two lines. -/
theorem Unclosed.joined {cs more : List Char} (h : Unclosed cs) (h' : Unclosed more) :
    Unclosed (cs ++ '\n' :: more) := by
  unfold Unclosed at h h' ⊢
  induction cs with
  | nil =>
    rw [List.nil_append, List.infix_cons_iff, not_or]
    exact ⟨by simp, h'⟩
  | cons c cs ih =>
    rw [List.infix_cons_iff, not_or] at h
    rw [List.cons_append, List.infix_cons_iff, not_or]
    refine ⟨fun start => h.1 ?_, ih h.2⟩
    cases cs with
    | nil => simp at start
    | cons d cs => simpa using start

theorem Unclosed.closes {cs more : List Char} (h : Unclosed cs) (h' : Closes more) :
    Closes (cs ++ '\n' :: more) := by
  constructor
  · exact h'.closed.trans ((List.suffix_cons _ _).trans (List.suffix_append _ _))
  · rw [List.dropLast_append_of_ne_nil (List.cons_ne_nil _ _), List.dropLast_cons_of_ne_nil h'.ne_nil]
    exact h.joined h'.first

theorem Stands.leavesOpen {inComment : Bool} {p : Piece} {rest : List Char} (h : Stands inComment p rest)
    (hk : p.kind = .openComment) : LeavesOpen inComment p.text ∧ rest = [] := by
  cases h with
  | openComment h => exact ⟨.opened h, rfl⟩
  | carriedOpen _ h => exact ⟨.carried h, rfl⟩
  | _ => cases hk

section LeavesOpen

variable {inComment : Bool} {cs : List Char} (h : LeavesOpen inComment cs)

include h

/-- The rest of the comment on the next lines belongs to it. -/
theorem LeavesOpen.goes_on {k : Kind} {more rest : List Char} (h' : Stands true ⟨k, more⟩ rest) :
    Stands inComment ⟨k, cs ++ '\n' :: more⟩ rest := by
  cases h with
  | carried h =>
    cases h' with
    | carriedComment h' => exact .carriedComment (h.closes h')
    | carriedOpen _ h' => exact .carriedOpen (by simp) (h.joined h')
  | opened h =>
    cases h' with
    | carriedComment h' => exact .blockComment (h.closes h')
    | carriedOpen _ h' => exact .openComment (h.joined h')

theorem LeavesOpen.stays_open : Stands inComment ⟨.openComment, cs ++ ['\n']⟩ [] := by
  cases h with
  | carried h => exact .carriedOpen (by simp) (h.joined unclosed_nil)
  | opened h => exact .openComment (h.joined unclosed_nil)

end LeavesOpen

end Piece

namespace Scan

open Piece

theorem endsInComment_cons (inComment : Bool) (p : Piece) (ps : List Piece) :
    endsInComment inComment (p :: ps) = endsInComment (p.kind == .openComment) ps := by
  unfold endsInComment
  rw [List.getLast?_cons]
  cases ps.getLast? <;> rfl

theorem endsInComment_append (inComment : Bool) (ps qs : List Piece) :
    endsInComment inComment (ps ++ qs) = endsInComment (endsInComment inComment ps) qs := by
  induction ps generalizing inComment with
  | nil => rfl
  | cons p ps ih => rw [List.cons_append, endsInComment_cons, ih, endsInComment_cons]

end Scan

/-! ## The items of joined texts -/

/-- The token, some lines further down. -/
def Token.down (k : Nat) (t : Token) : Token := { t with line := t.line + k }

namespace Token.Item

/-- The items of consecutive pieces without the end of the input. -/
def inPieces (line : Nat) : List Piece → List Item
  | [] => []
  | p :: ps => ofPiece (line + Piece.newlines p.text) p ++ inPieces (line + Piece.newlines p.text) ps

theorem ofPieces_append (line : Nat) (ps qs : List Piece) :
    ofPieces line (ps ++ qs) = inPieces line ps ++ ofPieces (line + Piece.newlines (ps.flatMap Piece.text)) qs := by
  induction ps generalizing line with
  | nil => rfl
  | cons p ps ih =>
    have counted : Piece.newlines ((p :: ps).flatMap Piece.text) =
        Piece.newlines p.text + Piece.newlines (ps.flatMap Piece.text) := List.count_append
    rw [List.cons_append, ofPieces, ih, inPieces, counted, List.append_assoc, Nat.add_assoc]

/-- The item, some lines further down. -/
def down (k : Nat) : Item → Item
  | .token t => .token (t.down k)
  | .error line e => .error (line + k) e

theorem ofPiece_add (k line : Nat) (p : Piece) : ofPiece (line + k) p = (ofPiece line p).map (down k) := by
  unfold ofPiece
  cases p.kind <;> rfl

theorem ofPieces_add (k line : Nat) (ps : List Piece) :
    ofPieces (line + k) ps = (ofPieces line ps).map (down k) := by
  induction ps generalizing line with
  | nil => rfl
  | cons p ps ih =>
    rw [ofPieces, ofPieces, List.map_append, ← ofPiece_add, ← ih, Nat.add_right_comm]

theorem ne_end_of_mem_inPieces {ps : List Piece} (h : ∀ p ∈ ps, p.kind ≠ .token .endOfInput) {line : Nat}
    {t : Token} (ht : .token t ∈ inPieces line ps) : t.kind ≠ .endOfInput := by
  induction ps generalizing line with
  | nil => cases ht
  | cons p ps ih =>
    rcases List.mem_append.1 ht with ht | ht
    · unfold ofPiece at ht
      split at ht
      iterate 3 cases ht
      · next kind hk =>
        cases List.mem_singleton.1 ht
        rintro rfl
        exact h p (List.mem_cons_self ..) hk
      · cases List.mem_singleton.1 ht
      · cases ht with
        | tail _ ht =>
          cases List.mem_singleton.1 ht
          exact nofun
    · exact ih (fun p hp => h p (List.mem_cons_of_mem _ hp)) ht

theorem mem_ofPieces_of_openString {ps : List Piece} {p : Piece} (hp : p ∈ ps) {content : String}
    (hk : p.kind = .openString content) (line : Nat) :
    ∃ line', .error line' .unterminatedString ∈ ofPieces line ps := by
  induction ps generalizing line with
  | nil => cases hp
  | cons q ps ih =>
    rcases List.mem_cons.1 hp with rfl | hp
    · refine ⟨line + Piece.newlines p.text, List.mem_append_left _ ?_⟩
      rw [ofPiece, hk]
      exact List.mem_cons_self ..
    · obtain ⟨line', hmem⟩ := ih hp (line + Piece.newlines q.text)
      exact ⟨line', List.mem_append_right _ hmem⟩

end Token.Item

namespace Scan

open Piece

/-- Number of line breaks in a text. -/
def lineBreaks (text : String) : Nat := newlines text.toList

/-- The items of a text without the end of the input. -/
def front (inComment : Bool) (text : String) : List Token.Item :=
  Token.Item.inPieces 0 (cut inComment text.toList)

theorem items_eq (inComment : Bool) (text : String) : (ofText inComment text).items =
    front inComment text ++ [.token (Token.endOfInput (lineBreaks text))] := by
  have joined := Token.Item.ofPieces_append 0 (cut inComment text.toList) []
  rw [List.append_nil, flatMap_cut, Nat.zero_add] at joined
  exact joined

/-- Where a text has no unterminated string, none of its pieces is one. -/
theorem ne_openString {inComment : Bool} {text : String}
    (h : ∀ line, (line, .unterminatedString) ∉ (ofText inComment text).errors) :
    ∀ p ∈ cut inComment text.toList, ∀ content, p.kind ≠ .openString content := by
  intro p hp content hk
  obtain ⟨line, hmem⟩ := Token.Item.mem_ofPieces_of_openString hp hk 0
  exact h line (List.mem_filterMap.2 ⟨_, hmem, rfl⟩)

/-! ## Scans of joined texts -/

/-- The outcome of scanning a text whose first line has the given number. -/
def fromLine (line : Nat) (inComment : Bool) (cs : List Char) : Scan :=
  ⟨Token.Item.ofPieces line (cut inComment cs), endsInComment inComment (cut inComment cs)⟩

/-- The scan with items in front of its own. -/
def after (items : List Token.Item) (s : Scan) : Scan := { s with items := items ++ s.items }

theorem after_after (items items' : List Token.Item) (s : Scan) :
    (s.after items').after items = s.after (items ++ items') := by
  simp [after, List.append_assoc]

theorem fromLine_add (k : Nat) (inComment : Bool) (cs : List Char) : fromLine k inComment cs =
    ⟨(fromLine 0 inComment cs).items.map (Token.Item.down k), (fromLine 0 inComment cs).inComment⟩ := by
  have lines := Token.Item.ofPieces_add k 0 (cut inComment cs)
  rw [Nat.zero_add] at lines
  unfold fromLine
  rw [lines]

section Seam

variable {inComment : Bool} {cs : List Char}

theorem fromLine_of_stands {p : Piece} {rest : List Char} (h : Stands inComment p rest)
    (hk : p.kind ≠ .openComment) (line : Nat) : fromLine line inComment (p.text ++ rest) =
      (fromLine (line + newlines p.text) false rest).after
        (Token.Item.ofPiece (line + newlines p.text) p) := by
  unfold fromLine after
  rw [h.cut_eq, endsInComment_cons, beq_eq_false_iff_ne.2 hk]
  rfl

/-- It makes no difference whether a comment that goes on was opened in the text or is carried into it. -/
theorem fromLine_of_leavesOpen (h : LeavesOpen inComment cs) (line : Nat) (rest : List Char) :
    fromLine line inComment (cs ++ '\n' :: rest) = fromLine (line + newlines cs + 1) true rest := by
  unfold fromLine
  by_cases hne : rest = []
  · have counted : newlines (cs ++ ['\n']) = newlines cs + 1 := by simp [newlines]
    have pieces := h.stays_open.cut_eq
    rw [List.append_nil] at pieces
    subst hne
    rw [pieces, endsInComment_cons, Nat.add_assoc, ← counted]
    rfl
  · obtain ⟨⟨k, more⟩, rest, rfl, hs⟩ := starts true hne
    have counted : newlines (cs ++ '\n' :: more) = newlines cs + 1 + newlines more := by
      simp [newlines]
      omega
    have joined := (h.goes_on hs).cut_eq
    rw [List.append_assoc, List.cons_append] at joined
    rw [joined, hs.cut_eq, endsInComment_cons, endsInComment_cons, Token.Item.ofPieces, Token.Item.ofPieces]
    have silent (line : Nat) (text : List Char) : Token.Item.ofPiece line ⟨k, text⟩ = [] := by
      cases hs <;> rfl
    rw [silent, silent, counted, Nat.add_assoc line, Nat.add_assoc line]

/-- The text after a line break is scanned as what follows there, in or out of a comment. -/
theorem fromLine_seam {ps : List Piece} (h : IsCut inComment cs ps)
    (hs : ∀ p ∈ ps, ∀ content, p.kind ≠ .openString content) (line : Nat) (rest : List Char) :
    fromLine line inComment (cs ++ '\n' :: rest) =
      (fromLine (line + newlines cs + 1) (endsInComment inComment ps) rest).after
        (Token.Item.inPieces line ps) := by
  induction ps generalizing inComment cs line with
  | nil =>
    cases isCut_nil.1 h
    cases inComment with
    | true => exact fromLine_of_leavesOpen (.carried unclosed_nil) line rest
    | false => exact fromLine_of_stands (p := lineBreak) (.blank (by decide)) nofun line
  | cons p ps ih =>
    obtain ⟨between, rfl, hp, hps⟩ := isCut_cons.1 h
    by_cases hk : p.kind = .openComment
    · obtain ⟨opened, rfl⟩ := hp.leavesOpen hk
      obtain rfl : ps = [] := by rw [← hps.cut_eq, cut_nil]
      have silent : Token.Item.inPieces line [p] = [] := by simp [Token.Item.inPieces, Token.Item.ofPiece, hk]
      rw [List.append_nil, fromLine_of_leavesOpen opened, endsInComment_cons, hk, silent]
      rfl
    · have closed : p.kind.isOpen = false := by
        cases hkind : p.kind with
        | openComment => exact absurd hkind hk
        | openString content => exact absurd hkind (hs p List.mem_cons_self content)
        | _ => rfl
      have joined := hp.before closed (show '\n' ∈ blanks by decide) (fun _ => rfl) rest
      have counted : newlines (p.text ++ between) = newlines p.text + newlines between := List.count_append
      rw [List.append_assoc, fromLine_of_stands joined hk, ih hps fun q hq => hs q (List.mem_cons_of_mem _ hq),
        after_after, endsInComment_cons, beq_eq_false_iff_ne.2 hk, counted, Nat.add_assoc line]
      rfl

end Seam

/-- The text on the lines after a text without unterminated strings is scanned as if it stood alone, in a comment if
the first text leaves one open, with its lines counted on. -/
theorem ofText_joined {inComment : Bool} {text : String}
    (h : ∀ line, (line, .unterminatedString) ∉ (ofText inComment text).errors) (more : String) :
    ofText inComment (text ++ "\n" ++ more) =
      ⟨front inComment text ++ (ofText (ofText inComment text).inComment more).items.map
          (Token.Item.down (lineBreaks text + 1)),
        (ofText (ofText inComment text).inComment more).inComment⟩ := by
  have characters : (text ++ "\n" ++ more).toList = text.toList ++ '\n' :: more.toList := by
    simp
  have joined := fromLine_seam (isCut_cut inComment text.toList) (ne_openString h) 0 more.toList
  rw [Nat.zero_add, fromLine_add (newlines text.toList + 1), ← characters] at joined
  exact joined

/-- Carrying an open comment over to the next text is the same as scanning the joined texts.

The items of two texts with a line break between them are those of the first without its end of the input, and then
those of the second, scanned in a comment if the first ends in one, with as many lines added as the first has. The
joined texts end in a comment if the second, scanned so, does. Errors and stray characters in the first text make no
difference; only a string that is left open would take in the next line. -/
theorem open_comment_carried (inComment : Bool) (text more : String)
    (h : ∀ line, (line, .unterminatedString) ∉ (ofText inComment text).errors) :
    let first := ofText inComment text
    let second := ofText first.inComment more
    let joined := ofText inComment (text ++ "\n" ++ more)
    first.items.getLast? = some (.token (Token.endOfInput (text.toList.count '\n'))) ∧
      joined.items = first.items.dropLast ++ second.items.map (Token.Item.down (text.toList.count '\n' + 1)) ∧
      joined.inComment = second.inComment := by
  dsimp only
  rw [ofText_joined h, items_eq, List.dropLast_concat, List.getLast?_concat]
  exact ⟨rfl, rfl, rfl⟩

/-- A comment that is opened in the middle of a line, after an error, and closed on the next but one. -/
theorem open_comment_carried_error :
    (ofText false "a @ /* b\n*").errors = [(0, .unexpected '@')] ∧
      (ofText false ("a @ /* b\n*" ++ "\n" ++ "/ c */ d")).items =
        [.token ⟨.identifier, "a", 0⟩, .error 0 (.unexpected '@'), .token ⟨.identifier, "d", 2⟩,
          .token (Token.endOfInput 2)] := by
  have errors : (ofText false "a @ /* b\n*").errors = [(0, .unexpected '@')] := by decide +kernel
  have carried := (open_comment_carried false "a @ /* b\n*" "/ c */ d" (by simp [errors])).2.1
  exact ⟨errors, carried.trans (by decide +kernel)⟩

section Closed

variable {inComment : Bool} {text : String} (he : (ofText inComment text).errors = [])
  (hc : (ofText inComment text).inComment = false) (more : String)

include he hc

theorem ofText_joined_closed : ofText inComment (text ++ "\n" ++ more) =
    ⟨front inComment text ++ (ofText false more).items.map (Token.Item.down (lineBreaks text + 1)),
      (ofText false more).inComment⟩ := by
  rw [ofText_joined (by simp [he]), hc]

theorem items_joined : (ofText inComment (text ++ "\n" ++ more)).items = front inComment text ++
    (ofText false more).items.map (Token.Item.down (lineBreaks text + 1)) := by
  rw [ofText_joined_closed he hc]

theorem inComment_joined :
    (ofText inComment (text ++ "\n" ++ more)).inComment = (ofText false more).inComment := by
  rw [ofText_joined_closed he hc]

end Closed

/-- Some blank lines. -/
def blankLines (k : Nat) : String := String.ofList (List.replicate k '\n')

theorem pieces_blankLines (k : Nat) (text : String) :
    cutPlain (blankLines k ++ text).toList = List.replicate k lineBreak ++ cutPlain text.toList := by
  rw [String.toList_append, blankLines, String.toList_ofList]
  induction k with
  | zero => rfl
  | succ k ih => rw [List.replicate_succ, List.cons_append, cutPlain_newline, ih, List.replicate_succ, List.cons_append]

theorem items_blankLines (k : Nat) (text : String) :
    (ofText false (blankLines k ++ text)).items = (ofText false text).items.map (Token.Item.down k) := by
  have lines (line : Nat) : Token.Item.ofPieces line (List.replicate k lineBreak ++ cutPlain text.toList) =
      Token.Item.ofPieces (line + k) (cutPlain text.toList) := by
    induction k generalizing line with
    | zero => rfl
    | succ k ih =>
      have moved := ih (line + 1)
      rw [Nat.add_right_comm] at moved
      exact moved
  change Token.Item.ofPieces 0 (cutPlain (blankLines k ++ text).toList) = _
  rw [pieces_blankLines, lines, Token.Item.ofPieces_add]
  rfl

theorem inComment_blankLines (k : Nat) (text : String) :
    (ofText false (blankLines k ++ text)).inComment = (ofText false text).inComment := by
  have blanks : endsInComment false (List.replicate k lineBreak) = false := by
    induction k with
    | zero => rfl
    | succ k ih =>
      rw [List.replicate_succ, endsInComment_cons]
      exact ih
  change endsInComment false (cutPlain (blankLines k ++ text).toList) = _
  rw [pieces_blankLines, endsInComment_append, blanks]
  rfl

/-! ## Tokens and errors -/

/-- The tokens of a text without the end of the input. -/
def body (inComment : Bool) (text : String) : List Token := tokens ⟨front inComment text, inComment⟩

theorem tokens_eq (inComment : Bool) (text : String) :
    (ofText inComment text).tokens = body inComment text ++ [Token.endOfInput (lineBreaks text)] := by
  unfold tokens
  rw [items_eq, List.filterMap_append]
  rfl

theorem tokens_of_down {k : Nat} {s s' : Scan} (h : s'.items = s.items.map (Token.Item.down k)) :
    s'.tokens = s.tokens.map (Token.down k) := by
  unfold tokens
  rw [h, List.filterMap_map, List.map_filterMap]
  congr
  funext item
  cases item <;> rfl

theorem errors_of_down {k : Nat} {s s' : Scan} (h : s'.items = s.items.map (Token.Item.down k)) :
    s'.errors = s.errors.map fun e => (e.1 + k, e.2) := by
  unfold errors
  rw [h, List.filterMap_map, List.map_filterMap]
  congr
  funext item
  cases item <;> rfl

section Joined

variable {inComment : Bool} {text : String} (he : (ofText inComment text).errors = [])
  (hc : (ofText inComment text).inComment = false) (more : String)

include he hc

theorem tokens_joined : (ofText inComment (text ++ "\n" ++ more)).tokens =
    body inComment text ++ (ofText false (blankLines (lineBreaks text + 1) ++ more)).tokens := by
  unfold tokens
  rw [items_joined he hc, List.filterMap_append, ← items_blankLines]
  rfl

theorem errors_joined : (ofText inComment (text ++ "\n" ++ more)).errors =
    (ofText false (blankLines (lineBreaks text + 1) ++ more)).errors := by
  have none : errors ⟨front inComment text, inComment⟩ = [] := by
    unfold errors at he
    rw [items_eq, List.filterMap_append] at he
    exact (List.append_eq_nil_iff.1 he).1
  unfold errors at none ⊢
  rw [items_joined he hc, List.filterMap_append, none, ← items_blankLines]
  rfl

end Joined

/-- The end of the input is not in the text. -/
theorem body_ne_end (inComment : Bool) (text : String) :
    ∀ t ∈ body inComment text, t.kind ≠ .endOfInput := by
  intro t ht
  obtain ⟨item, hitem, heq⟩ := List.mem_filterMap.1 ht
  cases item with
  | token => cases heq; exact Token.Item.ne_end_of_mem_inPieces (cut_ne_end inComment text.toList) hitem
  | error => cases heq

end Scan

end Scriptlet
