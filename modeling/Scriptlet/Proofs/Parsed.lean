import Mathlib.Data.List.Nodup
import Mathlib.Data.List.Perm.Subperm
import Scriptlet.Proofs.Grammar
import Scriptlet.Proofs.Lexical
import Scriptlet.Proofs.Outcome
import Scriptlet.Token.Scanner
import Scriptlet.Tree.Parse

/-!
# Parsed texts

The nodes that the parser makes have identities of their own: no two nodes of a text share one, and none was
given away before. What a statement chooses from or repeats is never a declaration, and nothing is declared
under the name of a keyword. The literals come from tokens; the only one that the parser adds is the `true` of a
`for` without a condition. All this holds also for the statements beside a faulty one.
-/
namespace Scriptlet

variable {α β : Type}

/-! ## Identifiers are not reserved -/

/-- The token is not an identifier spelled like a keyword. -/
def Token.Genuine (t : Token) : Prop := t.kind = .identifier → Keyword.ofText? t.lexeme = none

/-- The name is not a keyword. -/
def Name.Unreserved (name : Name) : Prop := Keyword.ofText? name.text = none

theorem Piece.pairExtent_kind (alone paired : Symbol) (second : Char) (cs : List Char) :
    (pairExtent alone paired second cs).kind ≠ .token .identifier := by
  unfold pairExtent
  split
  · split <;> exact fun h => nomatch h
  · exact fun h => nomatch h

theorem Piece.wordExtent_unreserved {first : Char} {cs : List Char}
    (h : (wordExtent first cs).kind = .token .identifier) :
    Keyword.ofText? (String.ofList (first :: cs.take (wordExtent first cs).more)) = none := by
  unfold wordExtent at h ⊢
  dsimp only at h ⊢
  split at h
  · cases h
  · next hnone =>
    have htake : cs.take (cs.takeWhile isNamePart).length = cs.takeWhile isNamePart :=
      List.prefix_iff_eq_take.1 (List.takeWhile_prefix _) |>.symm
    simp only [hnone, htake]

theorem Piece.commentExtent_kind (opening : Nat) (cs : List Char) :
    (commentExtent opening cs).kind ≠ .token .identifier := by
  unfold commentExtent
  split <;> exact fun h => nomatch h

theorem Piece.stringExtent_kind (cs : List Char) : (stringExtent cs).kind ≠ .token .identifier := by
  unfold stringExtent
  dsimp only
  split <;> exact fun h => nomatch h

theorem Piece.numberExtent_kind (first : Char) (cs : List Char) :
    (numberExtent first cs).kind ≠ .token .identifier := by
  unfold numberExtent
  dsimp only
  split
  · split <;> exact fun h => nomatch h
  · exact fun h => nomatch h

/-- Only words are identifiers. -/
theorem Piece.extent_eq_wordExtent (first : Char) (cs : List Char) :
    extent first cs = wordExtent first cs ∨ (extent first cs).kind ≠ .token .identifier := by
  unfold extent
  split
  iterate 15 exact .inr fun h => nomatch h
  iterate 2 exact .inr (pairExtent_kind _ _ _ _)
  iterate 2
    split
    · exact .inr fun h => nomatch h
    · exact .inr (pairExtent_kind _ _ _ _)
  iterate 4 exact .inr fun h => nomatch h
  · split
    · exact .inr fun h => nomatch h
    · exact .inr (commentExtent_kind _ _)
    · exact .inr fun h => nomatch h
  · exact .inr (stringExtent_kind _)
  · split
    · exact .inr (numberExtent_kind _ _)
    · split
      · exact .inl rfl
      · exact .inr fun h => nomatch h

theorem Piece.cutPlain_unreserved (cs : List Char) :
    ∀ p ∈ cutPlain cs, p.kind = .token .identifier → Keyword.ofText? (String.ofList p.text) = none := by
  fun_induction cutPlain cs with
  | case1 => exact fun _ hp => nomatch hp
  | case2 c cs e ih =>
    intro p hp
    rcases List.mem_cons.1 hp with rfl | hp
    · intro h
      rcases extent_eq_wordExtent c cs with he | he
      · have hw : e = wordExtent c cs := he
        rw [hw] at h ⊢
        exact wordExtent_unreserved h
      · exact absurd h he
    · exact ih p hp

theorem Piece.cut_unreserved (inComment : Bool) (cs : List Char) :
    ∀ p ∈ cut inComment cs, p.kind = .token .identifier → Keyword.ofText? (String.ofList p.text) = none := by
  unfold cut
  split
  · intro p hp
    rcases List.mem_cons.1 hp with rfl | hp
    · exact fun h => absurd h (commentExtent_kind _ _)
    · exact cutPlain_unreserved _ p hp
  · exact cutPlain_unreserved cs

theorem Token.Item.genuine_ofPieces {pieces : List Piece}
    (h : ∀ p ∈ pieces, p.kind = .token .identifier → Keyword.ofText? (String.ofList p.text) = none)
    (line : Nat) : ∀ t, Item.token t ∈ Item.ofPieces line pieces → t.Genuine := by
  induction pieces generalizing line with
  | nil =>
    intro t ht
    cases List.mem_singleton.1 ht
    exact fun h => nomatch h
  | cons p ps ih =>
    intro t ht
    rcases List.mem_append.1 ht with ht | ht
    · unfold Item.ofPiece at ht
      split at ht
      iterate 3 cases ht
      · next kind hk =>
        cases List.mem_singleton.1 ht
        intro hi
        exact h p (List.mem_cons_self ..) (hk.trans (congrArg _ hi))
      · cases List.mem_singleton.1 ht
      · cases ht with
        | tail _ ht =>
          cases List.mem_singleton.1 ht
          exact fun h => nomatch h
    · exact ih (fun p hp => h p (List.mem_cons_of_mem _ hp)) _ t ht

theorem Scan.genuine (inComment : Bool) (text : String) :
    ∀ t ∈ (Scan.ofText inComment text).tokens, t.Genuine := by
  intro t ht
  obtain ⟨item, hitem, ht⟩ := List.mem_filterMap.1 ht
  cases item with
  | token t' =>
    cases ht
    exact Token.Item.genuine_ofPieces (Piece.cut_unreserved inComment text.toList) 0 _ hitem
  | error line e => cases ht

def Use.ids (uses : List Use) : List NodeId := uses.map Use.id

def Expr.ids (e : Expr) : List NodeId := Use.ids e.uses

def Expr.optionIds (e : Option Expr) : List NodeId := Use.ids (optionUses e)

theorem Expr.listIds_eq (es : List Expr) : Use.ids (listUses es) = es.flatMap Expr.ids := by
  induction es with
  | nil => rfl
  | cons e es ih =>
    rw [List.flatMap_cons, ← ih]
    exact List.map_append

namespace Expr

mutual

/-- The literals of an expression, from left to right. -/
def literals : Expr → List Literal
  | .literal v => [v]
  | .group e | .unary _ _ e | .assign _ e | .get e _ => literals e
  | .binary l _ _ r | .logical l _ _ r | .set l _ r => literals l ++ literals r
  | .variable _ | .this .. | .super .. => []
  | .call f _ args => literals f ++ listLiterals args
  | .array es => listLiterals es

def listLiterals : List Expr → List Literal
  | [] => []
  | e :: es => literals e ++ listLiterals es

end

def optionLiterals : Option Expr → List Literal
  | none => []
  | some e => literals e

theorem listLiterals_eq (es : List Expr) : listLiterals es = es.flatMap literals := by
  induction es with
  | nil => rfl
  | cons e es ih => rw [listLiterals, ih, List.flatMap_cons]

end Expr

namespace Stmt

mutual

/-- The identities of all nodes of a statement. -/
def ids : Stmt → List NodeId
  | .expression e | .print e | .constDecl _ e => e.ids
  | .letDecl _ init | .returnValue _ init => Expr.optionIds init
  | .block body => listIds body
  | .ifThen c t => c.ids ++ ids t
  | .ifElse c t e => c.ids ++ (ids t ++ ids e)
  | .whileLoop c body inc => c.ids ++ (ids body ++ Expr.optionIds inc)
  | .doWhile body c => ids body ++ c.ids
  | .function d => routineIds d
  | .classDecl _ superclass methods statics =>
    Use.ids (superclass.toList.map Variable.reading) ++ (routinesIds methods ++ routinesIds statics)
  | .breakLoop _ | .continueLoop _ | .importFile .. => []

def listIds : List Stmt → List NodeId
  | [] => []
  | s :: ss => ids s ++ listIds ss

def routineIds : FunctionDecl → List NodeId
  | ⟨_, _, body⟩ => listIds body

def routinesIds : List FunctionDecl → List NodeId
  | [] => []
  | d :: ds => routineIds d ++ routinesIds ds

end

theorem listIds_eq (ss : List Stmt) : listIds ss = ss.flatMap ids := by
  induction ss with
  | nil => rfl
  | cons s ss ih => rw [listIds, ih, List.flatMap_cons]

theorem routinesIds_eq (ds : List FunctionDecl) : routinesIds ds = ds.flatMap routineIds := by
  induction ds with
  | nil => rfl
  | cons d ds ih => rw [routinesIds, ih, List.flatMap_cons]

mutual

/-- The literals of a statement with all that is in it. -/
def literals : Stmt → List Literal
  | .expression e | .print e | .constDecl _ e => e.literals
  | .letDecl _ init | .returnValue _ init => Expr.optionLiterals init
  | .block body => listLiterals body
  | .ifThen c t => c.literals ++ literals t
  | .ifElse c t e => c.literals ++ literals t ++ literals e
  | .whileLoop c body inc => c.literals ++ literals body ++ Expr.optionLiterals inc
  | .doWhile body c => literals body ++ c.literals
  | .function d => routineLiterals d
  | .classDecl _ _ methods statics => routinesLiterals methods ++ routinesLiterals statics
  | .breakLoop _ | .continueLoop _ | .importFile .. => []

def listLiterals : List Stmt → List Literal
  | [] => []
  | s :: ss => literals s ++ listLiterals ss

def routineLiterals : FunctionDecl → List Literal
  | ⟨_, _, body⟩ => listLiterals body

def routinesLiterals : List FunctionDecl → List Literal
  | [] => []
  | d :: ds => routineLiterals d ++ routinesLiterals ds

end

theorem listLiterals_eq (ss : List Stmt) : listLiterals ss = ss.flatMap literals := by
  induction ss with
  | nil => rfl
  | cons s ss ih => rw [listLiterals, ih, List.flatMap_cons]

theorem routinesLiterals_eq (ds : List FunctionDecl) : routinesLiterals ds = ds.flatMap routineLiterals := by
  induction ds with
  | nil => rfl
  | cons d ds ih => rw [routinesLiterals, ih, List.flatMap_cons]

mutual

/-- No branch in the statement, at any depth, declares a name, and nothing is named like a keyword. -/
def Shaped : Stmt → Prop
  | .letDecl name _ | .constDecl name _ => name.Unreserved
  | .block body => ListShaped body
  | .ifThen _ t => t.declared? = none ∧ Shaped t
  | .ifElse _ t e => (t.declared? = none ∧ Shaped t) ∧ e.declared? = none ∧ Shaped e
  | .whileLoop _ body _ => body.declared? = none ∧ Shaped body
  | .doWhile body _ => body.declared? = none ∧ Shaped body
  | .function d => RoutineShaped d
  | .classDecl name _ methods statics =>
    name.Unreserved ∧ RoutinesShaped methods ∧ RoutinesShaped statics
  | _ => True

def ListShaped : List Stmt → Prop
  | [] => True
  | s :: ss => Shaped s ∧ ListShaped ss

def RoutineShaped : FunctionDecl → Prop
  | ⟨name, params, body⟩ => (name.Unreserved ∧ ∀ p ∈ params, p.Unreserved) ∧ ListShaped body

def RoutinesShaped : List FunctionDecl → Prop
  | [] => True
  | d :: ds => RoutineShaped d ∧ RoutinesShaped ds

end

theorem listShaped_iff (ss : List Stmt) : ListShaped ss ↔ ∀ s ∈ ss, s.Shaped := by
  induction ss with
  | nil => simp [ListShaped]
  | cons s ss ih => simp [ListShaped, ih]

theorem routinesShaped_iff (ds : List FunctionDecl) : RoutinesShaped ds ↔ ∀ d ∈ ds, RoutineShaped d := by
  induction ds with
  | nil => simp [RoutinesShaped]
  | cons d ds ih => simp [RoutinesShaped, ih]

end Stmt

/-- If the token is a literal, it has the property. -/
def Token.Offers (L : Scriptlet.Literal → Prop) (t : Token) : Prop := ∀ v, t.kind.literal? = some v → L v

/-! ## Parsers that give fresh identities -/

/-- Different identities, all below `next`. -/
def Fresh (ids : List NodeId) (next : NodeId) : Prop := ids.Nodup ∧ ∀ id ∈ ids, id < next

theorem Fresh.of_subperm {used ids pending : List NodeId} {next : NodeId} (h : ids.Subperm pending)
    (hf : Fresh (used ++ pending) next) : Fresh (used ++ ids) next := by
  have sub : (used ++ ids).Subperm (used ++ pending) := (List.subperm_append_left used).2 h
  refine ⟨?_, fun id hid => hf.2 id (sub.subset hid)⟩
  obtain ⟨l, hperm, hsub⟩ := sub
  exact hperm.nodup_iff.1 (hsub.nodup hf.1)

theorem Fresh.left {used pending : List NodeId} {next : NodeId} (hf : Fresh (used ++ pending) next) :
    Fresh used next := by
  have h : Fresh (used ++ []) next := hf.of_subperm List.nil_subperm
  rwa [List.append_nil] at h

namespace Parser

/-- The parser gives no identity away. -/
def Steady (p : Parser α) : Prop :=
  ∀ s, Meets p s (fun _ t => t.nextId = s.nextId ∧ t.rest ⊆ s.rest)
    (fun _ t => t.nextId = s.nextId ∧ t.rest ⊆ s.rest)

namespace Steady

theorem pure (a : α) : Steady (Pure.pure a) := fun _ => ⟨rfl, List.Subset.refl _⟩

theorem get : Steady (MonadState.get : Parser State) := fun _ => ⟨rfl, List.Subset.refl _⟩

theorem bind {p : Parser α} {f : α → Parser β} (hp : Steady p) (hf : ∀ a, Steady (f a)) :
    Steady (p >>= f) := by
  intro s
  refine Meets.bind (hp s) fun a t ht => ?_
  refine Meets.mono (hf a t) ?_ ?_
  · exact fun _ _ h => ⟨h.1.trans ht.1, List.Subset.trans h.2 ht.2⟩
  · exact fun _ _ h => ⟨h.1.trans ht.1, List.Subset.trans h.2 ht.2⟩

theorem ite {c : Prop} [Decidable c] {p q : Parser α} (hp : Steady p) (hq : Steady q) :
    Steady (if c then p else q) := by
  split
  · exact hp
  · exact hq

theorem peek : Steady Parser.peek := bind get fun _ => pure _

theorem atEnd : Steady Parser.atEnd := bind peek fun _ => pure _

theorem remaining : Steady Parser.remaining := bind get fun _ => pure _

theorem advance : Steady Parser.advance :=
  bind peek fun _ => ite (bind (fun _ => ⟨rfl, (List.tail_sublist _).subset⟩) fun _ => pure _) (pure _)

theorem check (kind : Token.Kind) : Steady (Parser.check kind) := bind peek fun _ => pure _

theorem accept (kind : Token.Kind) : Steady (Parser.accept kind) :=
  bind (check kind) fun _ => ite (bind advance fun _ => pure _) (pure _)

theorem report (problem : Located SyntaxError) : Steady (Parser.report problem) :=
  fun _ => ⟨rfl, List.Subset.refl _⟩

theorem failHere (what : Expected) : Steady (Parser.failHere what : Parser α) :=
  bind peek fun _ _ => ⟨rfl, List.Subset.refl _⟩

theorem expect (kind : Token.Kind) (what : Expected) : Steady (Parser.expect kind what) :=
  bind (check kind) fun _ => ite advance (failHere what)

theorem identifier (what : Expected) : Steady (Parser.identifier what) :=
  bind (expect .identifier what) fun _ => pure _

end Steady

/-- The next token. -/
def State.next (s : State) : Token := s.rest.headD (Token.endOfInput 0)

theorem State.next_mem {s : State} (h : s.next.isEnd = false) : s.next ∈ s.rest := by
  unfold next at h ⊢
  cases hr : s.rest with
  | nil => rw [hr] at h; cases h
  | cons t ts => exact List.mem_cons_self ..

theorem advance_eq (s : State) : advance s = .ok s.next (if !s.next.isEnd then s.skip else s) := by
  have step : advance s =
      (if !s.next.isEnd then do
        modify State.skip
        return s.next
      else return s.next : Parser Token) s := rfl
  rw [step]
  split <;> rfl

theorem expect_eq (kind : Token.Kind) (what : Expected) (s : State) :
    expect kind what s =
      if !s.next.isEnd && s.next.kind == kind then .ok s.next s.skip
      else .error (Located.atToken s.next (.expected what)) s := by
  have step : expect kind what s =
      (if !s.next.isEnd && s.next.kind == kind then advance else failHere what : Parser Token) s := rfl
  rw [step]
  split
  · next h =>
    rw [Bool.and_eq_true] at h
    rw [advance_eq, if_pos h.1]
  · rfl

/-- An expected token that was read is of its kind. -/
theorem meets_expect (kind : Token.Kind) (what : Expected) (s : State) :
    Meets (expect kind what) s (fun t _ => t ∈ s.rest ∧ t.kind = kind) (fun _ _ => True) := by
  unfold Meets
  rw [expect_eq]
  split
  · next h =>
    split at h
    · next hk =>
      cases h
      rw [Bool.and_eq_true, Bool.not_eq_true', beq_iff_eq] at hk
      exact ⟨State.next_mem hk.1, hk.2⟩
    · cases h
  · trivial

/-- The identities are different and not to be given again. The unread tokens are genuine, and those that are literals
have the property `L`. -/
def Keeps (L : Literal → Prop) (ids : List NodeId) (s : State) : Prop :=
  Fresh ids s.nextId ∧ ∀ t ∈ s.rest, t.Genuine ∧ t.Offers L

section Giving

variable {L : Literal → Prop}

theorem Keeps.of_steady {ids : List NodeId} {s t : State} (h : Keeps L ids s)
    (ht : t.nextId = s.nextId ∧ t.rest ⊆ s.rest) : Keeps L ids t := by
  unfold Keeps
  rw [ht.1]
  exact ⟨h.1, fun token htoken => h.2 token (ht.2 htoken)⟩

theorem Keeps.left {used pending : List NodeId} {s : State} (h : Keeps L (used ++ pending) s) : Keeps L used s :=
  ⟨h.1.left, h.2⟩

/-- Where the identities `pending` were given away for parts of the result, the parser gives those of the
result, which meets `S`. -/
def Gives (L : Literal → Prop) (pending : List NodeId) (ids : α → List NodeId) (S : α → Prop) (p : Parser α) : Prop :=
  ∀ used s, Keeps L (used ++ pending) s →
    Meets p s (fun a t => Keeps L (used ++ ids a) t ∧ S a) (fun _ t => Keeps L used t)

namespace Gives

variable {pending : List NodeId} {ids : α → List NodeId} {ids' : β → List NodeId} {S : α → Prop}
  {S' : β → Prop}

theorem pure {a : α} (h : (ids a).Subperm pending) (ha : S a) : Gives L pending ids S (Pure.pure a) :=
  fun _ _ hf => ⟨⟨hf.1.of_subperm h, hf.2⟩, ha⟩

theorem bind {p : Parser α} {f : α → Parser β} (hp : Gives L [] ids S p)
    (hf : ∀ a, S a → Gives L (pending ++ ids a) ids' S' (f a)) : Gives L pending ids' S' (p >>= f) := by
  intro used s hs
  have start : Keeps L (used ++ pending ++ []) s := by rwa [List.append_nil]
  refine Meets.bind (Meets.mono (hp (used ++ pending) s start) (fun _ _ h => h) ?_) ?_
  · exact fun _ _ h => h.left
  · rintro a t ⟨ht, ha⟩
    rw [List.append_assoc] at ht
    exact hf a ha used t ht

/-- After a step that gives no identity away. -/
theorem skip {p : Parser α} {f : α → Parser β} (hp : Steady p) (hf : ∀ a, Gives L pending ids' S' (f a)) :
    Gives L pending ids' S' (p >>= f) := by
  intro used s hs
  refine Meets.bind (Meets.mono (hp s) (fun _ _ h => h) ?_) ?_
  · exact fun _ _ ht => (hs.of_steady ht).left
  · exact fun a t ht => hf a used t (hs.of_steady ht)

theorem ite {c : Prop} [Decidable c] {p q : Parser α} (hp : Gives L pending ids S p)
    (hq : Gives L pending ids S q) : Gives L pending ids S (if c then p else q) := by
  split
  · exact hp
  · exact hq

theorem mono {p : Parser α} {T : α → Prop} (hp : Gives L pending ids S p) (h : ∀ a, S a → T a) :
    Gives L pending ids T p :=
  fun used s hs => Meets.mono (hp used s hs) (fun a _ ha => ⟨ha.1, h a ha.2⟩) fun _ _ he => he

theorem failHere (what : Expected) : Gives L pending ids S (Parser.failHere what) :=
  fun _ _ hs => hs.left

theorem freshId : Gives L [] (fun id => [id]) (fun _ => True) Parser.freshId := by
  intro used s hs
  rw [List.append_nil] at hs
  refine ⟨⟨⟨?_, ?_⟩, hs.2⟩, trivial⟩
  · rw [List.nodup_append]
    refine ⟨hs.1.1, List.nodup_singleton _, ?_⟩
    intro a ha b hb
    rw [List.mem_singleton.1 hb]
    exact Nat.ne_of_lt (hs.1.2 a ha)
  · intro id hid
    rcases List.mem_append.1 hid with hid | hid
    · exact Nat.lt_succ_of_lt (hs.1.2 id hid)
    · rw [List.mem_singleton.1 hid]
      exact Nat.lt_succ_self _

theorem map {p : Parser α} {g : α → β} (hp : Gives L [] ids S p) (hi : ∀ a, ids' (g a) = ids a)
    (hS : ∀ a, S a → S' (g a)) : Gives L [] ids' S' (g <$> p) := by
  intro used s hs
  apply Meets.map
  refine Meets.mono (hp used s hs) ?_ (fun _ _ h => h)
  rintro a t ⟨hf, ha⟩
  rw [hi]
  exact ⟨hf, hS a ha⟩

theorem some {p : Parser α} (hp : Gives L [] ids S p) :
    Gives L [] (fun a => a.toList.flatMap ids) (fun a => ∀ x ∈ a, S x) (Option.some <$> p) := by
  refine map hp (fun a => List.flatMap_singleton ids a) ?_
  intro a ha x hx
  rwa [← Option.mem_some_iff.1 hx]

/-- The next token is one of the tokens, or else the end of the input. -/
theorem peek : Gives L [] (fun _ => []) (Token.Offers L) Parser.peek := by
  intro used s hs
  refine ⟨hs, ?_⟩
  cases hr : s.rest with
  | nil => exact fun _ h => by cases h
  | cons t ts => exact (hs.2 t (by rw [hr]; exact List.mem_cons_self ..)).2

/-- A name that was read is not a keyword. -/
theorem identifier (what : Expected) :
    Gives L [] (fun _ => []) Name.Unreserved (Parser.identifier what) := by
  intro used s hs
  have read := Meets.and (Steady.expect .identifier what s) (meets_expect .identifier what s)
  refine Meets.bind (Meets.mono read (fun _ _ h => h) ?_) ?_
  · exact fun _ _ ht => (hs.of_steady ht.1).left
  · rintro token t ⟨ht, hmem, hkind⟩
    exact ⟨hs.of_steady ht, (hs.2 token hmem).1 hkind⟩

end Gives

/-! ## Lists -/

section Lists

variable {ids : α → List NodeId} {S : α → Prop}

theorem itemsUntil_gives {stop : Parser Bool} {item : Parser (Option α)} (hstop : Steady stop)
    (hitem : Gives L [] (fun a => a.toList.flatMap ids) (fun a => ∀ x ∈ a, S x) item) (n : Nat) :
    Gives L [] (fun l => l.flatMap ids) (fun l => ∀ x ∈ l, S x) (itemsUntil stop item n) := by
  induction n with
  | zero => exact .pure (List.Subperm.refl _) fun _ hx => nomatch hx
  | succ n ih =>
    refine .skip hstop fun b => ?_
    refine .ite (.pure (List.Subperm.refl _) fun _ hx => nomatch hx) ?_
    refine .bind hitem fun first hfirst => .bind ih fun others hothers => ?_
    refine .pure ?_ ?_
    · rw [List.flatMap_append, List.nil_append]
    · intro x hx
      rcases List.mem_append.1 hx with hx | hx
      · exact hfirst x (Option.mem_toList.1 hx)
      · exact hothers x hx

theorem commaSeparated_gives {item : Parser α} (hitem : Gives L [] ids S item) (list : Listed) (n count : Nat) :
    Gives L [] (fun l => l.flatMap ids) (fun l => ∀ x ∈ l, S x) (commaSeparated list item n count) := by
  induction n generalizing count with
  | zero => exact .pure (List.Subperm.refl _) fun _ hx => nomatch hx
  | succ n ih =>
    have items : Gives L [] (fun l => l.flatMap ids) (fun l => ∀ x ∈ l, S x) (do
        let first ← item
        if ← accept (.symbol .comma) then
          return first :: (← commaSeparated list item n (count + 1))
        return [first]) := by
      refine .bind hitem fun first hfirst => .skip (.accept _) fun b => ?_
      refine .ite (.bind (ih _) fun others hothers => ?_) ?_
      · exact .pure (List.Subperm.refl _) (List.forall_mem_cons.2 ⟨hfirst, hothers⟩)
      · refine .pure ?_ (by simpa using hfirst)
        rw [List.flatMap_singleton, List.nil_append]
    exact .ite (.skip .peek fun _ => .skip (.report _) fun _ => items) items

theorem listUntil_gives {item : Parser α} (hitem : Gives L [] ids S item) (closing : Symbol) (list : Listed) :
    Gives L [] (fun l => l.flatMap ids) (fun l => ∀ x ∈ l, S x) (listUntil closing list item) := by
  refine .skip (.check _) fun b => .ite ?_ ?_
  · exact .pure (List.Subperm.refl _) fun _ hx => nomatch hx
  · exact .skip .remaining fun n => commaSeparated_gives hitem list n 0

end Lists

/-! ## Expressions -/

/-- All literals have the property. -/
abbrev Having (L : Literal → Prop) (literals : α → List Literal) (a : α) : Prop := ∀ v ∈ literals a, L v

theorem having_list {literals : α → List Literal} {l : List α} (h : ∀ x ∈ l, Having L literals x) :
    ∀ v ∈ l.flatMap literals, L v := by
  intro v hv
  obtain ⟨x, hx, hv⟩ := List.mem_flatMap.1 hv
  exact h x hx v hv

theorem having_nil : ∀ v ∈ ([] : List Literal), L v := List.forall_mem_nil L

theorem having_append {vs ws : List Literal} (hv : ∀ v ∈ vs, L v) (hw : ∀ v ∈ ws, L v) : ∀ v ∈ vs ++ ws, L v :=
  List.forall_mem_append.2 ⟨hv, hw⟩

/-- The parser gives the identities of an expression, which has literals with the property only. -/
abbrev GivesExpr (L : Literal → Prop) (p : Parser Expr) : Prop := Gives L [] Expr.ids (Having L Expr.literals) p

theorem Infix.ids_join (op : Infix) (line : Nat) (left right : Expr) :
    (op.join line left right).ids = left.ids ++ right.ids := by
  cases op <;> exact List.map_append

theorem chain_gives {operand : Parser Expr} (h : GivesExpr L operand) (tier : Tier) (n : Nat) {left : Expr}
    (hleft : Having L Expr.literals left) :
    Gives L left.ids Expr.ids (Having L Expr.literals) (chain tier operand n left) := by
  induction n generalizing left with
  | zero => exact .pure (List.Subperm.refl _) hleft
  | succ n ih =>
    refine .skip .peek fun t => ?_
    split
    · exact .pure (List.Subperm.refl _) hleft
    · next op _ =>
      refine .skip .advance fun _ => .bind h fun right hright => ?_
      have joined : Having L Expr.literals (op.join t.line left right) := by
        cases op <;> exact having_append hleft hright
      rw [← op.ids_join t.line left right]
      exact ih joined

theorem tiered_gives {operand : Parser Expr} (h : GivesExpr L operand) (tiers : List Tier) :
    GivesExpr L (tiered operand tiers) := by
  induction tiers with
  | nil => exact h
  | cons tier tighter ih =>
    refine .bind ih fun left hleft => .skip .remaining fun n => ?_
    exact chain_gives ih tier n hleft

theorem primary_gives {expression : Parser Expr} (h : GivesExpr L expression) :
    GivesExpr L (primary expression) := by
  refine .bind .peek fun t ht => ?_
  have literal {v : Literal} (hv : t.kind.literal? = some v) :
      GivesExpr L (do let _ ← advance; return .literal v) :=
    .skip .advance fun _ => .pure (List.Subperm.refl _) (by simpa [Having, Expr.literals] using ht v hv)
  split
  iterate 5
    next hk => exact literal (by rw [hk]; rfl)
  · refine .skip .advance fun _ => .skip (.expect _ _) fun _ => .skip (.identifier _) fun method => ?_
    exact .bind .freshId fun id _ => .pure (List.Subperm.refl _) (by simp [Having, Expr.literals])
  iterate 2
    refine .skip .advance fun _ => .bind .freshId fun id _ => ?_
    exact .pure (List.Subperm.refl _) (by simp [Having, Expr.literals])
  · refine .skip .advance fun _ => .bind h fun inner hinner => .skip (.expect _ _) fun _ => ?_
    exact .pure (List.Subperm.refl _) hinner
  · refine .skip .advance fun _ => .bind (listUntil_gives h _ _) fun elements helements => ?_
    refine .skip (.expect _ _) fun _ => .pure ?_ ?_
    · rw [← Expr.listIds_eq]
      exact List.Subperm.refl _
    · rw [Having, Expr.literals, Expr.listLiterals_eq]
      exact having_list helements
  · exact .failHere _

theorem suffixes_gives {expression : Parser Expr} (h : GivesExpr L expression) (n : Nat) {e : Expr}
    (he : Having L Expr.literals e) :
    Gives L e.ids Expr.ids (Having L Expr.literals) (suffixes expression n e) := by
  induction n generalizing e with
  | zero => exact .pure (List.Subperm.refl _) he
  | succ n ih =>
    refine .skip (.accept _) fun _ => .ite ?_ (.skip (.accept _) fun _ => .ite ?_ ?_)
    · refine .bind (listUntil_gives h _ _) fun arguments harguments => .skip (.expect _ _) fun paren => ?_
      have hids : e.ids ++ arguments.flatMap Expr.ids = (Expr.call e paren.line arguments).ids := by
        rw [← Expr.listIds_eq]
        exact List.map_append.symm
      have called : Having L Expr.literals (.call e paren.line arguments) := by
        rw [Having, Expr.literals, Expr.listLiterals_eq]
        exact having_append he (having_list harguments)
      rw [hids]
      exact ih called
    · exact .skip (.identifier _) fun property => ih (e := .get e property) he
    · exact .pure (List.Subperm.refl _) he

theorem unaryUpTo_gives {expression : Parser Expr} (h : GivesExpr L expression) (n : Nat) :
    GivesExpr L (unaryUpTo expression n) := by
  induction n with
  | zero => exact .failHere _
  | succ n ih =>
    refine .skip .peek fun t => ?_
    split
    · exact .bind (primary_gives h) fun first hfirst => .skip .remaining fun n => suffixes_gives h n hfirst
    · exact .skip .advance fun _ => .bind ih fun e he => .pure (List.Subperm.refl _) he

theorem assignment_gives {expression : Parser Expr} (h : GivesExpr L expression) :
    GivesExpr L (assignment expression) := by
  refine .bind (tiered_gives (.skip .remaining fun n => unaryUpTo_gives h _) tiers) fun left hleft => ?_
  refine .skip .peek fun t => .skip (.accept _) fun _ => .ite ?_ (.pure (List.Subperm.refl _) hleft)
  refine .bind h fun value hvalue => ?_
  split
  · next target =>
    -- the identity of the target as a read variable is dropped
    refine .bind .freshId fun id _ => .pure ?_ hvalue
    have hids : (Expr.assign ⟨id, target.name⟩ value).ids = value.ids ++ [id] := List.map_append
    rw [hids, List.append_assoc]
    exact (List.sublist_append_right _ _).subperm
  · next object property =>
    refine .pure ?_ (having_append hleft hvalue)
    have hids : (Expr.set object property value).ids = value.ids ++ object.ids := List.map_append
    rw [hids]
    exact List.perm_append_comm.subperm
  · exact .skip (.report _) fun _ => .pure (List.sublist_append_left _ _).subperm hleft

theorem expressionUpTo_gives (n : Nat) : GivesExpr L (expressionUpTo n) := by
  induction n with
  | zero => exact .failHere _
  | succ n ih => exact assignment_gives ih

theorem expression_gives : GivesExpr L expression := .skip .remaining fun _ => expressionUpTo_gives _

/-- As before, for a parser that may give nothing. -/
abbrev MayGiveExpr (L : Literal → Prop) (p : Parser (Option Expr)) : Prop :=
  Gives L [] Expr.optionIds (Having L Expr.optionLiterals) p

theorem noExpression_gives : MayGiveExpr L (Pure.pure none) :=
  .pure (List.Subperm.refl _) (by simp [Having, Expr.optionLiterals])

theorem someExpression_gives : MayGiveExpr L (some <$> expression) :=
  .map expression_gives (fun _ => rfl) fun _ he => he

theorem optionalExpression_gives (closing : Symbol) : MayGiveExpr L (optionalExpression closing) :=
  .skip (.check _) fun _ => .ite noExpression_gives someExpression_gives

/-! ## Statements -/

/-- The statement has the shape of parsed ones, and literals with the property only. -/
abbrev Made (L : Literal → Prop) (s : Stmt) : Prop := s.Shaped ∧ Having L Stmt.literals s

abbrev MadeRoutine (L : Literal → Prop) (d : FunctionDecl) : Prop :=
  Stmt.RoutineShaped d ∧ Having L Stmt.routineLiterals d

/-- The parser gives the identities of a statement whose branches declare nothing. -/
abbrev GivesStmt (L : Literal → Prop) (p : Parser Stmt) : Prop := Gives L [] Stmt.ids (Made L) p

/-- As before, and the statement itself declares nothing either. -/
abbrev GivesBranch (L : Literal → Prop) (p : Parser Stmt) : Prop :=
  Gives L [] Stmt.ids (fun s => Made L s ∧ s.declared? = none) p

/-- As before, for a parser that may give nothing. -/
abbrev MayGive (L : Literal → Prop) (p : Parser (Option Stmt)) : Prop :=
  Gives L [] (fun s => s.toList.flatMap Stmt.ids) (fun s => ∀ t ∈ s, Made L t) p

/-- The parsers inside a statement give the identities of what they parse. A nested statement declares
nothing. -/
structure Nested.Give (L : Literal → Prop) (nested : Nested) : Prop where
  statement : GivesBranch L nested.statement
  declaration : MayGive L nested.declaration

theorem atBrace_steady : Steady atBrace := .bind (.check _) fun _ => .bind .atEnd fun _ => .pure _

/-- The literals of a sequence of statements are those of its statements. -/
theorem made_list {body : List Stmt} (h : ∀ s ∈ body, Made L s) :
    Stmt.ListShaped body ∧ Having L Stmt.listLiterals body := by
  rw [Stmt.listShaped_iff, Having, Stmt.listLiterals_eq]
  exact ⟨fun s hs => (h s hs).1, having_list fun s hs => (h s hs).2⟩

def Member.declaration : Member → FunctionDecl
  | .method d | .static d => d

/-- Sorting the members of a class keeps their identities. -/
theorem memberIds_perm (members : List Member) :
    ((members.filterMap Member.method?).flatMap Stmt.routineIds ++
      (members.filterMap Member.static?).flatMap Stmt.routineIds).Perm
        (members.flatMap fun m => Stmt.routineIds m.declaration) := by
  induction members with
  | nil => exact .refl _
  | cons m ms ih =>
    cases m with
    | method d =>
      simp only [List.filterMap_cons, Member.method?, Member.static?, List.flatMap_cons, List.append_assoc]
      exact .append_left _ ih
    | static d =>
      simp only [List.filterMap_cons, Member.method?, Member.static?, List.flatMap_cons]
      refine List.Perm.trans ?_ (.append_left _ ih)
      rw [← List.append_assoc, ← List.append_assoc]
      exact .append_right _ List.perm_append_comm

theorem made_members {members : List Member} (pick : Member → Option FunctionDecl)
    (hpick : ∀ m d, pick m = some d → m.declaration = d) (hm : ∀ m ∈ members, MadeRoutine L m.declaration) :
    Stmt.RoutinesShaped (members.filterMap pick) ∧ Having L Stmt.routinesLiterals (members.filterMap pick) := by
  have made : ∀ d ∈ members.filterMap pick, MadeRoutine L d := by
    intro d hd
    obtain ⟨m, hmem, hd⟩ := List.mem_filterMap.1 hd
    rw [← hpick m d hd]
    exact hm m hmem
  rw [Stmt.routinesShaped_iff, Having, Stmt.routinesLiterals_eq]
  exact ⟨fun d hd => (made d hd).1, having_list fun d hd => (made d hd).2⟩

theorem superclassClause_gives :
    Gives L [] (fun v => Use.ids (v.toList.map Variable.reading)) (fun _ => True) superclassClause := by
  refine .skip (.accept _) fun _ => .ite ?_ (.pure (List.Subperm.refl _) trivial)
  refine .skip (.identifier _) fun name => .bind .freshId fun id _ => ?_
  exact .pure (List.Subperm.refl _) trivial

theorem letDeclaration_gives : GivesStmt L letDeclaration := by
  have initial : MayGiveExpr L initializer :=
    .skip (.accept _) fun _ => .ite someExpression_gives noExpression_gives
  refine .bind (.identifier _) fun name hname => .bind initial fun value hvalue => ?_
  exact .skip (.expect _ _) fun _ => .pure (List.Subperm.refl _) ⟨hname, hvalue⟩

theorem constDeclaration_gives : GivesStmt L constDeclaration := by
  refine .bind (.identifier _) fun name hname => .skip (.expect _ _) fun _ => ?_
  refine .bind expression_gives fun value hvalue => .skip (.expect _ _) fun _ => ?_
  exact .pure (List.Subperm.refl _) ⟨hname, hvalue⟩

theorem importStatement_gives (line : Nat) : GivesStmt L (importStatement line) := by
  refine .skip .peek fun t => ?_
  split
  · refine .skip .advance fun _ => .skip (.expect _ _) fun _ => ?_
    exact .pure (List.Subperm.refl _) ⟨trivial, by simp [Having, Stmt.literals]⟩
  · exact .failHere _

theorem expressionStatement_gives : GivesBranch L expressionStatement := by
  refine .bind expression_gives fun e he => .skip (.expect _ _) fun _ => ?_
  exact .pure (List.Subperm.refl _) ⟨⟨trivial, he⟩, rfl⟩

theorem parenthesizedCondition_gives (opening : Expected) : GivesExpr L (parenthesizedCondition opening) := by
  refine .skip (.expect _ _) fun _ => .bind expression_gives fun c hc => ?_
  exact .skip (.expect _ _) fun _ => .pure (List.Subperm.refl _) hc

theorem forStart_gives : MayGive L forStart := by
  refine .skip (.accept _) fun _ => .ite (.pure (List.Subperm.refl _) fun _ ht => nomatch ht) ?_
  refine .skip (.accept _) fun _ => .ite (.some letDeclaration_gives) (.some ?_)
  exact expressionStatement_gives.mono fun _ h => h.1

section Statements

variable {nested : Nested} (h : nested.Give L)
include h

theorem block_gives : Gives L [] Stmt.listIds (fun body => Stmt.ListShaped body ∧ Having L Stmt.listLiterals body)
    (block nested) := by
  refine .skip .remaining fun n => .bind (itemsUntil_gives atBrace_steady h.declaration n) fun body hbody => ?_
  refine .skip (.expect _ _) fun _ => .pure ?_ (made_list hbody)
  rw [Stmt.listIds_eq, List.nil_append]

theorem routine_gives (role : RoutineRole) : Gives L [] Stmt.routineIds (MadeRoutine L) (routine nested role) := by
  refine .bind (.identifier _) fun name hname => .skip (.expect _ _) fun _ => ?_
  refine .bind (listUntil_gives (.identifier _) _ _) fun params hparams => ?_
  refine .skip (.expect _ _) fun _ => .skip (.expect _ _) fun _ => ?_
  refine .bind (block_gives h) fun body hbody => .pure ?_ ⟨⟨⟨hname, hparams⟩, hbody.1⟩, hbody.2⟩
  exact (List.sublist_append_right _ _).subperm

theorem member_gives : Gives L [] (fun m => Stmt.routineIds m.declaration) (fun m => MadeRoutine L m.declaration)
    (member nested) := by
  refine .skip (.accept _) fun _ => .ite ?_ ?_
  · exact .bind (routine_gives h _) fun d hd => .pure (List.Subperm.refl _) hd
  · exact .bind (routine_gives h _) fun d hd => .pure (List.Subperm.refl _) hd

theorem classDeclaration_gives : GivesStmt L (classDeclaration nested) := by
  refine .bind (.identifier _) fun name hname => .bind superclassClause_gives fun superclass _ => ?_
  refine .skip (.expect _ _) fun _ => .skip .remaining fun n => ?_
  refine .bind (itemsUntil_gives atBrace_steady (.some (member_gives h)) n) fun ms hms => .skip (.expect _ _) fun _ => ?_
  have methods := made_members Member.method? (by rintro (d | d) _ ⟨⟩; rfl) hms
  have statics := made_members Member.static? (by rintro (d | d) _ ⟨⟩; rfl) hms
  refine .pure ?_ ⟨⟨hname, methods.1, statics.1⟩, having_append methods.2 statics.2⟩
  rw [Stmt.ids, Stmt.routinesIds_eq, Stmt.routinesIds_eq, List.nil_append]
  exact (List.Perm.append_left _ (memberIds_perm ms)).subperm

theorem forStatement_gives (hL : L (.bool true)) : GivesBranch L (forStatement nested) := by
  refine .skip (.expect _ _) fun _ => .bind forStart_gives fun start hstart => ?_
  refine .bind (optionalExpression_gives _) fun condition hcondition => .skip (.expect _ _) fun _ => ?_
  refine .bind (optionalExpression_gives _) fun increment hincrement => .skip (.expect _ _) fun _ => ?_
  refine .bind h.statement fun body hbody => ?_
  have hc : (condition.getD (.literal (.bool true))).ids = Expr.optionIds condition := by
    cases condition <;> rfl
  have test : Having L Expr.literals (condition.getD (.literal (.bool true))) := by
    cases condition with
    | none => simpa [Having, Expr.literals] using hL
    | some c => exact hcondition
  have loop := having_append (having_append test hbody.1.2) hincrement
  dsimp only
  cases start with
  | none =>
    refine .pure ?_ ⟨⟨⟨hbody.2, hbody.1.1⟩, loop⟩, rfl⟩
    rw [Stmt.ids, hc, List.append_assoc]
    exact (List.Perm.append_left _ List.perm_append_comm).subperm
  | some s =>
    have started := having_append (hstart s rfl).2 (having_append loop having_nil)
    refine .pure ?_ ⟨⟨⟨(hstart s rfl).1, ⟨hbody.2, hbody.1.1⟩, trivial⟩, started⟩, rfl⟩
    rw [Stmt.ids, Stmt.listIds, Stmt.listIds, Stmt.listIds, Stmt.ids, hc, List.append_nil,
      Option.toList_some, List.flatMap_singleton, List.nil_append, List.append_assoc, List.append_assoc]
    exact (List.Perm.append_left _ (List.Perm.append_left _ List.perm_append_comm)).subperm

theorem ifStatement_gives : GivesBranch L (ifStatement nested) := by
  refine .bind (parenthesizedCondition_gives _) fun c hc => .bind h.statement fun t ht => ?_
  refine .skip (.accept _) fun _ => .ite (.bind h.statement fun e he => ?_) ?_
  · refine .pure ?_ ⟨⟨⟨⟨ht.2, ht.1.1⟩, he.2, he.1.1⟩, having_append (having_append hc ht.1.2) he.1.2⟩, rfl⟩
    rw [Stmt.ids, List.nil_append, List.append_assoc]
  · exact .pure (List.Subperm.refl _) ⟨⟨⟨ht.2, ht.1.1⟩, having_append hc ht.1.2⟩, rfl⟩

theorem whileStatement_gives : GivesBranch L (whileStatement nested) := by
  refine .bind (parenthesizedCondition_gives _) fun c hc => .bind h.statement fun body hbody => ?_
  have loop := having_append (having_append hc hbody.1.2) having_nil
  refine .pure ?_ ⟨⟨⟨hbody.2, hbody.1.1⟩, loop⟩, rfl⟩
  rw [Stmt.ids, Expr.optionIds, Expr.optionUses, Use.ids, List.map_nil, List.append_nil, List.nil_append]

theorem doWhileStatement_gives : GivesBranch L (doWhileStatement nested) := by
  refine .bind h.statement fun body hbody => .skip (.expect _ _) fun _ => ?_
  refine .bind (parenthesizedCondition_gives _) fun c hc => .skip (.expect _ _) fun _ => ?_
  exact .pure (List.Subperm.refl _) ⟨⟨⟨hbody.2, hbody.1.1⟩, having_append hbody.1.2 hc⟩, rfl⟩

theorem statementWith_gives (hL : L (.bool true)) : GivesBranch L (statementWith nested) := by
  refine .skip .peek fun t => ?_
  split
  · exact .skip .advance fun _ => forStatement_gives h hL
  · exact .skip .advance fun _ => ifStatement_gives h
  · exact .skip .advance fun _ => whileStatement_gives h
  · exact .skip .advance fun _ => doWhileStatement_gives h
  · refine .skip .advance fun _ => .bind (optionalExpression_gives _) fun value hvalue => ?_
    exact .skip (.expect _ _) fun _ => .pure (List.Subperm.refl _) ⟨⟨trivial, hvalue⟩, rfl⟩
  iterate 2
    refine .skip .advance fun _ => .skip (.expect _ _) fun _ => ?_
    exact .pure (List.Subperm.refl _) ⟨⟨trivial, by simp [Having, Stmt.literals]⟩, rfl⟩
  · refine .skip .advance fun _ => .bind (block_gives h) fun body hbody => ?_
    exact .pure (List.Subperm.refl _) ⟨hbody, rfl⟩
  · refine .skip .advance fun _ => .bind expression_gives fun value hvalue => ?_
    exact .skip (.expect _ _) fun _ => .pure (List.Subperm.refl _) ⟨⟨trivial, hvalue⟩, rfl⟩
  · exact expressionStatement_gives

theorem declarationBody_gives (hL : L (.bool true)) : GivesStmt L (declarationBody nested) := by
  refine .skip .peek fun t => ?_
  split
  · exact .skip .advance fun _ => classDeclaration_gives h
  · refine .skip .advance fun _ => .bind (routine_gives h _) fun d hd => ?_
    exact .pure (List.Subperm.refl _) hd
  · exact .skip .advance fun _ => letDeclaration_gives
  · exact .skip .advance fun _ => constDeclaration_gives
  · exact .skip .advance fun _ => importStatement_gives _
  · exact (statementWith_gives h hL).mono fun _ hs => hs.1

end Statements

end Giving

theorem skipToStatement_steady (last : Token) (n : Nat) : Steady (skipToStatement last n) := by
  induction n generalizing last with
  | zero => exact .pure _
  | succ n ih => exact .bind .peek fun t => .ite (.pure _) (.bind .advance fun _ => ih t)

theorem synchronize_steady : Steady synchronize :=
  .bind .advance fun last => .bind .remaining fun n => skipToStatement_steady last n

section Programs

variable {L : Literal → Prop} (hL : L (.bool true))
include hL

/-- After an error the identities given away until then are lost. -/
theorem declarationWith_gives {nested : Nested} (h : nested.Give L) : MayGive L (declarationWith nested) := by
  intro used s hs
  refine Meets.tryCatch (Gives.some (declarationBody_gives h hL) used s hs) ?_
  intro problem t ht
  have recover : MayGive L (do
      report problem
      synchronize
      return none) :=
    .skip (.report _) fun _ => .skip synchronize_steady fun _ =>
      .pure (List.Subperm.refl _) fun _ ht => nomatch ht
  exact recover used t (by rwa [List.append_nil])

theorem nested_give (n : Nat) : Nested.Give L ⟨statementUpTo n, declarationUpTo n⟩ := by
  induction n with
  | zero => exact ⟨.failHere _, .failHere _⟩
  | succ n ih => exact ⟨statementWith_gives ih hL, declarationWith_gives hL ih⟩

theorem program_gives :
    Gives L [] Stmt.listIds (fun body => Stmt.ListShaped body ∧ Having L Stmt.listLiterals body) program := by
  have declaration : MayGive L declaration := .skip .remaining fun n => (nested_give hL (n + 1)).declaration
  refine .skip .remaining fun n => ?_
  intro used s hs
  refine Meets.mono (itemsUntil_gives .atEnd declaration n used s hs) ?_ (fun _ _ h => h)
  rintro ss t ⟨ht, hss⟩
  rw [Stmt.listIds_eq]
  exact ⟨ht, made_list hss⟩

end Programs

end Parser

/-- Parsed statements have identities of their own, taken from `next` on, branches that declare nothing, and
declarations that are not named like keywords. Their literals have every property of `true` and of the literals among
the tokens. -/
theorem Parse.made (next : NodeId) {tokens : List Token} (ht : ∀ t ∈ tokens, t.Genuine) {L : Literal → Prop}
    (hL : L (.bool true)) (hl : ∀ t ∈ tokens, t.Offers L) :
    let parse := Parse.ofTokens next tokens
    (next ≤ parse.nextId ∧ (Stmt.listIds parse.statements).Nodup ∧
      (∀ id ∈ Stmt.listIds parse.statements, next ≤ id ∧ id < parse.nextId) ∧
      Stmt.ListShaped parse.statements) ∧ ∀ v ∈ Stmt.listLiterals parse.statements, L v := by
  -- all identities below `next` count as used before
  have start : Parser.Keeps L (List.range next ++ []) (.ofTokens tokens next) := by
    rw [List.append_nil]
    exact ⟨⟨List.nodup_range, fun id hid => List.mem_range.1 hid⟩, fun t h => ⟨ht t h, hl t h⟩⟩
  have bound {n : NodeId} (h : ∀ id ∈ List.range next, id < n) : next ≤ n :=
    Nat.le_of_not_lt fun hn => Nat.lt_irrefl n (h n (List.mem_range.2 hn))
  have h := Parser.program_gives hL (List.range next) (.ofTokens tokens next) start
  unfold Meets at h
  unfold Parse.ofTokens
  dsimp only [EStateM.run]
  cases hp : Parser.program (.ofTokens tokens next) with
  | ok ss s =>
    rw [hp] at h
    obtain ⟨⟨⟨hnodup, hlt⟩, -⟩, hshaped, hliterals⟩ := h
    obtain ⟨-, hids, hdisjoint⟩ := List.nodup_append.1 hnodup
    refine ⟨⟨bound fun id hid => hlt id (List.mem_append_left _ hid), hids, ?_, hshaped⟩, hliterals⟩
    intro id hid
    refine ⟨?_, hlt id (List.mem_append_right _ hid)⟩
    by_contra hlow
    exact hdisjoint id (List.mem_range.2 (Nat.lt_of_not_le hlow)) id hid rfl
  | error e s =>
    rw [hp] at h
    refine ⟨⟨bound h.1.2, List.nodup_nil, ?_, trivial⟩, ?_⟩
    · exact fun _ hid => nomatch hid
    · exact fun _ hv => nomatch hv

theorem Parse.numbered (next : NodeId) {tokens : List Token} (ht : ∀ t ∈ tokens, t.Genuine) :
    let parse := Parse.ofTokens next tokens
    next ≤ parse.nextId ∧ (Stmt.listIds parse.statements).Nodup ∧
      (∀ id ∈ Stmt.listIds parse.statements, next ≤ id ∧ id < parse.nextId) ∧
      Stmt.ListShaped parse.statements :=
  (Parse.made next ht (L := fun _ => True) trivial fun _ _ _ _ => trivial).1

/-- Each literal of a parsed text is one of its tokens, or the `true` that a missing condition stands for. -/
theorem Parse.literal_cases (next : NodeId) {inComment : Bool} {text : String} {v : Literal}
    (h : v ∈ Stmt.listLiterals (Parse.ofTokens next (Scan.ofText inComment text).tokens).statements) :
    v = .bool true ∨ ∃ t ∈ (Scan.ofText inComment text).tokens, t.kind.literal? = some v := by
  refine (Parse.made next (Scan.genuine inComment text)
    (L := fun v => v = .bool true ∨ ∃ t ∈ (Scan.ofText inComment text).tokens, t.kind.literal? = some v) (.inl rfl)
    fun t ht v hv => .inr ⟨t, ht, hv⟩).2 v h

end Scriptlet
