import Scriptlet.Proofs.Lexemes

/-!
# Cutting a text

Cutting off the piece at which a text starts gives the piece whose form the text has there. As every text starts with
such a piece, every text has exactly one cut into pieces that stand one after the other, and it is the one that is
computed.

A blank may be put after a closed piece, whatever follows it.
-/
namespace Scriptlet.Piece

/-! ## Pieces are cut off -/

theorem isDigit_of_isNameStart {c : Char} (h : isNameStart c = true) : isDigit c = false := by
  refine Bool.eq_false_iff.2 fun digit => ?_
  simp only [isNameStart, isDigit, Bool.or_eq_true, Bool.and_eq_true, decide_eq_true_eq, beq_iff_eq, Char.le_def,
    UInt32.le_iff_toNat_le] at h digit
  obtain (⟨low, -⟩ | ⟨low, -⟩) | rfl := h
  · exact absurd (low.trans digit.2) (by decide)
  · exact absurd (low.trans digit.2) (by decide)
  · exact absurd digit.2 (by decide)

/-- The text is cut off before the rest, as a piece of the kind. -/
def CutOff (k : Kind) (text rest : List Char) : Prop :=
  ∃ c run, text = c :: run ∧ extent c (run ++ rest) = ⟨k, run.length⟩

theorem CutOff.cutPlain_eq {k : Kind} {text rest : List Char} (h : CutOff k text rest) :
    cutPlain (text ++ rest) = ⟨k, text⟩ :: cutPlain rest := by
  obtain ⟨c, run, rfl, he⟩ := h
  rw [List.cons_append, cutPlain, he, List.take_left, List.drop_left]

section CutOff

variable {c : Char} {cs text rest : List Char}

theorem cutOff_blank (h : c ∈ blanks) : CutOff .blank [c] rest := by
  refine ⟨c, [], rfl, ?_⟩
  obtain rfl | rfl | rfl | rfl := mem_blanks.1 h <;> rfl

theorem cutOff_lineComment (h : Longest (Of (· != '\n')) cs rest) : CutOff .comment ('/' :: '/' :: cs) rest := by
  refine ⟨'/', '/' :: cs, rfl, ?_⟩
  change Extent.mk _ (1 + ((cs ++ rest).takeWhile (· != '\n')).length) = _
  rw [h.takeWhile_eq, List.length_cons, Nat.add_comm]

theorem commentExtent_closes (h : Closes cs) (opening : Nat) (rest : List Char) :
    commentExtent opening (cs ++ rest) = ⟨.comment, opening + cs.length⟩ := by
  unfold commentExtent
  rw [h.closeLength?_eq]

theorem commentExtent_unclosed (h : Unclosed cs) (opening : Nat) :
    commentExtent opening cs = ⟨.openComment, opening + cs.length⟩ := by
  unfold commentExtent
  rw [closeLength?_eq_none_iff.2 h]

theorem cutOff_blockComment (h : Closes cs) : CutOff .comment ('/' :: '*' :: cs) rest := by
  refine ⟨'/', '*' :: cs, rfl, ?_⟩
  rw [List.length_cons, Nat.add_comm]
  exact commentExtent_closes h 1 rest

theorem cutOff_openComment (h : Unclosed cs) : CutOff .openComment ('/' :: '*' :: cs) [] := by
  refine ⟨'/', '*' :: cs, rfl, ?_⟩
  rw [List.append_nil, List.length_cons, Nat.add_comm]
  exact commentExtent_unclosed h 1

theorem pairExtent_alone {alone paired : Symbol} {second : Char} (h : ∀ d ∈ rest.head?, d ≠ second) :
    pairExtent alone paired second rest = ⟨.token (.symbol alone), 0⟩ := by
  cases rest with
  | nil => rfl
  | cons d rest => simp [pairExtent, h d rfl]

theorem cutOff_symbol {s : Symbol} (h : Longest IsMark s.text.toList rest) :
    CutOff (.token (.symbol s)) s.text.toList rest := by
  have apart (c d : Char) (hs : s.text.toList = [c]) (hd : IsMark [c, d]) : ∀ x ∈ rest.head?, x ≠ d := by
    rintro x hx rfl
    rw [hs] at h
    exact (longest_single_iff h.holds).1 h x hx hd
  cases s with
  | bang => exact ⟨'!', [], rfl, pairExtent_alone (apart '!' '=' rfl (.inl ⟨.bangEqual, rfl⟩))⟩
  | equal => exact ⟨'=', [], rfl, pairExtent_alone (apart '=' '=' rfl (.inl ⟨.equalEqual, rfl⟩))⟩
  | less =>
    refine ⟨'<', [], rfl, ?_⟩
    have noShift := apart '<' '<' rfl (.inl ⟨.shiftLeft, rfl⟩)
    have alone : pairExtent .less .lessEqual '=' rest = _ :=
      pairExtent_alone (apart '<' '=' rfl (.inl ⟨.lessEqual, rfl⟩))
    cases rest with
    | nil => rfl
    | cons d rest => simpa [extent, noShift d rfl] using alone
  | greater =>
    refine ⟨'>', [], rfl, ?_⟩
    have noShift := apart '>' '>' rfl (.inl ⟨.shiftRight, rfl⟩)
    have alone : pairExtent .greater .greaterEqual '=' rest = _ :=
      pairExtent_alone (apart '>' '=' rfl (.inl ⟨.greaterEqual, rfl⟩))
    cases rest with
    | nil => rfl
    | cons d rest => simpa [extent, noShift d rfl] using alone
  | slash =>
    refine ⟨'/', [], rfl, ?_⟩
    have noLine := apart '/' '/' rfl (.inr (.inl rfl))
    have noBlock := apart '/' '*' rfl (.inr (.inr rfl))
    cases rest with
    | nil => rfl
    | cons d rest => simp [extent, noLine d rfl, noBlock d rfl]
  | bangEqual => exact ⟨'!', ['='], rfl, rfl⟩
  | equalEqual => exact ⟨'=', ['='], rfl, rfl⟩
  | lessEqual => exact ⟨'<', ['='], rfl, rfl⟩
  | greaterEqual => exact ⟨'>', ['='], rfl, rfl⟩
  | shiftLeft => exact ⟨'<', ['<'], rfl, rfl⟩
  | shiftRight => exact ⟨'>', ['>'], rfl, rfl⟩
  | _ => exact ⟨_, [], rfl, rfl⟩

theorem extent_of_isNameStart (hc : isNameStart c = true) (cs : List Char) : extent c cs = wordExtent c cs := by
  unfold extent
  split
  iterate 25 exact absurd hc (by decide)
  rw [if_neg (Bool.eq_false_iff.1 (isDigit_of_isNameStart hc)), if_pos hc]

theorem cutOff_keyword {k : Keyword} (hk : k.text.toList = text) (h : Longest IsWord text rest) :
    CutOff (.token (.keyword k)) text rest := by
  obtain ⟨c, run, rfl, -, -⟩ := h.holds
  obtain ⟨hc, long⟩ := longest_isWord_iff.1 h
  have found : Keyword.ofText? (String.ofList (c :: run)) = some k :=
    ofText?_eq_some_iff.2 (by rw [← hk, String.ofList_toList])
  refine ⟨c, run, rfl, ?_⟩
  rw [extent_of_isNameStart hc]
  unfold wordExtent
  simp only [long.takeWhile_eq, found]

theorem cutOff_identifier (hk : ∀ k : Keyword, k.text.toList ≠ text) (h : Longest IsWord text rest) :
    CutOff (.token .identifier) text rest := by
  obtain ⟨c, run, rfl, -, -⟩ := h.holds
  obtain ⟨hc, long⟩ := longest_isWord_iff.1 h
  have notFound : Keyword.ofText? (String.ofList (c :: run)) = none := by
    refine Option.eq_none_iff_forall_not_mem.2 fun k found => hk k ?_
    rw [ofText?_eq_some_iff.1 found, String.toList_ofList]
  refine ⟨c, run, rfl, ?_⟩
  rw [extent_of_isNameStart hc]
  unfold wordExtent
  simp only [long.takeWhile_eq, notFound]

theorem extent_of_isDigit (hc : isDigit c = true) (cs : List Char) : extent c cs = numberExtent c cs := by
  unfold extent
  split
  iterate 25 exact absurd hc (by decide)
  rw [if_pos hc]

theorem numberExtent_whole {run : List Char} (h : Longest (Of isDigit) run rest)
    (noPoint : ∀ d after, rest = '.' :: d :: after → isDigit d = false) :
    numberExtent c (run ++ rest) = ⟨.token (.number (Number.ofDecimal (c :: run) [])), run.length⟩ := by
  unfold numberExtent
  simp only [h.takeWhile_eq, h.dropWhile_eq]
  split
  · next after =>
    have none : after.takeWhile isDigit = [] := by
      cases after with
      | nil => rfl
      | cons d after => simp [noPoint d after rfl]
    rw [none]
    rfl
  · rfl

theorem numberExtent_decimal {run fraction : List Char} (hd : Of isDigit run) (hne : fraction ≠ [])
    (hf : Longest (Of isDigit) fraction rest) : numberExtent c (run ++ '.' :: fraction ++ rest) =
      ⟨.token (.number (Number.ofDecimal (c :: run) fraction)), (run ++ '.' :: fraction).length⟩ := by
  have whole := longest_digits_point hd (fraction ++ rest)
  rw [List.append_assoc, List.cons_append]
  unfold numberExtent
  simp only [whole.takeWhile_eq, whole.dropWhile_eq, hf.takeWhile_eq, List.isEmpty_iff, hne, List.length_append,
    List.length_cons]
  rw [if_neg (by simp), Nat.add_assoc, Nat.add_comm 1]

theorem cutOff_number {value : Float} (hv : Numeral text value) (h : Longest IsNumeral text rest) :
    CutOff (.token (.number value)) text rest := by
  cases hv with
  | whole hne hd =>
    obtain ⟨long, noPoint⟩ := (longest_whole_iff hne hd).1 h
    obtain ⟨c, run, rfl⟩ := List.exists_cons_of_ne_nil hne
    obtain ⟨hc, long⟩ := longest_of_cons_iff.1 long
    exact ⟨c, run, rfl, (extent_of_isDigit hc _).trans (numberExtent_whole long noPoint)⟩
  | decimal hne hd hfne hf =>
    have long := (longest_decimal_iff hne hd hfne hf).1 h
    obtain ⟨c, run, rfl⟩ := List.exists_cons_of_ne_nil hne
    obtain ⟨hc, hrun⟩ := List.forall_mem_cons.1 hd
    exact ⟨c, _, rfl, (extent_of_isDigit hc _).trans (numberExtent_decimal hrun hfne long)⟩

theorem cutOff_string (h : Of (· != '"') cs) :
    CutOff (.token (.string (String.ofList cs))) ('"' :: (cs ++ ['"'])) rest := by
  have long : Longest (Of (· != '"')) cs ('"' :: rest) := longest_of_iff.2 ⟨h, by simp⟩
  refine ⟨'"', cs ++ ['"'], rfl, ?_⟩
  rw [List.append_assoc]
  change stringExtent (cs ++ '"' :: rest) = _
  unfold stringExtent
  simp only [long.takeWhile_eq, List.length_append, List.length_cons]
  rw [if_pos (by omega)]
  rfl

theorem cutOff_openString (h : Of (· != '"') cs) :
    CutOff (.openString (String.ofList cs)) ('"' :: cs) [] := by
  have long : Longest (Of (· != '"')) cs [] := longest_of_iff.2 ⟨h, by simp⟩
  refine ⟨'"', cs, rfl, ?_⟩
  change stringExtent (cs ++ []) = _
  unfold stringExtent
  simp only [long.takeWhile_eq]
  rw [if_neg (by simp)]

theorem Foreign.not_symbol (h : Foreign c) {s : Symbol} (hs : s.text.toList.head? = some c) {e : Extent} :
    ⟨.token (.symbol s), 0⟩ = e :=
  absurd hs (h.notSymbol s)

theorem cutOff_stray (h : Foreign c) : CutOff (.stray c) [c] rest := by
  refine ⟨c, [], rfl, ?_⟩
  unfold extent
  split
  iterate 15 exact h.not_symbol rfl
  · exact absurd rfl (h.notSymbol .bang)
  · exact absurd rfl (h.notSymbol .equal)
  · exact absurd rfl (h.notSymbol .less)
  · exact absurd rfl (h.notSymbol .greater)
  iterate 4 exact absurd (by decide) h.notBlank
  · exact absurd rfl (h.notSymbol .slash)
  · exact absurd rfl h.notQuote
  · rw [if_neg (Bool.eq_false_iff.1 h.notDigit), if_neg (Bool.eq_false_iff.1 h.notName)]
    rfl

end CutOff

theorem cut_true_of_ne_nil {cs : List Char} (h : cs ≠ []) : cut true cs =
    ⟨(commentExtent 0 cs).kind, cs.take (commentExtent 0 cs).more⟩ :: cutPlain (cs.drop (commentExtent 0 cs).more) := by
  unfold cut
  rw [if_pos (by simp [h])]

/-- A piece that stands before the rest is the one that is cut off. -/
theorem Stands.cut_eq {inComment : Bool} {p : Piece} {rest : List Char} (h : Stands inComment p rest) :
    cut inComment (p.text ++ rest) = p :: cut false rest := by
  cases h with
  | blank h => exact (cutOff_blank h).cutPlain_eq
  | lineComment h => exact (cutOff_lineComment h).cutPlain_eq
  | blockComment h => exact (cutOff_blockComment h).cutPlain_eq
  | openComment h => exact (cutOff_openComment h).cutPlain_eq
  | carriedComment h =>
    rw [cut_true_of_ne_nil (List.append_ne_nil_of_left_ne_nil h.ne_nil _), commentExtent_closes h, Nat.zero_add,
      List.take_left, List.drop_left]
    rfl
  | carriedOpen hne h =>
    rw [List.append_nil, cut_true_of_ne_nil hne, commentExtent_unclosed h, Nat.zero_add, List.take_length,
      List.drop_length]
    rfl
  | symbol hs h =>
    subst hs
    exact (cutOff_symbol h).cutPlain_eq
  | keyword hk h => exact (cutOff_keyword hk h).cutPlain_eq
  | identifier hk h => exact (cutOff_identifier hk h).cutPlain_eq
  | number hv h => exact (cutOff_number hv h).cutPlain_eq
  | string h => exact (cutOff_string h).cutPlain_eq
  | openString h => exact (cutOff_openString h).cutPlain_eq
  | stray h => exact (cutOff_stray h).cutPlain_eq

/-! ## Every text has one cut -/

theorem Stands.text_ne_nil {inComment : Bool} {p : Piece} {rest : List Char} (h : Stands inComment p rest) :
    p.text ≠ [] := by
  cases h with
  | carriedComment h => exact h.ne_nil
  | carriedOpen hne _ => exact hne
  | symbol hs h =>
    subst hs
    obtain ⟨c, run, he, -⟩ := cutOff_symbol h
    exact he ▸ List.cons_ne_nil c run
  | keyword _ h | identifier _ h =>
    obtain ⟨c, run, rfl, -, -⟩ := h.holds
    exact List.cons_ne_nil c run
  | number hv _ =>
    cases hv with
    | whole hne _ => exact hne
    | decimal hne _ _ _ => exact List.append_ne_nil_of_left_ne_nil hne _
  | _ => exact List.cons_ne_nil _ _

section IsCut

variable {inComment : Bool} {source : List Char} {p : Piece} {ps : List Piece}

theorem isCut_nil : IsCut inComment source [] ↔ source = [] := by
  constructor
  · intro h
    exact h.whole.symm
  · rintro rfl
    constructor
    · rfl
    · intro before p after he
      simp at he

theorem isCut_cons : IsCut inComment source (p :: ps) ↔
    ∃ rest, source = p.text ++ rest ∧ Stands inComment p rest ∧ IsCut false rest ps := by
  constructor
  · intro h
    refine ⟨ps.flatMap Piece.text, h.whole.symm, ?_, rfl, ?_⟩
    · simpa using h.stands [] p ps rfl
    · intro before q after he
      simpa using h.stands (p :: before) q after (by rw [he, List.cons_append])
  · rintro ⟨rest, rfl, hp, hps⟩
    constructor
    · rw [List.flatMap_cons, hps.whole]
    · intro before q after he
      cases before with
      | nil =>
        cases he
        rw [hps.whole]
        simpa using hp
      | cons b before =>
        cases he
        simpa using hps.stands before q after rfl

@[simp] theorem cut_nil (inComment : Bool) : cut inComment [] = [] := by
  simp [cut, cutPlain]

theorem IsCut.cut_eq (h : IsCut inComment source ps) : cut inComment source = ps := by
  induction ps generalizing inComment source with
  | nil => rw [isCut_nil.1 h, cut_nil]
  | cons p ps ih =>
    obtain ⟨rest, rfl, hp, hps⟩ := isCut_cons.1 h
    rw [hp.cut_eq, ih hps]

theorem exists_isCut (inComment : Bool) (source : List Char) : ∃ ps, IsCut inComment source ps := by
  by_cases hne : source = []
  · exact ⟨[], isCut_nil.2 hne⟩
  · obtain ⟨p, rest, rfl, hp⟩ := starts inComment hne
    have shorter : rest.length < (p.text ++ rest).length := by
      rw [List.length_append]
      exact Nat.lt_add_of_pos_left (List.length_pos_iff.2 hp.text_ne_nil)
    obtain ⟨ps, hps⟩ := exists_isCut false rest
    exact ⟨p :: ps, isCut_cons.2 ⟨rest, rfl, hp, hps⟩⟩
termination_by source.length

/-- A text has exactly one cut into pieces that stand one after the other. -/
theorem isCut_iff : IsCut inComment source ps ↔ ps = cut inComment source := by
  constructor
  · intro h
    exact h.cut_eq.symm
  · intro he
    obtain ⟨ps', h⟩ := exists_isCut inComment source
    rw [he, h.cut_eq]
    exact h

-- A point belongs to a numeral only between digits, and only once.
example : (cut false "1.5.2.x".toList).map (String.ofList ·.text) = ["1.5", ".", "2", ".", "x"] := by decide +kernel

theorem isCut_cut (inComment : Bool) (source : List Char) : IsCut inComment source (cut inComment source) :=
  isCut_iff.2 rfl

/-- The pieces have all characters of the text. -/
theorem flatMap_cut (inComment : Bool) (source : List Char) : (cut inComment source).flatMap Piece.text = source :=
  (isCut_cut inComment source).whole

theorem stands_of_mem_cut (hp : p ∈ cut inComment source) : ∃ open? rest, Stands open? p rest := by
  obtain ⟨before, after, he⟩ := List.append_of_mem hp
  exact ⟨_, _, (isCut_cut inComment source).stands before p after he⟩

end IsCut

/-- No piece is the end of the input. -/
theorem cut_ne_end (inComment : Bool) (cs : List Char) : ∀ p ∈ cut inComment cs, p.kind ≠ .token .endOfInput := by
  intro p hp
  obtain ⟨_, _, h⟩ := stands_of_mem_cut hp
  cases h <;> simp

/-! ## Blanks between pieces -/

theorem notBlank_of_isNamePart {c : Char} (h : isNamePart c = true) : c ∉ blanks := by
  intro hb
  obtain rfl | rfl | rfl | rfl := mem_blanks.1 hb <;> exact absurd h (by decide)

theorem notBlank_of_isDigit {c : Char} (h : isDigit c = true) : c ∉ blanks :=
  notBlank_of_isNamePart (by rw [isNamePart, h, Bool.or_true])

theorem IsMark.notBlank {text : List Char} (h : IsMark text) : ∀ c ∈ text, c ∉ blanks := by
  have apart : text.all (!blanks.contains ·) = true := by
    obtain ⟨s, rfl⟩ | rfl | rfl := h
    · cases s <;> rfl
    · rfl
    · rfl
  intro c hc
  simpa using List.all_eq_true.1 apart c hc

theorem IsWord.notBlank {text : List Char} (h : IsWord text) : ∀ c ∈ text, c ∉ blanks := by
  obtain ⟨c, cs, rfl, hc, hcs⟩ := h
  have first : isNamePart c = true := by rw [isNamePart, hc, Bool.true_or]
  exact List.forall_mem_cons.2 ⟨notBlank_of_isNamePart first, fun d hd => notBlank_of_isNamePart (hcs d hd)⟩

theorem IsNumeral.notBlank {text : List Char} (h : IsNumeral text) : ∀ c ∈ text, c ∉ blanks := by
  obtain ⟨value, hv⟩ := h
  cases hv with
  | whole _ hd => exact fun c hc => notBlank_of_isDigit (hd c hc)
  | decimal _ hd _ hf =>
    rw [List.forall_mem_append, List.forall_mem_cons]
    refine ⟨?_, by decide, ?_⟩
    · exact fun c hc => notBlank_of_isDigit (hd c hc)
    · exact fun c hc => notBlank_of_isDigit (hf c hc)

section Blanks

variable {sep : Char} {text rest : List Char}

/-- A longest lexeme stays longest if a character is put after what follows that is in no such lexeme. -/
theorem Longest.before {P : List Char → Prop} (h : Longest P text rest) (hP : ∀ t, P t → sep ∉ t)
    (more : List Char) : Longest P text (rest ++ sep :: more) := by
  constructor
  · exact h.holds
  intro longer hne hpre hlonger
  have free : sep ∉ longer := by
    intro hmem
    exact hP _ hlonger (List.mem_append_right _ hmem)
  -- Without the character in it, what is added ends before the character.
  have within : longer <+: rest := by
    obtain ⟨after, he⟩ := hpre
    obtain ⟨middle, rfl, -⟩ | ⟨middle, rfl, tail⟩ := List.append_eq_append_iff.1 he
    · exact List.prefix_append longer middle
    · cases middle with
      | nil => simp
      | cons d middle =>
        obtain ⟨rfl, -⟩ := List.cons.inj tail
        simp at free
  exact h.maximal longer hne within hlonger

/-- A closed piece stands before a blank as well. Only a comment has to end at the end of its line. -/
theorem Stands.before {inComment : Bool} {p : Piece} (h : Stands inComment p rest) (hk : p.kind.isOpen = false)
    (hsep : sep ∈ blanks) (hc : p.kind = .comment → sep = '\n') (more : List Char) :
    Stands inComment p (rest ++ sep :: more) := by
  cases h with
  | blank h => exact .blank h
  | lineComment h =>
    cases hc rfl
    exact .lineComment (h.before (fun t ht hmem => by simpa using ht '\n' hmem) more)
  | blockComment h => exact .blockComment h
  | carriedComment h => exact .carriedComment h
  | symbol hs h => exact .symbol hs (h.before (fun t ht hmem => ht.notBlank _ hmem hsep) more)
  | keyword hw h => exact .keyword hw (h.before (fun t ht hmem => ht.notBlank _ hmem hsep) more)
  | identifier hw h => exact .identifier hw (h.before (fun t ht hmem => ht.notBlank _ hmem hsep) more)
  | number hv h => exact .number hv (h.before (fun t ht hmem => ht.notBlank _ hmem hsep) more)
  | string h => exact .string h
  | stray h => exact .stray h
  | openComment | carriedOpen | openString => cases hk

end Blanks

end Scriptlet.Piece
