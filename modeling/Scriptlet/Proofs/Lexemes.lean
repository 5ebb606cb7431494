import Mathlib.Data.List.TakeWhile
import Scriptlet.Token.Scanner

/-!
# The forms of pieces

What a blank, a comment, a lexeme and a stray character look like, and what may follow each of them, said without
regard to how a text is cut. Words, numerals and symbols reach as far as they can: no longer beginning of the text is
one. For numerals this is more than a condition on the next character, since a point only belongs to a numeral if a
digit follows it.

Every text that is not empty starts with a piece of one of these forms.
-/
namespace Scriptlet.Piece

/-! ## Forms -/

/-- The text has the property, and no continuation of it into what follows has it. -/
structure Longest (P : List Char → Prop) (text rest : List Char) : Prop where
  holds : P text
  maximal : ∀ more, more ≠ [] → more <+: rest → ¬ P (text ++ more)

/-- All characters are of one class. -/
def Of (p : Char → Bool) (text : List Char) : Prop := ∀ c ∈ text, p c = true

/-- A name or a keyword. -/
def IsWord (text : List Char) : Prop := ∃ c cs, text = c :: cs ∧ isNameStart c = true ∧ Of isNamePart cs

/-- Digits, or digits on both sides of a point, with the number that they stand for. -/
inductive Numeral : List Char → Float → Prop
  | whole {digits : List Char} (hne : digits ≠ []) (h : Of isDigit digits) :
    Numeral digits (Number.ofDecimal digits [])
  | decimal {digits fraction : List Char} (hne : digits ≠ []) (h : Of isDigit digits) (hfne : fraction ≠ [])
    (hf : Of isDigit fraction) : Numeral (digits ++ '.' :: fraction) (Number.ofDecimal digits fraction)

def IsNumeral (text : List Char) : Prop := ∃ value, Numeral text value

/-- A symbol or the start of a comment. -/
def IsMark (text : List Char) : Prop :=
  (∃ s : Symbol, s.text.toList = text) ∨ text = ['/', '/'] ∨ text = ['/', '*']

/-- No block comment ends in the text. -/
def Unclosed (text : List Char) : Prop := ¬ ['*', '/'] <:+: text

/-- The end of a block comment is the end of the text, and it is the only one. -/
structure Closes (text : List Char) : Prop where
  closed : ['*', '/'] <:+ text
  first : Unclosed text.dropLast

def blanks : List Char := [' ', '\r', '\t', '\n']

/-- Nothing else starts with the character. -/
structure Foreign (c : Char) : Prop where
  notBlank : c ∉ blanks
  notQuote : c ≠ '"'
  notDigit : isDigit c = false
  notName : isNameStart c = false
  notSymbol : ∀ s : Symbol, s.text.toList.head? ≠ some c

/-- The kinds of pieces that are left open. -/
def Kind.isOpen : Kind → Bool
  | .openComment | .openString _ => true
  | _ => false

/-- The piece has the form of its kind and `rest` follows it. The flag says that a block comment is open where the
piece starts. -/
inductive Stands : Bool → Piece → List Char → Prop
  | blank {c : Char} {rest : List Char} (h : c ∈ blanks) : Stands false ⟨.blank, [c]⟩ rest
  | lineComment {cs rest : List Char} (h : Longest (Of (· != '\n')) cs rest) :
    Stands false ⟨.comment, '/' :: '/' :: cs⟩ rest
  | blockComment {cs rest : List Char} (h : Closes cs) : Stands false ⟨.comment, '/' :: '*' :: cs⟩ rest
  | openComment {cs : List Char} (h : Unclosed cs) : Stands false ⟨.openComment, '/' :: '*' :: cs⟩ []
  | carriedComment {cs rest : List Char} (h : Closes cs) : Stands true ⟨.comment, cs⟩ rest
  | carriedOpen {cs : List Char} (hne : cs ≠ []) (h : Unclosed cs) : Stands true ⟨.openComment, cs⟩ []
  | symbol {s : Symbol} {text rest : List Char} (hs : s.text.toList = text) (h : Longest IsMark text rest) :
    Stands false ⟨.token (.symbol s), text⟩ rest
  | keyword {k : Keyword} {text rest : List Char} (hk : k.text.toList = text) (h : Longest IsWord text rest) :
    Stands false ⟨.token (.keyword k), text⟩ rest
  | identifier {text rest : List Char} (hk : ∀ k : Keyword, k.text.toList ≠ text) (h : Longest IsWord text rest) :
    Stands false ⟨.token .identifier, text⟩ rest
  | number {value : Float} {text rest : List Char} (hv : Numeral text value) (h : Longest IsNumeral text rest) :
    Stands false ⟨.token (.number value), text⟩ rest
  | string {cs rest : List Char} (h : Of (· != '"') cs) :
    Stands false ⟨.token (.string (String.ofList cs)), '"' :: (cs ++ ['"'])⟩ rest
  | openString {cs : List Char} (h : Of (· != '"') cs) :
    Stands false ⟨.openString (String.ofList cs), '"' :: cs⟩ []
  | stray {c : Char} {rest : List Char} (h : Foreign c) : Stands false ⟨.stray c, [c]⟩ rest

/-- The pieces make up the text, and each of them stands before the ones after it. -/
structure IsCut (inComment : Bool) (source : List Char) (pieces : List Piece) : Prop where
  whole : pieces.flatMap Piece.text = source
  stands : ∀ before p after, pieces = before ++ p :: after →
    Stands (inComment && before.isEmpty) p (after.flatMap Piece.text)

/-! ## Classes of characters -/

theorem mem_blanks {c : Char} : c ∈ blanks ↔ c = ' ' ∨ c = '\r' ∨ c = '\t' ∨ c = '\n' := by
  simp [blanks]

section Classes

variable {p : Char → Bool} {run rest : List Char}

/-- A run of characters of a class is longest if the next character is of another class. -/
theorem longest_of_iff : Longest (Of p) run rest ↔ Of p run ∧ ∀ c ∈ rest.head?, p c = false := by
  constructor
  · intro h
    constructor
    · exact h.holds
    · intro c hc
      obtain ⟨after, rfl⟩ := List.head?_eq_some_iff.1 hc
      have stops := h.maximal [c] (by simp) (by simp)
      rw [Of, List.forall_mem_append, List.forall_mem_singleton, not_and] at stops
      simpa using stops h.holds
  · intro h
    constructor
    · exact h.1
    · intro more hne hpre longer
      obtain ⟨c, cs, rfl⟩ := List.exists_cons_of_ne_nil hne
      obtain ⟨after, rfl⟩ := hpre
      have here : p c = true := longer c (by simp)
      simp [h.2 c (by simp)] at here

theorem longest_of_cons_iff {c : Char} :
    Longest (Of p) (c :: run) rest ↔ p c = true ∧ Longest (Of p) run rest := by
  rw [longest_of_iff, longest_of_iff, Of, List.forall_mem_cons, and_assoc, Of]

theorem Longest.takeWhile_eq (h : Longest (Of p) run rest) : (run ++ rest).takeWhile p = run := by
  obtain ⟨all, stops⟩ := longest_of_iff.1 h
  rw [List.takeWhile_append_of_pos all]
  cases rest with
  | nil => exact List.append_nil run
  | cons c rest => rw [List.takeWhile_cons_of_neg (Bool.eq_false_iff.1 (stops c rfl)), List.append_nil]

theorem Longest.dropWhile_eq (h : Longest (Of p) run rest) : (run ++ rest).dropWhile p = rest := by
  obtain ⟨all, stops⟩ := longest_of_iff.1 h
  rw [List.dropWhile_append_of_pos all]
  cases rest with
  | nil => rfl
  | cons c rest => rw [List.dropWhile_cons_of_neg (Bool.eq_false_iff.1 (stops c rfl))]

/-- A text starts with a longest run of characters of a class. -/
theorem exists_longest_of (p : Char → Bool) (cs : List Char) :
    ∃ run rest, cs = run ++ rest ∧ Longest (Of p) run rest := by
  induction cs with
  | nil => exact ⟨[], [], rfl, longest_of_iff.2 (by simp [Of])⟩
  | cons c cs ih =>
    cases hc : p c with
    | false => exact ⟨[], c :: cs, rfl, longest_of_iff.2 (by simp [Of, hc])⟩
    | true =>
      obtain ⟨run, rest, rfl, h⟩ := ih
      exact ⟨c :: run, rest, rfl, longest_of_cons_iff.2 ⟨hc, h⟩⟩

/-- Only one run of the class is longest. -/
theorem Longest.append_inj {run' rest' : List Char} (h : Longest (Of p) run rest)
    (h' : Longest (Of p) run' rest') (he : run ++ rest = run' ++ rest') : run = run' ∧ rest = rest' := by
  have runs : run = run' := by rw [← h.takeWhile_eq, he, h'.takeWhile_eq]
  exact ⟨runs, List.append_cancel_left (runs ▸ he)⟩

end Classes

/-! ## Words -/

theorem longest_isWord_iff {c : Char} {cs rest : List Char} :
    Longest IsWord (c :: cs) rest ↔ isNameStart c = true ∧ Longest (Of isNamePart) cs rest := by
  have step (more : List Char) : IsWord (c :: cs ++ more) ↔ isNameStart c = true ∧ Of isNamePart (cs ++ more) := by
    constructor
    · rintro ⟨d, ds, he, hd, hds⟩
      cases he
      exact ⟨hd, hds⟩
    · rintro ⟨hc, hcs⟩
      exact ⟨c, cs ++ more, rfl, hc, hcs⟩
  constructor
  · intro h
    obtain ⟨hc, hcs⟩ := (step []).1 (by simpa using h.holds)
    refine ⟨hc, by simpa using hcs, ?_⟩
    intro more hne hpre longer
    exact h.maximal more hne hpre ((step more).2 ⟨hc, longer⟩)
  · rintro ⟨hc, h⟩
    constructor
    · exact ⟨c, cs, rfl, hc, h.holds⟩
    · intro more hne hpre longer
      exact h.maximal more hne hpre ((step more).1 longer).2

theorem ofText?_text (k : Keyword) : Keyword.ofText? k.text = some k := by
  cases k <;> decide

theorem ofText?_eq_some_iff {word : String} {k : Keyword} : Keyword.ofText? word = some k ↔ k.text = word := by
  constructor
  · intro h
    have found := List.find?_some h
    exact beq_iff_eq.1 found
  · rintro rfl
    exact ofText?_text k

/-! ## Numerals -/

section Numerals

variable {digits fraction rest : List Char}

theorem longest_digits_point (hd : Of isDigit digits) (after : List Char) :
    Longest (Of isDigit) digits ('.' :: after) := by
  rw [longest_of_iff]
  exact ⟨hd, by simp [isDigit]⟩

/-- After whole digits a numeral can only go on with more digits or with a point and a digit. -/
theorem longest_whole_iff (hne : digits ≠ []) (hd : Of isDigit digits) : Longest IsNumeral digits rest ↔
    Longest (Of isDigit) digits rest ∧ ∀ d after, rest = '.' :: d :: after → isDigit d = false := by
  constructor
  · intro h
    constructor
    · constructor
      · exact hd
      · intro more hmore hpre longer
        exact h.maximal more hmore hpre ⟨_, .whole (List.append_ne_nil_of_left_ne_nil hne _) longer⟩
    · intro d after he
      by_contra digit
      have fraction : Of isDigit [d] := by simpa [Of] using digit
      exact h.maximal ['.', d] (by simp) ⟨after, he.symm⟩ ⟨_, .decimal hne hd (by simp) fraction⟩
  · rintro ⟨h, noPoint⟩
    constructor
    · exact ⟨_, .whole hne hd⟩
    rintro more hmore hpre ⟨value, hv⟩
    generalize ht : digits ++ more = text at hv
    cases hv with
    | whole _ longer => exact h.maximal more hmore hpre (ht ▸ longer)
    | @decimal digits' fraction _ hd' hfne hf =>
      -- Both rows of digits end before the same character, so it is the point.
      obtain ⟨after, rfl⟩ := hpre
      obtain ⟨c, cs, rfl⟩ := List.exists_cons_of_ne_nil hmore
      have stop : Longest (Of isDigit) digits (c :: cs) := longest_of_iff.2 ⟨hd, (longest_of_iff.1 h).2⟩
      obtain ⟨-, he⟩ := stop.append_inj (longest_digits_point hd' fraction) ht
      obtain ⟨d, ds, rfl⟩ := List.exists_cons_of_ne_nil hfne
      cases he
      have digit : isDigit d = true := hf d (by simp)
      simp [noPoint d (ds ++ after) rfl] at digit

/-- After a fraction a numeral can only go on with more digits. -/
theorem longest_decimal_iff (hne : digits ≠ []) (hd : Of isDigit digits) (hfne : fraction ≠ [])
    (hf : Of isDigit fraction) :
    Longest IsNumeral (digits ++ '.' :: fraction) rest ↔ Longest (Of isDigit) fraction rest := by
  constructor
  · intro h
    constructor
    · exact hf
    · intro more hmore hpre longer
      have numeral := Numeral.decimal hne hd (List.append_ne_nil_of_left_ne_nil hfne more) longer
      apply h.maximal more hmore hpre
      rw [List.append_assoc, List.cons_append]
      exact ⟨_, numeral⟩
  · intro h
    constructor
    · exact ⟨_, .decimal hne hd hfne hf⟩
    rintro more hmore hpre ⟨value, hv⟩
    generalize ht : digits ++ '.' :: fraction ++ more = text at hv
    rw [List.append_assoc, List.cons_append] at ht
    cases hv with
    | whole _ all =>
      have point : isDigit '.' = true := all '.' (by simp [← ht])
      simp [isDigit] at point
    | @decimal digits' fraction' _ hd' _ hf' =>
      obtain ⟨-, he⟩ := (longest_digits_point hd _).append_inj (longest_digits_point hd' _) ht
      cases he
      exact h.maximal more hmore hpre hf'

end Numerals

/-! ## Symbols and comments -/

theorem IsMark.length_le {text : List Char} (h : IsMark text) : text.length ≤ 2 := by
  obtain ⟨s, rfl⟩ | rfl | rfl := h
  · cases s <;> decide
  · exact Nat.le_refl 2
  · exact Nat.le_refl 2

theorem longest_pair {c d : Char} (h : IsMark [c, d]) (rest : List Char) : Longest IsMark [c, d] rest := by
  constructor
  · exact h
  · intro more hmore _ longer
    have short := longer.length_le
    simp [hmore] at short

theorem longest_single_iff {c : Char} (h : IsMark [c]) {rest : List Char} :
    Longest IsMark [c] rest ↔ ∀ d ∈ rest.head?, ¬ IsMark [c, d] := by
  constructor
  · intro hl d hd
    obtain ⟨after, rfl⟩ := List.head?_eq_some_iff.1 hd
    exact hl.maximal [d] (by simp) (by simp)
  · intro hn
    constructor
    · exact h
    · intro more hmore hpre longer
      obtain ⟨d, ds, rfl⟩ := List.exists_cons_of_ne_nil hmore
      obtain ⟨after, rfl⟩ := hpre
      have short := longer.length_le
      cases ds with
      | nil => exact hn d rfl longer
      | cons e es => simp at short

/-- A symbol of one character starts each symbol. -/
theorem exists_single (s : Symbol) {c : Char} (h : s.text.toList.head? = some c) :
    ∃ s' : Symbol, s'.text.toList = [c] := by
  by_cases alone : s.text.toList.tail = []
  · obtain ⟨after, he⟩ := List.head?_eq_some_iff.1 h
    rw [he] at alone
    exact ⟨s, he.trans (congrArg _ alone)⟩
  · cases s with
    | bangEqual => cases h; exact ⟨.bang, rfl⟩
    | equalEqual => cases h; exact ⟨.equal, rfl⟩
    | greaterEqual | shiftRight => cases h; exact ⟨.greater, rfl⟩
    | lessEqual | shiftLeft => cases h; exact ⟨.less, rfl⟩
    | _ => exact absurd rfl alone

/-- The first end of a comment is where it was if more follows. -/
theorem closeLength?_append {cs : List Char} {n : Nat} (h : closeLength? cs = some n) (rest : List Char) :
    closeLength? (cs ++ rest) = some n := by
  fun_induction closeLength? cs generalizing n with
  | case1 => exact h
  | case2 c cs hne ih =>
    obtain ⟨k, hk, rfl⟩ := Option.map_eq_some_iff.1 h
    rw [List.cons_append, closeLength?, ih hk]
    · rfl
    · rintro more rfl happend
      cases cs with
      | nil => cases hk
      | cons d cs =>
        cases happend
        exact hne cs rfl rfl
  | case3 => cases h

theorem closeLength?_le {cs : List Char} {n : Nat} (h : closeLength? cs = some n) : n ≤ cs.length := by
  fun_induction closeLength? cs generalizing n with
  | case1 cs =>
    cases h
    exact Nat.le_add_left 2 _
  | case2 c cs hne ih =>
    obtain ⟨k, hk, rfl⟩ := Option.map_eq_some_iff.1 h
    exact Nat.succ_le_succ (ih hk)
  | case3 => cases h

theorem unclosed_nil : Unclosed [] := by
  unfold Unclosed
  decide

theorem closeLength?_eq_none_iff {cs : List Char} : closeLength? cs = none ↔ Unclosed cs := by
  fun_induction closeLength? cs with
  | case1 cs => exact iff_of_false nofun (not_not_intro (List.prefix_append ['*', '/'] cs).isInfix)
  | case2 c cs hne ih =>
    unfold Unclosed at ih ⊢
    rw [Option.map_eq_none_iff, ih, List.infix_cons_iff, not_or, iff_and_self]
    rintro - ⟨after, he⟩
    cases he
    exact hne after rfl rfl
  | case3 => exact iff_of_true rfl unclosed_nil

theorem Closes.ne_nil {cs : List Char} (h : Closes cs) : cs ≠ [] := by
  rintro rfl
  simpa using h.closed

theorem closes_take {cs : List Char} {n : Nat} (h : closeLength? cs = some n) : Closes (cs.take n) := by
  fun_induction closeLength? cs generalizing n with
  | case1 cs =>
    cases h
    constructor
    · exact List.suffix_refl ['*', '/']
    · change ¬ ['*', '/'] <:+: ['*']
      decide
  | case2 c cs hne ih =>
    obtain ⟨k, hk, rfl⟩ := Option.map_eq_some_iff.1 h
    obtain ⟨closed, first⟩ := ih hk
    have more : cs.take k ≠ [] := (ih hk).ne_nil
    rw [List.take_succ_cons]
    constructor
    · exact closed.trans (List.suffix_cons _ _)
    · rw [List.dropLast_cons_of_ne_nil more]
      unfold Unclosed
      rw [List.infix_cons_iff, not_or]
      refine ⟨?_, first⟩
      -- An end of a comment at the first character would have been found.
      rintro ⟨after, he⟩
      obtain ⟨rfl, tail⟩ := List.cons.inj he
      have start : ['/'] <+: (cs.take k).dropLast := ⟨after, tail⟩
      obtain ⟨after, rfl⟩ := start.trans ((List.dropLast_prefix _).trans (List.take_prefix _ _))
      exact hne after rfl rfl
  | case3 => cases h

theorem Closes.closeLength?_eq {cs : List Char} (h : Closes cs) (rest : List Char) :
    closeLength? (cs ++ rest) = some cs.length := by
  cases hn : closeLength? cs with
  | none => exact absurd h.closed.isInfix (closeLength?_eq_none_iff.1 hn)
  | some n =>
    have within := closeLength?_le hn
    have whole : n = cs.length := by
      -- A shorter comment would end before the last character.
      by_contra different
      apply h.first
      have before : cs.take n <+: cs.dropLast := by
        rw [List.dropLast_eq_take]
        exact List.take_prefix_take_left (by omega)
      exact (closes_take hn).closed.isInfix.trans before.isInfix
    rw [closeLength?_append hn, whole]

/-! ## Every text starts with a piece -/

section Starts

variable {c : Char}

/-- The text starts with a piece that stands before the rest. -/
def Starts (inComment : Bool) (source : List Char) : Prop :=
  ∃ p rest, source = p.text ++ rest ∧ Stands inComment p rest

theorem starts_quote (cs : List Char) : Starts false ('"' :: cs) := by
  obtain ⟨run, rest, rfl, h⟩ := exists_longest_of (· != '"') cs
  cases rest with
  | nil => exact ⟨_, [], by simp, .openString h.holds⟩
  | cons d rest =>
    have quote : (d != '"') = false := (longest_of_iff.1 h).2 d rfl
    obtain rfl : d = '"' := by simpa using quote
    exact ⟨_, rest, by simp, .string h.holds⟩

theorem starts_digit (hc : isDigit c = true) (cs : List Char) : Starts false (c :: cs) := by
  obtain ⟨run, rest, rfl, h⟩ := exists_longest_of isDigit cs
  have long := longest_of_cons_iff.2 ⟨hc, h⟩
  by_cases point : ∃ d after, rest = '.' :: d :: after ∧ isDigit d = true
  · obtain ⟨d, after, rfl, hd⟩ := point
    obtain ⟨run', rest, rfl, h'⟩ := exists_longest_of isDigit after
    have long' := longest_of_cons_iff.2 ⟨hd, h'⟩
    have numeral := Numeral.decimal (by simp) long.holds (by simp) long'.holds
    have longest := (longest_decimal_iff (by simp) long.holds (by simp) long'.holds).2 long'
    exact ⟨_, rest, by simp, .number numeral longest⟩
  · have noPoint : ∀ d after, rest = '.' :: d :: after → isDigit d = false := by
      intro d after he
      by_contra digit
      exact point ⟨d, after, he, by simpa using digit⟩
    have longest := (longest_whole_iff (by simp) long.holds).2 ⟨long, noPoint⟩
    exact ⟨_, rest, rfl, .number (.whole (by simp) long.holds) longest⟩

theorem starts_name (hc : isNameStart c = true) (cs : List Char) : Starts false (c :: cs) := by
  obtain ⟨run, rest, rfl, h⟩ := exists_longest_of isNamePart cs
  have long := longest_isWord_iff.2 ⟨hc, h⟩
  by_cases hk : ∃ k : Keyword, k.text.toList = c :: run
  · obtain ⟨k, hk⟩ := hk
    exact ⟨⟨_, c :: run⟩, rest, rfl, .keyword hk long⟩
  · exact ⟨⟨_, c :: run⟩, rest, rfl, .identifier (not_exists.1 hk) long⟩

theorem starts_lineComment (cs : List Char) : Starts false ('/' :: '/' :: cs) := by
  obtain ⟨run, rest, rfl, h⟩ := exists_longest_of (· != '\n') cs
  exact ⟨_, rest, rfl, .lineComment h⟩

theorem starts_blockComment (cs : List Char) : Starts false ('/' :: '*' :: cs) := by
  cases h : closeLength? cs with
  | none => exact ⟨_, [], by simp, .openComment (closeLength?_eq_none_iff.1 h)⟩
  | some n => exact ⟨_, cs.drop n, by simp, .blockComment (closes_take h)⟩

theorem starts_carried {cs : List Char} (hne : cs ≠ []) : Starts true cs := by
  cases h : closeLength? cs with
  | none => exact ⟨_, [], by simp, .carriedOpen hne (closeLength?_eq_none_iff.1 h)⟩
  | some n => exact ⟨_, cs.drop n, by simp, .carriedComment (closes_take h)⟩

theorem starts_symbol {s : Symbol} (hs : s.text.toList.head? = some c) (cs : List Char) : Starts false (c :: cs) := by
  obtain ⟨single, hsingle⟩ := exists_single s hs
  have mark : IsMark [c] := .inl ⟨single, hsingle⟩
  by_cases pair : ∃ d rest, cs = d :: rest ∧ IsMark [c, d]
  · obtain ⟨d, rest, rfl, hd⟩ := pair
    have long := longest_pair hd rest
    obtain ⟨s', hs'⟩ | he | he := hd
    · exact ⟨⟨_, [c, d]⟩, rest, rfl, .symbol hs' long⟩
    · cases he
      exact starts_lineComment rest
    · cases he
      exact starts_blockComment rest
  · have alone : ∀ d ∈ cs.head?, ¬ IsMark [c, d] := by
      intro d hd hmark
      obtain ⟨rest, rfl⟩ := List.head?_eq_some_iff.1 hd
      exact pair ⟨d, rest, rfl, hmark⟩
    exact ⟨⟨_, [c]⟩, cs, rfl, .symbol hsingle ((longest_single_iff mark).2 alone)⟩

theorem starts (inComment : Bool) {source : List Char} (hne : source ≠ []) : Starts inComment source := by
  cases inComment with
  | true => exact starts_carried hne
  | false =>
    obtain ⟨c, cs, rfl⟩ := List.exists_cons_of_ne_nil hne
    by_cases blank : c ∈ blanks
    · exact ⟨_, cs, rfl, .blank blank⟩
    by_cases quote : c = '"'
    · exact quote ▸ starts_quote cs
    cases digit : isDigit c with
    | true => exact starts_digit digit cs
    | false =>
      cases name : isNameStart c with
      | true => exact starts_name name cs
      | false =>
        by_cases symbol : ∃ s : Symbol, s.text.toList.head? = some c
        · obtain ⟨s, hs⟩ := symbol
          exact starts_symbol hs cs
        · exact ⟨_, cs, rfl, .stray ⟨blank, quote, digit, name, not_exists.1 symbol⟩⟩

end Starts

end Scriptlet.Piece
