import Scriptlet.Builtin.Call
import Scriptlet.Run.Operator
import Scriptlet.Proofs.DecimalReading
import Scriptlet.Proofs.Tracking

/-!
# Positions in strings

All methods of strings count characters, so they agree on where a character stands: the length, the array of
characters, single characters, substrings, padding and repetition. What a string is split into can be joined again.
-/
namespace Scriptlet

/-! ## Splitting -/

namespace Text

section Cutting

variable {separator part text : List Char} {skip : Nat}

theorem cutAt_ne_nil : cutAt separator skip part text ≠ [] := by
  induction text generalizing skip part with
  | nil => simp [cutAt]
  | cons c cs ih =>
    cases skip with
    | succ k => exact ih
    | zero =>
      rw [cutAt]
      split_ifs
      · simp
      · exact ih

/-- The parts with separators between them are the text, but for what is skipped. -/
theorem intercalate_cutAt (hne : separator ≠ []) :
    separator.intercalate (cutAt separator skip part text) = part.reverse ++ text.drop skip := by
  induction text generalizing skip part with
  | nil => simp [cutAt]
  | cons c cs ih =>
    cases skip with
    | succ k => exact ih
    | zero =>
      rw [cutAt]
      split_ifs with here
      · obtain ⟨after, he⟩ := List.isPrefixOf_iff_prefix.1 here
        obtain ⟨d, ds, rfl⟩ := List.exists_cons_of_ne_nil hne
        have rest : cs.drop ((d :: ds).length - 1) = after := by
          rw [List.cons_append, List.cons.injEq] at he
          rw [← he.2]
          simp
        rw [List.intercalate_cons_of_ne_nil cutAt_ne_nil, ih, rest, List.drop_zero, ← he]
        simp
      · rw [ih]
        simp

/-- No separator starts in the part, even if it reaches into the rest. -/
def Clear (separator part rest : List Char) : Prop := ∀ v, v ≠ [] → v <:+ part → ¬ separator <+: v ++ rest

theorem clear_nil (rest : List Char) : Clear separator [] rest :=
  fun _ hne hv => absurd (List.suffix_nil.1 hv) hne

theorem Clear.snoc {c : Char} {rest : List Char} (h : Clear separator part (c :: rest))
    (hc : ¬ separator <+: c :: rest) : Clear separator (part ++ [c]) rest := by
  intro v hne hv
  rcases List.suffix_concat_iff.1 hv with rfl | ⟨u, rfl, hu⟩
  · exact absurd rfl hne
  · rw [List.append_assoc]
    by_cases empty : u = []
    · subst empty
      exact hc
    · exact h u empty hu

theorem Clear.absent {rest : List Char} (h : Clear separator part rest) (hne : separator ≠ []) :
    ¬ separator <:+: part := by
  rintro ⟨before, after, he⟩
  refine h (separator ++ after) (List.append_ne_nil_of_left_ne_nil hne _) ⟨before, ?_⟩ ?_
  · rw [← List.append_assoc, he]
  · rw [List.append_assoc]
    exact List.prefix_append _ _

/-- No part has a separator in it. -/
theorem separator_absent_of_mem_cutAt (hne : separator ≠ []) (clear : Clear separator part.reverse (text.drop skip)) :
    ∀ p ∈ cutAt separator skip part text, ¬ separator <:+: p := by
  induction text generalizing skip part with
  | nil =>
    intro p hp
    rw [cutAt, List.mem_singleton] at hp
    rw [hp]
    exact clear.absent hne
  | cons c cs ih =>
    cases skip with
    | succ k => exact ih clear
    | zero =>
      rw [cutAt]
      split_ifs with here
      · exact List.forall_mem_cons.2 ⟨clear.absent hne, ih (clear_nil _)⟩
      · refine ih ?_
        rw [List.reverse_cons]
        exact clear.snoc fun h => here ( List.isPrefixOf_iff_prefix.2 h)

end Cutting

theorem nil_intercalate (parts : List (List Char)) : [].intercalate parts = parts.flatten := by
  induction parts with
  | nil => rfl
  | cons p ps ih =>
    by_cases last : ps = []
    · simp [last]
    · rw [List.intercalate_cons_of_ne_nil last, ih]
      simp

/-- The parts with separators between them are the text. -/
theorem intercalate_split (separator text : List Char) : separator.intercalate (split separator text) = text := by
  unfold split
  split_ifs with empty
  · rw [List.isEmpty_iff] at empty
    subst empty
    rw [nil_intercalate]
    simp [← List.flatMap_def]
  · rw [intercalate_cutAt (by simpa using empty)]
    simp

theorem separator_absent_of_mem_split {separator : List Char} (hne : separator ≠ []) (text : List Char) :
    ∀ p ∈ split separator text, ¬ separator <:+: p := by
  rw [split, if_neg (by simpa using hne)]
  exact separator_absent_of_mem_cutAt hne (clear_nil _)

end Text

/-! ## Strings as values -/

theorem Store.text_string (s : Store) (text : String) : s.text (.string text) = text := by
  unfold Store.text
  cases s.collections.size <;> rfl

theorem Store.equal_string (s : Store) (a b : String) : s.equal (.string a) (.string b) = (a == b) := by
  unfold Store.equal
  cases s.collections.size <;> rfl

theorem Eval.textOf_string (machine : Machine) (text : String) :
    Eval.textOf (.string text) machine = .ok text machine :=
  congrArg (EStateM.Result.ok · machine) (machine.store.text_string text)

theorem Eval.newCollection_listed (machine : Machine) (kind : CollectionKind) (elements : Array Value) :
    ∃ storage after, Eval.newCollection kind elements machine = .ok (.collection kind storage) after ∧
      after.store.elements storage = elements := by
  refine ⟨machine.store.collections.size, { machine with store := (machine.store.allocate elements).2 }, rfl, ?_⟩
  rw [Store.elements_allocate, if_pos rfl]

theorem BinaryOp.apply_add_string (machine : Machine) (line : Nat) (a b : String) :
    BinaryOp.add.apply line (.string a) (.string b) machine = .ok (.string (a ++ b)) machine :=
  (bind_of_ok (Eval.textOf_string machine a)).trans ((bind_of_ok (Eval.textOf_string machine b)).trans rfl)

theorem BinaryOp.apply_equal_string (machine : Machine) (line : Nat) (a b : String) :
    BinaryOp.equal.apply line (.string a) (.string b) machine = .ok (.bool (a == b)) machine :=
  congrArg (fun equal => EStateM.Result.ok (Value.bool equal) machine) (machine.store.equal_string a b)

namespace Builtin

variable {machine : Machine} {line : Nat} {text : String} {x : Float}

/-! ## Single characters -/

theorem position?_eq_some_iff {index : Int} {length i : Nat} {wrap : Bool} : position? index length wrap = some i ↔
    (0 ≤ index ∧ index < length ∨ wrap = true ∧ -(length : Int) ≤ index ∧ index < 0) ∧
      (i : Int) = if index < 0 then index + length else index := by
  unfold position?
  dsimp only
  cases wrap
  all_goals
    simp only [Bool.true_and, Bool.false_and, Bool.false_eq_true, if_false, Bool.and_eq_true, decide_eq_true_eq,
      true_and, false_and, or_false]
    split_ifs <;> simp only [Option.some_inj, false_iff] <;> omega

theorem position?_isSome_iff {index : Int} {length : Nat} {wrap : Bool} : (position? index length wrap).isSome ↔
    0 ≤ index ∧ index < length ∨ wrap = true ∧ -(length : Int) ≤ index ∧ index < 0 := by
  rw [Option.isSome_iff_exists]
  constructor
  · rintro ⟨i, hi⟩
    exact (position?_eq_some_iff.1 hi).1
  · intro range
    refine ⟨(if index < 0 then index + length else index).toNat, position?_eq_some_iff.2 ⟨range, ?_⟩⟩
    split_ifs <;> omega

/-- Negative indexes count from the end. -/
theorem position?_of_range {index : Int} {length : Nat} (h : -(length : Int) ≤ index ∧ index < length) :
    position? index length true = some (index % length).toNat := by
  refine position?_eq_some_iff.2 ⟨by simp only [true_and]; omega, ?_⟩
  split_ifs with negative
  · have wrapped : index % length = index + length := by
      rw [← Int.add_emod_right]
      exact Int.emod_eq_of_lt (by omega) (by omega)
    omega
  · have same : index % length = index := Int.emod_eq_of_lt (by omega) (by omega)
    omega

theorem position?_of_not_range {index : Int} {length : Nat} (h : ¬ (-(length : Int) ≤ index ∧ index < length)) :
    position? index length true = none := by
  rw [← Option.not_isSome_iff_eq_none, position?_isSome_iff]
  omega

section Characters

variable {i : Nat}

theorem charAt_of_some {index : Int} {c : Char} (h : position? index text.length true = some i)
    (hc : text.toList[i]? = some c) : charAt line text index machine = .ok (charText c) machine := by
  unfold charAt
  rw [h]
  dsimp only
  rw [hc]
  rfl

theorem charAt_of_none {index : Int} (h : position? index text.length true = none) :
    charAt line text index machine = .error (.fault line .positionOutOfRange) machine := by
  unfold charAt
  rw [h]
  rfl

variable {storage : StorageId}

theorem elementPosition_eq {kind : CollectionKind} {wrap : Bool} :
    elementPosition line kind wrap storage (.number x) machine =
      (position? (Number.toWord x) (machine.store.elements storage).size wrap).elim
        (.error (.fault line (.indexOutOfBounds kind (Number.toWord x))) machine) (.ok · machine) := by
  have index : integer line (.index kind) (.number x) machine = .ok (Number.toWord x) machine := rfl
  have store : Eval.getStore machine = .ok machine.store machine := rfl
  refine (bind_of_ok index).trans ((bind_of_ok store).trans ?_)
  cases position? (Number.toWord x) (machine.store.elements storage).size wrap <;> rfl

theorem get_eq : callArray line .get storage [.number x] machine =
    (position? (Number.toWord x) (machine.store.elements storage).size true).elim
      (.error (.fault line (.indexOutOfBounds .array (Number.toWord x))) machine)
      fun i => .ok ((machine.store.elements storage).getD i .null) machine := by
  have position : elementPosition line .array true storage (.number x) machine = _ := elementPosition_eq
  cases h : position? (Number.toWord x) (machine.store.elements storage).size true with
  | none =>
    rw [h] at position
    exact bind_of_error position
  | some i =>
    rw [h] at position
    exact bind_of_ok position

end Characters

/-! ## Parts and paddings -/

theorem callString_substring {y : Float} : callString line .substring text [.number x, .number y] machine =
    substring line text (Number.toWord x) (Number.toWord y) machine :=
  rfl

theorem substring_of_le {first last : Int} (h₀ : 0 ≤ first) (h₁ : first ≤ last) (h₂ : last ≤ text.length) :
    substring line text first last machine =
      .ok (.string (String.ofList ((text.toList.drop first.toNat).take (last - first).toNat))) machine := by
  unfold substring
  rw [if_neg (by simp; omega)]
  rfl

theorem substring_of_not_le {first last : Int} (h : ¬ (0 ≤ first ∧ first ≤ last ∧ last ≤ text.length)) :
    substring line text first last machine = .error (.fault line (.substringRange first last)) machine := by
  unfold substring
  rw [if_pos (by simp; omega)]
  rfl

theorem pad_eq {wanted : Int} {fill : Char} (atStart : Bool)
    (fits : missing wanted text.length * fill.utf8Size + text.utf8ByteSize ≤ storageLimit) :
    pad line text wanted fill atStart machine =
      .ok (.string (if atStart then String.ofList (List.replicate (missing wanted text.length) fill) ++ text
        else text ++ String.ofList (List.replicate (missing wanted text.length) fill))) machine := by
  unfold pad
  dsimp only
  rw [if_neg (by omega)]
  rfl

theorem paddingChar_eq (fill : Char) :
    paddingChar line (.string (String.singleton fill)) machine = .ok fill machine := by
  refine (bind_of_ok (Eval.textOf_string machine _)).trans ?_
  rw [String.toList_singleton]
  rfl

theorem padStart_eq {fill : Char}
    (fits : missing (Number.toWord x) text.length * fill.utf8Size + text.utf8ByteSize ≤ storageLimit) :
    callString line .padStart text [.number x, .string (String.singleton fill)] machine =
      .ok (.string (String.ofList (List.replicate (missing (Number.toWord x) text.length) fill) ++ text)) machine :=
  (bind_of_ok (paddingChar_eq fill)).trans (pad_eq true fits)

theorem padEnd_eq {fill : Char}
    (fits : missing (Number.toWord x) text.length * fill.utf8Size + text.utf8ByteSize ≤ storageLimit) :
    callString line .padEnd text [.number x, .string (String.singleton fill)] machine =
      .ok (.string (text ++ String.ofList (List.replicate (missing (Number.toWord x) text.length) fill))) machine :=
  (bind_of_ok (paddingChar_eq fill)).trans (pad_eq false fits)

theorem repeatText_eq {times : Int} (h : 0 ≤ times) (fits : text.utf8ByteSize * times.toNat ≤ storageLimit) :
    repeatText line text times machine = .ok (.string (String.join (List.replicate times.toNat text))) machine := by
  unfold repeatText
  rw [if_neg (by omega)]
  by_cases empty : text = ""
  · subst empty
    have nothing : String.join (List.replicate times.toNat "") = "" := by
      rw [← String.toList_inj]
      simp
    rw [nothing]
    rfl
  · rw [if_neg (by simpa using empty), if_neg (by omega)]
    rfl

theorem length_repeated (text : String) (n : Nat) :
    (String.join (List.replicate n text)).length = n * text.length := by
  simp [← String.length_toList]

theorem length_le_utf8ByteSize (text : String) : text.length ≤ text.utf8ByteSize := by
  suffices ∀ cs : List Char, cs.length ≤ (String.ofList cs).utf8ByteSize by
    simpa [String.length_toList] using this text.toList
  intro cs
  induction cs with
  | nil => simp
  | cons c cs ih =>
    have positive := c.utf8Size_pos
    rw [String.ofList_cons, String.utf8ByteSize_append, String.utf8ByteSize_singleton, List.length_cons]
    omega

/-! ## Agreement -/

section Agreement

variable (machine : Machine) (line : Nat) (text : String)

/-- The characters come as an array as long as the text, and the character at an index, counted from the end if it is
negative, is the element at this index. Both fail for the same indexes. -/
def CharactersAgree : Prop :=
  ∃ chars after,
    callString line .length text [] machine = .ok (.number (Number.ofInt text.length)) machine ∧
    callString line .chars text [] machine = .ok (.collection .array chars) after ∧
    arrayProperty chars ⟨"length", line⟩ after = .ok (.number (Number.ofInt text.length)) after ∧
    ∀ x,
      (-(text.length : Int) ≤ Number.toWord x ∧ Number.toWord x < text.length →
        ∃ c, text.toList[(Number.toWord x % text.length).toNat]? = some c ∧
          callString line .charAt text [.number x] machine = .ok (charText c) machine ∧
          callArray line .get chars [.number x] after = .ok (charText c) after) ∧
      (¬ (-(text.length : Int) ≤ Number.toWord x ∧ Number.toWord x < text.length) →
        ∃ e e', callString line .charAt text [.number x] machine = .error e machine ∧
          callArray line .get chars [.number x] after = .error e' after)

theorem charactersAgree : CharactersAgree machine line text := by
  obtain ⟨storage, after, made, listed⟩ :=
    Eval.newCollection_listed machine .array (text.toList.map charText).toArray
  have size : (after.store.elements storage).size = text.length := by
    simp [listed, String.length_toList]
  refine ⟨storage, after, rfl, made, ?_, fun x => ⟨fun range => ?_, fun range => ?_⟩⟩
  · rw [← size]
    rfl
  · have here := position?_of_range range
    obtain ⟨c, hc⟩ : ∃ c, text.toList[(Number.toWord x % text.length).toNat]? = some c := by
      refine ⟨_, List.getElem?_eq_getElem ?_⟩
      rw [String.length_toList]
      have bounds := Int.emod_lt_of_pos (Number.toWord x) (b := text.length) (by omega)
      omega
    refine ⟨c, hc, charAt_of_some here hc, ?_⟩
    rw [get_eq, size, here, listed]
    simp [hc]
  · have nowhere := position?_of_not_range range
    have failed : callArray line .get storage [.number x] after = _ := get_eq
    rw [size, nowhere] at failed
    exact ⟨_, _, charAt_of_none nowhere, failed⟩

/-- A substring has the characters from the first position up to before the last, in this order. -/
def SubstringsAgree : Prop :=
  ∀ x y,
    (0 ≤ Number.toWord x ∧ Number.toWord x ≤ Number.toWord y ∧ Number.toWord y ≤ text.length →
      ∃ part : String, callString line .substring text [.number x, .number y] machine = .ok (.string part) machine ∧
        (part.length : Int) = Number.toWord y - Number.toWord x ∧
        ∀ k < part.length, part.toList[k]? = text.toList[(Number.toWord x).toNat + k]?) ∧
    (¬ (0 ≤ Number.toWord x ∧ Number.toWord x ≤ Number.toWord y ∧ Number.toWord y ≤ text.length) →
      ∃ e, callString line .substring text [.number x, .number y] machine = .error e machine)

theorem substringsAgree : SubstringsAgree machine line text := by
  refine fun x y => ⟨fun range => ?_, fun range => ⟨_, substring_of_not_le range⟩⟩
  obtain ⟨h₀, h₁, h₂⟩ := range
  have length : (String.ofList ((text.toList.drop (Number.toWord x).toNat).take
      (Number.toWord y - Number.toWord x).toNat)).length = (Number.toWord y - Number.toWord x).toNat := by
    simp [String.length_toList]
    omega
  refine ⟨_, substring_of_le h₀ h₁ h₂, by omega, fun k hk => ?_⟩
  rw [length] at hk
  simp [List.getElem?_take_of_lt hk]

/-- The substrings before and behind a position make up the text. -/
def SubstringsRejoin : Prop :=
  text.utf8ByteSize ≤ storageLimit → ∀ x, 0 ≤ Number.toWord x ∧ Number.toWord x ≤ text.length →
    ∃ first second whole,
      callString line .substring text [.number (Number.ofInt 0), .number x] machine = .ok first machine ∧
      callString line .substring text [.number x, .number (Number.ofInt text.length)] machine = .ok second machine ∧
      BinaryOp.add.apply line first second machine = .ok whole machine ∧
      BinaryOp.equal.apply line whole (.string text) machine = .ok (.bool true) machine

theorem substringsRejoin : SubstringsRejoin machine line text := by
  rintro fits x ⟨h₀, h₁⟩
  have start : Number.toWord (Number.ofInt 0) = 0 := Number.toWord_ofInt (n := 0) (by decide)
  -- the length is a number without rounding
  have stop : Number.toWord (Number.ofInt text.length) = text.length := by
    refine Number.toWord_ofInt (lt_of_le_of_lt (length_le_utf8ByteSize text) ?_)
    exact lt_of_le_of_lt fits (by decide)
  refine ⟨_, _, .string text, callString_substring.trans (substring_of_le start.ge (start.trans_le h₀) h₁),
    callString_substring.trans (substring_of_le h₀ (h₁.trans stop.ge) stop.le), ?_, ?_⟩
  · refine (BinaryOp.apply_add_string _ _ _ _).trans ?_
    have rest : (text.toList.drop (Number.toWord x).toNat).length = ((text.length : Int) - Number.toWord x).toNat := by
      rw [List.length_drop, String.length_toList]
      omega
    rw [start, stop, ← String.ofList_append, ← rest, List.take_length]
    simp
  · exact (BinaryOp.apply_equal_string _ _ _ _).trans (by simp)

/-- A padded text is as long as wanted, and ends or starts with the text. -/
def PaddingAgrees : Prop :=
  ∀ x fill, missing (Number.toWord x) text.length * fill.utf8Size + text.utf8ByteSize ≤ storageLimit →
    ∃ front behind : String,
      callString line .padStart text [.number x, .string (String.singleton fill)] machine =
        .ok (.string front) machine ∧
      (front.length : Int) = max (Number.toWord x) text.length ∧
      callString line .endsWith front [.string text] machine = .ok (.bool true) machine ∧
      callString line .padEnd text [.number x, .string (String.singleton fill)] machine =
        .ok (.string behind) machine ∧
      (behind.length : Int) = max (Number.toWord x) text.length ∧
      callString line .startsWith behind [.string text] machine = .ok (.bool true) machine

theorem paddingAgrees : PaddingAgrees machine line text := by
  intro x fill fits
  have count : (missing (Number.toWord x) text.length : Int) = max (Number.toWord x - text.length) 0 :=
    Int.toNat_eq_max _
  refine ⟨_, _, padStart_eq fits, ?_, ?_, padEnd_eq fits, ?_, ?_⟩
  · simp
    omega
  · refine (bind_of_ok (Eval.textOf_string machine text)).trans ?_
    rw [List.isSuffixOf_iff_suffix.2 (by simp)]
    rfl
  · simp
    omega
  · refine (bind_of_ok (Eval.textOf_string machine text)).trans ?_
    rw [ List.isPrefixOf_iff_prefix.2 (by simp)]
    rfl

/-- A text is as many times as long as it is repeated. -/
def RepetitionAgrees : Prop :=
  ∀ x, 0 ≤ Number.toWord x → text.utf8ByteSize * (Number.toWord x).toNat ≤ storageLimit →
    ∃ result : String, callString line .repeated text [.number x] machine = .ok (.string result) machine ∧
      (result.length : Int) = Number.toWord x * text.length

theorem repetitionAgrees : RepetitionAgrees machine line text := by
  intro x h fits
  refine ⟨_, repeatText_eq h fits, ?_⟩
  rw [length_repeated, Nat.cast_mul, Int.toNat_of_nonneg h]

/-- What a text is split into can be joined again. No part has the separator in it; the empty separator stands between
all characters and at both ends. -/
def PartsRejoin : Prop :=
  ∀ separator : String, ∃ (parts : List String) (storage : StorageId) (after : Machine),
    callString line .split text [.string separator] machine = .ok (.collection .array storage) after ∧
    (after.store.elements storage).toList = parts.map Value.string ∧
    separator.intercalate parts = text ∧
    (separator = "" → parts = "" :: text.toList.map String.singleton ++ [""]) ∧
    (separator ≠ "" → ∀ part ∈ parts, ¬ separator.toList <:+: part.toList)

theorem partsRejoin : PartsRejoin machine line text := by
  intro separator
  obtain ⟨storage, after, made, listed⟩ := Eval.newCollection_listed machine .array
    ((Text.split separator.toList text.toList).map fun p => Value.string (String.ofList p)).toArray
  refine ⟨(Text.split separator.toList text.toList).map String.ofList, storage, after,
    (bind_of_ok (Eval.textOf_string machine separator)).trans made, ?_, ?_, ?_, ?_⟩
  · simp [listed]
  · have parts : ((Text.split separator.toList text.toList).map String.ofList).map String.toList =
        Text.split separator.toList text.toList := by
      simp
    rw [← String.toList_inj, String.toList_intercalate, parts, Text.intercalate_split]
  · rintro rfl
    simp [Text.split]
  · intro hne part hpart
    obtain ⟨p, hp, rfl⟩ := List.mem_map.1 hpart
    rw [String.toList_ofList]
    exact Text.separator_absent_of_mem_split (by simpa using hne) _ p hp

end Agreement

/-- The methods of a text agree on its positions. Numbers count as their integer parts. -/
structure PositionsAgree (machine : Machine) (line : Nat) (text : String) : Prop where
  characters : CharactersAgree machine line text
  substrings : SubstringsAgree machine line text
  rejoined : SubstringsRejoin machine line text
  padding : PaddingAgrees machine line text
  repetition : RepetitionAgrees machine line text
  parts : PartsRejoin machine line text

end Builtin

/-- In every state the methods of every text agree on its positions. -/
theorem string_positions_agree (machine : Machine) (line : Nat) (text : String) :
    Builtin.PositionsAgree machine line text where
  characters := Builtin.charactersAgree machine line text
  substrings := Builtin.substringsAgree machine line text
  rejoined := Builtin.substringsRejoin machine line text
  padding := Builtin.paddingAgrees machine line text
  repetition := Builtin.repetitionAgrees machine line text
  parts := Builtin.partsRejoin machine line text

/-- Two characters of more than one byte are filled up to five, and cut into one and one. -/
theorem string_positions_agree_multibyte :
    let machine := Machine.initial ⟨false, 3⟩ .collected ⟨[], []⟩ 0
    let method := fun m args => Builtin.callString 1 m "é😀" args machine
    (∃ front : String,
      method .padStart [.number (Number.ofInt 5), .string (String.singleton 'ß')] = .ok (.string front) machine ∧
        front.length = 5) ∧
    ∃ first second whole,
      method .substring [.number (Number.ofInt 0), .number (Number.ofInt 1)] = .ok first machine ∧
        method .substring [.number (Number.ofInt 1), .number (Number.ofInt 2)] = .ok second machine ∧
        BinaryOp.add.apply 1 first second machine = .ok whole machine ∧
        BinaryOp.equal.apply 1 whole (.string "é😀") machine = .ok (.bool true) machine := by
  intro machine method
  have five : Number.toWord (Number.ofInt 5) = 5 := Number.toWord_ofInt (n := 5) (by decide)
  have one : Number.toWord (Number.ofInt 1) = 1 := Number.toWord_ofInt (n := 1) (by decide)
  have agree := string_positions_agree machine 1 "é😀"
  constructor
  · obtain ⟨front, _, padded, length, -⟩ := agree.padding (Number.ofInt 5) 'ß' (by rw [five]; decide)
    refine ⟨front, padded, ?_⟩
    rw [five] at length
    exact_mod_cast length
  · exact agree.rejoined (by decide) (Number.ofInt 1) (by rw [one]; decide)

end Scriptlet
