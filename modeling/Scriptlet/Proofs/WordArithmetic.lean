import Scriptlet.Proofs.StringPositions

/-!
# Index arithmetic in words

Indexes, lengths and sizes are integers of any size here. Words of 64 bits are enough for them: computed in words, no
sum or difference leaves the word, and every result is the exact one. A size that no word holds is refused like every
size for which there is no storage.
-/
namespace Scriptlet

namespace Word

/-! ## Operations on words -/

/-- A result, unless the operation overflows. -/
def checked {α : Type} (overflow : Bool) (result : α) : Option α := if overflow then none else some result

def sum? (a b : Int64) : Option Int64 := checked (a.toBitVec.saddOverflow b.toBitVec) (a + b)

def difference? (a b : Int64) : Option Int64 := checked (a.toBitVec.ssubOverflow b.toBitVec) (a - b)

/-- The difference, or the end of the word beyond which it lies. -/
def boundedDifference (a b : Int64) : Int64 :=
  (difference? a b).getD (if a < 0 then Int64.minValue else Int64.maxValue)

def product? (a b : UInt64) : Option UInt64 := checked (a.toBitVec.umulOverflow b.toBitVec) (a * b)

def total? (a b : UInt64) : Option UInt64 := checked (a.toBitVec.uaddOverflow b.toBitVec) (a + b)

/-- The word whose value is `n`, or none if no word has this value. -/
def Exactly {α β : Type} (value : α → β) (word : Option α) (n : β) : Prop := ∀ w, word = some w ↔ value w = n

theorem checked_exactly {α β : Type} {value : α → β} {overflow : Bool} {result : α} {n : β}
    (injective : value.Injective) (fits : ¬ overflow → value result = n) (beyond : overflow → ∀ w, value w ≠ n) :
    Exactly value (checked overflow result) n := by
  intro w
  unfold checked
  split_ifs with h
  · exact iff_of_false (fun h => by cases h) (beyond h w)
  · rw [Option.some_inj, ← fits h, injective.eq_iff, eq_comm]

theorem toInt_injective : Int64.toInt.Injective := fun _ _ => Int64.toInt.inj

theorem toNat_injective : UInt64.toNat.Injective := fun _ _ => UInt64.toNat.inj

theorem sum?_exactly (a b : Int64) : Exactly Int64.toInt (sum? a b) (a.toInt + b.toInt) := by
  refine checked_exactly toInt_injective BitVec.toInt_add_of_not_saddOverflow fun overflow w => ?_
  have lower := w.le_toInt
  have upper := w.toInt_lt
  simp only [BitVec.saddOverflow, Bool.or_eq_true, decide_eq_true_eq, Int64.toInt_toBitVec] at overflow
  omega

theorem difference?_exactly (a b : Int64) : Exactly Int64.toInt (difference? a b) (a.toInt - b.toInt) := by
  refine checked_exactly toInt_injective BitVec.toInt_sub_of_not_ssubOverflow fun overflow w => ?_
  have lower := w.le_toInt
  have upper := w.toInt_lt
  simp only [BitVec.ssubOverflow, Bool.or_eq_true, decide_eq_true_eq, Int64.toInt_toBitVec] at overflow
  omega

theorem product?_exactly (a b : UInt64) : Exactly UInt64.toNat (product? a b) (a.toNat * b.toNat) := by
  refine checked_exactly toNat_injective BitVec.toNat_mul_of_not_umulOverflow fun overflow w => ?_
  have upper := w.toNat_lt
  simp only [BitVec.umulOverflow, decide_eq_true_eq, UInt64.toNat_toBitVec] at overflow
  omega

theorem total?_exactly (a b : UInt64) : Exactly UInt64.toNat (total? a b) (a.toNat + b.toNat) := by
  refine checked_exactly toNat_injective BitVec.toNat_add_of_not_uaddOverflow fun overflow w => ?_
  have upper := w.toNat_lt
  simp only [BitVec.uaddOverflow, decide_eq_true_eq, UInt64.toNat_toBitVec] at overflow
  omega

theorem Exactly.exists_word {word : Option Int64} {n : Int} (h : Exactly Int64.toInt word n)
    (range : -2 ^ 63 ≤ n ∧ n < 2 ^ 63) : ∃ w, word = some w ∧ w.toInt = n :=
  have same : (Int64.ofInt n).toInt = n := Int64.toInt_ofInt_of_le range.1 range.2
  ⟨.ofInt n, (h _).2 same, same⟩

theorem Exactly.exists_size {size : Option UInt64} {k : Nat} (h : Exactly UInt64.toNat size k) (hk : k < 2 ^ 64) :
    ∃ n, size = some n ∧ n.toNat = k :=
  have same : (UInt64.ofNat k).toNat = k := UInt64.toNat_ofNat_of_lt' hk
  ⟨.ofNat k, (h _).2 same, same⟩

theorem toInt_boundedDifference (a b : Int64) :
    (boundedDifference a b).toInt = Number.clampWord (a.toInt - b.toInt) := by
  have ha := And.intro a.le_toInt a.toInt_lt
  have hb := And.intro b.le_toInt b.toInt_lt
  have exact := difference?_exactly a b
  unfold boundedDifference Number.clampWord Number.wordMin Number.wordMax
  cases h : difference? a b with
  | some c =>
    have same := (exact c).1 h
    have hc := And.intro c.le_toInt c.toInt_lt
    rw [Option.getD_some]
    omega
  | none =>
    have beyond : ¬ (-2 ^ 63 ≤ a.toInt - b.toInt ∧ a.toInt - b.toInt < 2 ^ 63) := by
      intro range
      obtain ⟨c, hc, -⟩ := exact.exists_word range
      rw [h] at hc
      cases hc
    rw [Option.getD_none]
    split_ifs with negative
    all_goals
      rw [Int64.lt_iff_toInt_lt, Int64.toInt_zero] at negative
      simp only [Int64.toInt_minValue, Int64.toInt_maxValue]
      omega

theorem toInt_toInt64 {n : UInt64} (h : n.toNat < 2 ^ 63) : n.toInt64.toInt = n.toNat := by
  rw [← Int64.toInt_toBitVec, UInt64.toBitVec_toInt64, BitVec.toInt_eq_toNat_of_lt]
  · rfl
  · rw [UInt64.toNat_toBitVec]
    omega

theorem toNat_toUInt64 {w : Int64} (h : 0 ≤ w.toInt) : (w.toUInt64.toNat : Int) = w.toInt := by
  rw [Int64.toNat_toUInt64_of_le (Int64.le_iff_toInt_le.2 h)]
  exact Int.toNat_of_nonneg h

theorem toInt_max (a b : Int64) : (max a b).toInt = max a.toInt b.toInt := by
  change (if a ≤ b then b else a).toInt = _
  rw [max_def]
  simp only [Int64.le_iff_toInt_le]
  split_ifs <;> rfl

theorem toNat_ofNat {n : Nat} (h : n < 2 ^ 63) : (UInt64.ofNat n).toNat = n :=
  UInt64.toNat_ofNat_of_lt' (h.trans (by decide))

/-! ## Positions and sizes in words -/

/-- The index counted from the start, unless the sum overflows. -/
def fromStart? (index length : Int64) (wrap : Bool) : Option Int64 :=
  if wrap && index < 0 then sum? index length else some index

/-- The position below `length` that an index stands for. There is no result at all after an overflow. -/
def position (index : Int64) (length : UInt64) (wrap : Bool) : Option (Option UInt64) := do
  let actual ← fromStart? index length.toInt64 wrap
  return if actual < 0 || actual ≥ length.toInt64 then none else some actual.toUInt64

/-- How many characters stand before a part of a text and how many in it. There is no result at all after an
overflow. -/
def span (first last : Int64) (length : UInt64) : Option (Option (UInt64 × UInt64)) := do
  if first < 0 || last > length.toInt64 || first > last then return none
  let count ← difference? last first
  return some (first.toUInt64, count.toUInt64)

/-- Number of characters missing to a wanted length. -/
def missing (wanted : Int64) (length : UInt64) : UInt64 :=
  (max (boundedDifference wanted length.toInt64) 0).toUInt64

/-- Size of a text with more characters, if a word holds it. -/
def paddedSize? (count fill text : UInt64) : Option UInt64 := (product? count fill).bind (total? · text)

/-- There is storage for a size that a word holds. -/
def storable (size : Option UInt64) : Bool := size.any (·.toNat ≤ Builtin.storageLimit)

theorem paddedSize?_exactly (count fill text : UInt64) :
    Exactly UInt64.toNat (paddedSize? count fill text) (count.toNat * fill.toNat + text.toNat) := by
  intro n
  have upper := n.toNat_lt
  rw [paddedSize?, Option.bind_eq_some_iff]
  constructor
  · rintro ⟨filled, product, total⟩
    rw [(total?_exactly filled text n).1 total, (product?_exactly count fill filled).1 product]
  · intro same
    -- the product is not above the sum, so a word holds it too
    obtain ⟨filled, product, exact⟩ := (product?_exactly count fill).exists_size (by omega)
    refine ⟨filled, product, (total?_exactly filled text n).2 ?_⟩
    rw [exact, same]

theorem storable_iff {size : Option UInt64} {k : Nat} (h : Exactly UInt64.toNat size k) :
    storable size = true ↔ k ≤ Builtin.storageLimit := by
  rw [storable, Option.any_eq_true]
  constructor
  · rintro ⟨n, hn, fits⟩
    rw [← (h n).1 hn]
    exact of_decide_eq_true fits
  · intro fits
    obtain ⟨n, hn, same⟩ := h.exists_size (fits.trans_lt (by decide))
    refine ⟨n, hn, decide_eq_true ?_⟩
    rw [same]
    exact fits

theorem map_toNat_of_storable {size : Option UInt64} {k : Nat} (h : Exactly UInt64.toNat size k)
    (fits : storable size = true) : size.map UInt64.toNat = some k := by
  obtain ⟨n, hn, -⟩ := (Option.any_eq_true _ _).1 fits
  rw [hn, Option.map_some, (h n).1 hn]

section Lengths

variable {length : UInt64} (hlength : length.toNat < 2 ^ 63)
include hlength

/-- The difference stops only where nothing is missing. -/
theorem toNat_missing (wanted : Int64) :
    ((missing wanted length).toNat : Int) = max 0 (wanted.toInt - length.toNat) := by
  have hw := And.intro wanted.le_toInt wanted.toInt_lt
  have count : (max (boundedDifference wanted length.toInt64) 0).toInt = max 0 (wanted.toInt - length.toNat) := by
    rw [toInt_max, toInt_boundedDifference, toInt_toInt64 hlength, Int64.toInt_zero, Number.clampWord, Number.wordMin,
      Number.wordMax]
    omega
  rw [missing, toNat_toUInt64 (by omega), count]

/-- Only negative indexes are added to the length, so the sum lies between the two. -/
theorem fromStart?_eq (index : Int64) (wrap : Bool) : ∃ actual, fromStart? index length.toInt64 wrap = some actual ∧
    actual.toInt = if wrap && index.toInt < 0 then index.toInt + length.toNat else index.toInt := by
  have hi := And.intro index.le_toInt index.toInt_lt
  have hl := toInt_toInt64 hlength
  unfold fromStart?
  simp only [Int64.lt_iff_toInt_lt, Int64.toInt_zero]
  split_ifs with wraps
  · simp only [Bool.and_eq_true, decide_eq_true_eq] at wraps
    rw [← hl]
    exact (sum?_exactly index length.toInt64).exists_word (by omega)
  · exact ⟨index, rfl, rfl⟩

theorem position_eq (index : Int64) (wrap : Bool) : ∃ r, position index length wrap = some r ∧
    Builtin.position? index.toInt length.toNat wrap = r.map UInt64.toNat := by
  obtain ⟨actual, computed, exact⟩ := fromStart?_eq hlength index wrap
  refine ⟨if actual < 0 || actual ≥ length.toInt64 then none else some actual.toUInt64, ?_, ?_⟩
  · rw [position, computed]
    rfl
  · unfold Builtin.position?
    dsimp only
    rw [← exact]
    simp only [ge_iff_le, Int64.lt_iff_toInt_lt, Int64.le_iff_toInt_le, Int64.toInt_zero, toInt_toInt64 hlength,
      Bool.or_eq_true, Bool.and_eq_true, decide_eq_true_eq]
    split_ifs with inside outside
    · omega
    · have same := toNat_toUInt64 inside.1
      rw [Option.map_some, Option.some_inj]
      omega
    · rfl
    · omega

theorem span_eq (first last : Int64) : ∃ r, span first last length = some r ∧
    (r.isSome ↔ 0 ≤ first.toInt ∧ first.toInt ≤ last.toInt ∧ last.toInt ≤ length.toNat) ∧
    ∀ p ∈ r, (p.1.toNat : Int) = first.toInt ∧ (p.2.toNat : Int) = last.toInt - first.toInt := by
  have hl := toInt_toInt64 hlength
  have hlast := And.intro last.le_toInt last.toInt_lt
  unfold span
  simp only [gt_iff_lt, Int64.lt_iff_toInt_lt, Int64.toInt_zero, hl, Bool.or_eq_true, decide_eq_true_eq]
  split_ifs with outside
  · refine ⟨none, rfl, ?_, ?_⟩
    · simp only [Option.isSome_none, Bool.false_eq_true, false_iff]
      omega
    · intro p hp
      cases hp
  · obtain ⟨count, computed, exact⟩ := (difference?_exactly last first).exists_word (by omega)
    refine ⟨some (first.toUInt64, count.toUInt64), ?_, ?_, ?_⟩
    · rw [computed]
      rfl
    · simp only [Option.isSome_some, true_iff]
      omega
    · rintro p ⟨⟩
      have before : 0 ≤ first.toInt := by omega
      have inside : 0 ≤ count.toInt := by omega
      rw [← exact]
      exact ⟨toNat_toUInt64 before, toNat_toUInt64 inside⟩

end Lengths

end Word

namespace Builtin

variable {machine : Machine} {line : Nat} {text : String}

/-! ## Exact positions and sizes -/

theorem pad_of_lt {wanted : Int} {fill : Char} (atStart : Bool)
    (large : storageLimit < missing wanted text.length * fill.utf8Size + text.utf8ByteSize) :
    pad line text wanted fill atStart machine = .error (.fault line .paddingTooLarge) machine := by
  unfold pad
  dsimp only
  rw [if_pos large]
  rfl

theorem repeatText_of_neg {times : Int} (h : times < 0) :
    repeatText line text times machine = .error (.fault line .repeatCount) machine := by
  unfold repeatText
  rw [if_pos h]
  rfl

theorem repeatText_of_lt {times : Int} (h : 0 ≤ times) (large : storageLimit < text.utf8ByteSize * times.toNat) :
    repeatText line text times machine = .error (.fault line .repeatCount) machine := by
  have filled : text ≠ "" := by
    rintro rfl
    simp at large
  unfold repeatText
  rw [if_neg (by omega), if_neg (by simpa using filled), if_pos large]
  rfl

theorem utf8ByteSize_replicate (n : Nat) (fill : Char) :
    (String.ofList (List.replicate n fill)).utf8ByteSize = n * fill.utf8Size := by
  induction n with
  | zero => simp
  | succ n ih =>
    rw [List.replicate_succ, String.ofList_cons, String.utf8ByteSize_append, String.utf8ByteSize_singleton, ih]
    ring

theorem utf8ByteSize_repeated (n : Nat) (text : String) :
    (String.join (List.replicate n text)).utf8ByteSize = text.utf8ByteSize * n := by
  induction n with
  | zero => simp
  | succ n ih =>
    rw [List.replicate_succ, String.join_cons, String.utf8ByteSize_append, ih]
    ring

theorem toWord_range (x : Float) : -2 ^ 63 ≤ Number.toWord x ∧ Number.toWord x < 2 ^ 63 := by
  unfold Number.toWord
  cases Number.decode x with
  | nan => decide
  | infinite negative => cases negative <;> decide
  | finite b =>
    simp only [Number.clampWord, Number.wordMin, Number.wordMax]
    omega

/-! ## Words are enough -/

section Words

variable (machine : Machine) (line : Nat)

/-- A number that is given for an integer is cut to a word. -/
def ArgumentsAreWords : Prop :=
  ∀ (what : NumericArgument) (x : Float), ∃ w : Int64,
    w.toInt = Number.toWord x ∧ integer line what (.number x) machine = .ok w.toInt machine

theorem argumentsAreWords : ArgumentsAreWords machine line := by
  intro what x
  have range := toWord_range x
  have same : (Int64.ofInt (Number.toWord x)).toInt = Number.toWord x := Int64.toInt_ofInt_of_le range.1 range.2
  refine ⟨.ofInt (Number.toWord x), same, ?_⟩
  rw [same]
  rfl

/-- An index is brought into the range of a length without an overflow. It stands for a position if it is in the range
or, where indexes wrap, counts back from the end to a position in the range. -/
def PositionsExact : Prop :=
  ∀ (index : Int64) (length : UInt64) (wrap : Bool), length.toNat < 2 ^ 63 →
    ∃ r, Word.position index length wrap = some r ∧
      position? index.toInt length.toNat wrap = r.map UInt64.toNat ∧
      (r.isSome ↔ 0 ≤ index.toInt ∧ index.toInt < length.toNat ∨
        wrap = true ∧ -(length.toNat : Int) ≤ index.toInt ∧ index.toInt < 0) ∧
      ∀ i ∈ r, (i.toNat : Int) = (if index.toInt < 0 then index.toInt + length.toNat else index.toInt) ∧ i < length

theorem positionsExact : PositionsExact := by
  intro index length wrap hlength
  obtain ⟨r, computed, exact⟩ := Word.position_eq hlength index wrap
  refine ⟨r, computed, exact, ?_, fun i hi => ?_⟩
  · rw [← position?_isSome_iff, exact, Option.isSome_map]
  · rw [hi, Option.map_some, position?_eq_some_iff] at exact
    obtain ⟨range, same⟩ := exact
    refine ⟨same, UInt64.lt_iff_toNat_lt.2 ?_⟩
    split_ifs at same <;> omega

/-- Indexes of collections and the positions that they stand for are words. -/
def ElementsExact : Prop :=
  ∀ (kind : CollectionKind) (wrap : Bool) (storage : StorageId) (x : Float) (index : Int64),
    index.toInt = Number.toWord x → (machine.store.elements storage).size < 2 ^ 63 →
    ∃ r, Word.position index (.ofNat (machine.store.elements storage).size) wrap = some r ∧
      elementPosition line kind wrap storage (.number x) machine =
        r.elim (.error (.fault line (.indexOutOfBounds kind index.toInt)) machine) (.ok ·.toNat machine)

theorem elementsExact : ElementsExact machine line := by
  intro kind wrap storage x index hindex hsize
  have same := Word.toNat_ofNat hsize
  obtain ⟨r, computed, exact⟩ := Word.position_eq (same.trans_lt hsize) index wrap
  refine ⟨r, computed, ?_⟩
  rw [same] at exact
  rw [elementPosition_eq, ← hindex, exact]
  cases r <;> rfl

/-- Indexes of characters are words too, and the positions that they stand for have a character. -/
def CharactersExact : Prop :=
  ∀ (text : String) (index : Int64), text.length < 2 ^ 63 →
    ∃ r, Word.position index (.ofNat text.length) true = some r ∧
      (r = none → charAt line text index.toInt machine = .error (.fault line .positionOutOfRange) machine) ∧
      ∀ i ∈ r, ∃ c, text.toList[i.toNat]? = some c ∧ charAt line text index.toInt machine = .ok (charText c) machine

theorem charactersExact : CharactersExact machine line := by
  intro text index hlength
  have same := Word.toNat_ofNat hlength
  obtain ⟨r, computed, exact, -, inside⟩ := positionsExact index (.ofNat text.length) true (same.trans_lt hlength)
  rw [same] at exact
  refine ⟨r, computed, fun outside => ?_, fun i hi => ?_⟩
  · rw [outside] at exact
    exact charAt_of_none exact
  · have below : i.toNat < text.toList.length := by
      rw [String.length_toList, ← same]
      exact UInt64.lt_iff_toNat_lt.1 (inside i hi).2
    rw [hi] at exact
    exact ⟨_, List.getElem?_eq_getElem below, charAt_of_some exact (List.getElem?_eq_getElem below)⟩

/-- The bounds of a substring are in order if and only if its range is in the text, and then the difference of the bounds
does not overflow. -/
def SubstringsExact : Prop :=
  ∀ (text : String) (first last : Int64), text.length < 2 ^ 63 →
    ∃ r, Word.span first last (.ofNat text.length) = some r ∧
      (r.isSome ↔ 0 ≤ first.toInt ∧ first.toInt ≤ last.toInt ∧ last.toInt ≤ text.length) ∧
      (∀ p ∈ r, (p.1.toNat : Int) = first.toInt ∧ (p.2.toNat : Int) = last.toInt - first.toInt) ∧
      substring line text first.toInt last.toInt machine =
        r.elim (.error (.fault line (.substringRange first.toInt last.toInt)) machine)
          fun p => .ok (.string (String.ofList ((text.toList.drop p.1.toNat).take p.2.toNat))) machine

theorem substringsExact : SubstringsExact machine line := by
  intro text first last hlength
  have same := Word.toNat_ofNat hlength
  obtain ⟨r, computed, admitted, exact⟩ := Word.span_eq (same.trans_lt hlength) first last
  rw [same] at admitted
  refine ⟨r, computed, admitted, exact, ?_⟩
  cases r with
  | none => exact substring_of_not_le fun range => by cases admitted.2 range
  | some p =>
    obtain ⟨h₀, h₁, h₂⟩ := admitted.1 rfl
    obtain ⟨start, count⟩ := exact p rfl
    rw [substring_of_le h₀ h₁ h₂, ← count, ← start]
    rfl

/-- As many characters as are missing are added, none to a text that is long enough. The size is exact, or it is refused. -/
def PaddingsExact : Prop :=
  ∀ (text : String) (wanted : Int64) (fill : Char) (atStart : Bool),
    text.length < 2 ^ 63 → text.utf8ByteSize < 2 ^ 64 →
    ∃ count size, Word.missing wanted (.ofNat text.length) = count ∧
      Word.paddedSize? count (.ofNat fill.utf8Size) (.ofNat text.utf8ByteSize) = size ∧
      (count.toNat : Int) = max 0 (wanted.toInt - text.length) ∧
      missing wanted.toInt text.length = count.toNat ∧
      Word.Exactly UInt64.toNat size (count.toNat * fill.utf8Size + text.utf8ByteSize) ∧
      (Word.storable size = true → ∃ padded : String,
        pad line text wanted.toInt fill atStart machine = .ok (.string padded) machine ∧
          padded.length = text.length + count.toNat ∧ size.map UInt64.toNat = some padded.utf8ByteSize) ∧
      (Word.storable size = false →
        pad line text wanted.toInt fill atStart machine = .error (.fault line .paddingTooLarge) machine)

theorem paddingsExact : PaddingsExact machine line := by
  intro text wanted fill atStart hlength hsize
  have same := Word.toNat_ofNat hlength
  have textSize : (UInt64.ofNat text.utf8ByteSize).toNat = text.utf8ByteSize := UInt64.toNat_ofNat_of_lt' hsize
  have fillSize : (UInt64.ofNat fill.utf8Size).toNat = fill.utf8Size :=
    Word.toNat_ofNat (lt_of_le_of_lt fill.utf8Size_le_four (by decide))
  have count := Word.toNat_missing (same.trans_lt hlength) wanted
  rw [same] at count
  have counted : missing wanted.toInt text.length = (Word.missing wanted (.ofNat text.length)).toNat := by
    rw [missing]
    omega
  have exact := Word.paddedSize?_exactly (Word.missing wanted (.ofNat text.length)) (.ofNat fill.utf8Size)
    (.ofNat text.utf8ByteSize)
  rw [fillSize, textSize] at exact
  refine ⟨_, _, rfl, rfl, count, counted, exact, fun fits => ?_, fun large => ?_⟩
  · refine ⟨_, pad_eq atStart (by rw [counted]; exact (Word.storable_iff exact).1 fits), ?_, ?_⟩
    · rw [counted]
      cases atStart <;> simp [Nat.add_comm]
    · rw [Word.map_toNat_of_storable exact fits, counted]
      cases atStart <;> simp [utf8ByteSize_replicate, Nat.add_comm]
  · refine pad_of_lt atStart ?_
    rw [← Bool.not_eq_true, Word.storable_iff exact] at large
    rw [counted]
    omega

/-- The size of a repeated text is exact, or it is refused. -/
def RepetitionsExact : Prop :=
  ∀ (text : String) (times : Int64), text.utf8ByteSize < 2 ^ 64 →
    (times.toInt < 0 → repeatText line text times.toInt machine = .error (.fault line .repeatCount) machine) ∧
    (0 ≤ times.toInt → ∃ size, Word.product? (.ofNat text.utf8ByteSize) times.toUInt64 = size ∧
      Word.Exactly UInt64.toNat size (text.utf8ByteSize * times.toInt.toNat) ∧
      (Word.storable size = true → ∃ repeated : String,
        repeatText line text times.toInt machine = .ok (.string repeated) machine ∧
          size.map UInt64.toNat = some repeated.utf8ByteSize) ∧
      (Word.storable size = false →
        repeatText line text times.toInt machine = .error (.fault line .repeatCount) machine))

theorem repetitionsExact : RepetitionsExact machine line := by
  intro text times hsize
  refine ⟨repeatText_of_neg, fun nonneg => ?_⟩
  have textSize : (UInt64.ofNat text.utf8ByteSize).toNat = text.utf8ByteSize := UInt64.toNat_ofNat_of_lt' hsize
  have exact := Word.product?_exactly (.ofNat text.utf8ByteSize) times.toUInt64
  have count : times.toUInt64.toNat = times.toInt.toNat := by
    have := Word.toNat_toUInt64 nonneg
    omega
  rw [textSize, count] at exact
  refine ⟨_, rfl, exact, fun fits => ?_, fun large => ?_⟩
  · refine ⟨_, repeatText_eq nonneg ((Word.storable_iff exact).1 fits), ?_⟩
    rw [Word.map_toNat_of_storable exact fits, utf8ByteSize_repeated]
  · rw [← Bool.not_eq_true, Word.storable_iff exact] at large
    exact repeatText_of_lt nonneg (by omega)

end Words

/-- Whatever is computed from indexes, lengths and sizes can be computed in words: without an overflow, and with the
result of exact integers. -/
structure FitsWords (machine : Machine) (line : Nat) : Prop where
  arguments : ArgumentsAreWords machine line
  positions : PositionsExact
  elements : ElementsExact machine line
  characters : CharactersExact machine line
  substrings : SubstringsExact machine line
  paddings : PaddingsExact machine line
  repetitions : RepetitionsExact machine line

end Builtin

/-- In every state, words of 64 bits are enough for the arithmetic of indexes, lengths and sizes. -/
theorem index_arithmetic_fits_words (machine : Machine) (line : Nat) : Builtin.FitsWords machine line where
  arguments := Builtin.argumentsAreWords machine line
  positions := Builtin.positionsExact
  elements := Builtin.elementsExact machine line
  characters := Builtin.charactersExact machine line
  substrings := Builtin.substringsExact machine line
  paddings := Builtin.paddingsExact machine line
  repetitions := Builtin.repetitionsExact machine line

/-- The least index does not overflow with the greatest length. A text is not filled up to the least length, and the
size that it would have with the greatest length is beyond the word. -/
theorem index_arithmetic_fits_words_at_ends :
    let machine := Machine.initial ⟨false, 3⟩ .collected ⟨[], []⟩ 0
    (∃ r, Word.position Int64.minValue 9223372036854775807 true = some r ∧
      Builtin.position? Int64.minValue.toInt 9223372036854775807 true = r.map UInt64.toNat) ∧
    ((Word.missing Int64.minValue 2).toNat : Int) = max 0 (Int64.minValue.toInt - 2) ∧
    Builtin.pad 1 "é😀" Int64.maxValue.toInt '😀' true machine = .error (.fault 1 .paddingTooLarge) machine ∧
    Builtin.repeatText 1 "é😀" Int64.maxValue.toInt machine = .error (.fault 1 .repeatCount) machine := by
  intro machine
  have exact := index_arithmetic_fits_words machine 1
  refine ⟨?_, ?_, ?_, ?_⟩
  · obtain ⟨r, computed, same, -⟩ := exact.positions Int64.minValue 9223372036854775807 true (by decide)
    exact ⟨r, computed, same⟩
  · obtain ⟨_, _, rfl, -, count, -⟩ := exact.paddings "é😀" Int64.minValue '😀' true (by decide) (by decide)
    exact count
  · obtain ⟨_, _, rfl, rfl, -, -, -, -, large⟩ := exact.paddings "é😀" Int64.maxValue '😀' true (by decide) (by decide)
    exact large (by decide)
  · obtain ⟨_, rfl, -, -, large⟩ := (exact.repetitions "é😀" Int64.maxValue (by decide)).2 (by decide)
    exact large (by decide)

end Scriptlet
