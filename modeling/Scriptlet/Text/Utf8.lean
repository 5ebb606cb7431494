/-!
# Reading UTF-8

Bytes are decoded one character at a time. A malformed sequence is reported with its position and with the
number of bytes that were read before it could not be completed; a sequence cut off by the end of the input
is reported as incomplete.
-/
namespace Scriptlet.Text

/-- The first malformed sequence of a byte string. -/
structure Utf8Error where
  /-- Number of valid bytes before it. -/
  index : Nat
  /-- Its length, or none if the input ends inside it. -/
  length : Option Nat
  deriving DecidableEq, Repr

def Utf8Error.message (e : Utf8Error) : String :=
  match e.length with
  | some n => s!"invalid utf-8 sequence of {n} bytes from index {e.index}"
  | none => s!"incomplete utf-8 byte sequence from index {e.index}"

/-- A byte that goes on with a sequence. -/
def isContinuation (b : Nat) : Bool := 0x80 ≤ b && b ≤ 0xbf

/-- The second byte that may follow a first one: overlong forms, surrogates and numbers past the last
character are excluded here. -/
def fitsSecond (first second : Nat) : Bool :=
  if first == 0xe0 then 0xa0 ≤ second && second ≤ 0xbf
  else if first == 0xed then 0x80 ≤ second && second ≤ 0x9f
  else if first == 0xf0 then 0x90 ≤ second && second ≤ 0xbf
  else if first == 0xf4 then 0x80 ≤ second && second ≤ 0x8f
  else isContinuation second

/-- Number of bytes of the sequence that a byte starts; zero if it starts none. -/
def sequenceLength (first : Nat) : Nat :=
  if first < 0x80 then 1
  else if 0xc2 ≤ first && first ≤ 0xdf then 2
  else if 0xe0 ≤ first && first ≤ 0xef then 3
  else if 0xf0 ≤ first && first ≤ 0xf4 then 4
  else 0

/-- The six low bits of a continuation byte, behind `high`. -/
def extend (high byte : Nat) : Nat := high * 64 + byte % 64

/-- The rest of a sequence: the code point so far, then `more` bytes to come, `done` read so far. The bytes
after the second are only asked to be continuations. -/
def decodeTail (index : Nat) : (more done code : Nat) → List Nat → Except Utf8Error (Nat × List Nat)
  | 0, _, code, bytes => .ok (code, bytes)
  | _ + 1, _, _, [] => .error ⟨index, none⟩
  | more + 1, done, code, b :: bytes =>
    if isContinuation b then decodeTail index more (done + 1) (extend code b) bytes
    else .error ⟨index, some done⟩

/-- The character at the front of a byte string, as its code point and the bytes after it. -/
def decodeFirst (index first : Nat) (bytes : List Nat) : Except Utf8Error (Nat × List Nat) :=
  match sequenceLength first with
  | 0 => .error ⟨index, some 1⟩
  | 1 => .ok (first, bytes)
  | n =>
    match bytes with
    | [] => .error ⟨index, none⟩
    | second :: rest =>
      if fitsSecond first second then
        let lead := first % Nat.pow 2 (7 - n)
        decodeTail index (n - 2) 2 (extend lead second) rest
      else .error ⟨index, some 1⟩

theorem length_decodeTail {index more done code : Nat} {bytes rest : List Nat} {c : Nat}
    (h : decodeTail index more done code bytes = .ok (c, rest)) : rest.length ≤ bytes.length := by
  fun_induction decodeTail index more done code bytes with
  | case1 done code bytes =>
    simp only [Except.ok.injEq, Prod.mk.injEq] at h
    simp [h.2]
  | case2 => simp at h
  | case3 more done code b bytes _ ih =>
    have := ih h
    simp only [List.length_cons]
    omega
  | case4 => simp at h

theorem length_decodeFirst {index first : Nat} {bytes rest : List Nat} {c : Nat}
    (h : decodeFirst index first bytes = .ok (c, rest)) : rest.length ≤ bytes.length := by
  unfold decodeFirst at h
  split at h
  · simp at h
  · simp only [Except.ok.injEq, Prod.mk.injEq] at h
    simp [h.2]
  · split at h
    · simp at h
    · split at h
      · have := length_decodeTail h
        simp only [List.length_cons]
        omega
      · simp at h

/-- Decodes the bytes from position `index` on. -/
def decodeFrom (index : Nat) : List Nat → Except Utf8Error (List Char)
  | [] => .ok []
  | first :: bytes =>
    match h : decodeFirst index first bytes with
    | .error e => .error e
    | .ok (code, rest) =>
      have := length_decodeFirst h
      match decodeFrom (index + sequenceLength first) rest with
      | .error e => .error e
      | .ok cs => .ok (Char.ofNat code :: cs)
termination_by bytes => bytes.length

/-- The text that a byte string encodes. -/
def decodeUtf8 (bytes : ByteArray) : Except Utf8Error String :=
  (decodeFrom 0 (bytes.toList.map UInt8.toNat)).map String.ofList

end Scriptlet.Text
