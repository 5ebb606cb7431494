import Scriptlet.Proofs.ContextRestored
import Scriptlet.Proofs.Fuel

/-!
# Connectives that are short for others

`xor`, `nor` and `nand` are evaluated by way of expressions made of `and`, `or` and `!`, in which the operands stand
again, in `xor` even twice. Operands that always yield the same value and change nothing make these expressions mean
what the connectives are named for, and their names are looked up where the operands alone would look them up.
-/
namespace Scriptlet

variable {α β : Type}

/-! ## Notes of a recorder -/

namespace Watched

/-- The outcome with older notes behind those that were made. -/
def behind (older : List Visit) : EStateM.Result Halt (Machine × List Visit) α →
    EStateM.Result Halt (Machine × List Visit) α
  | .ok a (m, seen) => .ok a (m, seen ++ older)
  | .error h (m, seen) => .error h (m, seen ++ older)

/-- The second evaluation is the first one, begun with older notes. -/
def Later (older : List Visit) (x y : Watched (List Visit) α) : Prop :=
  ∀ m seen, y (m, seen ++ older) = behind older (x (m, seen))

namespace Later

variable {older : List Visit}

theorem lift (x : Eval α) : Later older (liftM x) (liftM x) := by
  intro m seen
  change unseen x (m, seen ++ older) = behind older (unseen x (m, seen))
  rw [unseen, unseen]
  cases x m <;> rfl

theorem bind {x y : Watched (List Visit) α} {f g : α → Watched (List Visit) β} (h : Later older x y)
    (hf : ∀ a, Later older (f a) (g a)) : Later older (x >>= f) (y >>= g) := by
  intro m seen
  have run := h m seen
  cases hx : x (m, seen) with
  | ok a w =>
    rw [hx] at run
    rw [bind_of_ok hx, bind_of_ok run]
    exact hf a w.1 w.2
  | error e w =>
    rw [hx] at run
    rw [bind_of_error hx, bind_of_error run]
    rfl

theorem tryCatch {x y : Watched (List Visit) α} {f g : Halt → Watched (List Visit) α} (h : Later older x y)
    (hf : ∀ e, Later older (f e) (g e)) :
    Later older (MonadExcept.tryCatch x f : Watched (List Visit) α) (MonadExcept.tryCatch y g) := by
  intro m seen
  have run := h m seen
  cases hx : x (m, seen) with
  | ok a w =>
    rw [hx] at run
    rw [tryCatch_of_ok hx, tryCatch_of_ok run]
    rfl
  | error e w =>
    rw [hx] at run
    rw [tryCatch_of_error hx, tryCatch_of_error run]
    exact hf e w.1 w.2

theorem inContext (change : Context → Context) {x y : Watched (List Visit) α} (h : Later older x y) :
    Later older (Watched.inContext .recorder change x) (Watched.inContext .recorder change y) := by
  intro m seen
  have run := h (m.withContext (change m.context)) (⟨.entering, m.withContext (change m.context)⟩ :: seen)
  unfold Watched.inContext
  dsimp only [Observer.recorder]
  rw [List.cons_append] at run
  rw [run]
  cases x (m.withContext (change m.context), ⟨.entering, m.withContext (change m.context)⟩ :: seen) <;> rfl

theorem respects : Respects (fun _ x y => Later older x y) .recorder .recorder where
  pure _ _ _ := rfl
  throw _ _ _ := rfl
  lift _ := lift _
  bind := bind
  tryCatch _ := tryCatch
  markImported _ := lift _
  tell _ _ _ := rfl
  inContext _ := inContext _
  enterCall _ _ _ _ _ ho hx := bind (lift _) fun _ => bind ho fun _ => inContext _ hx

end Later

end Watched

/-- The connective that yields its left operand if the truth of this is `stop`. -/
def Connective.stoppingAt : (stop : Bool) → Connective
  | true => .or
  | false => .and

theorem Inner.evaluateLogical_stoppingAt {ν : Type} (inner : Inner ν) (l : Expr) (stop : Bool) (line : Nat)
    (r : Expr) :
    inner.evaluateLogical l (.stoppingAt stop) line r =
      inner.evaluate l >>= fun v => if v.isTruthy = stop then pure v else inner.evaluate r := by
  cases stop with
  | true => rfl
  | false =>
    refine bind_congr fun v => ?_
    cases v.isTruthy <;> rfl

/-! ## Evaluations with what is seen of them -/

/-- In `m` the expression yields `v` and leaves `m'`. A recorder sees `seen` on the way, the latest first. -/
def Evaluates (e : Expr) (m : Machine) (v : Value) (m' : Machine) (seen : List Visit) : Prop :=
  ∃ fuel, watchExpr .recorder fuel e (m, []) = .ok v (m', seen)

namespace Evaluates

variable {e l r : Expr} {m m₁ m₂ m' : Machine} {v vl vr : Value} {seen seenl seenr : List Visit} {line : Nat}

/-- Enough fuel is enough with all more fuel, and whatever was seen before. -/
theorem enough (h : Evaluates e m v m' seen) : ∃ least, ∀ fuel, least ≤ fuel → ∀ older,
    watchExpr .recorder fuel e (m, older) = .ok v (m', seen ++ older) := by
  obtain ⟨least, run⟩ := h
  refine ⟨least, fun fuel more older => ?_⟩
  have later := ((@Watched.Later.respects older).watch fuel).1 e m []
  rcases (watch_within .recorder more).1 e (m, []) with ⟨w, spent⟩ | same
  · rw [run] at spent
    cases spent
  · rw [← same, run] at later
    exact later

/-- The rule for a node at some fuel; the recorder has seen the node itself. -/
theorem of_rule {fuel : Nat}
    (h : (innerAt .recorder fuel).evaluateExpr e (m, [⟨.evaluating e, m⟩]) = .ok v (m', seen)) :
    Evaluates e m v m' seen :=
  ⟨fuel + 1, h⟩

theorem context (h : Evaluates e m v m' seen) : m'.context = m.context := by
  obtain ⟨fuel, run⟩ := h
  have returns := ((@Watched.Returns.respects _ (max m.settings.maxCallDepth m.context.callDepth) (fun _ => True)
    .recorder fun _ _ _ _ => trivial).watch fuel).1 e
  exact ((returns m [] (Nat.le_max_left ..) (Nat.le_max_right ..) trivial).of_ok run).1

theorem group (h : Evaluates e m v m' seen) :
    Evaluates (.group e) m v m' (seen ++ [⟨.evaluating (.group e), m⟩]) := by
  obtain ⟨least, part⟩ := h.enough
  exact of_rule (part least (Nat.le_refl _) _)

theorem not (h : Evaluates e m v m' seen) : Evaluates (.unary .not line e) m (.bool !v.isTruthy) m'
    (seen ++ [⟨.evaluating (.unary .not line e), m⟩]) := by
  obtain ⟨least, part⟩ := h.enough
  exact of_rule (bind_of_ok (part least (Nat.le_refl _) _))

/-! ### Connectives that yield an operand -/

/-- The left operand is yielded. -/
theorem left (stop : Bool) (hl : Evaluates l m vl m₁ seenl) (decided : vl.isTruthy = stop) :
    Evaluates (.logical l (.stoppingAt stop) line r) m vl m₁
      (seenl ++ [⟨.evaluating (.logical l (.stoppingAt stop) line r), m⟩]) := by
  obtain ⟨least, left⟩ := hl.enough
  refine of_rule ((congrFun ((innerAt .recorder least).evaluateLogical_stoppingAt ..) _).trans ?_)
  refine (bind_of_ok (left least (Nat.le_refl _) _)).trans ?_
  exact congrFun (if_pos decided) _

/-- The left operand is passed over. -/
theorem right (stop : Bool) (hl : Evaluates l m vl m₁ seenl) (undecided : vl.isTruthy ≠ stop)
    (hr : Evaluates r m₁ vr m₂ seenr) : Evaluates (.logical l (.stoppingAt stop) line r) m vr m₂
      (seenr ++ (seenl ++ [⟨.evaluating (.logical l (.stoppingAt stop) line r), m⟩])) := by
  obtain ⟨leastl, left⟩ := hl.enough
  obtain ⟨leastr, right⟩ := hr.enough
  refine of_rule ((congrFun ((innerAt .recorder (max leastl leastr)).evaluateLogical_stoppingAt ..) _).trans ?_)
  refine (bind_of_ok (left _ (Nat.le_max_left leastl leastr) _)).trans ?_
  exact (congrFun (if_neg undecided) _).trans (right _ (Nat.le_max_right ..) _)

/-- The other connectives are evaluated as the expressions that they are short for. -/
theorem expanded {op : Connective} (short : op ≠ .and ∧ op ≠ .or)
    (h : Evaluates (Expr.expandConnective l op line r) m v m' seen) :
    Evaluates (.logical l op line r) m v m' (seen ++ [⟨.evaluating (.logical l op line r), m⟩]) := by
  obtain ⟨least, whole⟩ := h.enough
  refine @of_rule _ _ _ _ _ least ?_
  cases op with
  | and => exact absurd rfl short.1
  | or => exact absurd rfl short.2
  | xor | nor | nand => exact whole least (Nat.le_refl _) _

end Evaluates

/-! ## Names that are looked up -/

/-- A use of a name, with the frame whose binding is used. -/
structure Lookup where
  use : Use
  frame : Option FrameId
  deriving DecidableEq, Repr

/-- With a recorded distance the frame there is used, else the one that binds the name globally. -/
def Machine.lookup (m : Machine) (u : Use) : Lookup :=
  ⟨u, m.distances[u.id]?.elim (m.store.frames.holder? u.name globalFrame)
    fun d => m.store.frames.ancestor? d m.context.frame⟩

/-- The name that is about to be read or assigned. -/
def Visit.use? (v : Visit) : Option Use :=
  match v.event with
  | .evaluating e => e.reading?
  | .assigning target _ => some target.assigning
  | _ => none

/-- What is looked up at a visit in the given context. Inside of calls the context is another one. -/
def Visit.lookup? (c : Context) (v : Visit) : Option Lookup :=
  if v.machine.context = c then v.use?.map v.machine.lookup else none

/-- What was looked up in the given context, the earliest first. -/
def lookups (c : Context) (seen : List Visit) : List Lookup := seen.reverse.filterMap (Visit.lookup? c)

theorem lookups_append (c : Context) (later earlier : List Visit) :
    lookups c (later ++ earlier) = lookups c earlier ++ lookups c later := by
  unfold lookups
  rw [List.reverse_append, List.filterMap_append]

/-- A node without a name of its own looks nothing up. -/
theorem lookups_node (c : Context) {e : Expr} (nameless : e.reading? = none) (m : Machine) :
    lookups c [⟨.evaluating e, m⟩] = [] := by
  unfold lookups
  rw [List.reverse_singleton]
  refine List.filterMap_eq_nil_iff.2 fun v hv => ?_
  have unused : (⟨.evaluating e, m⟩ : Visit).use? = none := nameless
  rw [List.mem_singleton.1 hv, Visit.lookup?, unused]
  exact ite_self _

/-! ## Operands that change nothing -/

/-- In every state of `S` the expression yields `v`, looks up `names` for itself, and leads to a state of `S` again.
If `S` is a single state, the expression does not change it. States that differ in what no program can tell, such as
frames that are no longer in use, may count as one. -/
def Steady (S : Machine → Prop) (e : Expr) (v : Value) (names : List Lookup) : Prop :=
  ∀ m, S m → ∃ m' seen, Evaluates e m v m' seen ∧ S m' ∧ lookups m.context seen = names

namespace Steady

variable {S : Machine → Prop} {e l r : Expr} {v vl vr : Value} {names namesl namesr : List Lookup} {line : Nat}

theorem group (h : Steady S e v names) : Steady S (.group e) v names := by
  intro m hm
  obtain ⟨m', seen, part, hm', looked⟩ := h m hm
  refine ⟨m', _, part.group, hm', ?_⟩
  rw [lookups_append, lookups_node _ rfl, looked, List.nil_append]

theorem not (h : Steady S e v names) : Steady S (.unary .not line e) (.bool !v.isTruthy) names := by
  intro m hm
  obtain ⟨m', seen, part, hm', looked⟩ := h m hm
  refine ⟨m', _, part.not, hm', ?_⟩
  rw [lookups_append, lookups_node _ rfl, looked, List.nil_append]

theorem connected (stop : Bool) (hl : Steady S l vl namesl) (hr : Steady S r vr namesr) :
    Steady S (.logical l (.stoppingAt stop) line r) (if vl.isTruthy = stop then vl else vr)
      (namesl ++ if vl.isTruthy = stop then [] else namesr) := by
  intro m hm
  obtain ⟨m₁, seenl, left, hm₁, lookedl⟩ := hl m hm
  by_cases decided : vl.isTruthy = stop
  · refine ⟨m₁, _, by rw [if_pos decided]; exact left.left stop decided, hm₁, ?_⟩
    rw [lookups_append, lookups_node _ rfl, lookedl, if_pos decided, List.append_nil, List.nil_append]
  · obtain ⟨m₂, seenr, right, hm₂, lookedr⟩ := hr m₁ hm₁
    rw [left.context] at lookedr
    refine ⟨m₂, _, by rw [if_neg decided]; exact left.right stop decided right, hm₂, ?_⟩
    rw [lookups_append, lookups_append, lookups_node _ rfl, lookedl, lookedr, if_neg decided, List.nil_append]

theorem or (hl : Steady S l vl namesl) (hr : Steady S r vr namesr) : Steady S (.logical l .or line r)
    (if vl.isTruthy then vl else vr) (namesl ++ if vl.isTruthy then [] else namesr) :=
  connected true hl hr

theorem and (hl : Steady S l vl namesl) (hr : Steady S r vr namesr) : Steady S (.logical l .and line r)
    (if vl.isTruthy then vr else vl) (namesl ++ if vl.isTruthy then namesr else []) := by
  have whole : Steady S (.logical l .and line r) _ _ := connected false hl hr
  cases hvl : vl.isTruthy <;> simpa [hvl] using whole

theorem expanded {op : Connective} (short : op ≠ .and ∧ op ≠ .or)
    (h : Steady S (Expr.expandConnective l op line r) v names) : Steady S (.logical l op line r) v names := by
  intro m hm
  obtain ⟨m', seen, part, hm', looked⟩ := h m hm
  refine ⟨m', _, part.expanded short, hm', ?_⟩
  rw [lookups_append, lookups_node _ rfl, looked, List.nil_append]

end Steady

@[simp]
theorem Value.isTruthy_bool (b : Bool) : (Value.bool b).isTruthy = b := rfl

/-- What `xor` yields. -/
def Value.exclusiveOr (l r : Value) : Value := if l.isTruthy then .bool !r.isTruthy else r

theorem Value.exclusiveOr_isTruthy (l r : Value) :
    (l.exclusiveOr r).isTruthy = (l.isTruthy ^^ r.isTruthy) := by
  unfold exclusiveOr
  cases l.isTruthy with
  | true => rw [if_pos rfl, Bool.true_xor]; rfl
  | false => rw [if_neg Bool.false_ne_true, Bool.false_xor]

/-- Connectives that are short for others keep their meaning. Let the operands yield `vl` and `vr` in the states of
`S` and not leave `S`. Then `nor` and `nand` yield the boolean that they are named for, and `xor` yields a boolean or
its right operand, true just if one operand is. The state stays in `S`, and all names of the operands are looked up
in the frames where the operands alone look them up. -/
theorem connectives_keep_meaning {S : Machine → Prop} {l r : Expr} {vl vr : Value} {namesl namesr : List Lookup}
    (line : Nat) (hl : Steady S l vl namesl) (hr : Steady S r vr namesr) :
    Steady S (.logical l .nor line r) (.bool !(vl.isTruthy || vr.isTruthy))
      (namesl ++ if vl.isTruthy then [] else namesr) ∧
    Steady S (.logical l .nand line r) (.bool !(vl.isTruthy && vr.isTruthy))
      (namesl ++ if vl.isTruthy then namesr else []) ∧
    Steady S (.logical l .xor line r) (vl.exclusiveOr vr)
      (if vl.isTruthy then namesl ++ namesr ++ (if vr.isTruthy then namesl else [])
        else namesl ++ namesl ++ namesr) ∧
    (vl.exclusiveOr vr).isTruthy = (vl.isTruthy ^^ vr.isTruthy) := by
  refine ⟨?_, ?_, ?_, vl.exclusiveOr_isTruthy vr⟩
  · have either : (if vl.isTruthy then vl else vr).isTruthy = (vl.isTruthy || vr.isTruthy) := by
      cases hvl : vl.isTruthy <;> simp [hvl]
    rw [← either]
    exact .expanded (by decide) (hl.or hr).group.not
  · have both : (if vl.isTruthy then vr else vl).isTruthy = (vl.isTruthy && vr.isTruthy) := by
      cases hvl : vl.isTruthy <;> simp [hvl]
    rw [← both]
    exact .expanded (by decide) (hl.and hr).group.not
  · refine .expanded (by decide) ?_
    have whole : Steady S (Expr.expandConnective l .xor line r) _ _ := (hl.and hr.not).or (hl.not.and hr)
    cases hvl : vl.isTruthy <;> cases hvr : vr.isTruthy <;>
      simpa [hvl, hvr, Value.exclusiveOr] using whole

namespace EmptyText

/-- `"".isEmpty()`. Each time it is evaluated, the property is a native function of its own. -/
def question : Expr := .call (.get (.literal (.string "")) ⟨"isEmpty", 0⟩) 0 []

def clock : Expr := .variable ⟨0, ⟨"Clock", 0⟩⟩

/-- The name of the clock means the native function, whatever else there is. -/
def HasClock (m : Machine) : Prop :=
  m.distances = ∅ ∧ m.store.frames.holder? "Clock" globalFrame = some globalFrame ∧
    m.store.frames.readAt globalFrame "Clock" = .ok (.native 0 (.global .clock))

/-- The clock was looked up in the global frame. -/
def inGlobal : Lookup := ⟨⟨0, "Clock", .read⟩, some globalFrame⟩

theorem steady_question : Steady HasClock question (.bool true) [] := by
  intro m hm
  refine ⟨{ m with store := m.store.freshIdentity.2 }, _, ⟨3, rfl⟩, hm, ?_⟩
  simp [lookups, Observer.recorder, question, Visit.lookup?, Visit.use?, Expr.reading?]

theorem steady_clock : Steady HasClock clock (.native 0 (.global .clock)) [inGlobal] := by
  rintro m ⟨distances, holder, read⟩
  have unrecorded : m.distances[(0 : NodeId)]? = none := by
    rw [distances]
    exact Std.TreeMap.getElem?_emptyc
  have reads : Eval.readName 0 ⟨"Clock", 0⟩ m = .ok (.native 0 (.global .clock)) m := by
    have state : (get : Eval Machine) m = .ok m m := rfl
    have found : m.store.frames.get globalFrame "Clock" = .ok (.native 0 (.global .clock)) := by
      simp [Frames.get, holder, read]
    refine (bind_of_ok state).trans ?_
    rw [unrecorded, found]
    rfl
  refine ⟨m, [⟨.evaluating clock, m⟩], ⟨1, ?_⟩, ⟨distances, holder, read⟩, ?_⟩
  · change Watched.unseen (Eval.readName 0 ⟨"Clock", 0⟩) (m, _) = _
    rw [Watched.unseen, reads]
    rfl
  · simp [lookups, clock, Visit.lookup?, Visit.use?, Expr.reading?, Variable.reading, Machine.lookup, unrecorded,
      holder, inGlobal]

/-- In `(Clock xor "".isEmpty()) nor "".isEmpty()` the clock is looked up twice. -/
theorem connectives_keep_meaning_nested :
    HasClock (.initial ⟨false, 3⟩ .collected ⟨[], []⟩ 0) ∧
      Steady HasClock (.logical (.logical clock .xor 0 question) .nor 0 question) (.bool false)
        [inGlobal, inGlobal] := by
  have exclusive := (connectives_keep_meaning 0 steady_clock steady_question).2.2.1
  refine ⟨⟨rfl, by decide +kernel, rfl⟩, ?_⟩
  exact (connectives_keep_meaning 0 exclusive steady_question).1

end EmptyText

end Scriptlet
