import Scriptlet.Proofs.Scoping

/-!
# Members of classes around a part of a text

A part of a text may belong to a method of a class, to a static method, or to no member of a class at all.
The analysis keeps track of the innermost routine and of the kind of the class only. In a method this is
enough: `this` is declared right around the innermost member of a class, and `super` one region further out.
-/
namespace Scriptlet

open Analysis

/-- The surroundings of a member of a class: of a method with its receiver, or of the static methods. -/
def Region.isMember : Region → Bool
  | .receiver _ | .statics _ => true
  | _ => false

def Region.isReceiver : Region → Bool
  | .receiver _ => true
  | _ => false

theorem Region.isReceiver_iff {region : Region} : region.isReceiver = true ↔ ∃ d, region = .receiver d := by
  cases region <;> simp [isReceiver]

namespace Layers

/-- The innermost member of a class around the part, with `k` layers inside its surroundings. -/
def Member (layers : List Layer) (k : Nat) (region : Region) : Prop :=
  (∃ layer, layers[k]? = some layer ∧ layer.region = region) ∧ region.isMember = true ∧
    ∀ j < k, ∀ inner, layers[j]? = some inner → inner.region.isMember = false

/-- The part stands in the body of a static method itself, not in a function declared there. -/
def inStaticBody : List Layer → Bool
  | ⟨.block _, _⟩ :: outer => inStaticBody outer
  | ⟨.routine _, _⟩ :: ⟨.statics _, _⟩ :: _ => true
  | _ => false

/-- How regions lie in each other. The names that are known in them have no part in this. -/
inductive Nested : List Layer → Prop where
  | outermost : Nested []
  | block {body names outer} : Nested outer → Nested (⟨.block body, names⟩ :: outer)
  | function {d names outer} : Nested outer → Nested (⟨.routine d, names⟩ :: outer)
  | method {d names names' name superclass methods statics outer} : d ∈ methods → Nested outer →
    Nested (⟨.routine d, names⟩ :: ⟨.receiver d, names'⟩ :: ofClass name superclass methods statics outer)
  | static {d names names' name superclass methods statics outer} : d ∈ statics → Nested outer →
    Nested (⟨.routine d, names⟩ :: ⟨.statics (.classDecl name superclass methods statics), names'⟩ ::
      ofClass name superclass methods statics outer)

namespace Nested

variable {layers : List Layer}

theorem mark (h : Nested layers) (name : String) (b : Bool) : Nested (mark name b layers) := by
  cases h with
  | outermost => exact .outermost
  | block h => exact .block h
  | function h => exact .function h
  | method hd h => exact .method hd h
  | static hd h => exact .static hd h

theorem grounded (h : Nested layers) : Grounded layers := by
  cases h <;> trivial

end Nested

theorem nested_after {layers : List Layer} (h : Nested layers) (s : Stmt) : Nested (after s layers) := by
  unfold after
  split
  · exact h
  · exact h.mark _ _

theorem nested_inside {layers : List Layer} (h : Nested layers) (s : Stmt) : Nested (inside s layers) := by
  unfold inside
  split
  · exact h.mark _ _
  · exact h.mark _ _
  · exact h

end Layers

open Layers

theorem Placed.nested {text : List Stmt} {layers : List Layer} {part : Part} (h : Placed text layers part) :
    Nested layers := by
  induction h with
  | whole => exact .outermost
  | first _ ih => exact ih
  | rest _ ih => exact nested_after ih _
  | branch _ _ ih => exact ih
  | block _ ih => exact .block ih
  | function _ ih => exact .function (ih.mark _ _)
  | method _ hd ih => exact .method hd ih
  | static _ hd ih => exact .static hd ih
  | use _ _ ih => exact nested_inside ih _

/-! ## Uses of keywords -/

/-- The only keywords that name something are `this` and `super`. -/
def Use.Named (u : Use) : Prop := u.access = .keyword → u.name = thisName ∨ u.name = superName

mutual

theorem Expr.named_uses (e : Expr) : ∀ u ∈ e.uses, u.Named := by
  have both {us vs : List Use} (hus : ∀ u ∈ us, u.Named) (hvs : ∀ u ∈ vs, u.Named) : ∀ u ∈ us ++ vs, u.Named :=
    fun u hu => (List.mem_append.1 hu).elim (hus u) (hvs u)
  have one {v : Use} (hv : v.Named) : ∀ u ∈ [v], u.Named := fun u hu => List.mem_singleton.1 hu ▸ hv
  cases e with
  | literal => exact fun u hu => nomatch hu
  | group e | unary _ _ e | get e _ => exact e.named_uses
  | binary l _ _ r | logical l _ _ r => exact both l.named_uses r.named_uses
  | «variable» => exact one nofun
  | assign _ e => exact both e.named_uses (one nofun)
  | this => exact one fun _ => .inl rfl
  | super => exact one fun _ => .inr rfl
  | call f _ args => exact both f.named_uses (named_listUses args)
  | set o _ e => exact both e.named_uses o.named_uses
  | array es => exact named_listUses es

theorem Expr.named_listUses (es : List Expr) : ∀ u ∈ listUses es, u.Named := by
  cases es with
  | nil => exact fun u hu => nomatch hu
  | cons e es => exact fun u hu => (List.mem_append.1 hu).elim (e.named_uses u) (named_listUses es u)

end

theorem Expr.named_optionUses (e : Option Expr) : ∀ u ∈ optionUses e, u.Named := by
  cases e with
  | none => exact fun u hu => nomatch hu
  | some e => exact e.named_uses

theorem Stmt.named_uses (s : Stmt) : ∀ u ∈ s.uses, u.Named := by
  intro u hu
  cases s with
  | expression e | print e | constDecl _ e | ifThen e _ | ifElse e _ _ | doWhile _ e =>
    exact e.named_uses u hu
  | letDecl _ init | returnValue _ init => exact Expr.named_optionUses init u hu
  | whileLoop c _ inc =>
    exact (List.mem_append.1 hu).elim (c.named_uses u) (Expr.named_optionUses inc u)
  | classDecl _ superclass _ _ =>
    obtain ⟨use, -, rfl⟩ := List.mem_map.1 hu
    exact nofun
  | _ => cases hu

theorem Placed.named {text : List Stmt} {layers : List Layer} {u : Use} (h : Placed text layers (.use u)) :
    u.Named := by
  cases h with
  | @use _ s _ _ hu => exact s.named_uses u hu

namespace Layers

variable {layers outer : List Layer} {layer : Layer} {name : String}

/-! ## The nearest declaration and the innermost member -/

theorem nearest_zero (h : layer.names.contains name = true) : Nearest name (layer :: outer) 0 layer :=
  ⟨rfl, h, fun _ hk => absurd hk (Nat.not_lt_zero _)⟩

theorem Nearest.cons {found : Layer} {k : Nat} (h : Nearest name outer k found)
    (hl : layer.names.contains name = false) : Nearest name (layer :: outer) (k + 1) found := by
  obtain ⟨hfound, hc, hinner⟩ := h
  refine ⟨hfound, hc, ?_⟩
  intro j hj inner hi
  cases j with
  | zero =>
    cases hi
    exact hl
  | succ j => exact hinner j (Nat.lt_of_succ_lt_succ hj) inner hi

/-- The analysis records how many layers lie inside the nearest one that declares the name. -/
theorem Nearest.distance {k : Nat} (h : Nearest name layers k layer) :
    distance? name (scopes layers) = some k := by
  obtain ⟨hfound, hc, hinner⟩ := h
  obtain ⟨hk, rfl⟩ := List.getElem?_eq_some_iff.1 hfound
  apply List.findIdx?_eq_some_iff_getElem.2
  refine ⟨by simpa [scopes] using hk, by simpa [scopes] using hc, ?_⟩
  intro j hj
  simpa [scopes] using hinner j hj _ (List.getElem?_eq_getElem (Nat.lt_trans hj hk))

/-- A block or a routine is not the surroundings of a member. -/
theorem Member.of_cons {k : Nat} {region : Region} (h : Member (layer :: outer) k region)
    (hl : layer.region.isMember = false) : ∃ j, k = j + 1 ∧ Member outer j region := by
  obtain ⟨⟨found, hfound, rfl⟩, hm, hinner⟩ := h
  cases k with
  | zero =>
    cases hfound
    cases hl.symm.trans hm
  | succ j =>
    refine ⟨j, rfl, ⟨found, hfound, rfl⟩, hm, ?_⟩
    exact fun i hi inner hinside => hinner (i + 1) (Nat.succ_lt_succ hi) inner hinside

theorem Member.of_member {k : Nat} {region : Region} (h : Member (layer :: outer) k region)
    (hl : layer.region.isMember = true) : k = 0 ∧ region = layer.region := by
  obtain ⟨⟨found, hfound, rfl⟩, -, hinner⟩ := h
  cases k with
  | zero =>
    cases hfound
    exact ⟨rfl, rfl⟩
  | succ j => cases (hinner 0 (Nat.succ_pos j) layer rfl).symm.trans hl

theorem Member.cons {k : Nat} {region : Region} (h : Member outer k region)
    (hl : layer.region.isMember = false) : Member (layer :: outer) (k + 1) region := by
  obtain ⟨hfound, hm, hinner⟩ := h
  refine ⟨hfound, hm, ?_⟩
  intro j hj inner hi
  cases j with
  | zero =>
    cases hi
    exact hl
  | succ j => exact hinner j (Nat.lt_of_succ_lt_succ hj) inner hi

theorem Member.cases {k : Nat} {region : Region} (h : Member layers k region) :
    (∃ d, region = .receiver d) ∨ ∃ declaration, region = .statics declaration := by
  have hm := h.2.1
  cases region with
  | receiver d => exact .inl ⟨d, rfl⟩
  | statics declaration => exact .inr ⟨declaration, rfl⟩
  | _ => cases hm

theorem Member.mem {k : Nat} {region : Region} (h : Member layers k region) :
    ∃ layer ∈ layers, layer.region = region := by
  obtain ⟨⟨found, hfound, hr⟩, -⟩ := h
  exact ⟨found, List.mem_of_getElem? hfound, hr⟩

theorem member_zero (h : layer.region.isMember = true) : Member (layer :: outer) 0 layer.region :=
  ⟨⟨layer, rfl, rfl⟩, h, fun _ hk => absurd hk (Nat.not_lt_zero _)⟩

theorem Member.unique {k k' : Nat} {region region' : Region} (h : Member layers k region)
    (h' : Member layers k' region') : k = k' ∧ region = region' := by
  obtain ⟨⟨found, hfound, rfl⟩, hm, hinner⟩ := h
  obtain ⟨⟨found', hfound', rfl⟩, hm', hinner'⟩ := h'
  rcases Nat.lt_trichotomy k k' with hlt | rfl | hlt
  · cases (hinner' k hlt found hfound).symm.trans hm
  · cases hfound.symm.trans hfound'
    exact ⟨rfl, rfl⟩
  · cases (hinner k' hlt found' hfound').symm.trans hm'

/-- Right inside the surroundings of a method is the method itself. -/
theorem Nested.routine_of_member (h : Nested layers) {k : Nat} {d : FunctionDecl}
    (hm : Member layers k (.receiver d)) :
    ∃ j routine, k = j + 1 ∧ layers[j]? = some routine ∧ routine.region = .routine d := by
  induction h generalizing k with
  | outermost =>
    obtain ⟨⟨_, hfound, _⟩, _⟩ := hm
    cases hfound
  | block _ ih | function _ ih =>
    obtain ⟨j, rfl, inner⟩ := hm.of_cons rfl
    obtain ⟨i, routine, rfl, hrest⟩ := ih inner
    exact ⟨i + 1, routine, rfl, hrest⟩
  | method _ _ _ =>
    obtain ⟨j, rfl, inner⟩ := hm.of_cons rfl
    obtain ⟨rfl, hr⟩ := inner.of_member rfl
    cases hr
    exact ⟨0, _, rfl, rfl, rfl⟩
  | static _ _ _ =>
    obtain ⟨j, rfl, inner⟩ := hm.of_cons rfl
    cases (inner.of_member rfl).2

/-! ## What the analysis knows -/

/-- Outside of all classes the analysis knows of none. -/
theorem Nested.exists_member (h : Nested layers) (hc : (surroundings layers).classKind ≠ .none) :
    ∃ k region, Member layers k region := by
  induction h with
  | outermost => exact absurd rfl hc
  | block _ ih =>
    obtain ⟨k, region, hm⟩ := ih hc
    exact ⟨k + 1, region, hm.cons rfl⟩
  | function h ih =>
    obtain ⟨k, region, hm⟩ := ih (by simpa [surroundings_routine h.grounded] using hc)
    exact ⟨k + 1, region, hm.cons rfl⟩
  | method _ _ _ => exact ⟨1, _, Member.cons (member_zero rfl) rfl⟩
  | static _ _ _ => exact ⟨1, _, Member.cons (member_zero rfl) rfl⟩

theorem routine_of_inStaticBody (h : inStaticBody layers = true) :
    (surroundings layers).routine = .staticMethod := by
  fun_induction inStaticBody layers with
  | case1 body names outer ih => exact ih h
  | case2 => rfl
  | case3 => cases h

/-- In a method `this` is declared nearest in the surroundings of the method. -/
theorem Member.this_nearest {k : Nat} {d : FunctionDecl} (h : Member layers k (.receiver d))
    (hk : Keyworded layers) : ∃ receiver, Nearest thisName layers k receiver ∧ receiver.region = .receiver d := by
  obtain ⟨⟨receiver, hfound, hr⟩, -, hinner⟩ := h
  refine ⟨receiver, ⟨hfound, ?_, ?_⟩, hr⟩
  · exact (hk receiver (List.mem_of_getElem? hfound)).1.2 ⟨d, hr⟩
  · intro j hj inner hi
    have notMember := hinner j hj inner hi
    apply Bool.eq_false_iff.2
    intro hthis
    obtain ⟨method, hregion⟩ := (hk inner (List.mem_of_getElem? hi)).1.1 hthis
    rw [hregion] at notMember
    cases notMember

/-- If a method is around the part, then `this` is declared nearest around a method. -/
theorem Keyworded.this_nearest (hk : Keyworded layers) {d : FunctionDecl} (hl : layer ∈ layers)
    (hr : layer.region = .receiver d) :
    ∃ k receiver method, Nearest thisName layers k receiver ∧ receiver.region = .receiver method := by
  cases hd : distance? thisName (scopes layers) with
  | none =>
    have missing := List.findIdx?_eq_none_iff.1 hd layer.names (List.mem_map.2 ⟨layer, hl, rfl⟩)
    cases missing.symm.trans ((hk layer hl).1.2 ⟨d, hr⟩)
  | some k =>
    obtain ⟨receiver, near⟩ := nearest_of_distance? hd
    obtain ⟨method, hmethod⟩ := (hk receiver (List.mem_of_getElem? near.1)).1.1 near.2.1
    exact ⟨k, receiver, method, near, hmethod⟩

theorem Keyworded.tail (h : Keyworded (layer :: outer)) : Keyworded outer :=
  fun l hl => h l (List.mem_cons_of_mem _ hl)

/-- Only the surroundings of the methods of a subclass declare `super`. -/
theorem Keyworded.not_super (h : Keyworded (layer :: outer))
    (hl : ∀ declaration, layer.region ≠ .superclass declaration) : layer.names.contains superName = false := by
  apply Bool.eq_false_iff.2
  intro hs
  obtain ⟨declaration, hr⟩ := (h layer (List.mem_cons_self ..)).2.1 hs
  exact hl declaration hr

/-- In a method of a subclass `super` is declared nearest in the region right around that of the receiver. -/
theorem Nested.super_nearest (h : Nested layers) (hk : Keyworded layers) {k : Nat} {d : FunctionDecl}
    (hm : Member layers k (.receiver d)) (hc : (surroundings layers).classKind = .derived) :
    ∃ layer name use methods statics, Nearest superName layers (k + 1) layer ∧
      layer.region = .superclass (.classDecl name (some use) methods statics) ∧ d ∈ methods := by
  induction h generalizing k with
  | outermost =>
    obtain ⟨⟨_, hfound, _⟩, _⟩ := hm
    cases hfound
  | block _ ih =>
    obtain ⟨j, rfl, inner⟩ := hm.of_cons rfl
    obtain ⟨layer, name, use, methods, statics, hn, hrest⟩ := ih hk.tail inner hc
    exact ⟨layer, name, use, methods, statics, hn.cons (hk.not_super nofun), hrest⟩
  | function h ih =>
    obtain ⟨j, rfl, inner⟩ := hm.of_cons rfl
    rw [surroundings_routine h.grounded] at hc
    obtain ⟨layer, name, use, methods, statics, hn, hrest⟩ := ih hk.tail inner hc
    exact ⟨layer, name, use, methods, statics, hn.cons (hk.not_super nofun), hrest⟩
  | @method d' _ _ name superclass methods statics outer hd h _ =>
    obtain ⟨j, rfl, inner⟩ := hm.of_cons rfl
    obtain ⟨rfl, hr⟩ := inner.of_member rfl
    cases hr
    have kind : classOf superclass = .derived :=
      (classKind_ofClass h.grounded name superclass methods statics).symm.trans hc
    cases superclass with
    | none => cases kind
    | some use =>
      have declared := (hk.tail.tail _ (List.mem_cons_self ..)).2.2 ⟨_, rfl⟩
      have nearest : Nearest superName (ofClass name (some use) methods statics outer) 0 _ :=
        nearest_zero declared
      have around := (nearest.cons (hk.tail.not_super nofun)).cons (hk.not_super nofun)
      exact ⟨_, name, use, methods, statics, around, rfl, hd⟩
  | static _ _ _ =>
    obtain ⟨j, rfl, inner⟩ := hm.of_cons rfl
    cases (inner.of_member rfl).2

/-- The analysis accepts `this` and `super` inside classes only, and not right in a static method. -/
theorem inClass_of_accepted {around : Surroundings}
    (h : thisProblem? around = none ∨ superProblem? around = none) :
    around.classKind ≠ .none ∧ around.routine ≠ .staticMethod := by
  rcases h with h | h
  · unfold thisProblem? at h
    split at h
    · cases h
    · next hc =>
      split at h
      · cases h
      · next hr => exact ⟨hc, hr⟩
  · unfold superProblem? at h
    split at h
    · cases h
    · cases h
    · next hc =>
      split at h
      · cases h
      · next hr => exact ⟨by simp [hc], hr⟩

/-- The analysis accepts `super` in subclasses only. -/
theorem derived_of_accepted {around : Surroundings} (h : superProblem? around = none) :
    around.classKind = .derived := by
  unfold superProblem? at h
  split at h
  · cases h
  · cases h
  · next hc => exact hc

/-- A use that the analysis accepts stands in a member of a class, but not in the body of a static method. -/
theorem Nested.keyword_place (h : Nested layers)
    (hp : thisProblem? (surroundings layers) = none ∨ superProblem? (surroundings layers) = none) :
    (∃ k region, Member layers k region) ∧ inStaticBody layers = false := by
  have known := inClass_of_accepted hp
  refine ⟨h.exists_member known.1, Bool.eq_false_iff.2 ?_⟩
  exact fun hs => known.2 (routine_of_inStaticBody hs)

end Layers

end Scriptlet
