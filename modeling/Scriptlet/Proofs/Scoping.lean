import Scriptlet.Proofs.Resolution

/-!
# Distances count lexical regions

The walk of the analysis is followed into every part of a text: where a part stands inside some regions, the
analysis came to it with their scopes open.
-/
namespace Scriptlet

open Analysis

/-! ## Names of layers -/

theorem Keyword.ofText?_text (k : Keyword) : Keyword.ofText? k.text ≠ none := by
  intro h
  have hk := List.find?_eq_none.1 h k k.mem_all
  exact hk (beq_self_eq_true k.text)

theorem Name.Unreserved.ne {name : Name} (h : name.Unreserved) (k : Keyword) : name.text ≠ k.text := by
  intro heq
  rw [Name.Unreserved, heq] at h
  exact k.ofText?_text h

theorem Stmt.Shaped.declared {s : Stmt} (hs : s.Shaped) {name : Name} (hd : s.declared? = some name) :
    name.Unreserved := by
  cases s with
  | letDecl _ _ | constDecl _ _ => cases hd; exact hs
  | function d =>
    obtain ⟨name', params, body⟩ := d
    cases hd
    exact hs.1.1
  | classDecl _ _ _ _ => cases hd; exact hs.1
  | _ => cases hd

theorem Table.contains_insert_of_ne {α : Type} {t : Table α} {name other : String} {value : α}
    (h : name ≠ other) : (t.insert name value).contains other = t.contains other := by
  rw [Table.contains, Table.find?_insert, if_neg h, Table.contains]

namespace Layers

/-- No name is being initialized. -/
def AllDefined (layers : List Layer) : Prop :=
  ∀ layer ∈ layers, ∀ name, layer.names.find? name ≠ some false

/-- `this` is declared around methods and `super` around those of a subclass, and nowhere else. -/
def Keyworded (layers : List Layer) : Prop :=
  ∀ layer ∈ layers,
    (layer.names.contains thisName = true ↔ ∃ method, layer.region = .receiver method) ∧
    (layer.names.contains superName = true ↔ ∃ declaration, layer.region = .superclass declaration)

/-- The parameters of a routine have names of their own. -/
def Distinct (layers : List Layer) : Prop :=
  ∀ layer ∈ layers, ∀ d, layer.region = .routine d → (d.params.map Name.text).Nodup

/-- Statements stand in a block, in the body of a routine, or outside of all regions. -/
def Grounded : List Layer → Prop
  | ⟨.receiver _, _⟩ :: _ | ⟨.superclass _, _⟩ :: _ | ⟨.statics _, _⟩ :: _ => False
  | _ => True

/-- The kind of the class whose methods stand inside the layers. -/
def classKind : List Layer → ClassKind
  | ⟨.superclass _, _⟩ :: _ => .derived
  | _ => .base

/-- What the analysis takes to be around a part inside the layers. -/
def surroundings : List Layer → Surroundings
  | [] => .outermost
  | ⟨.routine d, _⟩ :: ⟨.receiver _, _⟩ :: outer => ⟨methodRoutine d.name, classKind outer⟩
  | ⟨.routine _, _⟩ :: ⟨.statics _, _⟩ :: outer => ⟨.staticMethod, classKind outer⟩
  | ⟨.routine _, _⟩ :: outer => { surroundings outer with routine := .function }
  | _ :: outer => surroundings outer

theorem scopes_mark (name : String) (b : Bool) (layers : List Layer) :
    scopes (mark name b layers) = updateHead (·.insert name b) (scopes layers) := by
  cases layers <;> rfl

theorem scopes_after (s : Stmt) (layers : List Layer) :
    scopes (after s layers) = declares s (scopes layers) := by
  unfold after declares
  cases s.declared? with
  | none => rfl
  | some name => exact scopes_mark name.text true layers

theorem tail_mark (name : String) (b : Bool) (layers : List Layer) :
    (mark name b layers).tail = layers.tail := by
  cases layers <;> rfl

theorem tail_inside (s : Stmt) (layers : List Layer) : (inside s layers).tail = layers.tail := by
  unfold inside
  split
  iterate 2 exact tail_mark _ _ _
  · rfl

namespace AllDefined

variable {layers : List Layer}

theorem cons {layer : Layer} (h : AllDefined layers) (hl : ∀ name, layer.names.find? name ≠ some false) :
    AllDefined (layer :: layers) := by
  intro l hmem
  rcases List.mem_cons.1 hmem with rfl | hmem
  · exact hl
  · exact h l hmem

theorem mark (h : AllDefined layers) (name : String) : AllDefined (mark name true layers) := by
  cases layers with
  | nil => exact h
  | cons layer outer =>
    refine cons (fun l hl => h l (List.mem_cons_of_mem _ hl)) fun other => ?_
    rw [Table.find?_insert]
    split
    · exact fun hf => nomatch hf
    · exact h layer (List.mem_cons_self ..) other

theorem after (h : AllDefined layers) (s : Stmt) : AllDefined (after s layers) := by
  unfold Layers.after
  split
  · exact h
  · exact h.mark _

theorem routine (h : AllDefined layers) (d : FunctionDecl) : AllDefined (.routine d :: layers) := by
  have insertAll (params : List Name) (names : Scope) (hn : ∀ name, names.find? name ≠ some false) :
      ∀ name, (params.foldl (fun names p => names.insert p.text true) names).find? name ≠ some false := by
    induction params generalizing names with
    | nil => exact hn
    | cons p ps ih =>
      refine ih _ fun name => ?_
      rw [Table.find?_insert]
      split
      · exact fun hf => nomatch hf
      · exact hn name
  exact h.cons (insertAll d.params ∅ fun _ hf => nomatch hf)

theorem single (h : AllDefined layers) (region : Region) (name : String) :
    AllDefined (⟨region, Table.empty.insert name true⟩ :: layers) := by
  refine h.cons fun other => ?_
  rw [Table.find?_insert]
  split
  · exact fun hf => nomatch hf
  · exact fun hf => nomatch hf

theorem empty (h : AllDefined layers) (region : Region) : AllDefined (⟨region, ∅⟩ :: layers) :=
  h.cons fun _ hf => nomatch hf

theorem ofClass (h : AllDefined layers) (name : Name) (superclass : Option Variable)
    (methods statics : List FunctionDecl) : AllDefined (ofClass name superclass methods statics layers) := by
  cases superclass with
  | none => exact h.mark _
  | some _ => exact (h.mark _).single _ _

end AllDefined

namespace Keyworded

variable {layers : List Layer}

theorem cons {layer : Layer} (h : Keyworded layers)
    (ht : layer.names.contains thisName = true ↔ ∃ method, layer.region = .receiver method)
    (hs : layer.names.contains superName = true ↔ ∃ declaration, layer.region = .superclass declaration) :
    Keyworded (layer :: layers) := by
  intro l hmem
  rcases List.mem_cons.1 hmem with rfl | hmem
  · exact ⟨ht, hs⟩
  · exact h l hmem

theorem mark (h : Keyworded layers) {name : Name} (hn : name.Unreserved) (b : Bool) :
    Keyworded (mark name.text b layers) := by
  cases layers with
  | nil => exact h
  | cons layer outer =>
    obtain ⟨ht, hs⟩ := h layer (List.mem_cons_self ..)
    have others (k : Keyword) : (layer.names.insert name.text b).contains k.text = layer.names.contains k.text :=
      Table.contains_insert_of_ne (hn.ne k)
    refine cons (fun l hl => h l (List.mem_cons_of_mem _ hl)) ?_ ?_
    · exact (Bool.eq_iff_iff.1 (others .this)).trans ht
    · exact (Bool.eq_iff_iff.1 (others .super)).trans hs

theorem after (h : Keyworded layers) {s : Stmt} (hs : s.Shaped) : Keyworded (after s layers) := by
  unfold Layers.after
  split
  · exact h
  · next hd => exact h.mark (hs.declared hd) true

theorem inside (h : Keyworded layers) {s : Stmt} (hs : s.Shaped) : Keyworded (inside s layers) := by
  unfold Layers.inside
  split
  · exact h.mark hs false
  · exact h.mark hs false
  · exact h

/-- A layer without names that may be keywords. -/
theorem plain (h : Keyworded layers) {layer : Layer} (ht : layer.names.contains thisName = false)
    (hs : layer.names.contains superName = false)
    (hr : (∃ body, layer.region = .block body) ∨ (∃ d, layer.region = .routine d) ∨
      ∃ declaration, layer.region = .statics declaration) : Keyworded (layer :: layers) := by
  refine h.cons ?_ ?_
  · rw [ht]
    rcases hr with ⟨_, hr⟩ | ⟨_, hr⟩ | ⟨_, hr⟩ <;> simp [hr]
  · rw [hs]
    rcases hr with ⟨_, hr⟩ | ⟨_, hr⟩ | ⟨_, hr⟩ <;> simp [hr]

theorem block (h : Keyworded layers) (body : List Stmt) : Keyworded (.block body :: layers) :=
  h.plain rfl rfl (.inl ⟨body, rfl⟩)

theorem statics (h : Keyworded layers) (declaration : Stmt) : Keyworded (.statics declaration :: layers) :=
  h.plain rfl rfl (.inr (.inr ⟨declaration, rfl⟩))

theorem routine (h : Keyworded layers) {d : FunctionDecl} (hd : Stmt.RoutineShaped d) :
    Keyworded (.routine d :: layers) := by
  have others (k : Keyword) (params : List Name) (names : Scope) (hp : ∀ p ∈ params, p.Unreserved)
      (hk : names.contains k.text = false) :
      (params.foldl (fun names p => names.insert p.text true) names).contains k.text = false := by
    induction params generalizing names with
    | nil => exact hk
    | cons p ps ih =>
      refine ih _ (fun q hq => hp q (List.mem_cons_of_mem _ hq)) ?_
      rwa [Table.contains_insert_of_ne ((hp p (List.mem_cons_self ..)).ne k)]
  obtain ⟨name, params, body⟩ := d
  exact h.plain (others .this params ∅ hd.1.2 rfl) (others .super params ∅ hd.1.2 rfl) (.inr (.inl ⟨_, rfl⟩))

theorem receiver (h : Keyworded layers) (method : FunctionDecl) : Keyworded (.receiver method :: layers) := by
  refine h.cons (iff_of_true ?_ ⟨method, rfl⟩) (iff_of_false ?_ nofun)
  · rfl
  · simp [Layer.receiver, Table.contains, thisName_ne_superName]

theorem ofClass (h : Keyworded layers) {name : Name} (hn : name.Unreserved) (superclass : Option Variable)
    (methods statics : List FunctionDecl) : Keyworded (ofClass name superclass methods statics layers) := by
  cases superclass with
  | none => exact h.mark hn true
  | some _ =>
    refine (h.mark hn true).cons (iff_of_false ?_ nofun) (iff_of_true ?_ ⟨_, rfl⟩)
    · simp [Layer.superclass, Table.contains, thisName_ne_superName.symm]
    · rfl

end Keyworded

namespace Distinct

variable {layers : List Layer}

theorem cons {layer : Layer} (h : Distinct layers)
    (hl : ∀ d, layer.region = .routine d → (d.params.map Name.text).Nodup) : Distinct (layer :: layers) := by
  intro l hmem
  rcases List.mem_cons.1 hmem with rfl | hmem
  · exact hl
  · exact h l hmem

theorem mark (h : Distinct layers) (name : String) (b : Bool) : Distinct (mark name b layers) := by
  cases layers with
  | nil => exact h
  | cons layer outer =>
    exact cons (fun l hl => h l (List.mem_cons_of_mem _ hl)) (h layer (List.mem_cons_self ..))

theorem after (h : Distinct layers) (s : Stmt) : Distinct (after s layers) := by
  unfold Layers.after
  split
  · exact h
  · exact h.mark _ _

theorem ofClass (h : Distinct layers) (name : Name) (superclass : Option Variable)
    (methods statics : List FunctionDecl) : Distinct (ofClass name superclass methods statics layers) := by
  cases superclass with
  | none => exact h.mark _ _
  | some _ => exact (h.mark _ _).cons nofun

end Distinct

theorem grounded_mark {layers : List Layer} (h : Grounded layers) (name : String) (b : Bool) :
    Grounded (mark name b layers) := by
  rcases layers with _ | ⟨⟨region, names⟩, outer⟩
  · exact h
  · cases region <;> exact h

theorem surroundings_mark (name : String) (b : Bool) (layers : List Layer) :
    surroundings (mark name b layers) = surroundings layers := by
  rcases layers with _ | ⟨⟨region, names⟩, outer⟩
  · rfl
  · cases region with
    | routine d => rcases outer with _ | ⟨⟨region', names'⟩, outer'⟩ <;> [rfl; cases region' <;> rfl]
    | _ => rfl

theorem surroundings_after (s : Stmt) (layers : List Layer) :
    surroundings (after s layers) = surroundings layers := by
  unfold after
  split
  · rfl
  · exact surroundings_mark _ _ _

theorem surroundings_inside (s : Stmt) (layers : List Layer) :
    surroundings (inside s layers) = surroundings layers := by
  unfold inside
  split
  iterate 2 exact surroundings_mark _ _ _
  · rfl

/-- A function declared among statements. -/
theorem surroundings_routine {layers : List Layer} (h : Grounded layers) (d : FunctionDecl) (names : Scope) :
    surroundings (⟨.routine d, names⟩ :: layers) = { surroundings layers with routine := .function } := by
  rcases layers with _ | ⟨⟨region, names⟩, outer⟩
  · rfl
  · cases region with
    | block | routine => rfl
    | _ => exact h.elim

/-- The class is a subclass just if it has a clause for that. -/
theorem classKind_ofClass {layers : List Layer} (h : Grounded layers) (name : Name)
    (superclass : Option Variable) (methods statics : List FunctionDecl) :
    classKind (ofClass name superclass methods statics layers) = classOf superclass := by
  cases superclass with
  | some _ => rfl
  | none =>
    rcases layers with _ | ⟨⟨region, names⟩, outer⟩
    · rfl
    · cases region with
      | block | routine => rfl
      | _ => exact h.elim

/-- What holds of the layers around a statement. -/
structure Sound (layers : List Layer) : Prop where
  defined : AllDefined layers
  keyworded : Keyworded layers
  distinct : Distinct layers
  grounded : Grounded layers

theorem Sound.after {layers : List Layer} (h : Sound layers) {s : Stmt} (hs : s.Shaped) :
    Sound (after s layers) := by
  refine ⟨h.defined.after s, h.keyworded.after hs, h.distinct.after s, ?_⟩
  unfold Layers.after
  split
  · exact h.grounded
  · exact grounded_mark h.grounded _ _

theorem scopes_ofClass (name : Name) (superclass : Option Variable) (methods statics : List FunctionDecl)
    (layers : List Layer) :
    scopes (ofClass name superclass methods statics layers) =
      superScopes superclass (updateHead (·.insert name.text true) (scopes layers)) := by
  cases superclass with
  | none => exact scopes_mark _ _ _
  | some _ => exact congrArg (_ :: ·) (scopes_mark _ _ _)

/-- The recorded distance is that of the innermost layer which declares the name. -/
theorem nearest_of_distance? {name : String} {layers : List Layer} {d : Nat}
    (h : distance? name (scopes layers) = some d) : ∃ layer, Nearest name layers d layer := by
  obtain ⟨hd, hc, hk⟩ := List.findIdx?_eq_some_iff_getElem.1 h
  rw [scopes, List.length_map] at hd
  refine ⟨layers[d], List.getElem?_eq_getElem hd, ?_, ?_⟩
  · simpa [scopes] using hc
  · intro k hkd inner hinner
    obtain ⟨hlen, rfl⟩ := List.getElem?_eq_some_iff.1 hinner
    simpa [scopes] using hk k hkd

end Layers

open Layers

/-- Variables are not named like keywords, so no keyword is announced. -/
theorem keywordsDefined_inside {s : Stmt} {layers : List Layer} (hs : s.Shaped) (h : AllDefined layers) :
    KeywordsDefined (scopes (inside s layers)) := by
  have plain : KeywordsDefined (scopes layers) := by
    intro k
    cases layers with
    | nil => exact fun hf => nomatch hf
    | cons layer outer => exact h layer (List.mem_cons_self ..) k.text
  have announced (name : Name) (hn : name.Unreserved) : KeywordsDefined (scopes (mark name.text false layers)) := by
    intro k
    cases layers with
    | nil => exact plain k
    | cons layer outer =>
      have same : headMark? k.text (scopes (mark name.text false (layer :: outer))) =
          headMark? k.text (scopes (layer :: outer)) :=
        (Table.find?_insert _ _ _ _).trans (if_neg (hn.ne k))
      rw [same]
      exact plain k
  cases s with
  | letDecl name _ | constDecl name _ => exact announced name hs
  | _ => exact plain

/-! ## Following the analysis -/

/-- The analysis came to the part with the scopes of the layers open. -/
def Reached (n : NodeId) (D : Distances) (layers : List Layer) : Part → Prop
  | .statements ss => Sound layers ∧ Stmt.ListShaped ss ∧
    Visited n D (scopes layers) (Stmt.listIds ss) (visitStmts (surroundings layers) ss)
  | .statement s => Sound layers ∧ s.Shaped ∧
    Visited n D (scopes layers) s.ids (visitStmt (surroundings layers) s)
  | .use u => Finds n D (surroundings layers) (scopes layers) u

/-- A name that is declared beside a variable has no part in reading it. -/
theorem Analysis.Finds.of_insert {n : NodeId} {D : Distances} {around : Surroundings} {scopes : List Scope}
    {use : Variable} {name : String} {b : Bool}
    (h : Finds n D around (updateHead (·.insert name b) scopes) use.reading) (hne : name ≠ use.name.text) :
    Finds n D around scopes use.reading := by
  cases scopes with
  | nil => exact h
  | cons scope outer =>
    have found : (scope.insert name b).find? use.name.text = scope.find? use.name.text :=
      (Table.find?_insert _ _ _ _).trans (if_neg hne)
    have same : (scope.insert name b).contains use.name.text = scope.contains use.name.text :=
      congrArg Option.isSome found
    refine ⟨h.bound, ?_, fun hr => ?_, nofun, nofun⟩
    · have hd := h.distance
      rw [updateHead, distance?, List.findIdx?_cons] at hd
      rw [hd, distance?, List.findIdx?_cons]
      exact congrArg (fun c : Bool => if c then _ else _) same
    · have hdef := h.defined hr
      rw [updateHead, headMark?_cons] at hdef
      rw [headMark?_cons]
      exact fun hf => hdef (found.trans hf)

namespace Reached

variable {n : NodeId} {D : Distances} {layers : List Layer}

theorem first {s : Stmt} {ss : List Stmt} (h : Reached n D layers (.statements (s :: ss))) :
    Reached n D layers (.statement s) := by
  obtain ⟨hl, ⟨hs, hss⟩, hv⟩ := h
  exact ⟨hl, hs, hv.first (visitStmts_effect _ ss hss)⟩

theorem rest {s : Stmt} {ss : List Stmt} (h : Reached n D layers (.statements (s :: ss))) :
    Reached n D (after s layers) (.statements ss) := by
  obtain ⟨hl, ⟨hs, hss⟩, hv⟩ := h
  refine ⟨hl.after hs, hss, ?_⟩
  rw [scopes_after, surroundings_after]
  exact hv.second (visitStmt_effect _ s hs)

theorem branch {s t : Stmt} (h : Reached n D layers (.statement s)) (ht : t ∈ s.branches) :
    Reached n D layers (.statement t) := by
  obtain ⟨hl, hs, hv⟩ := h
  refine ⟨hl, ?_⟩
  cases s with
  | ifThen c t' =>
    cases List.mem_singleton.1 ht
    exact ⟨hs.2, hv.second (visitExpr_effect _ c)⟩
  | ifElse c t' e =>
    have afterCondition := hv.second (visitExpr_effect _ c)
    rcases List.mem_cons.1 ht with rfl | ht
    · exact ⟨hs.1.2, afterCondition.first (visitStmt_effect _ e hs.2.2)⟩
    · cases List.mem_singleton.1 ht
      have thenBranch := visitStmt_effect (surroundings layers) t' hs.1.2
      rw [declares_of_none hs.1.1] at thenBranch
      exact ⟨hs.2.2, afterCondition.second thenBranch⟩
  | whileLoop c body inc =>
    cases List.mem_singleton.1 ht
    have afterCondition := hv.second (visitExpr_effect _ c)
    exact ⟨hs.2, afterCondition.first (visitOptional_effect _ inc)⟩
  | doWhile body c =>
    cases List.mem_singleton.1 ht
    exact ⟨hs.2, hv.first (visitExpr_effect _ c)⟩
  | _ => cases ht

theorem block {body : List Stmt} (h : Reached n D layers (.statement (.block body))) :
    Reached n D (.block body :: layers) (.statements body) := by
  obtain ⟨hl, hs, hv⟩ := h
  refine ⟨⟨hl.defined.empty _, hl.keyworded.block body, hl.distinct.cons nofun, trivial⟩, hs, ?_⟩
  exact (hv.skip (openScope_effect ∅)).thenSkip closeScope_effect

/-- The body of a routine whose surroundings were reached. -/
theorem routine {d : FunctionDecl} (hd : AllDefined layers) (hk : Keyworded layers)
    (hu : Distinct layers) (hs : Stmt.RoutineShaped d)
    (hv : Visited n D (scopes layers) (Stmt.routineIds d)
      (visitRoutine (surroundings (.routine d :: layers)) d)) :
    Reached n D (.routine d :: layers) (.statements d.body) := by
  obtain ⟨name, params, body⟩ := d
  have opened := hv.skip (openScope_effect ∅)
  have declared := opened.start ((visitStmts_effect _ body hs.2).thenSkip closeScope_effect)
  have distinct : Distinct (.routine ⟨name, params, body⟩ :: layers) := by
    refine hu.cons ?_
    rintro _ ⟨⟩
    exact declared.params.2
  have visited := (opened.skip (declareParams_effect params)).thenSkip closeScope_effect
  exact ⟨⟨hd.routine _, hk.routine hs, distinct, trivial⟩, hs.2, visited⟩

theorem function {d : FunctionDecl} (h : Reached n D layers (.statement (.function d))) :
    Reached n D (.routine d :: mark d.name.text true layers) (.statements d.body) := by
  obtain ⟨hl, hs, hv⟩ := h
  refine routine (hl.defined.mark _) (hl.keyworded.mark (hs.declared rfl) true) (hl.distinct.mark _ _) hs ?_
  have named := (hv.skip (declare_effect d.name)).skip (define_effect d.name)
  rw [updateHead_insert_insert] at named
  rwa [scopes_mark, Layer.routine, surroundings_routine (grounded_mark hl.grounded _ _), surroundings_mark]

theorem method {name : Name} {superclass : Option Variable} {methods statics : List FunctionDecl}
    {d : FunctionDecl} (h : Reached n D layers (.statement (.classDecl name superclass methods statics)))
    (hmem : d ∈ methods) :
    Reached n D (.routine d :: .receiver d :: ofClass name superclass methods statics layers)
      (.statements d.body) := by
  obtain ⟨hl, hs, hv⟩ := h
  let inside := { surroundings layers with classKind := classOf superclass }
  have afterMethods := (updateScope_effect (·.erase thisName)).skip
    ((visitStatics_effect inside statics).thenSkip (leaveClass_effect superclass))
  have visited := (hv.second (enterClass_effect inside name superclass)).first afterMethods
  have routineVisited := visited.mem_methods hmem
  have hdefined := (hl.defined.ofClass name superclass methods statics).single (.receiver d) thisName
  have hkeywords := (hl.keyworded.ofClass hs.1 superclass methods statics).receiver d
  have hdistinct : Distinct (.receiver d :: _) :=
    (hl.distinct.ofClass name superclass methods statics).cons nofun
  refine routine hdefined hkeywords hdistinct ((Stmt.routinesShaped_iff methods).1 hs.2.1 d hmem) ?_
  rw [← scopes_ofClass name superclass methods statics] at routineVisited
  have around : surroundings (.routine d :: .receiver d :: ofClass name superclass methods statics layers) =
      { inside with routine := methodRoutine d.name } :=
    congrArg (Surroundings.mk _) (classKind_ofClass hl.grounded name superclass methods statics)
  rw [around]
  exact routineVisited

theorem static {name : Name} {superclass : Option Variable} {methods statics : List FunctionDecl}
    {d : FunctionDecl} (h : Reached n D layers (.statement (.classDecl name superclass methods statics)))
    (hmem : d ∈ statics) :
    Reached n D
      (.routine d :: .statics (.classDecl name superclass methods statics) ::
        ofClass name superclass methods statics layers)
      (.statements d.body) := by
  obtain ⟨hl, hs, hv⟩ := h
  let inside := { surroundings layers with classKind := classOf superclass }
  have afterMethods := (hv.second (enterClass_effect inside name superclass)).second
    (visitMethods_effect inside methods)
  have visited := (afterMethods.skip (updateScope_effect (·.erase thisName))).thenSkip
    (leaveClass_effect superclass)
  have routineVisited := visited.mem_statics hmem
  have hdefined := (hl.defined.ofClass name superclass methods statics).empty
    (.statics (.classDecl name superclass methods statics))
  have hkeywords := (hl.keyworded.ofClass hs.1 superclass methods statics).statics
    (.classDecl name superclass methods statics)
  have hdistinct : Distinct (.statics (.classDecl name superclass methods statics) :: _) :=
    (hl.distinct.ofClass name superclass methods statics).cons nofun
  refine routine hdefined hkeywords hdistinct ((Stmt.routinesShaped_iff statics).1 hs.2.2 d hmem) ?_
  have around : surroundings (.routine d :: .statics (.classDecl name superclass methods statics) ::
      ofClass name superclass methods statics layers) = { inside with routine := .staticMethod } :=
    congrArg (Surroundings.mk _) (classKind_ofClass hl.grounded name superclass methods statics)
  rw [around]
  -- without `this` the scope of the receiver is empty
  rw [← scopes_ofClass name superclass methods statics] at routineVisited
  exact routineVisited

theorem classEntry {name : Name} {superclass : Option Variable} {methods statics : List FunctionDecl}
    (h : Reached n D layers (.statement (.classDecl name superclass methods statics))) :
    ∃ around, Visited n D (scopes layers) (Use.ids (superclass.toList.map Variable.reading))
      (enterClass around name superclass) := by
  obtain ⟨hl, hs, hv⟩ := h
  let inside := { surroundings layers with classKind := classOf superclass }
  have afterEntry := (visitMethods_effect inside methods).seq
    ((updateScope_effect (·.erase thisName)).skip
      ((visitStatics_effect inside statics).thenSkip (leaveClass_effect superclass)))
  exact ⟨inside, hv.first afterEntry⟩

/-- The superclass stands before the name of the class is declared, and has another name. -/
theorem superclass {name : Name} {parent : Variable} {methods statics : List FunctionDecl}
    (h : Reached n D layers (.statement (.classDecl name (some parent) methods statics))) :
    Finds n D (surroundings layers) (scopes layers) parent.reading := by
  obtain ⟨around, entered⟩ := h.classEntry
  have named := (entered.skip (declare_effect name)).skip (define_effect name)
  have clause := named.thenSkip (openScope_effect _)
  have visit := (visitExpr_effect around (.variable parent)).thenSkip
    (openScope_effect (Table.empty.insert superName true))
  obtain ⟨hne, visited⟩ := clause.guarded visit
  have found : Finds n D (surroundings layers) _ parent.reading :=
    finds_of_readVariable (visited.thenSkip (openScope_effect _))
  rw [updateHead_insert_insert] at found
  exact found.of_insert (Ne.symm hne)

theorem use {s : Stmt} {u : Use} (h : Reached n D layers (.statement s)) (hu : u ∈ s.uses) :
    Reached n D (inside s layers) (.use u) := by
  obtain ⟨hl, hs, hv⟩ := id h
  have hk := keywordsDefined_inside hs hl.defined
  unfold Reached
  rw [surroundings_inside]
  generalize surroundings layers = around at hv ⊢
  cases s with
  | expression e | print e => exact finds_of_visitExpr hk e hv u hu
  | letDecl name init =>
    have visited := (hv.skip (declare_effect name)).thenSkip (define_effect name)
    rw [← scopes_mark] at visited
    exact finds_of_visitOptional hk init visited u hu
  | constDecl name init =>
    have visited := (hv.skip (declare_effect name)).thenSkip (define_effect name)
    rw [← scopes_mark] at visited
    exact finds_of_visitExpr hk init visited u hu
  | ifThen c t =>
    have visited := hv.first (visitStmt_effect around t hs.2)
    exact finds_of_visitExpr hk c visited u hu
  | ifElse c t e =>
    have visited := hv.first ((visitStmt_effect around t hs.1.2).seq (visitStmt_effect around e hs.2.2))
    exact finds_of_visitExpr hk c visited u hu
  | whileLoop c body inc =>
    have bodyEffect := visitStmt_effect around body hs.2
    have incEffect := visitOptional_effect around inc
    rcases List.mem_append.1 hu with hu | hu
    · exact finds_of_visitExpr hk c (hv.first (bodyEffect.seq incEffect)) u hu
    · have visited := (hv.second (visitExpr_effect around c)).second bodyEffect
      rw [declares_of_none hs.1] at visited
      exact finds_of_visitOptional hk inc visited u hu
  | doWhile body c =>
    have visited := hv.second (visitStmt_effect around body hs.2)
    rw [declares_of_none hs.1] at visited
    exact finds_of_visitExpr hk c visited u hu
  | returnValue line value =>
    have visited := hv.skip (returnProblems_effect around line value)
    exact finds_of_visitOptional hk value visited u hu
  | classDecl name parent methods statics =>
    cases parent with
    | none => cases hu
    | some parent =>
      cases List.mem_singleton.1 hu
      have found := h.superclass
      exact ⟨found.bound, found.distance, found.defined, nofun, nofun⟩
  | block | function | breakLoop | continueLoop | importFile => cases hu

/-- What a statement declares was not declared before in its region. -/
theorem fresh {s : Stmt} {name : Name} (h : Reached n D layers (.statement s)) (hn : s.declared? = some name) :
    headMark? name.text (scopes layers) = none := by
  obtain ⟨hl, hs, hv⟩ := h
  have announced (hv : Visited n D (scopes layers) [] (declare name)) :
      headMark? name.text (scopes layers) = none := by
    obtain ⟨-, st, hst, hp, -⟩ := hv
    rw [← hst]
    exact fresh_of_declare hp
  cases s with
  | letDecl name' init =>
    cases hn
    exact announced (hv.start ((visitOptional_effect _ init).thenSkip (define_effect name)))
  | constDecl name' init =>
    cases hn
    exact announced (hv.start ((visitExpr_effect _ init).thenSkip (define_effect name)))
  | function d =>
    cases hn
    exact announced (hv.start ((define_effect d.name).skip (visitRoutine_effect _ d)))
  | classDecl name' superclass methods statics =>
    cases hn
    obtain ⟨around, entered⟩ := classEntry ⟨hl, hs, hv⟩
    have afterName := (enterSuperclass_effect around name superclass).thenSkip
      (openScope_effect (Table.empty.insert thisName true))
    exact announced (entered.start ((define_effect name).skip afterName))
  | _ => cases hn

end Reached

theorem Placed.reached {n : NodeId} {D : Distances} {text : List Stmt} {layers : List Layer} {part : Part}
    (h : Placed text layers part) (ht : Reached n D [] (.statements text)) : Reached n D layers part := by
  induction h with
  | whole => exact ht
  | first _ ih => exact ih.first
  | rest _ ih => exact ih.rest
  | branch _ hmem ih => exact ih.branch hmem
  | block _ ih => exact ih.block
  | function _ ih => exact ih.function
  | method _ hmem ih => exact ih.method hmem
  | static _ hmem ih => exact ih.static hmem
  | use _ hu ih => exact ih.use hu

/-! ## Analysed texts -/

/-- What the analysis makes sure of a text. Its nodes have identities of their own. -/
structure Resolved (n : NodeId) (D : Distances) (text : List Stmt) : Prop where
  nodup : (Stmt.listIds text).Nodup
  bound (id : NodeId) : id ∈ Stmt.listIds text → id < n
  finds {layers : List Layer} {u : Use} : Placed text layers (.use u) →
    Finds n D (surroundings layers) (scopes layers) u
  sound {layers : List Layer} {s : Stmt} : Placed text layers (.statement s) → s.Shaped ∧ Sound layers
  fresh {layers : List Layer} {s : Stmt} {name : Name} : Placed text layers (.statement s) →
    s.declared? = some name → headMark? name.text (scopes layers) = none
  params {layers : List Layer} {d : FunctionDecl} : Placed text (.routine d :: layers) (.statements d.body) →
    (d.params.map Name.text).Nodup

/-- Around the innermost region all names are defined. -/
theorem Resolved.defined_tail {n : NodeId} {D : Distances} {text : List Stmt} (h : Resolved n D text)
    {layers : List Layer} {u : Use} (hp : Placed text layers (.use u)) : AllDefined layers.tail := by
  cases hp with
  | use hs hu =>
    rw [tail_inside]
    exact fun layer hl => (h.sound hs).2.defined layer (List.mem_of_mem_tail hl)

theorem Layers.AllDefined.nearest {layers : List Layer} (hd : AllDefined layers) {name : String} {d : Nat}
    {layer : Layer} (hn : Nearest name layers d layer) : layer.names.find? name = some true := by
  obtain ⟨b, hb⟩ := Option.isSome_iff_exists.1 hn.2.1
  cases b with
  | true => exact hb
  | false => exact absurd hb (hd layer (List.mem_of_getElem? hn.1) name)

theorem Layers.AllDefined.nearest_mark {layers : List Layer} (hd : AllDefined layers) {name other : String}
    {d : Nat} {layer : Layer} (hn : Nearest name (Layers.mark other false layers) d layer) :
    layer.names.find? name = some true ↔ other ≠ name := by
  by_cases heq : other = name
  · refine iff_of_false (fun hfound => ?_) fun hne => hne heq
    subst heq
    cases layers with
    | nil => cases hn.1
    | cons l outer =>
      cases d with
      | zero =>
        cases hn.1
        rw [Table.find?_insert, if_pos rfl] at hfound
        cases hfound
      | succ d =>
        have missing := hn.2.2 0 (Nat.succ_pos d) _ rfl
        rw [Table.contains, Table.find?_insert, if_pos rfl] at missing
        cases missing
  · refine iff_of_true ?_ heq
    obtain ⟨b, hb⟩ := Option.isSome_iff_exists.1 hn.2.1
    cases b with
    | true => exact hb
    | false =>
      cases layers with
      | nil => cases hn.1
      | cons l outer =>
        rcases List.mem_cons.1 (List.mem_of_getElem? hn.1) with rfl | hmem
        · rw [Table.find?_insert, if_neg heq] at hb
          exact absurd hb (hd l (List.mem_cons_self ..) name)
        · exact absurd hb (hd layer (List.mem_cons_of_mem _ hmem) name)

/-- The name nearest to a use is defined there, unless the use stands in its initializer. -/
theorem Resolved.defined_iff {n : NodeId} {D : Distances} {text : List Stmt} (h : Resolved n D text)
    {layers : List Layer} {s : Stmt} (hp : Placed text layers (.statement s)) {name : String} {d : Nat}
    {layer : Layer} (hn : Nearest name (inside s layers) d layer) :
    layer.names.find? name = some true ↔ ¬s.Initializes name := by
  have defined := (h.sound hp).2.defined
  cases s with
  | letDecl other init =>
    rw [defined.nearest_mark hn]
    refine not_congr ⟨fun heq => ⟨other, heq, .inl ⟨init, rfl⟩⟩, ?_⟩
    rintro ⟨n, heq, ⟨_, hs⟩ | ⟨_, hs⟩⟩
    · cases hs
      exact heq
    · cases hs
  | constDecl other init =>
    rw [defined.nearest_mark hn]
    refine not_congr ⟨fun heq => ⟨other, heq, .inr ⟨init, rfl⟩⟩, ?_⟩
    rintro ⟨n, heq, ⟨_, hs⟩ | ⟨_, hs⟩⟩
    · cases hs
    · cases hs
      exact heq
  | _ =>
    refine iff_of_true (defined.nearest hn) ?_
    rintro ⟨n, -, ⟨_, hs⟩ | ⟨_, hs⟩⟩ <;> cases hs

theorem Stmt.Shaped.branch {s t : Stmt} (h : s.Shaped) (ht : t ∈ s.branches) : t.declared? = none := by
  cases s with
  | ifThen c t' =>
    cases List.mem_singleton.1 ht
    exact h.1
  | ifElse c t' e =>
    rcases List.mem_cons.1 ht with rfl | ht
    · exact h.1.1
    · cases List.mem_singleton.1 ht
      exact h.2.1
  | whileLoop c body inc =>
    cases List.mem_singleton.1 ht
    exact h.1
  | doWhile body c =>
    cases List.mem_singleton.1 ht
    exact h.1
  | _ => cases ht

/-- A text that is analysed without a problem is resolved, if its nodes have identities of their own without
a distance. -/
theorem resolved_of_analysis {n : NodeId} {D : Distances} {text : List Stmt}
    (hnodup : (Stmt.listIds text).Nodup)
    (hids : ∀ id ∈ Stmt.listIds text, id < n ∧ D[id]? = none) (hs : Stmt.ListShaped text)
    (hp : (ofStatements D text).problems = []) : Resolved n (ofStatements D text).distances text := by
  have whole : Reached n (ofStatements D text).distances [] (.statements text) := by
    refine ⟨⟨fun _ hl => (nomatch hl), fun _ hl => (nomatch hl), fun _ hl => (nomatch hl), trivial⟩, hs, hnodup,
      ⟨[], D, []⟩, rfl, hp, ?_⟩
    exact fun node hn => ⟨(hids node hn).1, (hids node hn).2, rfl⟩
  exact ⟨hnodup, fun id hid => (hids id hid).1, fun h => h.reached whole,
    fun h => ⟨(h.reached whole).2.1, (h.reached whole).1⟩, fun h => (h.reached whole).fresh,
    fun h => (h.reached whole).1.distinct _ (List.mem_cons_self ..) _ rfl⟩

/-- The analysis of a text leaves the distances of other nodes alone. -/
theorem distances_ofStatements {D : Distances} {text : List Stmt} (hs : Stmt.ListShaped text) {id : NodeId}
    (hid : id ∉ Stmt.listIds text) : (ofStatements D text).distances[id]? = D[id]? :=
  (visitStmts_effect .outermost text hs).distances ⟨[], D, []⟩ id hid

end Scriptlet
