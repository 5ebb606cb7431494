import Scriptlet.Proofs.Activation
import Scriptlet.Proofs.LikeMachines

/-!
# Like texts in their places

Like texts that were analysed have the same distances at corresponding places. A run may therefore take either
text, and it may go on with another pairing of nodes, since every node in its store has a place in a text that
was analysed.
-/
namespace Scriptlet

open Layers Analysis

/-! ## Places with the same scopes -/

section Scopes

variable {c : Matching}

theorem Stmt.Like.declares {s s' : Stmt} (h : s.Like c s') : Analysis.declares s' = Analysis.declares s := by
  unfold Analysis.declares
  cases h with
  | letDecl hn | constDecl hn | classDecl hn => exact congrArg (fun t => updateHead (·.insert t true)) hn.text
  | function hd => exact congrArg (fun t => updateHead (·.insert t true)) hd.name.text
  | _ => rfl

theorem Routine.Like.names {d d' : FunctionDecl} (h : d.Like c d') :
    (Layer.routine d').names = (Layer.routine d).names := by
  have declared {ps ps' : List Name} (hp : List.Forall₂ (Name.Like c) ps ps') (names : Scope) :
      ps'.foldl (fun names p => names.insert p.text true) names =
        ps.foldl (fun names p => names.insert p.text true) names := by
    induction hp generalizing names with
    | nil => rfl
    | cons hn _ ih => rw [List.foldl_cons, List.foldl_cons, hn.text, ih]
  exact declared h.params ∅

theorem Layers.scopes_mark_like {n n' : Name} (hn : n.Like c n') (defined : Bool) {layers layers' : List Layer}
    (h : scopes layers' = scopes layers) :
    scopes (mark n'.text defined layers') = scopes (mark n.text defined layers) := by
  rw [scopes_mark, scopes_mark, hn.text, h]

theorem Layers.scopes_ofClass_like {n n' : Name} (hn : n.Like c n') {v v' : Option Variable}
    (hv : Option.Rel (Variable.Like c) v v') (ms ms' ss ss' : List FunctionDecl) {layers layers' : List Layer}
    (h : scopes layers' = scopes layers) :
    scopes (ofClass n' v' ms' ss' layers') = scopes (ofClass n v ms ss layers) := by
  rw [scopes_ofClass, scopes_ofClass, h, hn.text]
  cases hv <;> rfl

theorem Layers.follow_scopes (c : Matching) : Follow c fun layers layers' => scopes layers' = scopes layers where
  after hs h := by rw [scopes_after, scopes_after, hs.declares, h]
  inside hs h := by
    cases hs with
    | letDecl hn | constDecl hn => exact scopes_mark_like hn false h
    | _ => exact h
  block h := congrArg (∅ :: ·) h
  function hd h := by
    have around := scopes_mark_like hd.name true h
    exact congrArg₂ (· :: ·) hd.names around
  method hc hd h := by
    cases hc with
    | classDecl hn hv => exact congrArg₂ (· :: _ :: ·) hd.names (scopes_ofClass_like hn hv _ _ _ _ h)
  static hc hd h := by
    cases hc with
    | classDecl hn hv => exact congrArg₂ (· :: _ :: ·) hd.names (scopes_ofClass_like hn hv _ _ _ _ h)

end Scopes

/-- Two texts that were analysed: nodes at corresponding places have the same distances. -/
theorem Resolved.like {n n' : NodeId} {D D' : Distances} {text text' : List Stmt} (h : Resolved n D text)
    (h' : Resolved n' D' text') {p : Pairing} (hn : n ≤ p.first) (hn' : n' ≤ p.first')
    (ho : ∀ {id id'}, D'[id']? = D[id]? → p.old id id') {ss ss' more more' : List Stmt}
    (hs : List.Forall₂ (Stmt.Like .lines) ss ss') (hp : Placed text [] (.statements (ss ++ more)))
    (hp' : Placed text' [] (.statements (ss' ++ more'))) : List.Forall₂ (Stmt.Like p.trees) ss ss' := by
  have x : Exchange .lines p.trees (fun layers layers' => scopes layers' = scopes layers) text text' := by
    refine ⟨fun hl => .inl hl.symm, follow_scopes _, ?_⟩
    intro layers layers' u u' hscopes hu hu' hname _
    have found := h.finds hu
    have found' := h'.finds hu'
    refine .inl ⟨Nat.lt_of_lt_of_le found.bound hn, Nat.lt_of_lt_of_le found'.bound hn', ho ?_⟩
    rw [found'.distance, found.distance, hname, hscopes]
  exact Stmt.Like.change_front x hs rfl hp hp'

/-! ## Other pairings of what is stored -/

theorem forall₂_imp_mem {α β : Type} {R R' : α → β → Prop} {l : List α} {l' : List β} (h : List.Forall₂ R l l')
    (hR : ∀ a ∈ l, ∀ b ∈ l', R a b → R' a b) : List.Forall₂ R' l l' := by
  induction h with
  | nil => exact .nil
  | cons hab _ ih =>
    have rest := ih fun a ha b hb => hR a (List.mem_cons_of_mem _ ha) b (List.mem_cons_of_mem _ hb)
    exact .cons (hR _ (List.mem_cons_self ..) _ (List.mem_cons_self ..) hab) rest

theorem Table.Paired.imp {α β : Type} {R R' : α → β → Prop} {t : Table α} {t' : Table β} (h : Table.Paired R t t')
    (hR : ∀ name a b, t.find? name = some a → t'.find? name = some b → R a b → R' a b) :
    Table.Paired R' t t' := by
  intro name
  obtain ⟨ha, hb⟩ | ⟨a, b, ha, hb, hab⟩ := rel_cases (h name)
  · rw [ha, hb]
    exact .none
  · have related := hR name a b ha hb hab
    rw [ha, hb]
    exact .some related

theorem Store.bindings_at {s : Store} {f : Frame} (h : f ∈ s.frames.toList) :
    ∃ i, ∀ name, s.frames.bindingAt? i name = f.bindings.find? name := by
  obtain ⟨i, hi⟩ := List.getElem?_of_mem h
  refine ⟨i, fun name => ?_⟩
  rw [Array.getElem?_toList] at hi
  rw [Frames.bindingAt?, hi]
  rfl

theorem Store.fields_at {s : Store} {t : Table Value} (h : t ∈ s.instances.toList) :
    ∃ id, ∀ name, s.field? id name = t.find? name := by
  obtain ⟨i, hi⟩ := List.getElem?_of_mem h
  refine ⟨i, fun name => ?_⟩
  rw [Array.getElem?_toList] at hi
  rw [Store.field?, hi]
  rfl

/-- It is enough to relate the values that are stored. -/
theorem Store.Paired.imp {V V' : Value → Value → Prop} {s s' : Store} (h : s.Paired V s') {Q Q' : Value → Prop}
    (hq : s.All Q) (hq' : s'.All Q') (hV : ∀ v v', Q v → Q' v' → V v v' → V' v v') : s.Paired V' s' where
  frames := by
    apply forall₂_imp_mem h.frames
    intro f hf f' hf' hff'
    obtain ⟨i, hi⟩ := bindings_at hf
    obtain ⟨i', hi'⟩ := bindings_at hf'
    refine ⟨{ hff'.bindings with values := hff'.bindings.values.imp ?_ }, hff'.enclosing⟩
    intro name v v' hv hv' hvv'
    have good := hq.bindings i name _ ((hi name).trans (congrArg (Option.map _) hv))
    have good' := hq'.bindings i' name _ ((hi' name).trans (congrArg (Option.map _) hv'))
    exact hV v v' good good' hvv'
  collections := by
    apply forall₂_imp_mem h.collections
    intro vs hvs vs' hvs' hvv'
    apply forall₂_imp_mem hvv'
    intro v hv v' hv'
    apply hV
    · exact hq.elements vs (Array.mem_toList_iff.1 hvs) v (Array.mem_toList_iff.1 hv)
    · exact hq'.elements vs' (Array.mem_toList_iff.1 hvs') v' (Array.mem_toList_iff.1 hv')
  instances := by
    apply forall₂_imp_mem h.instances
    intro t ht t' ht' htt'
    obtain ⟨i, hi⟩ := fields_at ht
    obtain ⟨i', hi'⟩ := fields_at ht'
    apply htt'.imp
    intro name v v' hv hv'
    exact hV v v' (hq.fields i name v ((hi name).trans hv)) (hq'.fields i' name v' ((hi' name).trans hv'))
  nextIdentity := h.nextIdentity

/-- The pairing `q` also pairs the nodes of two worlds that `p` pairs. -/
structure World.Renews (w w' : World) (p q : Pairing) : Prop where
  inv : w.Inv
  inv' : w'.Inv
  line {l l'} : p.Line l l' → q.Line l l'
  node {id id'} : id < w.1.nextNode → id' < w'.1.nextNode → p.Node id id' → q.Node id id'

namespace World.Renews

variable {w w' : World} {p q : Pairing} (h : w.Renews w' p q)

include h

theorem exchange {text text' : List Stmt} (ht : Started text w.2) (ht' : Started text' w'.2) :
    Exchange p.trees q.trees (fun _ _ => True) text text' := by
  refine ⟨h.line, follow_all _, ?_⟩
  intro layers layers' u u' _ hu hu' _
  exact h.node ((h.inv.texts text ht).finds hu).bound ((h.inv'.texts text' ht').finds hu').bound

theorem function {f f' : FunctionObject} (hf : f.Like p f') {text text' : List Stmt} (ht : Started text w.2)
    (ht' : Started text' w'.2) {layers layers' : List Layer}
    (hp : Placed text layers (.statements f.declaration.body))
    (hp' : Placed text' layers' (.statements f'.declaration.body)) : f.Like q f' :=
  { hf with declaration := Stmt.Like.change_routine (h.exchange ht ht') hf.declaration trivial hp hp' }

theorem layer {c c' : ClassLayer} (hc : c.Like p c')
    (hg : (∀ name f, c.methods.find? name = some f → w.GoodMethod f) ∧
      ∀ name f, c.statics.find? name = some f → w.GoodFunction f)
    (hg' : (∀ name f, c'.methods.find? name = some f → w'.GoodMethod f) ∧
      ∀ name f, c'.statics.find? name = some f → w'.GoodFunction f) : c.Like q c' := by
  refine { hc with methods := hc.methods.imp ?_, statics := hc.statics.imp ?_ }
  · intro name f f' hf hf' like
    obtain ⟨text, layers, ht, hp, -⟩ := hg.1 name f hf
    obtain ⟨text', layers', ht', hp', -⟩ := hg'.1 name f' hf'
    exact h.function like ht ht' hp hp'
  · intro name f f' hf hf' like
    obtain ⟨text, layers, ht, hp, -⟩ := hg.2 name f hf
    obtain ⟨text', layers', ht', hp', -⟩ := hg'.2 name f' hf'
    exact h.function like ht ht' hp hp'

theorem classObject {c c' : ClassObject} (hc : c.Like p c') (hg : w.GoodClass c) (hg' : w'.GoodClass c') :
    c.Like q c' := by
  refine ⟨h.layer hc.own (hg _ (List.mem_cons_self ..)) (hg' _ (List.mem_cons_self ..)), ?_⟩
  apply forall₂_imp_mem hc.ancestors
  intro d hd d' hd' like
  exact h.layer like (hg d (List.mem_cons_of_mem _ hd)) (hg' d' (List.mem_cons_of_mem _ hd'))

theorem value {v v' : Value} (hg : w.Good v) (hg' : w'.Good v') (hv : v.Like p v') : v.Like q v' := by
  cases hv with
  | function hf =>
    obtain ⟨text, layers, ht, hp, -⟩ := hg
    obtain ⟨text', layers', ht', hp', -⟩ := hg'
    exact .function (h.function hf ht ht' hp hp')
  | classObject hc => exact .classObject (h.classObject hc hg hg')
  | object id hc => exact .object id (h.classObject hc hg hg')
  | _ => constructor

/-- What is stored stays alike. -/
theorem store (hs : w.1.store.Like p w'.1.store) : w.1.store.Like q w'.1.store := by
  have all {w : World} (hi : w.Inv) : w.1.store.All w.Good :=
    ⟨hi.values.bindings, hi.values.elements, hi.values.fields⟩
  exact hs.imp (all h.inv) (all h.inv') fun v v' => h.value

end World.Renews

end Scriptlet
