import Scriptlet.Proofs.LikeMachines
import Scriptlet.Builtin.Call

/-!
# Native functions on like machines

Native functions and operators do the same to like arguments on like machines: they tell functions, classes
and instances apart by their identities, and write them by their names.
-/
namespace Scriptlet.Builtin

variable {p : Pairing} {α β : Type} {R : α → β → Prop} {l l' : Nat} {v v' w w' : Value} {vs vs' : List Value}

/-! ## Arguments -/

theorem integer_twins (hl : p.Line l l') (what : NumericArgument) (hv : v.Like p v') :
    Twins p.machines Eq (integer l what v) (integer l' what v') := by
  cases hv with
  | number x => exact .pure rfl
  | collection kind => cases kind <;> exact .fail hl _
  | _ => exact .fail hl _

theorem elements_size {s s' : Store} (hs : s.Like p s') (storage : StorageId) :
    (s'.elements storage).size = (s.elements storage).size := (hs.elements storage).length_eq.symm

theorem elementPosition_twins (hl : p.Line l l') (kind : CollectionKind) (wrap : Bool) (storage : StorageId)
    (hv : v.Like p v') :
    Twins p.machines Eq (elementPosition l kind wrap storage v) (elementPosition l' kind wrap storage v') := by
  apply (integer_twins hl _ hv).bind
  rintro index _ rfl
  apply Twins.getStore.bind
  intro s s' hs
  rw [elements_size hs storage]
  split
  · exact .pure rfl
  · exact .fail hl _

theorem countFault_twins (hl : p.Line l l') (f : Native) (hv : List.Forall₂ (Value.Like p) vs vs') :
    Twins p.machines R (countFault l f vs) (countFault l' f vs') := by
  unfold countFault
  rw [hv.length_eq]
  exact .fail hl _

theorem freshNative_twins (f : Native) : Twins p.machines (Value.Like p) (freshNative f) (freshNative f) := by
  apply Twins.freshIdentity.bind
  rintro id _ rfl
  exact .pure (.native id f)

/-! ## Collections -/

theorem elementsOf_twins (storage : StorageId) :
    Twins p.machines (List.Forall₂ (Value.Like p)) (elementsOf storage) (elementsOf storage) :=
  Twins.getStore.bind fun _ _ hs => .pure (hs.elements storage)

theorem lengthOf_twins (storage : StorageId) :
    Twins p.machines (Value.Like p) (lengthOf storage) (lengthOf storage) := by
  apply Twins.getStore.bind
  intro s s' hs
  rw [elements_size hs storage]
  exact .pure (.number _)

theorem change_twins (storage : StorageId) {f f' : Array Value → Array Value}
    (hf : ∀ vs vs', Elements.Paired (Value.Like p) vs vs' → Elements.Paired (Value.Like p) (f vs) (f' vs')) :
    Twins p.machines (fun _ _ => True) (change storage f) (change storage f') :=
  .modifyStore fun _ _ hs => hs.updateElements storage hf

theorem elementAt_twins (storage : StorageId) (i : Nat) :
    Twins p.machines (Value.Like p) (elementAt storage i) (elementAt storage i) := by
  apply Twins.getStore.bind
  intro s s' hs
  have found := forall₂_getElem? (hs.elements storage) i
  rw [Array.getElem?_toList, Array.getElem?_toList] at found
  rw [Array.getD_eq_getD_getElem?, Array.getD_eq_getD_getElem?]
  apply Twins.pure
  obtain ⟨ha, hb⟩ | ⟨x, y, ha, hb, hxy⟩ := rel_cases found
  · rw [ha, hb]
    exact .null
  · rw [ha, hb]
    exact hxy

theorem push_paired (hv : v.Like p v') (elements elements' : Array Value)
    (h : Elements.Paired (Value.Like p) elements elements') :
    Elements.Paired (Value.Like p) (elements.push v) (elements'.push v') := by
  unfold Elements.Paired at *
  rw [Array.toList_push, Array.toList_push]
  exact List.rel_append h (.cons hv .nil)

theorem erase_paired (i : Nat) (elements elements' : Array Value)
    (h : Elements.Paired (Value.Like p) elements elements') :
    Elements.Paired (Value.Like p) (elements.eraseIdxIfInBounds i) (elements'.eraseIdxIfInBounds i) := by
  unfold Elements.Paired at *
  rw [Array.toList_eraseIdxIfInBounds, Array.toList_eraseIdxIfInBounds]
  exact forall₂_eraseIdx h i

theorem replaceElement_twins (hl : p.Line l l') (kind : CollectionKind) (storage : StorageId)
    (hv : v.Like p v') (hw : w.Like p w') :
    Twins p.machines (Value.Like p) (replaceElement l kind storage v w) (replaceElement l' kind storage v' w') := by
  apply (elementPosition_twins hl kind false storage hv).bind
  rintro i _ rfl
  refine (change_twins storage ?_).bind fun _ _ _ => .pure hw
  intro elements elements' h
  unfold Elements.Paired at *
  rw [Array.toList_setIfInBounds, Array.toList_setIfInBounds]
  exact forall₂_set h hw i

theorem concatenate_twins (hl : p.Line l l') (kind : CollectionKind) (storage : StorageId) (hv : v.Like p v') :
    Twins p.machines (Value.Like p) (concatenate l kind storage v) (concatenate l' kind storage v') := by
  cases hv with
  | collection other second =>
    apply Twins.guard Iff.rfl hl
    apply (elementsOf_twins storage).bind
    intro xs xs' hx
    apply (elementsOf_twins second).bind
    intro ys ys' hy
    exact .newList kind (List.rel_append hx hy)
  | _ => exact .fail hl _

theorem fillAll_twins (storage : StorageId) (hv : v.Like p v') :
    Twins p.machines (Value.Like p) (fillAll storage v) (fillAll storage v') := by
  refine (change_twins storage ?_).bind fun _ _ _ => .pure .null
  intro elements elements' h
  unfold Elements.Paired at *
  rw [Array.toList_map, Array.toList_map]
  exact List.rel_map (fun _ _ _ => hv) h

theorem findElement_twins (storage : StorageId) (hv : v.Like p v') :
    Twins p.machines (Value.Like p) (findElement storage v) (findElement storage v') := by
  apply Twins.getStore.bind
  intro s s' hs
  apply (elementsOf_twins storage).bind
  intro xs xs' hx
  apply Twins.pure
  induction hx with
  | nil => exact .null
  | cons he _ ih =>
    rw [List.find?_cons, List.find?_cons, hs.equal he hv]
    split
    · exact he
    · exact ih

theorem reversed_twins (kind : CollectionKind) (storage : StorageId) :
    Twins p.machines (Value.Like p) (reversed kind storage) (reversed kind storage) :=
  (elementsOf_twins storage).bind fun _ _ hx => .newList kind (List.rel_reverse hx)

theorem containsElement_twins (storage : StorageId) (hv : v.Like p v') :
    Twins p.machines (Value.Like p) (containsElement storage v) (containsElement storage v') := by
  apply Twins.getStore.bind
  intro s s' hs
  apply (elementsOf_twins storage).bind
  intro xs xs' hx
  rw [hs.holds hx hv]
  exact .pure (.bool _)

theorem clearAll_twins (storage : StorageId) :
    Twins p.machines (Value.Like p) (clearAll storage) (clearAll storage) :=
  (change_twins storage fun _ _ _ => .nil).bind fun _ _ _ => .pure .null

/-! ## Properties -/

section Properties

variable {n n' : Name} (hn : n.Like p.trees n')

include hn

theorem arrayProperty_twins (storage : StorageId) :
    Twins p.machines (Value.Like p) (arrayProperty storage n) (arrayProperty storage n') := by
  unfold arrayProperty
  rw [hn.text]
  apply Twins.ite Iff.rfl (lengthOf_twins storage)
  split
  · exact freshNative_twins _
  · exact .fail hn.line _

theorem listProperty_twins (storage : StorageId) :
    Twins p.machines (Value.Like p) (listProperty storage n) (listProperty storage n') := by
  unfold listProperty
  rw [hn.text]
  apply Twins.ite Iff.rfl (lengthOf_twins storage)
  split
  · exact freshNative_twins _
  · exact .fail hn.line _

theorem setProperty_twins (storage : StorageId) :
    Twins p.machines (Value.Like p) (setProperty storage n) (setProperty storage n') := by
  unfold setProperty
  rw [hn.text]
  split
  · exact freshNative_twins _
  · exact .fail hn.line _

theorem stringProperty_twins (text : String) :
    Twins p.machines (Value.Like p) (stringProperty text n) (stringProperty text n') := by
  unfold stringProperty
  rw [hn.text]
  split
  · exact freshNative_twins _
  · exact .fail hn.line _

theorem fileProperty_twins (path : String) :
    Twins p.machines (Value.Like p) (fileProperty path n) (fileProperty path n') := by
  unfold fileProperty
  rw [hn.text]
  split
  · exact freshNative_twins _
  · exact .fail hn.line _

theorem property?_twins (hv : v.Like p v') :
    Option.Rel (Twins p.machines (Value.Like p)) (property? v n) (property? v' n') := by
  cases hv with
  | collection kind storage =>
    cases kind with
    | array => exact .some (arrayProperty_twins hn storage)
    | list => exact .some (listProperty_twins hn storage)
    | set => exact .some (setProperty_twins hn storage)
  | string text => exact .some (stringProperty_twins hn text)
  | file path => exact .some (fileProperty_twins hn path)
  | _ => exact .none

end Properties

/-! ## Methods of collections -/

section Methods

variable (hl : p.Line l l') (storage : StorageId) (hv : List.Forall₂ (Value.Like p) vs vs')

include hl hv

theorem callArray_twins (m : ArrayMethod) :
    Twins p.machines (Value.Like p) (callArray l m storage vs) (callArray l' m storage vs') := by
  have wrong := countFault_twins (R := Value.Like p) hl (.array m storage) hv
  cases hv with
  | nil =>
    cases m with
    | reverse => exact reversed_twins .array storage
    | _ => exact wrong
  | cons ha hv =>
    cases hv with
    | nil =>
      cases m with
      | get =>
        have element := (elementPosition_twins hl .array true storage ha).bind
          (by rintro i _ rfl; exact elementAt_twins storage i)
        cases ha with
        | string text =>
          have named : Name.Like p.trees ⟨text, l⟩ ⟨text, l'⟩ := ⟨rfl, hl⟩
          exact arrayProperty_twins named storage
        | _ => exact element
      | concat => exact concatenate_twins hl .array storage ha
      | fill => exact fillAll_twins storage ha
      | find => exact findElement_twins storage ha
      | contains => exact containsElement_twins storage ha
      | set | reverse => exact wrong
    | cons hb hv =>
      cases hv with
      | nil =>
        cases m with
        | set => exact replaceElement_twins hl .array storage ha hb
        | get => cases ha <;> exact wrong
        | _ => exact wrong
      | cons =>
        cases m with
        | get => cases ha <;> exact wrong
        | _ => exact wrong

theorem callList_twins (m : ListMethod) :
    Twins p.machines (Value.Like p) (callList l m storage vs) (callList l' m storage vs') := by
  have wrong := countFault_twins (R := Value.Like p) hl (.list m storage) hv
  cases hv with
  | nil =>
    cases m with
    | reverse => exact reversed_twins .list storage
    | clear => exact clearAll_twins storage
    | _ => exact wrong
  | cons ha hv =>
    cases hv with
    | nil =>
      cases m with
      | add => exact (change_twins storage (push_paired ha)).bind fun _ _ _ => .pure .null
      | get =>
        apply (elementPosition_twins hl .list false storage ha).bind
        rintro i _ rfl
        exact elementAt_twins storage i
      | remove =>
        apply (elementPosition_twins hl .list false storage ha).bind
        rintro i _ rfl
        apply (elementAt_twins storage i).bind
        intro x x' hx
        exact (change_twins storage (erase_paired i)).bind fun _ _ _ => .pure hx
      | concat => exact concatenate_twins hl .list storage ha
      | fill => exact fillAll_twins storage ha
      | find => exact findElement_twins storage ha
      | contains => exact containsElement_twins storage ha
      | set | reverse | clear => exact wrong
    | cons hb hv =>
      cases hv with
      | nil =>
        cases m with
        | set => exact replaceElement_twins hl .list storage ha hb
        | _ => exact wrong
      | cons => cases m <;> exact wrong

omit hv in
theorem otherSet_twins (operation : SetMethod) (hw : w.Like p w') :
    Twins p.machines (List.Forall₂ (Value.Like p)) (otherSet l operation w) (otherSet l' operation w') := by
  cases hw with
  | collection kind second =>
    cases kind with
    | set => exact elementsOf_twins second
    | array | list => exact .fail hl _
  | _ => exact .fail hl _

omit hl hv in
theorem setAdd_twins (hw : w.Like p w') :
    Twins p.machines (Value.Like p) (callSet l .add storage [w]) (callSet l' .add storage [w']) := by
  apply Twins.getStore.bind
  intro s s' hs
  apply (elementsOf_twins storage).bind
  intro xs xs' hx
  rw [hs.holds hx hw]
  apply Twins.ite Iff.rfl (.pure (.bool false))
  exact (change_twins storage (push_paired hw)).bind fun _ _ _ => .pure (.bool true)

omit hl hv in
theorem setRemove_twins (hw : w.Like p w') :
    Twins p.machines (Value.Like p) (callSet l .remove storage [w]) (callSet l' .remove storage [w']) := by
  apply Twins.getStore.bind
  intro s s' hs
  apply (elementsOf_twins storage).bind
  intro xs xs' hx
  rw [forall₂_findIdx? hx fun _ _ he => hs.equal he hw]
  split
  · exact .pure (.bool false)
  · exact (change_twins storage (erase_paired _)).bind fun _ _ _ => .pure (.bool true)

omit hl hv in
theorem filtered_twins {f f' : Store → Value → Bool}
    (hf : ∀ {s s' : Store} {e e' : Value}, s.Like p s' → e.Like p e' → f' s' e' = f s e) :
    Twins p.machines (Value.Like p)
      (do
        let store ← Eval.getStore
        Eval.newSet ((← elementsOf storage).filter (f store)))
      (do
        let store ← Eval.getStore
        Eval.newSet ((← elementsOf storage).filter (f' store))) := by
  apply Twins.getStore.bind
  intro s s' hs
  apply (elementsOf_twins storage).bind
  intro xs xs' hx
  apply Twins.newSet
  apply List.rel_filter _ hx
  intro e e' he
  dsimp only
  rw [hf hs he]

theorem callSet_twins (m : SetMethod) :
    Twins p.machines (Value.Like p) (callSet l m storage vs) (callSet l' m storage vs') := by
  have wrong := countFault_twins (R := Value.Like p) hl (.set m storage) hv
  cases hv with
  | nil =>
    cases m with
    | size => exact lengthOf_twins storage
    | clear => exact clearAll_twins storage
    | toArray => exact (elementsOf_twins storage).bind fun _ _ hx => .newList .array hx
    | toList => exact (elementsOf_twins storage).bind fun _ _ hx => .newList .list hx
    | _ => exact wrong
  | cons ha hv =>
    cases hv with
    | nil =>
      cases m with
      | add => exact setAdd_twins storage ha
      | remove => exact setRemove_twins storage ha
      | contains => exact containsElement_twins storage ha
      | union =>
        apply (otherSet_twins hl .union ha).bind
        intro ys ys' hy
        exact (elementsOf_twins storage).bind fun _ _ hx => .newSet (List.rel_append hx hy)
      | intersection =>
        apply (otherSet_twins hl .intersection ha).bind
        intro ys ys' hy
        exact filtered_twins storage fun hs he => hs.holds hy he
      | difference =>
        apply (otherSet_twins hl .difference ha).bind
        intro ys ys' hy
        exact filtered_twins storage fun hs he => congrArg not (hs.holds hy he)
      | _ => exact wrong
    | cons => cases m <;> exact wrong

end Methods

/-! ## Texts -/

theorem paddingChar_twins (hl : p.Line l l') (hv : v.Like p v') :
    Twins p.machines Eq (paddingChar l v) (paddingChar l' v') := by
  apply (Twins.textOf hv).bind
  rintro t _ rfl
  split
  · exact .pure rfl
  · exact .fail hl _

theorem pad_twins (hl : p.Line l l') (text : String) (wanted : Int) (fill : Char) (atStart : Bool) :
    Twins p.machines (Value.Like p) (pad l text wanted fill atStart) (pad l' text wanted fill atStart) :=
  Twins.guard Iff.rfl hl _ (.pure (.string _))

theorem substring_twins (hl : p.Line l l') (text : String) (first last : Int) :
    Twins p.machines (Value.Like p) (substring l text first last) (substring l' text first last) :=
  Twins.guard Iff.rfl hl _ (.pure (.string _))

theorem repeatText_twins (hl : p.Line l l') (text : String) (times : Int) :
    Twins p.machines (Value.Like p) (repeatText l text times) (repeatText l' text times) := by
  apply Twins.guard Iff.rfl hl
  apply Twins.ite Iff.rfl (.pure (.string _))
  exact Twins.guard Iff.rfl hl _ (.pure (.string _))

theorem charAt_twins (hl : p.Line l l') (text : String) (index : Int) :
    Twins p.machines (Value.Like p) (charAt l text index) (charAt l' text index) := by
  unfold charAt
  split
  · exact .fail hl _
  · split
    · exact .pure (.string _)
    · exact .pure .null

theorem like_strings {γ : Type} (xs : List γ) (f : γ → String) :
    List.Forall₂ (Value.Like p) (xs.map fun x => .string (f x)) (xs.map fun x => .string (f x)) := by
  rw [List.forall₂_same]
  intro v hv
  obtain ⟨x, -, rfl⟩ := List.mem_map.1 hv
  exact .string _

section Methods

variable (hl : p.Line l l') (hv : List.Forall₂ (Value.Like p) vs vs')

include hl hv

theorem callString_twins (m : StringMethod) (text : String) :
    Twins p.machines (Value.Like p) (callString l m text vs) (callString l' m text vs') := by
  have wrong := countFault_twins (R := Value.Like p) hl (.string m text) hv
  cases hv with
  | nil =>
    cases m with
    | length => exact .pure (.number _)
    | isEmpty | isNotEmpty | isBlank | isNotBlank => exact .pure (.bool _)
    | lowercase | uppercase | trim | trimStart | trimEnd => exact .pure (.string _)
    | chars => exact .newList .array (like_strings _ _)
    | _ => exact wrong
  | cons ha hv =>
    cases hv with
    | nil =>
      cases m with
      | split =>
        apply (Twins.textOf ha).bind
        rintro t _ rfl
        exact .newList .array (like_strings _ _)
      | startsWith | endsWith | contains =>
        apply (Twins.textOf ha).bind
        rintro t _ rfl
        exact .pure (.bool _)
      | repeated =>
        apply (integer_twins hl _ ha).bind
        rintro times _ rfl
        exact repeatText_twins hl text times
      | charAt =>
        apply (integer_twins hl _ ha).bind
        rintro index _ rfl
        exact charAt_twins hl text index
      | _ => exact wrong
    | cons hb hv =>
      cases hv with
      | nil =>
        cases m with
        | substring =>
          apply (integer_twins hl _ ha).bind
          rintro first _ rfl
          apply (integer_twins hl _ hb).bind
          rintro last _ rfl
          exact substring_twins hl text first last
        | padStart | padEnd =>
          apply (integer_twins hl _ ha).bind
          rintro wanted _ rfl
          apply (paddingChar_twins hl hb).bind
          rintro fill _ rfl
          exact pad_twins hl text wanted fill _
        | _ => exact wrong
      | cons => cases m <;> exact wrong

/-! ## Files -/

omit hl hv in
theorem getFiles_twins : Twins p.machines Eq getFiles getFiles :=
  Twins.get.bind fun _ _ hm => .pure hm.files.symm

omit hl hv in
theorem setFiles_twins (files : FileTree) : Twins p.machines (fun _ _ => True) (setFiles files) (setFiles files) :=
  Twins.modifyGet (fun _ _ _ => trivial) fun _ _ hm => { hm with files := rfl }

omit hv in
theorem liftFile_twins (action : FileAction) (result : Except FileError α) :
    Twins p.machines Eq (liftFile l action result) (liftFile l' action result) := by
  cases result with
  | ok a => exact .pure rfl
  | error e => exact .fail hl _

theorem callFile_twins (m : FileMethod) (path : String) :
    Twins p.machines (Value.Like p) (callFile l m path vs) (callFile l' m path vs') := by
  have wrong := countFault_twins (R := Value.Like p) hl (.file m path) hv
  cases hv with
  | nil =>
    cases m with
    | create =>
      apply getFiles_twins.bind
      rintro files _ rfl
      apply (liftFile_twins hl .creation _).bind
      rintro ⟨made, files⟩ _ rfl
      exact (setFiles_twins files).bind fun _ _ _ => .pure (.bool made)
    | delete =>
      apply getFiles_twins.bind
      rintro files _ rfl
      apply (setFiles_twins _).bind
      intro _ _ _
      apply (liftFile_twins hl .deletion _).bind
      rintro removed _ rfl
      exact .pure (.bool removed)
    | «exists» | isDirectory =>
      apply getFiles_twins.bind
      rintro files _ rfl
      exact .pure (.bool _)
    | read =>
      apply getFiles_twins.bind
      rintro files _ rfl
      apply (liftFile_twins hl .reading _).bind
      rintro text _ rfl
      exact .pure (.string text)
    | readLines =>
      apply getFiles_twins.bind
      rintro files _ rfl
      apply (liftFile_twins hl .reading _).bind
      rintro text _ rfl
      exact .newList .list (like_strings _ _)
    | size =>
      apply getFiles_twins.bind
      rintro files _ rfl
      exact .pure (.number _)
    | absolutePath =>
      apply getFiles_twins.bind
      rintro files _ rfl
      split
      · exact .pure (.string _)
      · exact .fail hl _
    | _ => exact wrong
  | cons ha hv =>
    cases hv with
    | nil =>
      cases m with
      | write | append =>
        apply (Twins.textOf ha).bind
        rintro text _ rfl
        apply getFiles_twins.bind
        rintro files _ rfl
        apply (liftFile_twins hl _ _).bind
        rintro files _ rfl
        exact (setFiles_twins files).bind fun _ _ _ => .pure .null
      | rename =>
        apply (Twins.textOf ha).bind
        rintro target _ rfl
        apply getFiles_twins.bind
        rintro files _ rfl
        apply Twins.ite Iff.rfl (.pure (.bool false))
        apply getFiles_twins.bind
        rintro files _ rfl
        apply (liftFile_twins hl _ _).bind
        rintro files _ rfl
        exact (setFiles_twins files).bind fun _ _ _ => .pure (.bool true)
      | _ => exact wrong
    | cons => cases m <;> exact wrong

/-! ## All native functions -/

omit hl hv in
theorem readClock_twins : Twins p.machines (Value.Like p) readClock readClock := by
  apply Twins.get.bind
  intro m m' hm
  rw [hm.clock]
  have later : p.machines.state { m with clock := m.clock + 1 } { m' with clock := m.clock + 1 } :=
    { hm with clock := rfl }
  exact (Twins.set later).bind fun _ _ _ => .pure (.number _)

omit hv in
theorem makeArray_twins (hw : w.Like p w') :
    Twins p.machines (Value.Like p) (makeArray l w) (makeArray l' w') := by
  have refused : Twins p.machines (Value.Like p) (do Eval.fail l (.arraySize (← Eval.textOf w)))
      (do Eval.fail l' (.arraySize (← Eval.textOf w'))) := by
    apply (Twins.textOf hw).bind
    rintro t _ rfl
    exact .fail hl _
  cases hw with
  | number x =>
    apply Twins.ite Iff.rfl _ refused
    apply Twins.guard Iff.rfl hl
    apply Twins.newCollection
    unfold Elements.Paired
    rw [List.forall₂_same, Array.toList_replicate]
    intro v hv
    rw [List.eq_of_mem_replicate hv]
    exact .null
  | _ => exact refused

theorem callGlobal_twins (f : GlobalNative) :
    Twins p.machines (Value.Like p) (callGlobal l f vs) (callGlobal l' f vs') := by
  have wrong := countFault_twins (R := Value.Like p) hl (.global f) hv
  have unique : Twins p.machines (Value.Like p) (Eval.newSet vs) (Eval.newSet vs') := .newSet hv
  cases hv with
  | nil =>
    cases f with
    | clock => exact readClock_twins
    | list => exact .newCollection .list .nil
    | set => exact unique
    | string => exact .pure (.string _)
    | _ => exact wrong
  | cons ha hv =>
    cases hv with
    | nil =>
      cases f with
      | type =>
        apply Twins.pure
        rw [ha.type]
        exact .string _
      | array => exact makeArray_twins hl ha
      | set => exact unique
      | string =>
        apply (Twins.textOf ha).bind
        rintro t _ rfl
        exact .pure (.string t)
      | file =>
        apply (Twins.textOf ha).bind
        rintro t _ rfl
        exact .pure (.file t)
      | clock | list => exact wrong
    | cons =>
      cases f with
      | set => exact unique
      | _ => exact wrong

theorem callNative_twins (f : Native) :
    Twins p.machines (Value.Like p) (callNative l f vs) (callNative l' f vs') := by
  cases f with
  | global g => exact callGlobal_twins hl hv g
  | array m storage => exact callArray_twins hl storage hv m
  | list m storage => exact callList_twins hl storage hv m
  | set m storage => exact callSet_twins hl storage hv m
  | string m text => exact callString_twins hl hv m text
  | file m path => exact callFile_twins hl hv m path

end Methods

/-! ## Operators -/

theorem onNumbers_twins (hl : p.Line l l') (op : BinaryOp) (a b : Float) :
    Twins p.machines (Value.Like p) (op.onNumbers l a b) (op.onNumbers l' a b) := by
  cases op with
  | modulo => exact .ite Iff.rfl (.fail hl _) (.pure (.number _))
  | add | subtract | multiply | divide | power | shiftLeft | shiftRight => exact .pure (.number _)
  | less | lessEqual | greater | greaterEqual | equal | notEqual => exact .pure (.bool _)

theorem binaryOp_twins (hl : p.Line l l') (op : BinaryOp) (hv : v.Like p v') (hw : w.Like p w') :
    Twins p.machines (Value.Like p) (op.apply l v w) (op.apply l' v' w') := by
  have numbers := onNumbers_twins hl op
  cases op with
  | equal | notEqual =>
    apply Twins.getStore.bind
    intro s s' hs
    rw [hs.equal hv hw]
    exact .pure (.bool _)
  | add =>
    have joined : Twins p.machines (Value.Like p)
        (do return .string ((← Eval.textOf v) ++ (← Eval.textOf w)))
        (do return .string ((← Eval.textOf v') ++ (← Eval.textOf w'))) := by
      apply (Twins.textOf hv).bind
      rintro t _ rfl
      apply (Twins.textOf hw).bind
      rintro u _ rfl
      exact .pure (.string _)
    cases hv with
    | number a =>
      cases hw with
      | number b => exact numbers a b
      | _ => exact joined
    | _ => exact joined
  | _ =>
    cases hv with
    | number a =>
      cases hw with
      | number b => exact numbers a b
      | _ => exact .fail hl _
    | _ => exact .fail hl _

theorem unaryOp_twins (hl : p.Line l l') (op : UnaryOp) (hv : v.Like p v') :
    Twins p.machines (Value.Like p) (op.apply l v) (op.apply l' v') := by
  cases op with
  | not =>
    apply Twins.pure
    rw [hv.isTruthy]
    exact .bool _
  | negate =>
    cases hv with
    | number x => exact .pure (.number _)
    | _ => exact .fail hl _

end Scriptlet.Builtin
