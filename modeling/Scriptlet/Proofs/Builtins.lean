import Scriptlet.Builtin.Call
import Scriptlet.Run.Operator
import Scriptlet.Proofs.Tracking

/-!
# What native functions touch

A native function changes collections, identities, files and the clock, and nothing else of the machine. It
makes no functions, classes or instances: every value that it yields or stores is plain, or was one of its
arguments, or was stored before. So it goes along with every tracking that has its say on data. A change of a
collection keeps the length of an array, and what is put into a set was not there before.
-/
namespace Scriptlet.Builtin

open Tracking

variable {ν α : Type}

/-! ## Values apart from each other -/

theorem equal_eq (s : Store) : ∃ equal, ∀ v v', s.equal v v' = s.equalWith equal v v' := by
  unfold Store.equal
  cases s.collections.size with
  | zero => exact ⟨_, fun _ _ => rfl⟩
  | succ n => exact ⟨_, fun _ _ => rfl⟩

/-- Only for collections it depends on the store whether values are equal. -/
theorem apart_of_not_equal {s : Store} {v v' : Value} (h : s.equal v v' = false) : v.Apart v' := by
  intro s' h'
  obtain ⟨equal, eq⟩ := equal_eq s
  obtain ⟨equal', eq'⟩ := equal_eq s'
  rw [eq] at h
  rw [eq'] at h'
  -- The two comparisons differ in how they compare elements, which matters for collections only.
  cases v with
  | collection kind id =>
    cases v' with
    | collection kind' id' =>
      rw [Store.equalWith, Bool.and_eq_true, beq_iff_eq] at h'
      obtain ⟨rfl, -⟩ := h'
      refine ⟨kind, id, id', rfl, rfl, ?_⟩
      rintro rfl
      simp [Store.equalWith] at h
    | _ => cases h'
  | _ => cases v' <;> cases h.symm.trans h'

theorem not_equal_of_not_holds {s : Store} {elements : List Value} {v : Value}
    (h : ¬s.holds elements v = true) : ∀ e ∈ elements, s.equal e v = false :=
  fun e he => Bool.eq_false_iff.2 fun same => h (List.any_eq_true.2 ⟨e, he, same⟩)

theorem pairwise_concat {R : Value → Value → Prop} {elements : List Value} {v : Value} (h : elements.Pairwise R)
    (hv : ∀ e ∈ elements, R e v) : (elements ++ [v]).Pairwise R := by
  refine List.pairwise_append.2 ⟨h, List.pairwise_singleton .., fun e he v' hv' => ?_⟩
  cases List.mem_singleton.1 hv'
  exact hv e he

/-- The values that are kept come from the list in its order, and none of them equals a later one. -/
theorem distinct_kept (s : Store) (elements : List Value) :
    ((s.distinct elements).Pairwise fun v v' => s.equal v v' = false) ∧ (s.distinct elements).Sublist elements := by
  have grown (rest kept : List Value) (h : kept.Pairwise fun v v' => s.equal v v' = false) :
      let all := rest.foldl (fun kept e => if s.holds kept e then kept else kept ++ [e]) kept
      (all.Pairwise fun v v' => s.equal v v' = false) ∧ all.Sublist (kept ++ rest) := by
    induction rest generalizing kept with
    | nil => exact ⟨h, List.sublist_append_left ..⟩
    | cons e rest ih =>
      rw [List.foldl_cons]
      split
      · obtain ⟨unequal, within⟩ := ih kept h
        exact ⟨unequal, within.trans ((List.Sublist.refl kept).append (List.sublist_cons_self e rest))⟩
      · next missing =>
        rw [List.append_cons kept e rest]
        exact ih (kept ++ [e]) (pairwise_concat h (not_equal_of_not_holds missing))
  exact grown elements [] .nil

theorem sublist_eraseIdxIfInBounds (elements : Array Value) (i : Nat) :
    (elements.eraseIdxIfInBounds i).toList.Sublist elements.toList := by
  unfold Array.eraseIdxIfInBounds
  split
  · rw [Array.toList_eraseIdx]
    exact List.eraseIdx_sublist ..
  · exact .refl _

/-! ## Reading -/

section Reading

variable {m : Machine}

theorem reads_elementsOf (storage : StorageId) :
    Eval.Reads m (elementsOf storage) (· = (m.store.elements storage).toList) := ⟨rfl, rfl⟩

theorem reads_textOf (v : Value) : Eval.Reads m (Eval.textOf v) fun _ => True := ⟨rfl, trivial⟩

theorem reads_integer (line : Nat) (what : NumericArgument) (v : Value) :
    Eval.Reads m (integer line what v) fun _ => True := by
  unfold integer
  split
  · exact .pure trivial
  · exact .fail _ rfl

theorem reads_elementPosition (line : Nat) (kind : CollectionKind) (wrap : Bool) (storage : StorageId)
    (argument : Value) : Eval.Reads m (elementPosition line kind wrap storage argument) fun _ => True := by
  unfold elementPosition
  refine .bind (reads_integer line _ argument) fun index _ => .bind .getStore fun s _ => ?_
  split
  · exact .pure trivial
  · exact .fail _ rfl

theorem reads_elementAt (storage : StorageId) (i : Nat) :
    Eval.Reads m (elementAt storage i) fun v => v = .null ∨ v ∈ m.store.elements storage := by
  refine .bind .getStore ?_
  rintro _ rfl
  refine .pure ?_
  unfold Array.getD
  split
  · exact .inr (Array.getElem_mem _)
  · exact .inl rfl

theorem reads_paddingChar (line : Nat) (fill : Value) : Eval.Reads m (paddingChar line fill) fun _ => True := by
  refine .bind (reads_textOf fill) fun t _ => ?_
  split
  · exact .pure trivial
  · exact .fail _ rfl

/-- The elements of the other set. -/
theorem reads_otherSet (line : Nat) (operation : SetMethod) (v : Value) :
    Eval.Reads m (otherSet line operation v) fun vs => ∃ storage, vs = (m.store.elements storage).toList := by
  unfold otherSet
  split
  · exact ⟨rfl, _, rfl⟩
  · exact .fail _ rfl

theorem reads_getFiles : Eval.Reads m getFiles fun _ => True := ⟨rfl, trivial⟩

theorem reads_liftFile (line : Nat) (action : FileAction) (result : Except FileError α) :
    Eval.Reads m (liftFile line action result) fun _ => True := by
  unfold liftFile
  split
  · exact .pure trivial
  · exact .fail _ rfl

end Reading

section Tracked

variable {T : Tracking ν} (hT : T.LawfulData) {g : T.Ghost} {m : Machine} {n : ν} (h : T.state g m.store n)
include hT h

/-! ## Storage -/

theorem tracked_freshIdentity : T.Carries g m n Eval.freshIdentity fun _ _ => True := by
  obtain ⟨g', le, state⟩ := hT.identity h
  exact ⟨rfl, g', le, state, trivial⟩

theorem tracked_newCollection (kind : CollectionKind) {elements : Array Value} (hv : ∀ v ∈ elements, T.value g v)
    (hs : kind = .set → elements.toList.Pairwise Value.Apart) :
    T.Carries g m n (Eval.newCollection kind elements) T.value := by
  obtain ⟨g', le, state, value⟩ := hT.allocate kind h hv hs
  exact ⟨rfl, g', le, state, value⟩

/-- A collection that is not a set. -/
theorem tracked_newList {kind : CollectionKind} (hk : kind ≠ .set) {elements : List Value}
    (hv : ∀ v ∈ elements, T.value g v) : T.Carries g m n (Eval.newCollection kind elements.toArray) T.value :=
  tracked_newCollection hT h kind (by simpa using hv) fun set => absurd set hk

theorem tracked_newSet {elements : List Value} (hv : ∀ v ∈ elements, T.value g v) :
    T.Carries g m n (Eval.newSet elements) T.value := by
  refine .bindReads h .getStore fun s _ => ?_
  obtain ⟨unequal, kept⟩ := distinct_kept s elements
  refine tracked_newCollection hT h .set (fun v hmem => ?_) fun _ => unequal.imp apart_of_not_equal
  exact hv v (kept.subset (by simpa using hmem))

theorem tracked_change {kind : CollectionKind} {storage : StorageId} {f : Array Value → Array Value}
    (hr : T.receiver g kind storage) (hv : ∀ v ∈ f (m.store.elements storage), T.value g v)
    (ha : kind = .array → (f (m.store.elements storage)).size = (m.store.elements storage).size)
    (hs : kind = .set → (m.store.elements storage).toList.Pairwise Value.Apart →
      (f (m.store.elements storage)).toList.Pairwise Value.Apart) :
    T.Carries g m n (change storage f) fun _ _ => True := by
  obtain ⟨g', le, state⟩ := hT.change h hr hv ha hs
  exact ⟨rfl, g', le, state, trivial⟩

/-- A native function, if its receiver is allowed. -/
theorem tracked_freshNative (f : Native)
    (hf : ∀ kind id, f.receiver? = some (kind, id) → T.value g (.collection kind id)) :
    T.Carries g m n (freshNative f) T.value := by
  refine .bind (tracked_freshIdentity hT h) fun id g' m' le h' _ => .pure h' (hT.native fun kind id heq => ?_)
  exact T.mono le (hf kind id heq)

omit h in
theorem value_of_mem {storage : StorageId} {v : Value} (h : T.state g m.store n)
    (hv : v ∈ (m.store.elements storage).toList) : T.value g v :=
  hT.elements storage h v (Array.mem_toList_iff.1 hv)

/-! ## Collections -/

theorem tracked_lengthOf (storage : StorageId) : T.Carries g m n (lengthOf storage) T.value :=
  .bindReads h .getStore fun _ _ => .pure h (hT.number g _)

theorem tracked_elementAt (storage : StorageId) (i : Nat) : T.Carries g m n (elementAt storage i) T.value := by
  refine .reads h (reads_elementAt storage i) fun v hv => ?_
  rcases hv with rfl | hv
  · exact hT.null g
  · exact hT.elements storage h v hv

theorem tracked_replaceElement (line : Nat) {kind : CollectionKind} (hk : kind ≠ .set) {storage : StorageId}
    (hr : T.receiver g kind storage) (index : Value) {value : Value} (hv : T.value g value) :
    T.Carries g m n (replaceElement line kind storage index value) T.value := by
  unfold replaceElement
  refine .bindReads h (reads_elementPosition line kind false storage index) fun i _ => ?_
  have replaced (v : Value) (hmem : v ∈ (m.store.elements storage).setIfInBounds i value) : T.value g v := by
    rcases Array.mem_or_eq_of_mem_setIfInBounds hmem with old | new
    · exact hT.elements storage h v old
    · exact new ▸ hv
  refine .bind (tracked_change hT h hr replaced (fun _ => Array.size_setIfInBounds) fun set => absurd set hk) ?_
  exact fun _ g' m' le h' _ => .pure h' (T.mono le hv)

theorem tracked_concatenate (line : Nat) {kind : CollectionKind} (hk : kind ≠ .set) (storage : StorageId)
    (other : Value) : T.Carries g m n (concatenate line kind storage other) T.value := by
  unfold concatenate
  split
  · next kind' second =>
    refine .guard h rfl (.bindReads h (reads_elementsOf storage) ?_)
    rintro _ rfl
    refine .bindReads h (reads_elementsOf second) ?_
    rintro _ rfl
    refine tracked_newList hT h hk fun v hv => ?_
    rcases List.mem_append.1 hv with hv | hv
    · exact value_of_mem hT h hv
    · exact value_of_mem hT h hv
  · exact .fail h _ rfl

theorem tracked_fillAll {kind : CollectionKind} (hk : kind ≠ .set) {storage : StorageId}
    (hr : T.receiver g kind storage) {value : Value} (hv : T.value g value) :
    T.Carries g m n (fillAll storage value) T.value := by
  have filled (v : Value) (hmem : v ∈ (m.store.elements storage).map fun _ => value) : T.value g v := by
    obtain ⟨_, _, rfl⟩ := Array.mem_map.1 hmem
    exact hv
  refine .bind (tracked_change hT h hr filled (fun _ => Array.size_map) fun set => absurd set hk) ?_
  exact fun _ g' m' _ h' _ => .pure h' (hT.null g')

theorem tracked_findElement (storage : StorageId) (value : Value) :
    T.Carries g m n (findElement storage value) T.value := by
  refine .bindReads h .getStore fun s _ => .bindReads h (reads_elementsOf storage) ?_
  rintro vs rfl
  refine .pure h ?_
  cases found : (m.store.elements storage).toList.find? fun e => s.equal e value with
  | none => exact hT.null g
  | some e => exact value_of_mem hT h (List.mem_of_find?_eq_some found)

theorem tracked_reversed {kind : CollectionKind} (hk : kind ≠ .set) (storage : StorageId) :
    T.Carries g m n (reversed kind storage) T.value := by
  refine .bindReads h (reads_elementsOf storage) ?_
  rintro vs rfl
  exact tracked_newList hT h hk fun v hv => value_of_mem hT h (List.mem_reverse.1 hv)

theorem tracked_containsElement (storage : StorageId) (value : Value) :
    T.Carries g m n (containsElement storage value) T.value :=
  .bindReads h .getStore fun _ _ => .bindReads h (reads_elementsOf storage) fun _ _ => .pure h (hT.bool g _)

theorem tracked_clearAll {kind : CollectionKind} (hk : kind ≠ .array) {storage : StorageId}
    (hr : T.receiver g kind storage) : T.Carries g m n (clearAll storage) T.value := by
  refine .bind (tracked_change hT h hr (fun v hv => ?_) (fun array => absurd array hk) fun _ _ => .nil) ?_
  · exact nomatch hv
  · exact fun _ g' m' _ h' _ => .pure h' (hT.null g')

theorem tracked_arrayProperty {storage : StorageId} (hr : T.value g (.collection .array storage)) (name : Name) :
    T.Carries g m n (arrayProperty storage name) T.value := by
  unfold arrayProperty
  split
  · exact tracked_lengthOf hT h storage
  · split
    · refine tracked_freshNative hT h _ ?_
      rintro _ _ ⟨⟩
      exact hr
    · exact .fail h _ rfl

theorem tracked_listProperty {storage : StorageId} (hr : T.value g (.collection .list storage)) (name : Name) :
    T.Carries g m n (listProperty storage name) T.value := by
  unfold listProperty
  split
  · exact tracked_lengthOf hT h storage
  · split
    · refine tracked_freshNative hT h _ ?_
      rintro _ _ ⟨⟩
      exact hr
    · exact .fail h _ rfl

theorem tracked_setProperty {storage : StorageId} (hr : T.value g (.collection .set storage)) (name : Name) :
    T.Carries g m n (setProperty storage name) T.value := by
  unfold setProperty
  split
  · refine tracked_freshNative hT h _ ?_
    rintro _ _ ⟨⟩
    exact hr
  · exact .fail h _ rfl

theorem tracked_callArray (line : Nat) (method : ArrayMethod) {storage : StorageId}
    (hr : T.receiver g .array storage) {args : List Value} (ha : ∀ v ∈ args, T.value g v) :
    T.Carries g m n (callArray line method storage args) T.value := by
  unfold callArray
  split
  · exact tracked_arrayProperty hT h (hT.receiver hr) _
  · exact .bindReads h (reads_elementPosition line .array true storage _) fun i _ => tracked_elementAt hT h storage i
  · exact tracked_replaceElement hT h line (by decide) hr _ (ha _ (by simp))
  · exact tracked_concatenate hT h line (by decide) storage _
  · exact tracked_fillAll hT h (by decide) hr (ha _ (by simp))
  · exact tracked_findElement hT h storage _
  · exact tracked_reversed hT h (by decide) storage
  · exact tracked_containsElement hT h storage _
  · exact .fail h _ rfl

theorem tracked_callList (line : Nat) (method : ListMethod) {storage : StorageId}
    (hr : T.receiver g .list storage) {args : List Value} (ha : ∀ v ∈ args, T.value g v) :
    T.Carries g m n (callList line method storage args) T.value := by
  unfold callList
  split
  · next value =>
    have pushed (v : Value) (hmem : v ∈ (m.store.elements storage).push value) : T.value g v := by
      rcases Array.mem_push.1 hmem with old | rfl
      · exact hT.elements storage h v old
      · exact ha _ (by simp)
    refine .bind (tracked_change hT h hr pushed nofun nofun) ?_
    exact fun _ g' m' _ h' _ => .pure h' (hT.null g')
  · exact .bindReads h (reads_elementPosition line .list false storage _) fun i _ => tracked_elementAt hT h storage i
  · exact tracked_replaceElement hT h line (by decide) hr _ (ha _ (by simp))
  · refine .bindReads h (reads_elementPosition line .list false storage _) fun i _ => ?_
    refine .bindReads h (reads_elementAt storage i) fun removed hremoved => ?_
    have value : T.value g removed := by
      rcases hremoved with rfl | hmem
      · exact hT.null g
      · exact hT.elements storage h removed hmem
    refine .bind (tracked_change hT h hr (fun v hv => ?_) nofun nofun) fun _ g' m' le h' _ => .pure h' (T.mono le value)
    exact value_of_mem hT h ((sublist_eraseIdxIfInBounds _ i).subset (Array.mem_toList_iff.2 hv))
  · exact tracked_concatenate hT h line (by decide) storage _
  · exact tracked_fillAll hT h (by decide) hr (ha _ (by simp))
  · exact tracked_findElement hT h storage _
  · exact tracked_reversed hT h (by decide) storage
  · exact tracked_containsElement hT h storage _
  · exact tracked_clearAll hT h (by decide) hr
  · exact .fail h _ rfl

/-- A value is added to a set only if no element equals it. -/
theorem tracked_addElement {storage : StorageId} (hr : T.receiver g .set storage) {value : Value}
    (hv : T.value g value) (missing : ¬m.store.holds (m.store.elements storage).toList value = true) :
    T.Carries g m n (change storage (·.push value)) fun _ _ => True := by
  refine tracked_change hT h hr (fun v hmem => ?_) nofun fun _ apart => ?_
  · rcases Array.mem_push.1 hmem with old | rfl
    · exact hT.elements storage h v old
    · exact hv
  · rw [Array.toList_push]
    exact pairwise_concat apart fun e he => apart_of_not_equal (not_equal_of_not_holds missing e he)

theorem tracked_removeElement {storage : StorageId} (hr : T.receiver g .set storage) (i : Nat) :
    T.Carries g m n (change storage (·.eraseIdxIfInBounds i)) fun _ _ => True := by
  have kept := sublist_eraseIdxIfInBounds (m.store.elements storage) i
  refine tracked_change hT h hr (fun v hv => ?_) nofun fun _ apart => apart.sublist kept
  exact value_of_mem hT h (kept.subset (Array.mem_toList_iff.2 hv))

theorem tracked_callSet (line : Nat) (method : SetMethod) {storage : StorageId}
    (hr : T.receiver g .set storage) {args : List Value} (ha : ∀ v ∈ args, T.value g v) :
    T.Carries g m n (callSet line method storage args) T.value := by
  unfold callSet
  split
  · refine .bindReads h .getStore ?_
    rintro _ rfl
    refine .bindReads h (reads_elementsOf storage) ?_
    rintro _ rfl
    split
    · exact .pure h (hT.bool g false)
    · next missing =>
      refine .bind (tracked_addElement hT h hr (ha _ (by simp)) missing) ?_
      exact fun _ g' m' _ h' _ => .pure h' (hT.bool g' true)
  · refine .bindReads h .getStore fun s _ => .bindReads h (reads_elementsOf storage) fun vs _ => ?_
    split
    · exact .pure h (hT.bool g false)
    · refine .bind (tracked_removeElement hT h hr _) ?_
      exact fun _ g' m' _ h' _ => .pure h' (hT.bool g' true)
  · exact tracked_containsElement hT h storage _
  · exact tracked_lengthOf hT h storage
  · exact tracked_clearAll hT h (by decide) hr
  · refine .bindReads h (reads_elementsOf storage) ?_
    rintro _ rfl
    exact tracked_newList hT h (by decide) fun v hv => value_of_mem hT h hv
  · refine .bindReads h (reads_elementsOf storage) ?_
    rintro _ rfl
    exact tracked_newList hT h (by decide) fun v hv => value_of_mem hT h hv
  · refine .bindReads h (reads_otherSet line .union _) ?_
    rintro _ ⟨other, rfl⟩
    refine .bindReads h (reads_elementsOf storage) ?_
    rintro _ rfl
    refine tracked_newSet hT h fun v hv => ?_
    rcases List.mem_append.1 hv with hv | hv
    · exact value_of_mem hT h hv
    · exact value_of_mem hT h hv
  · refine .bindReads h (reads_otherSet line .intersection _) fun others _ => .bindReads h .getStore fun s _ => ?_
    refine .bindReads h (reads_elementsOf storage) ?_
    rintro _ rfl
    exact tracked_newSet hT h fun v hv => value_of_mem hT h (List.mem_filter.1 hv).1
  · refine .bindReads h (reads_otherSet line .difference _) fun others _ => .bindReads h .getStore fun s _ => ?_
    refine .bindReads h (reads_elementsOf storage) ?_
    rintro _ rfl
    exact tracked_newSet hT h fun v hv => value_of_mem hT h (List.mem_filter.1 hv).1
  · exact .fail h _ rfl

/-! ## Texts -/

theorem tracked_stringProperty (text : String) (name : Name) :
    T.Carries g m n (stringProperty text name) T.value := by
  unfold stringProperty
  split
  · exact tracked_freshNative hT h _ nofun
  · exact .fail h _ rfl

theorem tracked_pad (line : Nat) (text : String) (wanted : Int) (fill : Char) (atStart : Bool) :
    T.Carries g m n (pad line text wanted fill atStart) T.value := by
  unfold pad
  exact .guard h rfl (.pure h (hT.string g _))

theorem tracked_substring (line : Nat) (text : String) (first last : Int) :
    T.Carries g m n (substring line text first last) T.value := by
  unfold substring
  exact .guard h rfl (.pure h (hT.string g _))

theorem tracked_repeatText (line : Nat) (text : String) (times : Int) :
    T.Carries g m n (repeatText line text times) T.value := by
  unfold repeatText
  exact .guard h rfl (.ite (.pure h (hT.string g _)) (.guard h rfl (.pure h (hT.string g _))))

theorem tracked_charAt (line : Nat) (text : String) (index : Int) :
    T.Carries g m n (charAt line text index) T.value := by
  unfold charAt
  split
  · exact .fail h _ rfl
  · split
    · exact .pure h (hT.string g _)
    · exact .pure h (hT.null g)

theorem tracked_newStrings {kind : CollectionKind} (hk : kind ≠ .set) {vs : List Value}
    (hv : ∀ v ∈ vs, ∃ s, v = .string s) : T.Carries g m n (Eval.newCollection kind vs.toArray) T.value := by
  refine tracked_newList hT h hk fun v hmem => ?_
  obtain ⟨s, rfl⟩ := hv v hmem
  exact hT.string g s

theorem tracked_callString (line : Nat) (method : StringMethod) (text : String) (args : List Value) :
    T.Carries g m n (callString line method text args) T.value := by
  unfold callString
  split
  · exact .pure h (hT.number g _)
  iterate 4 exact .pure h (hT.bool g _)
  iterate 5 exact .pure h (hT.string g _)
  · refine tracked_newStrings hT h (by decide) fun v hv => ?_
    obtain ⟨c, _, rfl⟩ := List.mem_map.1 hv
    exact ⟨_, rfl⟩
  · refine .bindReads h (reads_textOf _) fun t _ => tracked_newStrings hT h (by decide) fun v hv => ?_
    obtain ⟨p, _, rfl⟩ := List.mem_map.1 hv
    exact ⟨_, rfl⟩
  iterate 3 exact .bindReads h (reads_textOf _) fun _ _ => .pure h (hT.bool g _)
  · exact .bindReads h (reads_integer line _ _) fun first _ =>
      .bindReads h (reads_integer line _ _) fun last _ => tracked_substring hT h line text first last
  · exact .bindReads h (reads_integer line _ _) fun times _ => tracked_repeatText hT h line text times
  iterate 2
    exact .bindReads h (reads_integer line _ _) fun wanted _ =>
      .bindReads h (reads_paddingChar line _) fun fill _ => tracked_pad hT h line text wanted fill _
  · exact .bindReads h (reads_integer line _ _) fun index _ => tracked_charAt hT h line text index
  · exact .fail h _ rfl

/-! ## Files -/

theorem tracked_fileProperty (path : String) (name : Name) :
    T.Carries g m n (fileProperty path name) T.value := by
  unfold fileProperty
  split
  · exact tracked_freshNative hT h _ nofun
  · exact .fail h _ rfl

omit hT in
/-- Files are no part of the store. -/
theorem tracked_setFiles (files : FileTree) {x : Eval α} {R : T.Ghost → α → Prop}
    (hx : ∀ m', T.state g m'.store n → T.Carries g m' n x R) :
    T.Carries g m n (do setFiles files; x) R := by
  refine .bind (R := fun g' _ => g' = g) ⟨rfl, g, T.refl g, h, rfl⟩ ?_
  rintro _ _ m' - h' rfl
  exact hx m' h'

theorem tracked_callFile (line : Nat) (method : FileMethod) (path : String) (args : List Value) :
    T.Carries g m n (callFile line method path args) T.value := by
  unfold callFile
  split
  · refine .bindReads h reads_getFiles fun files _ => .bindReads h (reads_liftFile line .creation _) fun made _ => ?_
    exact tracked_setFiles h _ fun m' h' => .pure h' (hT.bool g _)
  · refine .bindReads h reads_getFiles fun files _ => tracked_setFiles h _ fun m' h' => ?_
    exact .bindReads h' (reads_liftFile line .deletion _) fun _ _ => .pure h' (hT.bool g _)
  · exact .bindReads h reads_getFiles fun _ _ => .pure h (hT.bool g _)
  · refine .bindReads h reads_getFiles fun files _ => ?_
    exact .bindReads h (reads_liftFile line .reading _) fun _ _ => .pure h (hT.string g _)
  · refine .bindReads h reads_getFiles fun files _ => .bindReads h (reads_liftFile line .reading _) fun text _ => ?_
    refine tracked_newStrings hT h (by decide) fun v hv => ?_
    obtain ⟨l, _, rfl⟩ := List.mem_map.1 hv
    exact ⟨l, rfl⟩
  · refine .bindReads h (reads_textOf _) fun text _ => .bindReads h reads_getFiles fun files _ => ?_
    refine .bindReads h (reads_liftFile line .writing _) fun files' _ => ?_
    exact tracked_setFiles h _ fun m' h' => .pure h' (hT.null g)
  · refine .bindReads h (reads_textOf _) fun text _ => .bindReads h reads_getFiles fun files _ => ?_
    refine .bindReads h (reads_liftFile line .appending _) fun files' _ => ?_
    exact tracked_setFiles h _ fun m' h' => .pure h' (hT.null g)
  · refine .bindReads h (reads_textOf _) fun target _ => .bindReads h reads_getFiles fun files _ => ?_
    refine .ite (.pure h (hT.bool g false)) (.bindReads h reads_getFiles fun files _ => ?_)
    refine .bindReads h (reads_liftFile line .renaming _) fun files' _ => ?_
    exact tracked_setFiles h _ fun m' h' => .pure h' (hT.bool g true)
  · exact .bindReads h reads_getFiles fun _ _ => .pure h (hT.number g _)
  · refine .bindReads h reads_getFiles fun files _ => ?_
    split
    · exact .pure h (hT.string g _)
    · exact .fail h _ rfl
  · exact .bindReads h reads_getFiles fun _ _ => .pure h (hT.bool g _)
  · exact .fail h _ rfl

/-! ## All native functions -/

theorem tracked_makeArray (line : Nat) (size : Value) : T.Carries g m n (makeArray line size) T.value := by
  have refused : T.Carries g m n (do Eval.fail line (.arraySize (← Eval.textOf size))) T.value :=
    .bindReads h (reads_textOf size) fun _ _ => .fail h _ rfl
  unfold makeArray
  split
  · refine .ite (.guard h rfl ?_) refused
    refine tracked_newCollection hT h .array (fun v hv => ?_) nofun
    rw [Array.eq_of_mem_replicate hv]
    exact hT.null g
  · exact refused

theorem tracked_callGlobal (line : Nat) (f : GlobalNative) {args : List Value} (ha : ∀ v ∈ args, T.value g v) :
    T.Carries g m n (callGlobal line f args) T.value := by
  unfold callGlobal
  split
  · exact ⟨rfl, g, T.refl g, h, hT.number g _⟩
  · exact .pure h (hT.string g _)
  · exact tracked_makeArray hT h line _
  · exact tracked_newCollection hT h .list (fun _ hv => nomatch hv) nofun
  · exact tracked_newSet hT h ha
  · exact .pure h (hT.string g _)
  · exact .bindReads h (reads_textOf _) fun _ _ => .pure h (hT.string g _)
  · exact .bindReads h (reads_textOf _) fun _ _ => .pure h (hT.file g _)
  · exact .fail h _ rfl

theorem tracked_callNative (line : Nat) {f : Native}
    (receiver : ∀ kind id, f.receiver? = some (kind, id) → T.receiver g kind id) {args : List Value}
    (ha : ∀ v ∈ args, T.value g v) : T.Carries g m n (callNative line f args) T.value := by
  unfold callNative
  split
  · exact tracked_callGlobal hT h line _ ha
  · exact tracked_callArray hT h line _ (receiver _ _ rfl) ha
  · exact tracked_callList hT h line _ (receiver _ _ rfl) ha
  · exact tracked_callSet hT h line _ (receiver _ _ rfl) ha
  · exact tracked_callString hT h line _ _ args
  · exact tracked_callFile hT h line _ _ args

theorem tracked_property? {receiver : Value} (hr : T.value g receiver) {name : Name} {read : Eval Value}
    (heq : property? receiver name = some read) : T.Carries g m n read T.value := by
  unfold property? at heq
  split at heq
  · exact Option.some.inj heq ▸ tracked_arrayProperty hT h hr name
  · exact Option.some.inj heq ▸ tracked_listProperty hT h hr name
  · exact Option.some.inj heq ▸ tracked_setProperty hT h hr name
  · exact Option.some.inj heq ▸ tracked_stringProperty hT h _ name
  · exact Option.some.inj heq ▸ tracked_fileProperty hT h _ name
  · cases heq

/-! ## Operators -/

theorem tracked_onNumbers (op : BinaryOp) (line : Nat) (a b : Float) :
    T.Carries g m n (op.onNumbers line a b) T.value := by
  unfold BinaryOp.onNumbers
  split
  iterate 5 exact .pure h (hT.number g _)
  · exact .ite (.fail h _ rfl) (.pure h (hT.number g _))
  iterate 2 exact .pure h (hT.number g _)
  iterate 6 exact .pure h (hT.bool g _)

theorem tracked_binaryOp (op : BinaryOp) (line : Nat) (left right : Value) :
    T.Carries g m n (op.apply line left right) T.value := by
  unfold BinaryOp.apply
  split
  · exact .bindReads h .getStore fun _ _ => .pure h (hT.bool g _)
  · exact .bindReads h .getStore fun _ _ => .pure h (hT.bool g _)
  · exact tracked_onNumbers hT h _ line _ _
  · exact .bindReads h (reads_textOf _) fun _ _ => .bindReads h (reads_textOf _) fun _ _ => .pure h (hT.string g _)
  · exact .fail h _ rfl

theorem tracked_unaryOp (op : UnaryOp) (line : Nat) (operand : Value) :
    T.Carries g m n (op.apply line operand) T.value := by
  unfold UnaryOp.apply
  split
  · exact .pure h (hT.bool g _)
  · exact .pure h (hT.number g _)
  · exact .fail h _ rfl

end Tracked

/-! ## Plain values -/

/-- `Q` does not exclude any value that holds no function, class or instance. -/
structure Plain (Q : Value → Prop) : Prop where
  null : Q .null
  bool (b : Bool) : Q (.bool b)
  number (x : Float) : Q (.number x)
  string (s : String) : Q (.string s)
  native (id : Identity) (f : Native) : Q (.native id f)
  collection (kind : CollectionKind) (storage : StorageId) : Q (.collection kind storage)
  file (path : String) : Q (.file path)

/-- Where it is fixed which values are allowed, and just the elements have to be allowed, there is nothing more to say
of data. -/
theorem Plain.lawfulData {T : Tracking ν} {Q : Value → Prop} (hQ : Plain Q) (hv : ∀ g v, T.value g v ↔ Q v)
    (stored : ∀ {g s n}, T.state g s n → ∀ elements ∈ s.collections, ∀ v ∈ elements, Q v)
    (changed : ∀ {g s n} (collections : Array (Array Value)) (next : Identity), T.state g s n →
      (∀ elements ∈ collections, ∀ v ∈ elements, Q v) →
      T.state g { s with collections := collections, nextIdentity := next } n) : T.LawfulData where
  null g := (hv g _).2 hQ.null
  bool g b := (hv g _).2 (hQ.bool b)
  number g x := (hv g _).2 (hQ.number x)
  string g s := (hv g _).2 (hQ.string s)
  file g path := (hv g _).2 (hQ.file path)
  native _ := (hv _ _).2 (hQ.native _ _)
  receiver _ := (hv _ _).2 (hQ.collection _ _)
  elements id h v hmem := by
    obtain ⟨elements, he, hmem⟩ := Store.mem_elements hmem
    exact (hv _ v).2 (stored h elements he v hmem)
  identity h := .here (changed _ _ h (stored h))
  allocate {g s n} kind {_} h he _ := by
    refine ⟨g, T.refl g, changed _ _ h fun elements hmem v hmem' => ?_, (hv _ _).2 (hQ.collection kind _)⟩
    rcases Array.mem_push.1 hmem with old | rfl
    · exact stored h elements old v hmem'
    · exact (hv _ v).1 (he v hmem')
  change {g s n kind id f} h _ he _ _ := by
    refine .here (changed _ _ h fun elements hmem v hmem' => ?_)
    rcases Store.mem_updateElements hmem with rfl | old
    · exact (hv g v).1 (he v hmem')
    · exact stored h elements old v hmem'

/-- Every element of every collection meets `Q`. -/
def Stored (Q : Value → Prop) (m : Machine) : Prop :=
  ∀ elements ∈ m.store.collections, ∀ v ∈ elements, Q v

/-- All elements meet `Q`. -/
def plainElements (Q : Value → Prop) : Tracking Unit where
  Ghost := Unit
  le _ _ := True
  value _ := Q
  receiver _ _ _ := True
  state _ s _ := ∀ elements ∈ s.collections, ∀ v ∈ elements, Q v
  vacant _ _ _ := True
  refl _ := trivial
  trans _ _ := trivial
  mono _ hv := hv

/-- The evaluation touches data only, stores only what meets `Q`, and yields only what meets `Q`. Where it stops, there
is an ordinary fault. -/
def Carries (Q : Value → Prop) (x : Eval Value) : Prop :=
  ∀ m, Stored Q m → Meets x m (fun v m' => m.SameButData m' ∧ Stored Q m' ∧ Q v)
    (fun h m' => h.Ordinary ∧ m.SameButData m' ∧ Stored Q m')

section Plain

variable {Q : Value → Prop} (hQ : Plain Q)
include hQ

theorem plainElements_lawful : (plainElements Q).LawfulData :=
  hQ.lawfulData (fun _ _ => .rfl) (fun h => h) fun _ _ _ h => h

omit hQ in
theorem Carries.of_tracked {x : Eval Value}
    (hx : ∀ m, Stored Q m → (plainElements Q).Carries () m () x (plainElements Q).value) : Carries Q x := by
  intro m hm
  refine Meets.mono (hx m hm) ?_ ?_
  · rintro v m' ⟨same, _, _, stored, hv⟩
    exact ⟨same, stored, hv⟩
  · rintro halt m' ⟨ordinary, same, _, _, stored⟩
    exact ⟨ordinary, same, stored⟩

theorem newCollection_carries {kind : CollectionKind} (hk : kind ≠ .set) {elements : List Value}
    (hv : ∀ v ∈ elements, Q v) : Carries Q (Eval.newCollection kind elements.toArray) :=
  .of_tracked fun _ h => tracked_newList (plainElements_lawful hQ) h hk hv

theorem callNative_carries (line : Nat) (f : Native) {args : List Value} (ha : ∀ v ∈ args, Q v) :
    Carries Q (callNative line f args) :=
  .of_tracked fun _ h => tracked_callNative (plainElements_lawful hQ) h line (fun _ _ _ => trivial) ha

theorem property?_carries {receiver : Value} {name : Name} {read : Eval Value} (hr : Q receiver)
    (heq : property? receiver name = some read) : Carries Q read :=
  .of_tracked fun _ h => tracked_property? (plainElements_lawful hQ) h hr heq

theorem binaryOp_carries (op : BinaryOp) (line : Nat) (left right : Value) : Carries Q (op.apply line left right) :=
  .of_tracked fun _ h => tracked_binaryOp (plainElements_lawful hQ) h op line left right

theorem unaryOp_carries (op : UnaryOp) (line : Nat) (operand : Value) : Carries Q (op.apply line operand) :=
  .of_tracked fun _ h => tracked_unaryOp (plainElements_lawful hQ) h op line operand

end Plain

end Scriptlet.Builtin
