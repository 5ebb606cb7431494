import Scriptlet.Proofs.Shapes

/-!
# Elements of sets

Whether a set has an element already is asked when one is put in. Values other than collections never become equal
later, so such an element is there once only. Collections are equal by their elements, and these may change while the
collections are elements of the set.
-/
namespace Scriptlet

namespace Store

variable {s : Store} {elements : List Value}

theorem distinct_eq_self (h : elements.Pairwise fun v v' => s.equal v v' = false) : s.distinct elements = elements := by
  have grown (rest kept : List Value) (h : (kept ++ rest).Pairwise fun v v' => s.equal v v' = false) :
      rest.foldl (fun kept e => if s.holds kept e then kept else kept ++ [e]) kept = kept ++ rest := by
    induction rest generalizing kept with
    | nil => rw [List.foldl_nil, List.append_nil]
    | cons e rest ih =>
      have missing : ¬s.holds kept e = true := by
        intro held
        obtain ⟨k, hk, same⟩ := List.any_eq_true.1 held
        have unequal := (List.pairwise_append.1 h).2.2 k hk e (List.mem_cons_self ..)
        cases unequal.symm.trans same
      rw [List.append_cons] at h ⊢
      rw [List.foldl_cons, if_neg missing]
      exact ih (kept ++ [e]) h
  exact grown elements [] h

/-- Nothing is left out exactly if no element equals a later one. -/
theorem length_distinct_eq_iff : (s.distinct elements).length = elements.length ↔
    elements.Pairwise fun v v' => s.equal v v' = false := by
  obtain ⟨unequal, within⟩ := Builtin.distinct_kept s elements
  constructor
  · intro full
    rwa [within.eq_of_length full] at unequal
  · intro h
    rw [distinct_eq_self h]

/-- Where values are apart, only collections have to be compared. -/
theorem pairwise_unequal_iff (h : elements.Pairwise Value.Apart) :
    (elements.Pairwise fun v v' => s.equal v v' = false) ↔
      elements.Pairwise fun v v' => ∀ kind id id', v = .collection kind id → v' = .collection kind id' →
        id ≠ id' → s.equal v v' = false := by
  constructor
  · exact fun unequal => unequal.imp fun h _ _ _ _ _ _ => h
  · intro collections
    refine (h.and collections).imp ?_
    rintro v v' ⟨apart, differ⟩
    refine Bool.eq_false_iff.2 fun same => ?_
    obtain ⟨kind, id, id', hv, hv', distinct⟩ := apart s same
    cases (differ kind id id' hv hv' distinct).symm.trans same

end Store

/-- The set at `id` has no element twice, unless they are different collections that are equal now. Its size is the
number of distinct elements exactly if no collection in it equals a later one. -/
structure Machine.SetAt (m : Machine) (id : StorageId) : Prop where
  apart : (m.store.elements id).toList.Pairwise Value.Apart
  size (line : Nat) :
    Builtin.callSet line .size id [] m = .ok (.number (Number.ofInt (m.store.elements id).toList.length)) m
  distinct : (m.store.distinct (m.store.elements id).toList).length = (m.store.elements id).toList.length ↔
    (m.store.elements id).toList.Pairwise fun v v' => ∀ kind a b, v = .collection kind a →
      v' = .collection kind b → a ≠ b → m.store.equal v v' = false

/-- All collections in the store are of these kinds, and the sets among them are as above. -/
structure Machine.HoldsSets (m : Machine) (kinds : List CollectionKind) : Prop where
  fits : m.store.All (Value.Fits kinds)
  sets (id : StorageId) : kinds[id]? = some .set → m.SetAt id

theorem Machine.SetAt.of_apart {m : Machine} {id : StorageId}
    (h : (m.store.elements id).toList.Pairwise Value.Apart) : m.SetAt id where
  apart := h
  size _ := rfl
  distinct := Store.length_distinct_eq_iff.trans (Store.pairwise_unequal_iff h)

/-- The shapes may have grown since. -/
theorem Store.Shaped.holdsSets {m : Machine} {shapes more : List Shape} (h : m.store.Shaped shapes)
    (le : shapes <+: more) : m.HoldsSets (more.map Shape.kind) := by
  refine ⟨h.fits.mono fun v hv => hv.mono (le.map _), fun id set => .of_apart ?_⟩
  rw [List.getElem?_map] at set
  obtain ⟨shape, hshape, kind⟩ := Option.map_eq_some_iff.1 set
  cases shape with
  | set =>
    obtain ⟨added, rfl⟩ := le
    by_cases there : id < shapes.length
    · rw [List.getElem?_append_left there] at hshape
      exact h.admits id .set hshape
    · -- The set was made later, so nothing is in its storage yet.
      have unused : m.store.elements id = #[] := by
        rw [Store.elements, Array.getD_eq_getD_getElem?, Array.getElem?_eq_none (h.size ▸ Nat.le_of_not_lt there)]
        rfl
      rw [unused]
      exact .nil
  | _ => cases kind

/-- Over a whole session from a new machine every storage belongs to a collection of one kind. At any moment, and at
the end, an element of a set equals a later one only if they are different collections of one kind; as long as there
are no such ones, the size of the set is the number of its distinct elements. The same holds wherever the evaluation
of an expression ends, for its value too. -/
theorem equal_elements_are_collections (settings : Settings) (sink : Sink) (files : FileTree) (clock fuel : Nat)
    (items : List Session.Item) :
    let start := Session.initial (.initial settings sink files clock)
    let seen := Session.visits fuel items start []
    let last := (Session.after fuel items start).machine
    ∃ kinds : List CollectionKind,
      (∀ m ∈ last :: seen.map (·.machine), m.HoldsSets kinds) ∧
      ∀ v ∈ seen, ∀ n e, Meets (evaluate n e) v.machine
        (fun value m => ∃ more, kinds.take v.machine.store.collections.size <+: more ∧
          value.Fits more ∧ m.HoldsSets more)
        fun _ m => ∃ more, kinds.take v.machine.store.collections.size <+: more ∧ m.HoldsSets more := by
  intro start seen last
  obtain ⟨shapes, ended, shaped⟩ := Session.shaped_after settings sink files clock fuel items
  refine ⟨shapes.map Shape.kind, fun m hm => ?_, fun v hv n e => ?_⟩
  · rcases List.mem_cons.1 hm with rfl | hm
    · exact ended.holdsSets List.prefix_rfl
    · obtain ⟨v, hv, rfl⟩ := List.mem_map.1 hm
      obtain ⟨older, le, then_⟩ := shaped v hv
      exact then_.holdsSets le
  · obtain ⟨older, le, then_⟩ := shaped v hv
    have taken : (shapes.map Shape.kind).take v.machine.store.collections.size = older.map Shape.kind := by
      rw [← List.map_take, ← then_.size, ← List.prefix_iff_eq_take.1 le]
    rw [taken]
    refine Meets.mono (then_.evaluate n e) ?_ ?_
    · rintro value m ⟨more, grown, now, fits⟩
      exact ⟨more.map Shape.kind, grown.map _, fits, now.holdsSets List.prefix_rfl⟩
    · rintro _ m ⟨more, grown, now⟩
      exact ⟨more.map Shape.kind, grown.map _, now.holdsSets List.prefix_rfl⟩

/-- Two lists that were different when they were put into a set have become equal there. -/
theorem equal_lists_in_one_set :
    let source := "let a = List(); let b = List(); b.add(null); let s = Set(a, b); a.add(null);"
    let last := (Session.after 9 [.text source] .new).machine.store
    ((last.frames.bindingAt? globalFrame "s").bind (·.value.storage?)) = some (.set, 2) ∧
      (last.elements 2).toList.map Value.storage? = [some (.list, 0), some (.list, 1)] ∧
      last.equal (.collection .list 0) (.collection .list 1) = true ∧
      (last.distinct (last.elements 2).toList).length = 1 := by
  decide +kernel

end Scriptlet
