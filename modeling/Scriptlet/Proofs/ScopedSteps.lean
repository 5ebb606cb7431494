import Scriptlet.Proofs.ScopeInvariant
import Scriptlet.Proofs.Watching

/-!
# Single steps of a run keep frames in scope

An evaluation is safe if it keeps the invariant and adds names to certain frames only. The steps between the
evaluations of expressions and statements are safe.
-/
namespace Scriptlet

open World

variable {α β : Type}

/-- From the world `w` the evaluation keeps the invariant and adds names to the frames in `changing` only.
Its result meets `R`. Only names of the global frame are ever declared twice. -/
def Safe (changing : FrameId → Prop) (w : World) (x : Watched (List Visit) α) (R : α → World → Prop) : Prop :=
  Meets x w (fun a (w' : World) => w'.Inv ∧ w.Grows w' changing ∧ R a w')
    (fun h (w' : World) => w'.Inv ∧ w.Grows w' changing ∧ (h.redeclares = true → changing globalFrame))

namespace Safe

variable {changing : FrameId → Prop} {w : World} {R : α → World → Prop} {S : β → World → Prop}

theorem pure (hi : w.Inv) {a : α} (h : R a w) : Safe changing w (Pure.pure a) R := ⟨hi, .refl w _, h⟩

theorem throw (hi : w.Inv) {h : Halt} (hh : h.redeclares = false) : Safe changing w (MonadExcept.throw h) R :=
  ⟨hi, .refl w _, fun hr => nomatch hh.symm.trans hr⟩

theorem fail (hi : w.Inv) (line : Nat) {f : Fault} (hf : f.isRedeclared = false) :
    Safe changing w (liftM (Eval.fail line f : Eval α)) R :=
  ⟨hi, .refl w _, fun hr => nomatch hf.symm.trans hr⟩

theorem bind {x : Watched (List Visit) α} {f : α → Watched (List Visit) β} (hx : Safe changing w x R)
    (hf : ∀ a w', w'.Inv → w.Grows w' changing → R a w' → Safe changing w' (f a) S) :
    Safe changing w (x >>= f) S := by
  refine Meets.bind hx ?_
  rintro a w' ⟨hi, hg, hr⟩
  refine Meets.mono (hf a w' hi hg hr) ?_ ?_
  · rintro b w'' ⟨hi', hg', hs⟩
    exact ⟨hi', hg.trans hg', hs⟩
  · rintro e w'' ⟨hi', hg', hglobal⟩
    exact ⟨hi', hg.trans hg', hglobal⟩

theorem mono {x : Watched (List Visit) α} {changing' : FrameId → Prop} {R' : α → World → Prop}
    (hx : Safe changing w x R) (hi : w.Inv) (hc : ∀ f < w.frames.size, changing f → changing' f)
    (hr : ∀ a w', w'.Inv → w.Grows w' changing → R a w' → R' a w') : Safe changing' w x R' := by
  refine Meets.mono hx ?_ ?_
  · rintro a w' ⟨hi, hg, h⟩
    exact ⟨hi, hg.mono hc, hr a w' hi hg h⟩
  · rintro e w' ⟨hi', hg, hglobal⟩
    exact ⟨hi', hg.mono hc, fun hr => hc globalFrame hi.nonempty (hglobal hr)⟩

/-- Frames opened on the way do not count. -/
theorem fresh {x : Watched (List Visit) α} (hi : w.Inv) (hx : Safe (w.frames.size ≤ ·) w x R) :
    Safe noFrame w x R :=
  hx.mono hi (fun _ hf h => absurd hf (Nat.not_lt.2 h)) fun _ _ _ _ h => h

/-- Names may be added to the global frame at any time, if someone sees to names that are declared twice. -/
theorem tryGlobal {x : Watched (List Visit) α} {handle : Halt → Watched (List Visit) α}
    (hx : Safe (· = globalFrame) w x R)
    (hh : ∀ e w', w'.Inv → w.Grows w' noFrame → Safe noFrame w' (handle e) R) :
    Safe noFrame w (MonadExcept.tryCatch x handle) R := by
  have quiet {w' : World} (hg : w.Grows w' (· = globalFrame)) : w.Grows w' noFrame :=
    { hg with added := fun f name hf hne _ hb => hg.added f name hf hne hne hb }
  refine Meets.tryCatch (Meets.mono hx ?_ fun _ _ h => h) ?_
  · rintro a w' ⟨hi, hg, hr⟩
    exact ⟨hi, quiet hg, hr⟩
  · rintro e w' ⟨hi, hg, -⟩
    refine Meets.mono (hh e w' hi (quiet hg)) ?_ ?_
    · rintro a w'' ⟨hi', hg', hr⟩
      exact ⟨hi', (quiet hg).trans hg', hr⟩
    · rintro e' w'' ⟨hi', hg', hglobal⟩
      exact ⟨hi', (quiet hg).trans hg', hglobal⟩

theorem ite {c : Prop} [Decidable c] {x y : Watched (List Visit) α} (hx : Safe changing w x R)
    (hy : Safe changing w y R) : Safe changing w (if c then x else y) R := by
  split
  · exact hx
  · exact hy

/-- A step that changes nothing. -/
theorem reads (hi : w.Inv) {x : Eval α} {Q : α → Prop} (hx : Eval.Reads w.1 x Q)
    (hr : ∀ a, Q a → R a w) : Safe changing w (liftM x) R := by
  refine Watched.meets_unseen (Meets.mono hx ?_ ?_)
  · rintro a m ⟨rfl, ha⟩
    exact ⟨hi, .refl w _, hr a ha⟩
  · rintro e m ⟨ordinary, rfl⟩
    exact ⟨hi, .refl w _, ordinary.elim⟩

theorem bindReads (hi : w.Inv) {x : Eval α} {Q : α → Prop} {f : α → Watched (List Visit) β}
    (hx : Eval.Reads w.1 x Q) (hf : ∀ a, Q a → Safe changing w (f a) S) :
    Safe changing w (liftM x >>= f) S := by
  have first : Safe changing w (liftM x) fun a w' => w' = w ∧ Q a := reads hi hx fun a ha => ⟨rfl, ha⟩
  refine bind first ?_
  rintro a w' - - ⟨rfl, ha⟩
  exact hf a ha

end Safe

/-- The evaluation has a result and leaves alone what frames have to do with. -/
def Eval.Apart (x : Eval α) (Q : α → Prop) : Prop :=
  ∀ m, Meets x m (fun a m' => (m.Alike m' ∧ m'.context = m.context) ∧ Q a) (fun _ _ => False)

namespace Eval.Apart

variable {Q : α → Prop} {S : β → Prop}

theorem pure {a : α} (h : Q a) : Apart (Pure.pure a) Q := fun m => ⟨⟨.refl m, rfl⟩, h⟩

theorem bind {x : Eval α} {f : α → Eval β} (hx : x.Apart Q) (hf : ∀ a, Q a → (f a).Apart S) :
    (x >>= f).Apart S := by
  intro m
  refine Meets.bind (hx m) ?_
  rintro a m' ⟨⟨ha, hc⟩, hq⟩
  refine Meets.mono (hf a hq m') ?_ fun _ _ h => h
  rintro b m'' ⟨⟨ha', hc'⟩, hs⟩
  exact ⟨⟨ha.trans ha', hc'.trans hc⟩, hs⟩

theorem freshIdentity : Eval.freshIdentity.Apart fun _ => True :=
  fun _ => ⟨⟨⟨rfl, rfl, rfl, rfl, rfl⟩, rfl⟩, trivial⟩

theorem writeLine (v : Value) : (Eval.writeLine v).Apart fun _ => True :=
  fun _ => ⟨⟨⟨rfl, rfl, rfl, rfl, rfl⟩, rfl⟩, trivial⟩

theorem markImported (place : Place) : (Eval.markImported place).Apart fun _ => True :=
  fun _ => ⟨⟨⟨rfl, rfl, rfl, rfl, rfl⟩, rfl⟩, trivial⟩

theorem report (d : Diagnostic) : (Eval.report d).Apart fun _ => True :=
  fun m => ⟨⟨(m.report_same d).alike, (m.report_same d).context⟩, trivial⟩

theorem newFunction (frame : FrameId) (isInitializer : Bool) (d : FunctionDecl) :
    (Eval.newFunction frame isInitializer d).Apart fun f => f.frame = frame ∧ f.declaration = d :=
  bind freshIdentity fun _ _ => pure ⟨rfl, rfl⟩

/-- Every method in the table has the given frame and one of the declarations. -/
theorem methodTable (frame : FrameId) (canInitialize : Bool) {ds : List FunctionDecl}
    {table : Table FunctionObject} {P : FunctionObject → Prop}
    (ht : ∀ name f, table.find? name = some f → P f)
    (hd : ∀ f : FunctionObject, f.frame = frame → f.declaration ∈ ds → P f) :
    (Eval.methodTable frame canInitialize ds table).Apart fun table =>
      ∀ name f, table.find? name = some f → P f := by
  induction ds generalizing table with
  | nil => exact pure ht
  | cons d ds ih =>
    refine bind (newFunction frame _ d) fun f hf => ih ?_ fun g hframe hmem => ?_
    · intro name g hg
      rw [Table.find?_insert] at hg
      split at hg
      · cases hg
        exact hd f hf.1 (hf.2 ▸ List.mem_cons_self ..)
      · exact ht name g hg
    · exact hd g hframe (List.mem_cons_of_mem _ hmem)

end Eval.Apart

/-! ## Steps of a run -/

namespace Safe

variable {changing : FrameId → Prop} {w : World} {inner : Inner (List Visit)}

/-- A frame that was just opened binds nothing. -/
theorem openFrame (hi : w.Inv) (ho : inner.observer = .recorder) {region : Region} (enclosing : FrameId)
    (hm : ∀ method, region ≠ .receiver method) (hs : ∀ declaration, region ≠ .superclass declaration)
    (hd : ∀ d, region = .routine d → (d.params.map Name.text).Nodup) :
    Safe changing w (inner.openFrame region enclosing) fun f w' =>
      w'.IsNew region enclosing f ∧ w.frames.size ≤ f ∧ ∀ name, ¬w'.Binds f name := by
  have result : inner.openFrame region enclosing w =
      .ok w.frames.size ((w.newFrame enclosing).tell (.opening region w.frames.size)) := by
    obtain ⟨fuel, observer, evaluate, execute⟩ := inner
    cases ho
    rfl
  have lt := w.lt_size_newFrame enclosing
  have empty (name : String) : (w.newFrame enclosing).frames.bindingAt? w.frames.size name = none :=
    (Frames.bindingAt?_child ..).trans (bindingAt?_size w name)
  unfold Safe Meets
  rw [result]
  refine ⟨(hi.newFrame enclosing).tellOpening lt hi rfl (Nat.le_refl _) ?_ ?_ ?_, ?_, ?_, Nat.le_refl _, ?_⟩
  · intro method f h
    cases h
    exact absurd rfl (hm method)
  · intro declaration f h
    cases h
    exact absurd rfl (hs declaration)
  · intro d f h
    cases h
    exact ⟨Nat.ne_of_gt hi.nonempty, empty, hd d rfl⟩
  · exact ((w.grows_newFrame enclosing).trans (grows_tell _ _ _)).mono fun _ _ h => h.elim
  · exact ⟨⟨_, List.mem_cons_self .., rfl⟩, w.enclosing_newFrame enclosing, lt⟩
  · exact fun name => Option.not_isSome_iff_eq_none.2 (empty name)

/-- The frame of the receiver lies in the frame of the method and binds `this`. -/
theorem bindMethod (hi : w.Inv) (ho : inner.observer = .recorder) {method : FunctionObject}
    (id : InstanceId) {cls : ClassObject} (hm : w.GoodMethod method) (hc : w.GoodClass cls) :
    Safe changing w (inner.bindMethod method id cls) fun f w' =>
      w'.GoodFunction f ∧ f.declaration = method.declaration := by
  let bound := w.newBinding method.frame thisName (.object id cls)
  let counted : World := ({ bound.1 with store := bound.1.store.freshIdentity.2 }, bound.2)
  let last := counted.tell (.opening (.receiver method.declaration) w.frames.size)
  have result : inner.bindMethod method id cls w =
      .ok { method with id := bound.1.store.nextIdentity, frame := w.frames.size } last := by
    obtain ⟨fuel, observer, evaluate, execute⟩ := inner
    cases ho
    rfl
  have alike : bound.1.Alike counted.1 := ⟨rfl, rfl, rfl, rfl, rfl⟩
  have toCounted : bound.Grows counted noFrame := ⟨bound.extends_alike alike, rfl⟩
  have toLast : w.Grows last noFrame :=
    (w.grows_newBinding _ _ _).trans (toCounted.trans (grows_tell _ _ _))
  have hlast : last.Inv := by
    refine ((hi.newBinding method.frame thisName (.object id cls) hc).alike alike).tellOpening
      (w.lt_size_newBinding _ _ _) hi rfl (Nat.le_refl _) ?_ (fun _ _ h => nomatch h) fun _ _ h => nomatch h
    intro _ _ h
    cases h
    exact ⟨id, cls, w.fixes_newBinding _ _ _⟩
  have hthis : last.Binds w.frames.size thisName :=
    congrArg Option.isSome (w.bindingAt?_newBinding method.frame thisName (.object id cls))
  unfold Safe Meets
  rw [result]
  refine ⟨hlast, toLast.mono fun _ _ h => h.elim, ?_, rfl⟩
  obtain ⟨text, layers, hs, hp, hstack⟩ := hm
  refine ⟨text, .receiver method.declaration :: layers, hs.mono toLast.visits, hp, ?_⟩
  refine .inside ⟨_, List.mem_cons_self .., rfl⟩ (w.enclosing_newBinding _ _ _) (toLast.stack hstack) ?_
  intro name hn
  rw [Layer.receiver, Table.find?_insert] at hn
  split at hn
  · next h => exact h ▸ hthis
  · cases hn

/-- The frame for the methods of a subclass binds `super` to the class that was named just before. -/
theorem openSuper (hi : w.Inv) (ho : inner.observer = .recorder) {declaration : Stmt} (enclosing : FrameId)
    {parent : ClassObject} (hp : w.GoodClass parent)
    (hc : ∃ clause rest, w.2 = clause :: rest ∧ clause.NamesSuperclass declaration parent) :
    Safe changing w (inner.openClass declaration enclosing (some parent)) fun f w' =>
      w'.IsNew (.superclass declaration) enclosing f ∧ w'.Binds f superName := by
  let bound := w.newBinding enclosing superName (.classObject parent)
  let last := bound.tell (.opening (.superclass declaration) w.frames.size)
  have result : inner.openClass declaration enclosing (some parent) w = .ok w.frames.size last := by
    obtain ⟨fuel, observer, evaluate, execute⟩ := inner
    cases ho
    rfl
  have lt := w.lt_size_newBinding enclosing superName (.classObject parent)
  unfold Safe Meets
  rw [result]
  refine ⟨?_, ?_, ⟨⟨_, List.mem_cons_self .., rfl⟩, w.enclosing_newBinding _ _ _, lt⟩, ?_⟩
  · refine (hi.newBinding enclosing superName (.classObject parent) hp).tellOpening lt hi rfl (Nat.le_refl _)
      (fun _ _ h => nomatch h) ?_ fun _ _ h => nomatch h
    intro _ _ h
    cases h
    obtain ⟨clause, rest, hv, hnames⟩ := hc
    exact ⟨clause, rest, parent, hv, hnames, w.fixes_newBinding _ _ _⟩
  · exact ((w.grows_newBinding _ _ _).trans (grows_tell _ _ _)).mono fun _ _ h => h.elim
  · exact congrArg Option.isSome (w.bindingAt?_newBinding enclosing superName (.classObject parent))

variable {R : α → World → Prop}

theorem lift {x : Eval α} (h : Meets x w.1
      (fun a m => World.Inv (m, w.2) ∧ w.Grows (m, w.2) changing ∧ R a (m, w.2))
      (fun h m => World.Inv (m, w.2) ∧ w.Grows (m, w.2) changing ∧
        (h.redeclares = true → changing globalFrame))) : Safe changing w (liftM x) R :=
  Watched.meets_unseen h

/-- A step that has no part in frames. -/
theorem apart (hi : w.Inv) {x : Eval α} {Q : α → Prop} (hx : x.Apart Q) :
    Safe changing w (liftM x) fun a _ => Q a := by
  refine lift (Meets.mono (hx w.1) ?_ fun _ _ never => never.elim)
  rintro a m ⟨⟨ha, hc⟩, hq⟩
  exact ⟨hi.alike ha, Grows.mono ⟨w.extends_alike ha, hc⟩ fun _ _ h => h.elim, hq⟩

/-- Native functions and operators store and yield good values only. -/
theorem carries (hi : w.Inv) {x : Eval Value} (hx : Builtin.Carries w.Good x) :
    Safe changing w (liftM x) fun v w' => w'.Good v := by
  have kept {m : Machine} (hm : w.1.SameButData m) (hs : Builtin.Stored w.Good m) :
      World.Inv (m, w.2) ∧ w.Grows (m, w.2) changing := by
    have hframes : m.store.frames = w.frames := by rw [hm]; rfl
    have hinstances : m.store.instances = w.1.store.instances := by rw [hm]
    have hnext : m.nextNode = w.1.nextNode := by rw [hm]
    have hdistances : m.distances = w.1.distances := by rw [hm]
    have hcontext : m.context = w.1.context := by rw [hm]
    have hg : w.Grows (m, w.2) noFrame :=
      ⟨w.extends_of_frames hframes (Nat.le_of_eq hnext.symm) fun id _ => by rw [hdistances], hcontext⟩
    refine ⟨hi.sameFrames hg.toExtends hframes hinstances ?_ ?_, hg.mono fun _ _ h => h.elim⟩
    · exact fun elements he v hv => .inl (hg.good (hs elements he v hv))
    · intro id hid
      rw [hnext] at hid
      rw [hdistances]
      exact hi.unused id hid
  refine lift (Meets.mono (hx w.1 hi.values.elements) ?_ ?_)
  · rintro v m ⟨hm, hs, hv⟩
    exact ⟨(kept hm hs).1, (kept hm hs).2, (kept hm hs).2.good hv⟩
  · rintro e m ⟨ordinary, hm, hs⟩
    exact ⟨(kept hm hs).1, (kept hm hs).2, ordinary.elim⟩

theorem bindName (hi : w.Inv) (frame : FrameId) (name : String) (value : Value) (constant : Bool)
    (hv : (w.bind frame name value constant).Good value) :
    Safe (· = frame) w (liftM (Eval.modifyStore (·.updateFrames (·.bind frame name value constant))))
      fun _ w' => w' = w.bind frame name value constant :=
  lift ⟨hi.bind frame name value constant hv, w.grows_bind frame name value constant, rfl⟩

/-- A name that is not bound in the frame yet is bound. Only in the global frame it may be bound already. -/
theorem define (hi : w.Inv) {frame : FrameId} {name : Name} {value : Value} (constant : Bool)
    (hn : frame ≠ globalFrame → ¬w.Binds frame name.text)
    (hv : (w.bind frame name.text value constant).Good value) :
    Safe (· = frame) w (liftM (Eval.define frame name value constant)) fun _ w' =>
      w' = w.bind frame name.text value constant := by
  unfold Eval.define
  rw [Watched.unseen_bind]
  refine bindReads hi .getStore ?_
  rintro _ rfl
  rw [Watched.unseen_bind]
  rw [Frames.defineError?]
  split
  · next hb =>
    have current : frame = globalFrame := not_ne_iff.1 fun hne => hn hne hb
    exact ⟨hi, .refl w _, fun _ => current.symm⟩
  · exact bindName hi frame name.text value constant hv

/-- The parameters are bound and no other names. -/
theorem defineAll (hi : w.Inv) {frame : FrameId} (hf : frame < w.frames.size) {params : List Name}
    {args : List Value} (hlen : params.length = args.length) (hv : ∀ v ∈ args, w.Good v) (names : Scope)
    (hn : ∀ name, w.Binds frame name ↔ names.find? name = some true)
    (hu : ∀ p ∈ params, ¬w.Binds frame p.text) (hd : (params.map Name.text).Nodup) :
    Safe (· = frame) w (liftM (Eval.defineAll frame params args)) fun _ w' =>
      ∀ name, w'.Binds frame name ↔
        (params.foldl (fun names p => names.insert p.text true) names).find? name = some true := by
  induction params generalizing w args names with
  | nil => exact .pure hi hn
  | cons p params ih =>
    obtain _ | ⟨v, args⟩ := args
    · cases hlen
    have good := fun u hu => (w.grows_bind frame p.text v false).good (hv u hu)
    unfold Eval.defineAll
    rw [Watched.unseen_bind]
    have unbound := hu p (List.mem_cons_self ..)
    refine .bind (define hi false (fun _ => unbound) (good v (List.mem_cons_self ..))) ?_
    rintro _ _ hi' - rfl
    obtain ⟨other, distinct⟩ := List.nodup_cons.1 hd
    refine ih hi' ?_ (Nat.succ.inj hlen) (fun u hu => good u (List.mem_cons_of_mem _ hu)) _ (fun name => ?_)
      (fun q hq hb => ?_) distinct
    · rwa [size_bind]
    · rw [binds_bind _ _ _ _ hf, hn, Table.find?_insert]
      by_cases heq : p.text = name <;> simp [heq]
    · rcases (binds_bind _ _ _ _ hf).1 hb with hb | ⟨-, heq⟩
      · exact hu q (List.mem_cons_of_mem _ hq) hb
      · exact other (heq ▸ List.mem_map_of_mem hq)

/-- A value is stored in a frame that was found for it. -/
theorem store (hi : w.Inv) {frame : Eval FrameId} {Q : FrameId → Prop} (hf : Eval.Reads w.1 frame Q)
    (name : String) {value : Value} (hv : w.Good value) :
    Safe changing w
      (liftM (do
        let target ← frame
        Eval.modifyStore (·.updateFrames (·.store target name value)) : Eval Unit))
      fun _ _ => True := by
  apply lift
  refine Meets.bind (Meets.mono hf (fun _ _ h => h) ?_) ?_
  · rintro e m ⟨ordinary, rfl⟩
    exact ⟨hi, .refl w _, ordinary.elim⟩
  · rintro target m ⟨rfl, -⟩
    exact ⟨hi.assign target name value hv, (w.grows_assign target name value).mono fun _ _ h => h.elim, trivial⟩

theorem assignFrom (hi : w.Inv) (frame : FrameId) (name : Name) {value : Value} (hv : w.Good value) :
    Safe changing w (liftM (Eval.assignFrom frame name value)) fun _ _ => True := by
  refine store hi (Q := fun _ => True) ?_ name.text hv
  exact .bind .getStore fun _ _ => .liftBinding _ (fun _ => Frames.ordinary_of_assignTarget) fun _ _ => trivial

theorem assignName (hi : w.Inv) (target : Variable) {value : Value} (hv : w.Good value) :
    Safe changing w (liftM (Eval.assignName target value)) fun _ _ => True := by
  refine store hi (Q := fun _ => True) ?_ target.name.text hv
  refine .bind .getMachine fun m _ => ?_
  dsimp only
  split
  · exact .liftBinding _ (fun _ => Frames.ordinary_of_assignTargetAt) fun _ _ => trivial
  · exact .liftBinding _ (fun _ => Frames.ordinary_of_assignTarget) fun _ _ => trivial

theorem setField (hi : w.Inv) (id : InstanceId) (name : String) {value : Value} (hv : w.Good value) :
    Safe changing w (liftM (Eval.modifyStore (·.setField id name value))) fun _ _ => True :=
  lift ⟨hi.setField id name hv, (w.grows_setField id name value).mono fun _ _ h => h.elim, trivial⟩

theorem newInstance (hi : w.Inv) :
    Safe changing w (liftM (Eval.withStore Store.newInstance)) fun _ _ => True :=
  lift ⟨hi.newInstance, w.grows_newInstance.mono fun _ _ h => h.elim, trivial⟩

/-- Declarations that are taken from a file can be started. -/
theorem readDeclarations (hi : w.Inv) (line : Nat) (path text : String) :
    Safe changing w (liftM (Eval.readDeclarations line path text)) fun declarations w' =>
      w'.Prepared declarations := by
  let program := (w.1.load false text).1
  let declarations := program.statements.filter Stmt.isDeclaration
  let loaded := (w.1.load false text).2
  let analysed := loaded.analyse declarations
  obtain ⟨takes, distances⟩ := w.1.load_takes false text
  have hload := hi.takes takes fun id _ => by rw [distances]
  obtain ⟨hanalyse, hresolved⟩ := hi.analyse (takes.filter Stmt.isDeclaration) distances
  have anyFrame {m : Machine} (h : World.Inv (m, w.2) ∧ w.Grows (m, w.2) noFrame) :
      World.Inv (m, w.2) ∧ w.Grows (m, w.2) changing := ⟨h.1, h.2.mono fun _ _ h => h.elim⟩
  have stopped {m : Machine} (h : World.Inv (m, w.2) ∧ w.Grows (m, w.2) noFrame) :
      World.Inv (m, w.2) ∧ w.Grows (m, w.2) changing ∧
        ((Halt.fault line (.importBroken path)).redeclares = true → changing globalFrame) :=
    ⟨(anyFrame h).1, (anyFrame h).2, nofun⟩
  apply lift
  refine Meets.bind (Q := fun p m => p = program ∧ m = loaded) ⟨rfl, rfl⟩ ?_
  rintro _ _ ⟨rfl, rfl⟩
  refine Eval.meets_guard (fun _ => stopped hload) fun _ => ?_
  refine Meets.bind (Q := fun sound m => sound = analysed.1 ∧ m = analysed.2) ⟨rfl, rfl⟩ ?_
  rintro _ _ ⟨rfl, rfl⟩
  by_cases hsound : analysed.1 = true
  · refine Eval.meets_guard (fun _ => stopped hanalyse) fun _ => ?_
    exact ⟨(anyFrame hanalyse).1, (anyFrame hanalyse).2, hresolved hsound⟩
  · have refused : (!analysed.1) = true := by simpa using hsound
    rw [if_pos refused]
    exact stopped hanalyse

/-! ### The observer and the context -/

theorem tell (ho : inner.observer = .recorder) {event : Event} (h : (w.tell event).Inv) :
    Safe changing w (inner.tell event) fun _ w' => w' = w.tell event := by
  have result : inner.tell event w = .ok () (w.tell event) := by
    obtain ⟨fuel, observer, evaluate, execute⟩ := inner
    cases ho
    rfl
  unfold Safe Meets
  rw [result]
  exact ⟨h, w.grows_tell event changing, rfl⟩

/-- Whatever happens in another context, the context is put back. -/
theorem inContext (ho : inner.observer = .recorder) {change : Context → Context}
    {x : Watched (List Visit) α} {R' : α → World → Prop} (hx : Safe changing (w.enter change) x R)
    (hr : ∀ a w', w'.Inv → (w.enter change).Grows w' changing → R a w' → R' a (w'.leave w.1.context)) :
    Safe changing w (inner.inContext change x) R' := by
  have back {w' : World} (hg : (w.enter change).Grows w' changing) :
      w.Grows (w'.leave w.1.context) changing :=
    ⟨((w.extends_enter change).mono fun _ _ h => h.elim).trans
      (hg.toExtends.trans ((w'.extends_leave _).mono fun _ _ h => h.elim)), rfl⟩
  unfold Inner.inContext
  rw [ho]
  refine Watched.meets_inContext (Meets.mono hx ?_ ?_)
  · rintro a w' ⟨hi, hg, hr'⟩
    exact ⟨hi.leave _, back hg, hr a w' hi hg hr'⟩
  · rintro e w' ⟨hi, hg, hglobal⟩
    exact ⟨hi.leave _, back hg, hglobal⟩

end Safe

end Scriptlet
