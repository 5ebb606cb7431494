import Scriptlet.Proofs.JoinedTexts
import Scriptlet.Proofs.LikePlaces
import Scriptlet.Proofs.LikeRuns
import Scriptlet.Proofs.NamesInScope

/-!
# Running joined texts

The run of two texts with a line break between them is the run of the first text and then of the second one, moved
down behind the first. The nodes have other identities, but corresponding nodes have the same distances, and
nothing else depends on identities.
-/
namespace Scriptlet

open World

/-! ## Machines that have taken up a text -/

namespace Machine

/-- The machine after it has taken up a text. -/
def takeUp (m : Machine) (inComment : Bool) (text : String) : Machine :=
  ((m.load inComment text).2.analyse (m.load inComment text).1.statements).2

/-- Nodes were given out and their distances were recorded; all else is as before. -/
structure Renumbered (m n : Machine) : Prop where
  same : n = { m with nextNode := n.nextNode, distances := n.distances }
  nextNode : m.nextNode ≤ n.nextNode
  distances : ∀ id < m.nextNode, n.distances[id]? = m.distances[id]?
  unused (id : NodeId) : n.nextNode ≤ id → n.distances[id]? = none

theorem Renumbered.refl {w : World} (hi : w.Inv) : w.1.Renumbered w.1 :=
  ⟨rfl, Nat.le_refl _, fun _ _ => rfl, hi.unused⟩

variable {m : Machine} {c : Bool} {text : String} {older : List Visit}

/-- An accepted text can be started, and no more has happened. -/
theorem Accepts.prepared (h : m.Accepts c text) (hi : World.Inv (m, older)) :
    World.Inv (m.takeUp c text, older) ∧ m.Renumbered (m.takeUp c text) ∧
      World.Prepared (m.takeUp c text, older) (m.load c text).1.statements := by
  obtain ⟨takes, distances⟩ := m.load_takes c text
  obtain ⟨⟨inv, grows⟩, prepared⟩ := hi.analyse takes distances
  refine ⟨inv, ⟨?_, grows.nextNode, grows.distances, inv.unused⟩, prepared h.analysed⟩
  have loaded := load_of_sound h.sound
  have analysed : m.takeUp c text = { (m.load c text).2 with distances := (m.takeUp c text).distances } :=
    analyse_of_sound h.analysed
  rw [loaded] at analysed
  rw [analysed]

end Machine

/-- Nodes that the machines have given out correspond if they have the same distance. -/
def Pairing.between (n n' : Machine) : Pairing :=
  ⟨n.nextNode, n'.nextNode, fun id id' => n'.distances[id']? = n.distances[id]?, 0⟩

/-- Machines that are alike and take up texts go on with a pairing by distances. -/
theorem Machine.Like.renumber {w w' : World} (hi : w.Inv) (hi' : w'.Inv) {p : Pairing} (h : w.1.Like p w'.1)
    (hp : p.shift = 0) {n n' : Machine} (hn : w.1.Renumbered n) (hn' : w'.1.Renumbered n') :
    n.Like (.between n n') n' := by
  have renews : w.Renews w' p (.between n n') := by
    refine ⟨hi, hi', ?_, ?_⟩
    · intro l l' hl
      unfold Pairing.Line at *
      rwa [hp] at hl
    · intro id id' hid hid' hnode
      refine .inl ⟨Nat.lt_of_lt_of_le hid hn.nextNode, Nat.lt_of_lt_of_le hid' hn'.nextNode, ?_⟩
      change n'.distances[id']? = n.distances[id]?
      rw [hn'.distances id' hid', hn.distances id hid]
      exact h.distances hnode
  have stores := renews.store h.store
  constructor
  · rw [hn.same, hn'.same]
    exact h.settings
  · rw [hn.same, hn'.same]
    exact h.context
  · rw [hn.same, hn'.same]
    exact stores
  · rintro id id' (⟨-, -, hold⟩ | ⟨i, rfl, rfl⟩)
    · exact hold
    · exact (hn'.unused _ (Nat.le_add_right _ i)).trans (hn.unused _ (Nat.le_add_right _ i)).symm
  · exact ⟨0, rfl, rfl⟩
  · rw [hn.same, hn'.same]
    exact h.imported
  · rw [hn.same, hn'.same]
    exact h.output
  · rw [hn.same, hn'.same]
    exact h.reporter
  · rw [hn.same, hn'.same]
    exact h.files
  · rw [hn.same, hn'.same]
    exact h.clock

/-! ## Runs of joined statements -/

theorem watchAll_append {ν : Type} (o : Observer ν) (fuel : Nat) (ss ss' : List Stmt) :
    watchAll o fuel (ss ++ ss') = (do watchAll o fuel ss; watchAll o fuel ss') := by
  induction ss with
  | nil => rfl
  | cons s ss ih =>
    rw [List.cons_append, watchAll, ih, watchAll, bind_assoc]

theorem interpret_eq (fuel : Nat) (ss : List Stmt) (m : Machine) :
    interpret fuel ss m = Watched.outcome (watchAll .silent fuel ss (m, ())) := by
  rw [interpret, Watched.unwatched_eq]
  rfl

theorem watchAll_of_interpret {fuel : Nat} {ss : List Stmt} {m n : Machine} (h : interpret fuel ss m = .ok () n) :
    watchAll .silent fuel ss (m, ()) = .ok () (n, ()) := by
  rw [interpret_eq] at h
  generalize watchAll .silent fuel ss (m, ()) = r at h
  cases r with
  | ok a w => cases h; rfl
  | error e w => cases h

theorem Coupling.Ends.outcome {α β : Type} {p : Pairing} {R : α → β → Prop}
    {r : EStateM.Result Halt (Machine × Unit) α} {r' : EStateM.Result Halt (Machine × Unit) β}
    (h : p.worlds.Ends R r r') : p.machines.Ends R (Watched.outcome r) (Watched.outcome r') := by
  cases h with
  | ok ha hm => exact .ok ha hm
  | error he => exact .error he

/-- Outside of all regions a row of statements may begin with any of them. -/
theorem Placed.behind {text front back : List Stmt} (h : Placed text [] (.statements (front ++ back))) :
    Placed text [] (.statements back) := by
  have outermost (s : Stmt) : Layers.after s [] = [] := by
    unfold Layers.after
    cases s.declared? <;> rfl
  induction front with
  | nil => exact h
  | cons s front ih =>
    have rest := h.rest
    rw [outermost] at rest
    exact ih rest

/-- After the first statements of a text that was started, everything is in scope. -/
theorem World.Inv.front {m n : Machine} {older : List Visit} {text front back : List Stmt} {fuel : Nat}
    (hi : World.Inv (m, older)) (hf : m.context.frame = globalFrame) (hr : World.Prepared (m, older) text)
    (ht : text = front ++ back) (h : watchAll .silent fuel front (m, ()) = .ok () (n, ())) :
    ∃ visits, World.Inv (n, visits) ∧ Started text visits := by
  let w := World.tell (m, older) (.starting text)
  have ready : w.Ready text [] :=
    ⟨hi.tellStarting hr, at_global hf, _, List.mem_cons_self .., rfl⟩
  have placed : Placed text [] (.statements (front ++ back)) := ht ▸ .whole
  have safe := watchAll_safe fuel ready placed
  have agree := (Watched.Agree.respects .silent .recorder).watchAll fuel front m () w.2
  rw [h] at agree
  unfold Safe Meets at safe
  cases hrun : watchAll .recorder fuel front w with
  | ok a w' =>
    have seen : Watched.outcome (watchAll .recorder fuel front w) = .ok () n := agree.symm
    rw [hrun] at safe seen
    obtain ⟨inv, grows, -⟩ := safe
    cases seen
    exact ⟨w'.2, inv, ready.started.mono grows.visits⟩
  | error e w' =>
    have seen : Watched.outcome (watchAll .recorder fuel front w) = .ok () n := agree.symm
    rw [hrun] at seen
    cases seen

/-- Like statements of two texts that were analysed are run alike. -/
theorem watchAll_between {n n' : Machine} {text text' : List Stmt} (h : n.Like (.between n n') n')
    (ht : Resolved n.nextNode n.distances text) (ht' : Resolved n'.nextNode n'.distances text')
    {ss ss' more more' : List Stmt} (hs : List.Forall₂ (Stmt.Like .lines) ss ss')
    (hp : Placed text [] (.statements (ss ++ more))) (hp' : Placed text' [] (.statements (ss' ++ more')))
    (fuel : Nat) :
    (Pairing.between n n').worlds.Ends (fun _ _ => True) (watchAll .silent fuel ss (n, ()))
      (watchAll .silent fuel ss' (n', ())) :=
  watchAll_twins .silent fuel (ht.like ht' (Nat.le_refl _) (Nat.le_refl _) (fun h => h) hs hp hp') _ _ h

theorem Placed.whole_append (text : List Stmt) : Placed text [] (.statements (text ++ [])) := by
  rw [List.append_nil]
  exact .whole

section Joined

variable {m n : Machine} {older : List Visit} {c : Bool} {first second : String} {fuel : Nat}

/-- The run of joined texts goes on behind the first one like the run of the second one in its place. -/
theorem interpret_joined (hi : World.Inv (m, older)) (hf : m.context.frame = globalFrame) (h : m.Accepts c first)
    (hc : (m.load c first).1.inComment = false)
    (hrun : interpret fuel (m.load c first).1.statements (m.takeUp c first) = .ok () n)
    (h' : n.Accepts false (Scan.blankLines (Scan.lineBreaks first + 1) ++ second)) :
    ∃ p : Pairing, p.shift = 0 ∧ p.machines.Ends (fun _ _ => True)
      (interpret fuel (m.load c (first ++ "\n" ++ second)).1.statements (m.takeUp c (first ++ "\n" ++ second)))
      (interpret fuel (n.load false (Scan.blankLines (Scan.lineBreaks first + 1) ++ second)).1.statements
        (n.takeUp false (Scan.blankLines (Scan.lineBreaks first + 1) ++ second))) := by
  obtain ⟨-, statements⟩ := Machine.parse_joined h hc h'
  obtain ⟨inv, renumbered, prepared⟩ := (h.joined hc h').prepared hi
  obtain ⟨inv₁, renumbered₁, prepared₁⟩ := h.prepared hi
  generalize (m.load c (first ++ "\n" ++ second)).1.statements = whole at *
  generalize m.takeUp c (first ++ "\n" ++ second) = j at *
  generalize Scan.blankLines (Scan.lineBreaks first + 1) ++ second = moved at *
  generalize (m.load c first).1.statements = ss at *
  generalize m.takeUp c first = m₁ at *
  have front := List.forall₂_take_append _ _ _ statements
  have back := List.forall₂_drop_append _ _ _ statements
  have split := (List.take_append_drop ss.length whole).symm
  generalize whole.take ss.length = fs at *
  generalize whole.drop ss.length = bs at *
  subst split
  -- the first statements
  have begun : j.Like (.between j m₁) m₁ := .renumber hi hi (m.like_same 0) rfl renumbered renumbered₁
  have runs := watchAll_of_interpret hrun
  have ends := watchAll_between begun prepared.resolved prepared₁.resolved front .whole (.whole_append ss) fuel
  rw [runs] at ends
  cases hfs : watchAll .silent fuel fs (j, ()) with
  | error e w => rw [hfs] at ends; cases ends
  | ok a w =>
    obtain ⟨k, ⟨⟩⟩ := w
    rw [hfs] at ends
    cases ends with
    | ok _ like =>
    have global : j.context.frame = globalFrame := by rw [renumbered.same]; exact hf
    have global₁ : m₁.context.frame = globalFrame := by rw [renumbered₁.same]; exact hf
    obtain ⟨visits, invK, started⟩ := inv.front global prepared rfl hfs
    obtain ⟨visits', invN, -⟩ := inv₁.front global₁ prepared₁ (List.append_nil ss).symm runs
    -- the others, with the second text taken up
    obtain ⟨-, renumbered₂, prepared₂⟩ := h'.prepared invN
    have goes : k.Like (.between k (n.takeUp false moved)) (n.takeUp false moved) :=
      .renumber invK invN like rfl (.refl invK) renumbered₂
    have behind : Placed (fs ++ bs) [] (.statements (bs ++ [])) := by
      rw [List.append_nil]
      exact Placed.whole.behind
    have rest := watchAll_between goes (invK.texts _ started) prepared₂.resolved back behind (.whole_append _) fuel
    have joined : watchAll .silent fuel (fs ++ bs) (j, ()) = watchAll .silent fuel bs (k, ()) := by
      rw [watchAll_append]
      change EStateM.bind (watchAll .silent fuel fs) (fun _ => watchAll .silent fuel bs) (j, ()) = _
      rw [EStateM.bind, hfs]
    refine ⟨.between k (n.takeUp false moved), rfl, ?_⟩
    rw [interpret_eq, joined, interpret_eq]
    exact rest.outcome

end Joined

/-! ## Reports with moved lines -/

namespace Diagnostic

/-- The diagnostic with its line moved down. -/
def down (k : Nat) (d : Diagnostic) : Diagnostic := { d with line := d.line + k }

theorem Like.eq {p : Pairing} {d d' : Diagnostic} (h : d.Like p d') : d' = { d with line := d'.line } := by
  obtain ⟨_, _, _⟩ := d
  cases h.problem
  cases h.location
  rfl

theorem Like.cases {k : Nat} {d d' : Diagnostic} (h : d.Like (.same k) d') : d' = d ∨ d' = d.down k := by
  rcases h.line with hl | hl
  · exact .inl (h.eq.trans (by rw [hl]))
  · exact .inr (h.eq.trans (by rw [hl]; rfl))

theorem Like.eq_of_still {p : Pairing} (hp : p.shift = 0) {d d' : Diagnostic} (h : d.Like p d') : d' = d := by
  have line := h.line
  unfold Pairing.Line at line
  rw [hp, Nat.add_zero, or_self] at line
  exact h.eq.trans (by rw [line])

/-- The diagnostics with the lines of some of them moved down. -/
def move (k : Nat) (own : List Bool) (ds : List Diagnostic) : List Diagnostic :=
  List.zipWith (fun own d => if own then d.down k else d) own ds

/-- The lines that are different. -/
def differing (ds ds' : List Diagnostic) : List Bool := List.zipWith (fun d d' => d'.line != d.line) ds ds'

/-- A line that moves with a text moves always. -/
theorem move_differing {k : Nat} {ds ds₁ ds' : List Diagnostic} (h : List.Forall₂ (Like (.same 1)) ds ds₁)
    (hk : List.Forall₂ (Like (.same (k + 1))) ds ds') (hb : List.Forall₂ (Like (.same k)) ds₁ ds') :
    ds' = move (k + 1) (differing ds ds₁) ds := by
  induction h generalizing ds' with
  | nil =>
    cases hk
    rfl
  | @cons d d₁ ds ds₁ hd _ ih =>
    cases hk with
    | @cons _ d' _ ds' hdk hk =>
    cases hb with
    | cons hdb hb =>
    have head : d' = if d₁.line != d.line then d.down (k + 1) else d := by
      have moved (j : Nat) (e : Diagnostic) : (e.down j).line = e.line + j := rfl
      rcases hd.cases with rfl | rfl
      · rw [if_neg (by simp)]
        rcases hdk.cases with rfl | rfl
        · rfl
        · rcases hdb.cases with h | h
          · have := congrArg Diagnostic.line h
            simp [moved] at this
          · have := congrArg Diagnostic.line h
            simp [moved] at this
      · rw [if_pos (by simp [moved])]
        rcases hdk.cases with rfl | rfl
        · rcases hdb.cases with h | h
          · have := congrArg Diagnostic.line h
            simp [moved] at this
          · have := congrArg Diagnostic.line h
            simp only [moved] at this
            omega
        · rfl
    exact congrArg₂ List.cons head (ih hk hb)

theorem move_zero {own : List Bool} {ds : List Diagnostic} (h : own.length = ds.length) : move 0 own ds = ds := by
  induction ds generalizing own with
  | nil => cases own <;> rfl
  | cons d ds ih =>
    cases own with
    | nil => cases h
    | cons b own =>
      have still : (if b then d.down 0 else d) = d := ite_self d
      exact congrArg₂ List.cons still (ih (Nat.succ.inj h))

/-- Of diagnostics for a text at any line, some belong to the text and move along with it, and the others stay. -/
theorem exists_move {shown : Nat → List Diagnostic}
    (h : ∀ j k, List.Forall₂ (Like (.same k)) (shown j) (shown (j + k))) :
    ∃ own, ∀ k, shown k = move k own (shown 0) := by
  refine ⟨differing (shown 0) (shown 1), fun k => ?_⟩
  cases k with
  | zero =>
    rw [move_zero]
    rw [differing, List.length_zipWith, (h 0 1).length_eq, Nat.min_self]
  | succ k =>
    have behind := h 1 k
    rw [Nat.add_comm] at behind
    have front := h 0 (k + 1)
    rw [Nat.zero_add] at front
    exact move_differing (h 0 1) front behind

end Diagnostic

namespace Machine

variable {p : Pairing} {m m' : Machine}

/-- What was reported with no line moved is the same. -/
theorem Stopped.same (h : m.Stopped p m') (hp : p.shift = 0) : m'.reporter = m.reporter ∧ m'.files = m.files := by
  obtain ⟨-, base, ds, ds', r⟩ := h
  have equal : ds' = ds := by
    have pairs := r.diagnostics.imp fun _ _ h => (h.eq_of_still hp).symm
    exact (List.forall₂_eq_eq_eq ▸ pairs : ds = ds').symm
  rw [r.reporter', r.files', r.reporter, r.files, equal]
  exact ⟨rfl, rfl⟩

theorem Stopped.sink (h : m.Stopped p m') : m'.reporter.sink = m.reporter.sink := by
  obtain ⟨-, base, ds, ds', r⟩ := h
  rw [r.reporter, r.reporter', (base.reportAll_same ds).sink, (base.reportAll_same ds').sink]

/-- Collected diagnostics correspond one by one. -/
theorem Stopped.diagnostics (h : m.Stopped p m') (hs : m.reporter.sink = .collected) :
    List.Forall₂ (Diagnostic.Like p) m.reporter.diagnostics m'.reporter.diagnostics := by
  obtain ⟨-, base, ds, ds', r⟩ := h
  have collected : base.reporter.sink = .collected := by
    rw [← (base.reportAll_same ds).sink, ← r.reporter]
    exact hs
  rw [r.reporter, r.reporter', reportAll_collected collected, reportAll_collected collected]
  apply List.rel_append _ r.diagnostics
  exact List.forall₂_same.2 fun d _ => ⟨.inl rfl, rfl, rfl⟩

end Machine

/-! ## Sessions -/

theorem Scan.blankLines_add (j k : Nat) (text : String) :
    blankLines (j + k) ++ text = blankLines k ++ (blankLines j ++ text) := by
  rw [← String.append_assoc, Nat.add_comm]
  unfold blankLines
  rw [List.replicate_add, String.ofList_append]

namespace Session

/-- The text is accepted and its statements run to their end, so that nothing is reported. -/
def runsClean (fuel : Nat) (text : String) (s : Session) : Bool :=
  match prepareText text s with
  | .ok (some statements) s' =>
    match interpret fuel statements s'.machine with
    | .ok .. => true
    | .error .. => false
  | _ => false

theorem Reachable.inScope {s : Session} (h : Reachable s) : ∃ older, InScope s older := by
  induction h with
  | initial settings sink files clock => exact ⟨[], initial_inScope settings sink files clock⟩
  | run fuel item _ ih =>
    obtain ⟨older, hs⟩ := ih
    exact ⟨_, hs.runItem fuel item⟩
  | outside settings output reporter files clock hadError hadFault _ ih =>
    obtain ⟨older, hs⟩ := ih
    exact ⟨older, hs.inv.alike ⟨rfl, rfl, rfl, rfl, rfl⟩, hs.frame⟩

theorem runText_of_accepts {s : Session} {text : String} (h : s.machine.Accepts s.inComment text) (fuel : Nat) :
    prepareText text s = .ok (some (s.machine.load s.inComment text).1.statements)
      ⟨s.machine.takeUp s.inComment text, s.hadError, s.hadFault, (s.machine.load s.inComment text).1.inComment⟩ ∧
    runText fuel text s = runStatements fuel (s.machine.load s.inComment text).1.statements
      ⟨s.machine.takeUp s.inComment text, s.hadError, s.hadFault, (s.machine.load s.inComment text).1.inComment⟩ := by
  rcases prepareText_cases text s with ⟨broken, -⟩ | ⟨-, broken, -⟩ | ⟨-, -, result⟩
  · cases h.sound.symm.trans broken
  · cases h.analysed.symm.trans broken
  · exact ⟨result, runText_eq result⟩

/-- What a run without reports leaves. -/
theorem of_runsClean {s : Session} {fuel : Nat} {text : String} (h : s.runsClean fuel text = true) :
    s.machine.Accepts s.inComment text ∧ ∃ n,
      interpret fuel (s.machine.load s.inComment text).1.statements (s.machine.takeUp s.inComment text) = .ok () n ∧
      runText fuel text s = .ok () ⟨n, s.hadError, s.hadFault, (s.machine.load s.inComment text).1.inComment⟩ := by
  have accepts : s.machine.Accepts s.inComment text := by
    rcases prepareText_cases text s with ⟨-, result⟩ | ⟨-, -, result⟩ | ⟨sound, analysed, -⟩
    · rw [runsClean, result] at h
      cases h
    · rw [runsClean, result] at h
      cases h
    · exact ⟨sound, analysed⟩
  obtain ⟨prepared, run⟩ := runText_of_accepts accepts fuel
  refine ⟨accepts, ?_⟩
  rw [runsClean, prepared] at h
  rw [run, runStatements]
  dsimp only at h ⊢
  cases hi : interpret fuel (s.machine.load s.inComment text).1.statements (s.machine.takeUp s.inComment text) with
  | ok a n => exact ⟨n, rfl, rfl⟩
  | error e n =>
    rw [hi] at h
    cases h

/-- Why a run of a session had to stop, if it had. -/
def stop? {α : Type} : EStateM.Result Stop Session α → Option Stop
  | .ok .. => none
  | .error stop _ => some stop

/-- Two runs of a session end in the same way, with the same output and the same flags. Their reports differ at
most in the lines, which the pairing tells. -/
structure EndAlike (p : Pairing) (r r' : EStateM.Result Stop Session Unit) : Prop where
  stop : stop? r' = stop? r
  hadError : (final r').hadError = (final r).hadError
  hadFault : (final r').hadFault = (final r).hadFault
  inComment : (final r').inComment = (final r).inComment
  machine : (final r).machine.Stopped p (final r').machine

variable {p : Pairing} {s s' : Session}

theorem EndAlike.runStatements {fuel : Nat} {ss ss' : List Stmt}
    (h : p.machines.Ends (fun _ _ => True) (interpret fuel ss s.machine) (interpret fuel ss' s'.machine))
    (he : s'.hadError = s.hadError) (hf : s'.hadFault = s.hadFault) (hc : s'.inComment = s.inComment) :
    EndAlike p (Session.runStatements fuel ss s) (Session.runStatements fuel ss' s') := by
  unfold Session.runStatements
  obtain ⟨a, a', m, m', hr, hr', -, hm⟩ | ⟨e, e', m, m', hr, hr', hhalt, hm⟩ := h.cases
  · rw [hr, hr']
    exact ⟨rfl, he, hf, hc, hm.stopped⟩
  · rw [hr, hr']
    cases hhalt with
    | fault f hl => exact ⟨rfl, he, rfl, hc, hm.report ⟨hl, rfl, rfl⟩⟩
    | outOfFuel => exact ⟨rfl, he, hf, hc, hm⟩

/-- Like texts that are accepted are run alike. -/
theorem EndAlike.runText {fuel : Nat} {text text' : String} (h : s.machine.Accepts s.inComment text)
    (h' : s'.machine.Accepts s'.inComment text')
    (hi : p.machines.Ends (fun _ _ => True)
      (interpret fuel (s.machine.load s.inComment text).1.statements (s.machine.takeUp s.inComment text))
      (interpret fuel (s'.machine.load s'.inComment text').1.statements (s'.machine.takeUp s'.inComment text')))
    (he : s'.hadError = s.hadError) (hf : s'.hadFault = s.hadFault)
    (hc : (s'.machine.load s'.inComment text').1.inComment = (s.machine.load s.inComment text).1.inComment) :
    EndAlike p (Session.runText fuel text s) (Session.runText fuel text' s') := by
  rw [(runText_of_accepts h fuel).2, (runText_of_accepts h' fuel).2]
  exact .runStatements hi he hf hc

/-- A text further down is run alike. -/
theorem runText_blankLines {m : Machine} {text : String} (h : m.Accepts false text) (hc : s.inComment = false)
    (fuel k : Nat) :
    EndAlike (.same k) (runText fuel text s) (runText fuel (Scan.blankLines k ++ text) s) := by
  have here : s.machine.Accepts s.inComment text := by
    rw [hc]
    exact h.blankLines s.machine 0
  have there : s.machine.Accepts s.inComment (Scan.blankLines k ++ text) := by
    rw [hc]
    exact h.blankLines s.machine k
  have scans : (Scan.ofText s.inComment text).Like (.same k) (Scan.ofText s.inComment (Scan.blankLines k ++ text)) := by
    rw [hc]
    exact Scan.like_blankLines text
  obtain ⟨loaded, statements, comment⟩ := (s.machine.like_same k).load scans
  have taken := ((loaded.like here.sound).analyse statements).like here.analysed
  exact .runText here there (interpret_twins fuel (Stmt.Like.taken statements) _ _ taken) rfl rfl comment

section Joined

variable {m : Machine} {first second : String} {fuel : Nat}

/-- What the run reports with no line moved is the same. -/
theorem EndAlike.of_still {r r' r'' : EStateM.Result Stop Session Unit} {q : Pairing} (h : EndAlike q r r')
    (h' : EndAlike p r'' r') (hp : p.shift = 0) : EndAlike q r r'' := by
  obtain ⟨reporter, files⟩ := h'.machine.same hp
  have output := h'.machine.output
  exact {
    stop := h'.stop.symm.trans h.stop
    hadError := h'.hadError.symm.trans h.hadError
    hadFault := h'.hadFault.symm.trans h.hadFault
    inComment := h'.inComment.symm.trans h.inComment
    machine := h.machine.change rfl rfl rfl output.symm reporter.symm files.symm }

/-- Of the diagnostics for a text behind blank lines, some belong to the text and move along with it. -/
theorem diagnostics_blankLines (h : m.Accepts false second) (hc : s.inComment = false)
    (hs : (final (runText fuel second s)).machine.reporter.sink = .collected) :
    ∃ own, ∀ k, (final (runText fuel (Scan.blankLines k ++ second) s)).machine.reporter.diagnostics =
      Diagnostic.move k own (final (runText fuel second s)).machine.reporter.diagnostics := by
  let shown (k : Nat) := (final (runText fuel (Scan.blankLines k ++ second) s)).machine.reporter.diagnostics
  have along (j k : Nat) : List.Forall₂ (Diagnostic.Like (.same k)) (shown j) (shown (j + k)) := by
    have collected := (runText_blankLines h hc fuel j).machine.sink.trans hs
    have moved := runText_blankLines (h.blankLines m j) hc fuel k
    rw [← Scan.blankLines_add] at moved
    exact moved.machine.diagnostics collected
  obtain ⟨own, moves⟩ := Diagnostic.exists_move along
  have start : Scan.blankLines 0 ++ second = second := String.empty_append
  refine ⟨own, fun k => ?_⟩
  have moved := moves k
  unfold shown at moved
  rwa [start] at moved

/-- Behind a text that runs clean, a run of joined texts goes on as the second text in its place. -/
theorem EndAlike.joined (hs : s.Reachable) (h : s.runsClean fuel first = true)
    (hc : (final (Session.runText fuel first s)).inComment = false) (h' : m.Accepts false second) :
    ∃ q : Pairing, q.shift = 0 ∧ EndAlike q (Session.runText fuel (first ++ "\n" ++ second) s)
      (Session.runText fuel (Scan.blankLines (Scan.lineBreaks first + 1) ++ second)
        (final (Session.runText fuel first s))) := by
  obtain ⟨older, inScope⟩ := hs.inScope
  obtain ⟨accepts, n, ran, run⟩ := of_runsClean h
  rw [run] at hc ⊢
  have comment : (s.machine.load s.inComment first).1.inComment = false := hc
  have there := h'.blankLines n (Scan.lineBreaks first + 1)
  obtain ⟨q, still, ends⟩ := interpret_joined inScope.inv inScope.frame accepts comment ran there
  have here : (final (.ok () ⟨n, s.hadError, s.hadFault, (s.machine.load s.inComment first).1.inComment⟩ :
      EStateM.Result Stop Session Unit)) = ⟨n, s.hadError, s.hadFault, false⟩ := by
    rw [← comment]
    rfl
  rw [here]
  refine ⟨q, still, .runText (accepts.joined comment there) there ends rfl rfl ?_⟩
  have joined := Scan.inComment_joined (Machine.isSound_iff.1 accepts.sound).1 comment second
  exact (Scan.inComment_blankLines _ second).trans joined.symm

/-- Two texts with a line break between them are run as they are run one after the other. The run ends in the same
way, with the same output and flags, and it reports the same problems; lines of the second text are counted from
where it begins in the whole. -/
theorem runText_joined (hs : s.Reachable) (h : s.runsClean fuel first = true)
    (hc : (final (runText fuel first s)).inComment = false) (h' : m.Accepts false second) :
    let whole := runText fuel (first ++ "\n" ++ second) s
    let apart := runText fuel second (final (runText fuel first s))
    let lines := Scan.lineBreaks first + 1
    EndAlike (.same lines) apart whole ∧
      ((final apart).machine.reporter.sink = .collected → ∃ own,
        (∀ k, (final (runText fuel (Scan.blankLines k ++ second)
            (final (runText fuel first s)))).machine.reporter.diagnostics =
          Diagnostic.move k own (final apart).machine.reporter.diagnostics) ∧
        (final whole).machine.reporter.diagnostics =
          Diagnostic.move lines own (final apart).machine.reporter.diagnostics) := by
  intro whole apart lines
  obtain ⟨q, still, joined⟩ := EndAlike.joined hs h hc h'
  have moved := runText_blankLines h' hc fuel lines
  refine ⟨moved.of_still joined still, fun collected => ?_⟩
  obtain ⟨own, moves⟩ := diagnostics_blankLines h' hc collected
  refine ⟨own, moves, ?_⟩
  rw [← moves lines, (joined.machine.same still).1]

/-- A fault of the second text is reported one line further down. -/
theorem runText_joined_fault :
    let first := "fun f(x) { return x + 1; }"
    let second := "print f(1);\nprint y;"
    let whole := runText 30 (first ++ "\n" ++ second) .new
    let apart := runText 30 second (final (runText 30 first .new))
    EndAlike (.same (Scan.lineBreaks first + 1)) apart whole ∧
      (final apart).hadFault = true ∧ (final apart).machine.output = "2\n" ∧
      (final apart).machine.reporter.diagnostics.map Diagnostic.line = [1] ∧
      (final whole).machine.reporter.diagnostics.map Diagnostic.line = [2] := by
  intro first second whole apart
  have accepts : Machine.Accepts Session.new.machine false second := ⟨by decide +kernel, by decide +kernel⟩
  have clean : Session.new.runsClean 30 first = true := by decide +kernel
  have joined := runText_joined (.initial _ _ _ _) clean (by decide +kernel) accepts
  exact ⟨joined.1, by decide +kernel, by decide +kernel, by decide +kernel, by decide +kernel⟩

end Joined

end Session

end Scriptlet
