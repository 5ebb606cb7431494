import Scriptlet.Proofs.Parsed

/-!
# Places of names in a text

The uses of names in a text are listed with the layers around them. Since the nodes of a text have identities
of their own, a node has one place in it.
-/
namespace Scriptlet

open Layers

namespace Stmt

/-- The uses in the expressions of a statement itself, with their layers. -/
def ownPlaces (layers : List Layer) (s : Stmt) : List (List Layer × Use) :=
  s.uses.map fun u => (inside s layers, u)

mutual

/-- All uses in a statement, with their layers. -/
def places (layers : List Layer) : Stmt → List (List Layer × Use)
  | .block body => listPlaces (.block body :: layers) body
  | .ifThen c t => ownPlaces layers (.ifThen c t) ++ places layers t
  | .ifElse c t e => ownPlaces layers (.ifElse c t e) ++ (places layers t ++ places layers e)
  | .whileLoop c body inc => ownPlaces layers (.whileLoop c body inc) ++ places layers body
  | .doWhile body c => ownPlaces layers (.doWhile body c) ++ places layers body
  | .function d => routinePlaces (mark d.name.text true layers) d
  | .classDecl name superclass methods statics =>
    let declaration := .classDecl name superclass methods statics
    let around := ofClass name superclass methods statics layers
    ownPlaces layers declaration ++
      (routinesPlaces (fun d => .receiver d :: around) methods ++
        routinesPlaces (fun _ => .statics declaration :: around) statics)
  | s => ownPlaces layers s

def listPlaces (layers : List Layer) : List Stmt → List (List Layer × Use)
  | [] => []
  | s :: ss => places layers s ++ listPlaces (after s layers) ss

def routinePlaces (layers : List Layer) : FunctionDecl → List (List Layer × Use)
  | ⟨name, params, body⟩ => listPlaces (.routine ⟨name, params, body⟩ :: layers) body

def routinesPlaces (layers : FunctionDecl → List Layer) : List FunctionDecl → List (List Layer × Use)
  | [] => []
  | d :: ds => routinePlaces (layers d) d ++ routinesPlaces layers ds

end

/-- The identities of the uses at some places. -/
def placeIds (ps : List (List Layer × Use)) : List NodeId := ps.map fun p => p.2.id

theorem placeIds_append (ps qs : List (List Layer × Use)) :
    placeIds (ps ++ qs) = placeIds ps ++ placeIds qs := List.map_append

theorem placeIds_ownPlaces (layers : List Layer) (s : Stmt) : placeIds (ownPlaces layers s) = Use.ids s.uses := by
  simp [placeIds, ownPlaces, Use.ids]

mutual

/-- Every node is listed once. -/
theorem placeIds_places (layers : List Layer) (s : Stmt) : (placeIds (places layers s)).Perm s.ids := by
  cases s with
  | block body => exact placeIds_listPlaces _ body
  | ifThen c t =>
    rw [places, placeIds_append, placeIds_ownPlaces]
    exact (placeIds_places layers t).append_left _
  | ifElse c t e =>
    rw [places, placeIds_append, placeIds_append, placeIds_ownPlaces]
    exact ((placeIds_places layers t).append (placeIds_places layers e)).append_left _
  | whileLoop c body inc =>
    have inner := placeIds_places layers body
    rw [places, placeIds_append, placeIds_ownPlaces, uses, Use.ids, List.map_append, List.append_assoc]
    exact (List.perm_append_comm.trans (inner.append_right _)).append_left _
  | doWhile body c =>
    rw [places, placeIds_append, placeIds_ownPlaces]
    exact List.perm_append_comm.trans ((placeIds_places layers body).append_right _)
  | function d => exact placeIds_routinePlaces _ d
  | classDecl name superclass methods statics =>
    rw [places, placeIds_append, placeIds_append, placeIds_ownPlaces]
    exact ((placeIds_routinesPlaces _ methods).append (placeIds_routinesPlaces _ statics)).append_left _
  | _ => exact .of_eq (placeIds_ownPlaces ..)

theorem placeIds_listPlaces (layers : List Layer) (ss : List Stmt) :
    (placeIds (listPlaces layers ss)).Perm (listIds ss) := by
  cases ss with
  | nil => exact .refl _
  | cons s ss =>
    rw [listPlaces, placeIds_append]
    exact (placeIds_places layers s).append (placeIds_listPlaces _ ss)

theorem placeIds_routinePlaces (layers : List Layer) (d : FunctionDecl) :
    (placeIds (routinePlaces layers d)).Perm (routineIds d) := by
  obtain ⟨name, params, body⟩ := d
  exact placeIds_listPlaces _ body

theorem placeIds_routinesPlaces (layers : FunctionDecl → List Layer) (ds : List FunctionDecl) :
    (placeIds (routinesPlaces layers ds)).Perm (routinesIds ds) := by
  cases ds with
  | nil => exact .refl _
  | cons d ds =>
    rw [routinesPlaces, placeIds_append]
    exact (placeIds_routinePlaces _ d).append (placeIds_routinesPlaces layers ds)

end

theorem ownPlaces_subset (layers : List Layer) (s : Stmt) : ownPlaces layers s ⊆ places layers s := by
  cases s with
  | ifThen | ifElse | whileLoop | doWhile | classDecl => exact List.subset_append_left _ _
  | block | function => exact List.nil_subset _
  | _ => exact fun _ h => h

theorem branch_subset (layers : List Layer) {s t : Stmt} (h : t ∈ s.branches) :
    places layers t ⊆ places layers s := by
  intro p hp
  cases s with
  | ifThen | whileLoop | doWhile =>
    cases List.mem_singleton.1 h
    exact List.mem_append_right _ hp
  | ifElse c t' e =>
    apply List.mem_append_right
    rcases List.mem_cons.1 h with rfl | h
    · exact List.mem_append_left _ hp
    · cases List.mem_singleton.1 h
      exact List.mem_append_right _ hp
  | _ => cases h

theorem routinePlaces_eq (layers : List Layer) (d : FunctionDecl) :
    routinePlaces layers d = listPlaces (.routine d :: layers) d.body := by
  obtain ⟨name, params, body⟩ := d
  rfl

theorem routine_subset (layers : FunctionDecl → List Layer) {d : FunctionDecl} {ds : List FunctionDecl}
    (h : d ∈ ds) : listPlaces (.routine d :: layers d) d.body ⊆ routinesPlaces layers ds := by
  induction ds with
  | nil => cases h
  | cons other ds ih =>
    rcases List.mem_cons.1 h with rfl | h
    · rw [← routinePlaces_eq]
      exact List.subset_append_left _ _
    · exact fun p hp => List.mem_append_right _ (ih h hp)

end Stmt

open Stmt

/-- The uses in a part of a text. -/
def Part.places (layers : List Layer) : Part → List (List Layer × Use)
  | .statements ss => listPlaces layers ss
  | .statement s => s.places layers
  | .use u => [(layers, u)]

theorem Placed.places_subset {text : List Stmt} {layers : List Layer} {part : Part}
    (h : Placed text layers part) : part.places layers ⊆ listPlaces [] text := by
  induction h with
  | whole => exact fun _ hp => hp
  | first _ ih => exact fun _ hp => ih (List.mem_append_left _ hp)
  | rest _ ih => exact fun _ hp => ih (List.mem_append_right _ hp)
  | branch _ ht ih => exact fun _ hp => ih (branch_subset _ ht hp)
  | block _ ih => exact ih
  | @function layers d _ ih =>
    rw [Part.places, ← routinePlaces_eq]
    exact ih
  | method _ hd ih =>
    intro p hp
    apply ih
    apply List.mem_append_right
    apply List.mem_append_left
    exact routine_subset (fun d => .receiver d :: _) hd hp
  | static _ hd ih =>
    intro p hp
    apply ih
    apply List.mem_append_right
    apply List.mem_append_right
    exact routine_subset (fun _ => .statics _ :: _) hd hp
  | use _ hu ih =>
    intro p hp
    cases List.mem_singleton.1 hp
    exact ih (ownPlaces_subset _ _ (List.mem_map.2 ⟨_, hu, rfl⟩))

variable {text : List Stmt} {layers layers' : List Layer} {u u' : Use}

theorem Placed.mem_ids (h : Placed text layers (.use u)) : u.id ∈ listIds text := by
  have listed : (layers, u) ∈ listPlaces [] text := h.places_subset (List.mem_singleton.2 rfl)
  exact (placeIds_listPlaces [] text).subset (List.mem_map.2 ⟨_, listed, rfl⟩)

/-- A node stands at one place. -/
theorem Placed.unique (hn : (listIds text).Nodup) (h : Placed text layers (.use u))
    (h' : Placed text layers' (.use u')) (hid : u.id = u'.id) : layers = layers' ∧ u = u' := by
  have distinct : (placeIds (listPlaces [] text)).Nodup := (placeIds_listPlaces [] text).nodup_iff.2 hn
  have listed : (layers, u) ∈ listPlaces [] text := h.places_subset (List.mem_singleton.2 rfl)
  have listed' : (layers', u') ∈ listPlaces [] text := h'.places_subset (List.mem_singleton.2 rfl)
  have same := List.inj_on_of_nodup_map distinct listed listed' hid
  exact Prod.mk.inj same

end Scriptlet
