import TaskForest.Hierarchy.TreeView
import TaskForest.Proofs.Hierarchy.Preorder
import TaskForest.Proofs.Store.Items

/-!
Trees that are loaded, as a recursion. Below an id stand the trees of its children, each of which has below it
the trees of its own children. Taking up the visited ids of a walk with the leaves first builds just that: when an
id is taken up, the trees that are built and not yet part of another one are those of what was on the stack behind
its visit, so no child is passed over. So a loaded tree has the preorder, the size and the height of what the walk
collects.
-/

namespace TaskForest

open LinkedStore (pointers)

namespace TaskTree

mutual

/-- The trees that stand in a tree, itself and those below it, in preorder. -/
def nodes : TaskTree → List TaskTree
  | node t cs => node t cs :: nodesAll cs

def nodesAll : List TaskTree → List TaskTree
  | [] => []
  | t :: rest => t.nodes ++ nodesAll rest

end

theorem nodesAll_eq (ts : List TaskTree) : nodesAll ts = ts.flatMap nodes := by
  induction ts with
  | nil => rfl
  | cons t rest ih => rw [nodesAll, ih, List.flatMap_cons]

theorem preorders_eq (ts : List TaskTree) : preorders ts = ts.flatMap preorder := by
  induction ts with
  | nil => rfl
  | cons t rest ih => rw [preorders, ih, List.flatMap_cons]

theorem height_le_heights {t : TaskTree} {ts : List TaskTree} (h : t ∈ ts) : t.height ≤ heights ts := by
  induction ts with
  | nil => cases h
  | cons u rest ih =>
      rw [heights]
      rcases List.mem_cons.1 h with rfl | h
      · exact Nat.le_max_left _ _
      · exact Nat.le_trans (ih h) (Nat.le_max_right _ _)

theorem heights_eq (ts : List TaskTree) : heights ts = 0 ∨ ∃ t ∈ ts, t.height = heights ts := by
  induction ts with
  | nil => exact .inl rfl
  | cons u rest ih =>
      rw [heights]
      rcases Nat.le_total u.height (heights rest) with le | le
      · rw [Nat.max_eq_right le]
        exact ih.imp_right fun ⟨t, ht, same⟩ => ⟨t, List.mem_cons_of_mem u ht, same⟩
      · rw [Nat.max_eq_left le]
        exact .inr ⟨u, List.mem_cons_self, rfl⟩

section Recursion

variable (answer : String → Except StoreError (List Task))

/-- The trees below an id, down to `room` levels of them. -/
def grown : (room : Nat) → String → List TaskTree
  | 0, _ => []
  | room + 1, id => ((answer id).toOption.getD []).map fun t => .node t (grown room t.id)

end Recursion

variable {answer : String → Except StoreError (List Task)}

/-- A tree that is grown is the recursion of the walk. -/
theorem preorder_grown (answer : String → Except StoreError (List Task)) (room : Nat) (t : Task)
    (level : Nat) :
    (node t (grown answer room t.id)).preorder.map Task.id =
      (TaskForest.preorder answer room ⟨t.id, level⟩).map Entry.id := by
  induction room generalizing t level with
  | zero => rfl
  | succ room ih =>
      rw [preorder, preorders_eq, grown, TaskForest.preorder, List.map_cons, List.map_cons]
      simp only [Walk.below, List.flatMap_map, List.map_flatMap, ih _ (level + 1)]

theorem mem_grown_succ {room : Nat} {id : String} {tree : TaskTree} :
    tree ∈ grown answer (room + 1) id ↔
      ∃ t ∈ (answer id).toOption.getD [], .node t (grown answer room t.id) = tree := by
  rw [grown, List.mem_map]

/-- The greatest level below an entry is that of the highest of the trees below it. -/
theorem isGreatest_level (answer : String → Except StoreError (List Task)) (room : Nat) (e : Entry) :
    IsGreatest {n | ∃ e' ∈ TaskForest.preorder answer room e, e'.level = n}
      (e.level + heights (grown answer room e.id)) := by
  induction room generalizing e with
  | zero => exact ⟨⟨e, List.mem_cons_self, rfl⟩, by simp [TaskForest.preorder]⟩
  | succ room ih =>
      simp only [TaskForest.preorder, Walk.below, List.flatMap_map]
      refine ⟨?_, ?_⟩
      · rcases heights_eq (grown answer (room + 1) e.id) with flat | ⟨tree, below, highest⟩
        · exact ⟨e, List.mem_cons_self, by rw [flat, Nat.add_zero]⟩
        · obtain ⟨t, child, rfl⟩ := mem_grown_succ.1 below
          obtain ⟨e', visited, level⟩ := (ih ⟨t.id, e.level + 1⟩).1
          refine ⟨e', List.mem_cons_of_mem e (List.mem_flatMap.2 ⟨t, child, visited⟩), ?_⟩
          rw [level, ← highest, height, Nat.add_assoc]
      · rintro _ ⟨e', visited, rfl⟩
        rcases List.mem_cons.1 visited with rfl | visited
        · exact Nat.le_add_right _ _
        · obtain ⟨t, child, behind⟩ := List.mem_flatMap.1 visited
          have low : e'.level ≤ e.level + 1 + heights (grown answer room t.id) :=
            (ih ⟨t.id, e.level + 1⟩).2 ⟨e', behind, rfl⟩
          have le : (node t (grown answer room t.id)).height ≤ heights (grown answer (room + 1) e.id) :=
            height_le_heights (mem_grown_succ.2 ⟨t, child, rfl⟩)
          rw [height] at le
          omega

/-- Every tree in a tree that is grown has all children of its task below it, if no entry of the preorder is
at the level where the growing ends; what holds of a task and of all that are told holds of all its tasks. -/
theorem forall_nodes_grown {P : Task → Prop}
    (told : ∀ id children, answer id = .ok children → ∀ t ∈ children, P t)
    (room : Nat) (t : Task) (level : Nat) (top : P t)
    (passed : ∀ e ∈ TaskForest.preorder answer room ⟨t.id, level⟩,
      e.level < level + room ∧ ∃ children, answer e.id = .ok children) :
    ∀ n ∈ (node t (grown answer room t.id)).nodes,
      P n.task ∧ answer n.task.id = .ok (n.children.map task) := by
  induction room generalizing t level with
  | zero =>
      have low := (passed ⟨t.id, level⟩ List.mem_cons_self).1
      exact absurd low (Nat.lt_irrefl level)
  | succ room ih =>
      obtain ⟨_, children, same⟩ := passed ⟨t.id, level⟩ List.mem_cons_self
      change answer t.id = .ok children at same
      have some_children : (answer t.id).toOption.getD [] = children := by
        rw [same]
        rfl
      intro n hn
      rw [nodes, nodesAll_eq] at hn
      rcases List.mem_cons.1 hn with rfl | hn
      · refine ⟨top, ?_⟩
        rw [TaskTree.children, TaskTree.task, grown, same, List.map_map]
        exact congrArg Except.ok (List.map_id children).symm
      · obtain ⟨tree, below, inside⟩ := List.mem_flatMap.1 hn
        obtain ⟨u, child, rfl⟩ := mem_grown_succ.1 below
        rw [some_children] at child
        refine ih u (level + 1) (told t.id children same u child) (fun e he => ?_) n inside
        have visited : e ∈ TaskForest.preorder answer (room + 1) ⟨t.id, level⟩ := by
          rw [TaskForest.preorder]
          refine List.mem_cons_of_mem _ (List.mem_flatMap.2 ⟨⟨u.id, level + 1⟩, ?_, he⟩)
          rw [Walk.mem_below, some_children]
          exact ⟨u, child, rfl⟩
        obtain ⟨low, answered⟩ := passed e visited
        exact ⟨by omega, answered⟩

end TaskTree

namespace Assembly

variable {a : Assembly} {ids : List String} {x : String}

theorem claim_fst_cons (built : Keyed TaskTree) (id : String) (rest : List String) :
    (claim built (id :: rest)).1 = match built.find? id with
      | some tree => tree :: (claim (built.erase id) rest).1
      | none => (claim (built.erase id) rest).1 := rfl

/-- All trees are there, so none is passed over; what is left are the others. -/
theorem claim_of_found {tree : Task → TaskTree} {children : List Task} {built : Keyed TaskTree}
    (distinct : (children.map Task.id).Nodup)
    (found : ∀ t ∈ children, built.find? t.id = some (tree t)) :
    (claim built (children.map Task.id)).1 = children.map tree ∧
      ∀ x, (claim built (children.map Task.id)).2.find? x =
        if x ∈ children.map Task.id then none else built.find? x := by
  induction children generalizing built with
  | nil => exact ⟨rfl, fun _ => rfl⟩
  | cons t rest ih =>
      rw [List.map_cons, List.nodup_cons] at distinct
      have others : ∀ u ∈ rest, (built.erase t.id).find? u.id = some (tree u) := by
        intro u hu
        have ne : u.id ≠ t.id := fun same => distinct.1 (same ▸ List.mem_map_of_mem hu)
        rw [Keyed.find?_erase, if_neg ne]
        exact found u (List.mem_cons_of_mem t hu)
      obtain ⟨trees, left⟩ := ih distinct.2 others
      rw [List.map_cons]
      refine ⟨?_, fun x => (left x).trans ?_⟩
      · rw [claim_fst_cons, found t List.mem_cons_self, trees]
        rfl
      · rw [Keyed.find?_erase]
        by_cases top : x = t.id <;> simp [top]

/-- Taking up an id leaves what is known of the others. -/
theorem known_build (a : Assembly) {id : String} (other : x ≠ id) :
    (a.build id).childIds.find? x = a.childIds.find? x ∧ (a.build id).tasks.find? x = a.tasks.find? x :=
  ⟨(Keyed.find?_erase _ id x).trans (if_neg other), (Keyed.find?_erase _ id x).trans (if_neg other)⟩

/-- Takes up the ids from the last to the first. -/
def takeUp (a : Assembly) (ids : List String) : Assembly :=
  ids.foldr (fun id a => a.build id) a

theorem known_takeUp (a : Assembly) (h : x ∉ ids) :
    (a.takeUp ids).childIds.find? x = a.childIds.find? x ∧ (a.takeUp ids).tasks.find? x = a.tasks.find? x := by
  induction ids with
  | nil => exact ⟨rfl, rfl⟩
  | cons id rest ih =>
      rw [List.mem_cons, not_or] at h
      obtain ⟨childIds, tasks⟩ := known_build (a.takeUp rest) h.1
      exact ⟨childIds.trans (ih h.2).1, tasks.trans (ih h.2).2⟩

/-- What is found once an id was taken up of which all is known and whose children all have their trees. -/
theorem find?_build {id : String} {task : Task} {children : List Task} {tree : Task → TaskTree}
    (childIds : a.childIds.find? id = some (children.map Task.id)) (named : a.tasks.find? id = some task)
    (distinct : (children.map Task.id).Nodup)
    (found : ∀ t ∈ children, a.built.find? t.id = some (tree t)) (x : String) :
    (a.build id).built.find? x =
      if x = id then some (.node task (children.map tree))
      else if x ∈ children.map Task.id then none else a.built.find? x := by
  obtain ⟨trees, left⟩ := claim_of_found distinct found
  simp only [build, childIds, named, Option.getD_some, trees, Keyed.find?_insert, left]

/-- Of each visit of the walk the children are known, and their tasks. -/
structure Knows (a : Assembly) (w : Walk) : Prop where
  childIds : ∀ v ∈ w.visits, a.childIds.find? v.id = some (v.children.map Task.id)
  tasks : ∀ v ∈ w.visits, ∀ t ∈ v.children, a.tasks.find? t.id = some t

theorem hear_all (visits : List Visit) (a : Assembly) :
    visits.foldl hear a =
      { a with
        childIds := a.childIds.extend (visits.map fun v => (v.id, v.children.map Task.id))
        tasks := a.tasks.extend ((visits.flatMap Visit.children).map fun t => (t.id, t)) } := by
  induction visits generalizing a with
  | nil => rfl
  | cons v rest ih =>
      rw [List.foldl_cons, ih, List.flatMap_cons, List.map_append, Keyed.extend_append]
      rfl

end Assembly

namespace Walk

variable {Answer : String → Except StoreError (List Task) → Prop}
  {answer : String → Except StoreError (List Task)} {maxDepth : Nat} {visited : List String}
  {stack : List Entry} {w : Walk}

/-- What is visited of a full walk is what was on the stack and what is told, each of them once. -/
theorem Run.listed_perm (h : Run Answer maxDepth visited stack w) (full : w.failure = none) :
    (stack.map Entry.id ++ (w.visits.flatMap Visit.children).map Task.id).Perm w.ids := by
  induction h with
  | done => exact .nil
  | cycle _ | tooDeep _ _ | refused _ _ _ => cases full
  | @visit visited e rest children w new le told next ih =>
      have behind := ih full
      rw [List.map_append, map_id_below, List.append_assoc] at behind
      rw [visits_visiting, ids_visiting, List.flatMap_cons, List.map_append, List.map_cons, List.cons_append]
      refine .cons e.id (.trans ?_ behind)
      rw [← List.append_assoc, ← List.append_assoc]
      exact List.perm_append_comm.append_right _

theorem Run.listed_nodup (h : Run Answer maxDepth visited stack w) (full : w.failure = none) :
    (stack.map Entry.id ++ (w.visits.flatMap Visit.children).map Task.id).Nodup :=
  (h.listed_perm full).nodup_iff.2 h.nodup.1

/-- The ids on the stack behind a visit are different, and the one that is visited is not among them. -/
theorem Run.pushed_nodup {e : Entry} {rest : List Entry} {children : List Task}
    (h : Run Answer maxDepth (e.id :: visited) (Walk.below e.level children ++ rest) w)
    (full : w.failure = none) : (e.id :: (children.map Task.id ++ rest.map Entry.id)).Nodup := by
  have distinct := (List.nodup_append.1 (h.listed_nodup full)).1
  refine List.nodup_cons.2 ⟨fun again => ?_, by rwa [List.map_append, map_id_below] at distinct⟩
  rw [← map_id_below e.level, ← List.map_append] at again
  exact h.nodup.2 _ ((h.listed_perm full).subset (List.mem_append_left _ again)) List.mem_cons_self

/-- Once the visited ids are taken up, the trees that are built and not yet part of another one are those of
what was on the stack, each with all below it that the walk was told. -/
theorem Run.find?_takeUp (top : Nat) (h : Run (fun id r => r = answer id) maxDepth visited stack w)
    (full : w.failure = none) (deep : maxDepth < top) (low : ∀ e ∈ stack, e.level ≤ top) {a : Assembly}
    (knows : a.Knows w) (unbuilt : ∀ x, a.built.find? x = none)
    (named : ∀ e ∈ stack, ∃ task, a.tasks.find? e.id = some task) :
    (∀ e ∈ stack, ∀ task, a.tasks.find? e.id = some task →
      (a.takeUp w.ids).built.find? e.id = some (.node task (TaskTree.grown answer (top - e.level) e.id))) ∧
    ∀ x, x ∉ stack.map Entry.id → (a.takeUp w.ids).built.find? x = none := by
  induction h with
  | done => exact ⟨nofun, fun x _ => unbuilt x⟩
  | cycle _ | tooDeep _ _ | refused _ _ _ => cases full
  | @visit visited e rest children w new le told next ih =>
      have room : top - e.level = (top - (e.level + 1)) + 1 := by omega
      obtain ⟨childIds, tasks⟩ := knows
      rw [visits_visiting, List.forall_mem_cons] at childIds tasks
      obtain ⟨⟨task, here⟩, others⟩ := List.forall_mem_cons.1 named
      obtain ⟨waiting, nothing⟩ := ih full (forall_mem_pushed (fun _ _ => Nat.lt_of_le_of_lt le deep) low)
        ⟨childIds.2, tasks.2⟩ (forall_mem_pushed (fun t child => ⟨t, tasks.1 t child⟩) named)
      rw [List.map_append, map_id_below] at nothing
      obtain ⟨fresh, pushed⟩ := List.nodup_cons.1 (next.pushed_nodup full)
      obtain ⟨distinct, _, apart⟩ := List.nodup_append.1 pushed
      -- all is still known of the visited id, for it was not taken up before
      obtain ⟨known, name⟩ := a.known_takeUp fun again => next.nodup.2 _ again List.mem_cons_self
      have found := Assembly.find?_build (known.trans childIds.1) (name.trans here) distinct fun t child =>
        waiting ⟨t.id, e.level + 1⟩ (List.mem_append_left rest (mem_below.2 ⟨t, child, rfl⟩)) t (tasks.1 t child)
      refine ⟨List.forall_mem_cons.2 ⟨fun other same => ?_, fun e' he' other same => ?_⟩, fun x hx => ?_⟩
      · cases here.symm.trans same
        refine (found e.id).trans ((if_pos rfl).trans ?_)
        rw [room, TaskTree.grown, ← told]
        rfl
      · have listed : e'.id ∈ rest.map Entry.id := List.mem_map_of_mem he'
        have other_id : e'.id ≠ e.id := fun same => fresh (List.mem_append_right _ (same ▸ listed))
        refine (found e'.id).trans ((if_neg other_id).trans ?_)
        rw [if_neg fun child => apart _ child _ listed rfl]
        exact waiting e' (List.mem_append_right _ he') other same
      · rw [List.map_cons, List.mem_cons, not_or] at hx
        refine (found x).trans ((if_neg hx.1).trans ?_)
        split
        · rfl
        · next childless => exact nothing x fun met => (List.mem_append.1 met).elim childless hx.2

/-- What a full walk from a root was told is known once it is over, and so is the task of the root. -/
theorem Run.knows_told {root : Task} (h : Run Answer maxDepth [] [⟨root.id, 1⟩] w) (full : w.failure = none) :
    (w.told root).Knows w ∧ (w.told root).tasks.find? root.id = some root ∧
      ∀ x, (w.told root).built.find? x = none := by
  have distinct := h.listed_nodup full
  rw [List.map_singleton, List.singleton_append, List.nodup_cons] at distinct
  rw [told, Assembly.hear_all]
  refine ⟨⟨fun v hv => ?_, fun v hv t child => ?_⟩, ?_, fun _ => rfl⟩
  · have entry := List.mem_map_of_mem (f := fun v => (v.id, v.children.map Task.id)) hv
    refine Keyed.find?_extend ?_ entry _
    rw [List.map_map]
    exact h.nodup.1
  · have listed : t ∈ w.visits.flatMap Visit.children := List.mem_flatMap.2 ⟨v, hv, child⟩
    have other : t.id ≠ root.id := fun same => distinct.1 (same ▸ List.mem_map_of_mem listed)
    refine (Keyed.find?_insert _ _ _ _).trans ((if_neg other).trans ?_)
    have entry := List.mem_map_of_mem (f := fun t : Task => (t.id, t)) listed
    refine Keyed.find?_extend ?_ entry _
    rw [List.map_map]
    exact distinct.2
  · exact (Keyed.find?_insert _ _ _ _).trans (if_pos rfl)

/-- In the end the one tree that is built is that of the root. -/
theorem Run.find?_built {root : Task} (h : Run (fun id r => r = answer id) maxDepth [] [⟨root.id, 1⟩] w)
    (full : w.failure = none) (x : String) :
    (w.built root).find? x =
      if x = root.id then some (.node root (TaskTree.grown answer maxDepth root.id)) else none := by
  obtain ⟨knows, named, unbuilt⟩ := h.knows_told full
  obtain ⟨top, nothing⟩ := h.find?_takeUp (maxDepth + 1) full (Nat.lt_succ_self maxDepth) (by simp) knows unbuilt
    (by simpa using ⟨root, named⟩)
  have taken : w.built root = ((w.told root).takeUp w.ids).built := by
    rw [built, Subtree.leavesFirst, List.foldl_reverse]
    rfl
  rw [taken]
  split
  · next same =>
      subst same
      exact top ⟨root.id, 1⟩ List.mem_cons_self root named
  · next other => exact nothing x (by simpa using other)

end Walk

section Store

variable {σ : Type} [TaskStore σ] [ItemStore σ] {s : σ} {task : Task}

/-- What is loaded of a stored task is grown from what its walk is answered, and fails by what the walk fails
by. -/
theorem loadTree_of_held (held : OrderedStore.holds s task) (maxDepth : Nat) :
    loadTree maxDepth task.id s = match (walk maxDepth task.id s).1.failure with
      | none => .ok (some (.node task (TaskTree.grown (childrenAnswer s) maxDepth task.id)))
          (walk maxDepth task.id s).2
      | some e => .error e (walk maxDepth task.id s).2 := by
  have reads := ItemStore.get_tells task.id s
  cases k : (TaskStore.get task.id : StoreM σ (Option Task)) s with
  | error e s' => exact absurd rfl ((reads.of_error k).2.2 task held)
  | ok found s' =>
      obtain ⟨rfl, found_iff⟩ := reads.of_ok k
      obtain rfl := (found_iff task).2 ⟨held, rfl⟩
      rw [loadTree, bind_of_ok (lift_of_ok k)]
      simp only [bind, EStateM.bind, fullWalk]
      cases failure : (walk maxDepth task.id s').1.failure with
      | some e => rfl
      | none =>
          have built := (walk_run_answers maxDepth task.id s').find?_built failure task.id
          rw [if_pos rfl] at built
          rw [← built]
          rfl

/-- Nothing can be loaded of a stored id whose task cannot be read, whatever is below it. -/
theorem loadTree_of_unread {root : String} (stored : (pointers s).Stored root)
    (unread : ¬ ∃ task, OrderedStore.holds s task ∧ task.id = root) (maxDepth : Nat) :
    ∃ e, TaskStore.get root s = .error e s ∧ loadTree maxDepth root s = .error (.store e) s := by
  have reads := ItemStore.get_tells root s
  cases k : (TaskStore.get root : StoreM σ (Option Task)) s with
  | error e s' =>
      obtain ⟨rfl, _⟩ := reads.of_error k
      exact ⟨e, rfl, by rw [loadTree, bind_of_error (lift_of_error k)]⟩
  | ok found s' =>
      obtain ⟨_, entry, _⟩ := (LinkedStore.get_yields root s).of_ok k
      obtain ⟨rfl, found_iff⟩ := reads.of_ok k
      cases found with
      | none => exact absurd entry stored
      | some task => exact absurd ⟨task, (found_iff task).1 rfl⟩ unread

/-- Nothing is loaded only of an id that is not stored. -/
theorem loadTree_eq_none_iff (maxDepth : Nat) (root : String) (s : σ) :
    (∃ s', loadTree maxDepth root s = .ok none s') ↔ ¬ (pointers s).Stored root := by
  have reads := ItemStore.get_tells root s
  have shows := LinkedStore.get_yields root s
  cases k : (TaskStore.get root : StoreM σ (Option Task)) s with
  | error e s' =>
      obtain ⟨_, stored, _⟩ := reads.of_error k
      rw [loadTree, bind_of_error (lift_of_error k)]
      refine ⟨?_, fun missing => absurd stored missing⟩
      rintro ⟨_, ⟨⟩⟩
  | ok found s' =>
      obtain ⟨_, entry, _⟩ := shows.of_ok k
      obtain ⟨rfl, found_iff⟩ := reads.of_ok k
      cases found with
      | none =>
          rw [loadTree, bind_of_ok (lift_of_ok k), Pointers.Stored, not_not]
          exact ⟨fun _ => entry, fun _ => ⟨s', rfl⟩⟩
      | some task =>
          obtain ⟨held, rfl⟩ := (found_iff task).1 rfl
          have stored : (pointers s').Stored task.id := by
            rw [Pointers.Stored, entry]
            exact Option.some_ne_none _
          rw [loadTree_of_held held]
          refine ⟨?_, fun missing => absurd stored missing⟩
          rintro ⟨_, loaded⟩
          cases failure : (walk maxDepth task.id s').1.failure with
          | none | some _ =>
              rw [failure] at loaded
              cases loaded

/-- What visits all has the whole preorder; each entry of it is within the bound and was told its children. -/
theorem walk_of_full {maxDepth : Nat} {root : String} (full : (walk maxDepth root s).1.failure = none) :
    let order := preorder (childrenAnswer s) maxDepth ⟨root, 1⟩
    (walk maxDepth root s).1.subtree.Holds (pointers s) root order ∧
      ∀ e ∈ order, e.level < 1 + maxDepth ∧ ∃ children, childrenAnswer s e.id = .ok children := by
  intro order
  have all : (walk maxDepth root s).1.visits.map Visit.entry = order := by
    have along : (walk maxDepth root s).1 = .along (childrenAnswer s) maxDepth [] order :=
      walk_eq_along s maxDepth 0 root
    have ends := Walk.along_whole_or_stopped (childrenAnswer s) maxDepth [] order
    dsimp only at ends
    rw [← along] at ends
    rcases ends with ⟨all, _⟩ | ⟨_, _, e, _, _, failed⟩
    · exact all
    · cases full.symm.trans failed
  refine ⟨(walk_run_tells maxDepth root s).subtree_holds ?_ all, fun e he => ?_⟩
  · obtain ⟨below, first⟩ := exists_preorder_eq_cons (childrenAnswer s) maxDepth ⟨root, 1⟩
    exact fun none => List.cons_ne_nil _ below (first.symm.trans none)
  · rw [← all] at he
    obtain ⟨v, hv, rfl⟩ := List.mem_map.1 he
    obtain ⟨le, told⟩ := (walk_run_answers maxDepth root s).visit_le_and_answered v hv
    exact ⟨by change v.level < 1 + maxDepth; omega, v.children, told.symm⟩

/-- A tree that is loaded is the subtree that is collected. Nothing is loaded exactly of an id that is not
stored. A stored task that cannot be read is not loaded, for that reason and whatever is collected of its id; one
that can be read is loaded unless it cannot be collected. The tree lists the collected ids in their order, each
once, and has their number and their depth. Its nodes are stored tasks, and below each stand all the stored tasks
that point at it, the oldest first. -/
theorem loadTree_follows_collect (s : σ) (maxDepth : Nat) (root : String) :
    ((∃ s', loadTree maxDepth root s = .ok none s') ↔ ¬ (pointers s).Stored root) ∧
    ((pointers s).Stored root → (¬ ∃ task, OrderedStore.holds s task ∧ task.id = root) →
      ∃ e, TaskStore.get root s = .error e s ∧ loadTree maxDepth root s = .error (.store e) s) ∧
    ∀ task, OrderedStore.holds s task → task.id = root →
      (∀ e s', loadTree maxDepth root s = .error e s' ↔ collect maxDepth root s = .error e s') ∧
      ∀ subtree s', collect maxDepth root s = .ok subtree s' →
        ∃ tree, loadTree maxDepth root s = .ok (some tree) s' ∧ tree.task = task ∧
          tree.preorder.map Task.id = subtree.ids ∧ subtree.ids.Nodup ∧
          tree.size = subtree.ids.length ∧ tree.height = subtree.depth ∧
          ∀ n ∈ tree.nodes, OrderedStore.holds s n.task ∧
            (n.children.map TaskTree.task).Pairwise Task.Older ∧
            ∀ u, u ∈ n.children.map TaskTree.task ↔
              OrderedStore.holds s u ∧ u.parent = some n.task.id := by
  refine ⟨loadTree_eq_none_iff maxDepth root s, fun stored unread => loadTree_of_unread stored unread maxDepth, ?_⟩
  rintro task held rfl
  have loaded := loadTree_of_held held maxDepth
  have collected := collect_of_walk maxDepth task.id s
  cases failure : (walk maxDepth task.id s).1.failure with
  | some e =>
      rw [failure] at loaded collected
      rw [loaded, collected]
      refine ⟨fun _ _ => ⟨?_, ?_⟩, nofun⟩
      · rintro ⟨⟩
        rfl
      · rintro ⟨⟩
        rfl
  | none =>
      rw [failure] at loaded collected
      rw [loaded, collected]
      refine ⟨fun _ _ => ⟨nofun, nofun⟩, ?_⟩
      rintro _ _ ⟨⟩
      obtain ⟨holds, passed⟩ := walk_of_full failure
      have listed := TaskTree.preorder_grown (childrenAnswer s) maxDepth task 1
      rw [← holds.ids] at listed
      refine ⟨_, rfl, rfl, listed, holds.nodup, ?_, ?_, fun n hn => ?_⟩
      · rw [TaskTree.size_eq_length, ← listed, List.length_map]
      · rw [TaskTree.height]
        exact (TaskTree.isGreatest_level (childrenAnswer s) maxDepth ⟨task.id, 1⟩).unique holds.depth
      · have told : ∀ id children, childrenAnswer s id = .ok children →
            ∀ t ∈ children, OrderedStore.holds s t := fun _ _ answered t child =>
          (((childrenAnswer_sorted answered).2 t).1 child).1
        obtain ⟨node_held, below⟩ := TaskTree.forall_nodes_grown told maxDepth task 1 held passed n hn
        exact ⟨node_held, childrenAnswer_sorted below⟩

end Store

/-- The tree of a root with two children, of which the older has one of its own; the root itself names a parent
that is not stored. -/
theorem loadTree_follows_collect_of_four :
    let oak : Task := { Task.new "oak" "Oak" 1 with parent := some "ghost" }
    let ash : Task := { Task.new "ash" "Ash" 3 with parent := some "oak" }
    let elm : Task := { Task.new "elm" "Elm" 2 with parent := some "oak" }
    let ivy : Task := { Task.new "ivy" "Ivy" 4 with parent := some "elm" }
    let store : Table := .ofList [oak, ash, elm, ivy]
    (∃ tree s', loadTree 3 "oak" store = .ok (some tree) s' ∧ tree.task = oak ∧
      tree.preorder.map Task.id = ["oak", "elm", "ivy", "ash"] ∧ tree.height = 3) ∧
    (∃ s', loadTree 2 "oak" store = .error (.tooDeep "ivy") s') ∧
    ∃ s', loadTree 3 "ghost" store = .ok none s' := by
  intro oak ash elm ivy store
  have held : OrderedStore.holds store oak := by
    refine ⟨.ofTask .ascending oak, ?_, by cbv⟩
    cbv
    exact .tail _ (.tail _ (.tail _ (.head _)))
  have collected : collect 3 "oak" store = .ok ⟨["oak", "elm", "ivy", "ash"], 3⟩ store := by cbv
  have deep : collect 2 "oak" store = .error (.tooDeep "ivy") store := by cbv
  obtain ⟨tree, ok, top, ids, _, _, height, _⟩ :=
    ((loadTree_follows_collect store 3 "oak").2.2 oak held rfl).2 _ _ collected
  refine ⟨⟨tree, store, ok, top, ids, height⟩, ⟨store, ?_⟩, ?_⟩
  · exact (((loadTree_follows_collect store 2 "oak").2.2 oak held rfl).1 _ _).2 deep
  · exact (loadTree_follows_collect store 3 "ghost").1.2 (by unfold Pointers.Stored; cbv)

/-- A stored task with a priority of more than 32 bits is collected, but not loaded. -/
theorem unread_root_collected_not_loaded :
    let ranked : Row := { Row.ofTask .ascending (.new "oak" "Oak" 1) with priority := .integer 2147483648 }
    let store : Table := { rows := [ranked], distinct := List.nodup_singleton _ }
    (pointers store).Stored "oak" ∧ collect 3 "oak" store = .ok ⟨["oak"], 1⟩ store ∧
      loadTree 3 "oak" store =
        .error (.store (.backend "Integer 2147483648 out of range at index 12")) store := by
  intro ranked store
  have stored : (pointers store).Stored "oak" := by
    unfold Pointers.Stored
    cbv
    exact Option.some_ne_none _
  exact ⟨stored, by cbv, rfl⟩

end TaskForest
