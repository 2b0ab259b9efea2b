import TaskForest.Proofs.Hierarchy.DryRun

/-!
Deletes of several clients on one store. Each client makes two steps, its walk and later its batch, and the
steps of the clients come in any order. What is stored is then always the store of the beginning without some
whole subtrees, and what a walk collected holds all of its subtree that has not gone since. That is closed
under children, so every batch is made, and each item is counted by the one batch that takes it away.
-/

namespace TaskForest

open LinkedStore (pointers)
open ItemStore (items idOf Readable Faultless TellsChildren Resembles)

/-- A delete that a client asks for. -/
structure Client where
  root : String
  limits : Limits := {}

/-- How far the delete of a client is. -/
inductive Phase where
  | waiting
  | walked (subtree : Subtree)
  | done (result : Except HierarchyError Report)

namespace Phase

def IsDone : Phase → Prop
  | waiting | walked _ => False
  | done _ => True

/-- The steps that were made. -/
def stage : Phase → Nat
  | waiting => 0
  | walked _ => 1
  | done _ => 2

/-- What the batch counted, once it is made. -/
def deleted : Phase → Nat
  | waiting | walked _ | done (.error _) => 0
  | done (.ok report) => report.deleted

end Phase

/-- A store, and the clients that delete in it. -/
structure Crowd (σ : Type) (n : Nat) where
  store : σ
  phase : Fin n → Phase

section Steps

variable {σ : Type} [TaskStore σ] {n : Nat}

namespace Client

/-- The batch of what the walk collected. -/
def finish (c : Client) (subtree : Subtree) : HierarchyM σ Report := do
  let deleted ← deleteAll c.limits.orphanGuard subtree.leavesFirst
  pure ⟨c.root, subtree.ids.length, deleted, subtree.depth⟩

theorem delete_eq (c : Client) :
    (delete c.limits c.root : HierarchyM σ Report) = preview c.limits c.root >>= c.finish := rfl

/-- The walk, or else the batch. -/
def advance (c : Client) : Phase → σ → Phase × σ
  | .waiting, s =>
    match preview c.limits c.root s with
    | .ok subtree s => (.walked subtree, s)
    | .error e s => (.done (.error e), s)
  | .walked subtree, s =>
    match c.finish subtree s with
    | .ok report s => (.done (.ok report), s)
    | .error e s => (.done (.error e), s)
  | .done result, s => (.done result, s)

theorem stage_advance (c : Client) (p : Phase) (s : σ) :
    min 2 (p.stage + 1) ≤ (c.advance p s).1.stage := by
  cases p with
  | waiting =>
      rw [advance]
      cases preview c.limits c.root s <;> simp [Phase.stage]
  | walked subtree =>
      rw [advance]
      cases c.finish subtree s <;> simp [Phase.stage]
  | done result => simp [advance, Phase.stage]

end Client

namespace Crowd

def start (s : σ) : Crowd σ n := ⟨s, fun _ => .waiting⟩

/-- The next step of one client. -/
def step (clients : Fin n → Client) (c : Crowd σ n) (i : Fin n) : Crowd σ n :=
  let next := (clients i).advance (c.phase i) c.store
  ⟨next.2, Function.update c.phase i next.1⟩

/-- Steps of clients, one after the other. -/
def run (clients : Fin n → Client) (c : Crowd σ n) (schedule : List (Fin n)) : Crowd σ n :=
  schedule.foldl (step clients) c

theorem phase_step_self (clients : Fin n → Client) (c : Crowd σ n) (i : Fin n) :
    (c.step clients i).phase i = ((clients i).advance (c.phase i) c.store).1 :=
  Function.update_self ..

theorem phase_step_of_ne (clients : Fin n → Client) (c : Crowd σ n) {i j : Fin n} (ne : i ≠ j) :
    (c.step clients j).phase i = c.phase i :=
  Function.update_of_ne ne ..

theorem stage_step (clients : Fin n → Client) (c : Crowd σ n) (i j : Fin n) :
    min 2 ((c.phase i).stage + if j = i then 1 else 0) ≤ ((c.step clients j).phase i).stage := by
  by_cases same : j = i
  · subst same
    rw [phase_step_self, if_pos rfl]
    exact (clients j).stage_advance _ _
  · rw [phase_step_of_ne clients c (Ne.symm same), if_neg same]
    exact Nat.min_le_right _ _

theorem stage_run (clients : Fin n → Client) (schedule : List (Fin n)) (c : Crowd σ n) (i : Fin n) :
    min 2 ((c.phase i).stage + schedule.count i) ≤ ((c.run clients schedule).phase i).stage := by
  induction schedule generalizing c with
  | nil => exact Nat.min_le_right _ _
  | cons j rest ih =>
      have first := c.stage_step clients i j
      have later := ih (c.step clients j)
      rw [List.count_cons]
      change _ ≤ (((c.step clients j).run clients rest).phase i).stage
      simp only [beq_iff_eq]
      omega

end Crowd

/-- A delete that succeeds has walked. -/
theorem exists_preview_of_delete {s : σ} {limits : Limits} {root : String}
    (ok : ∃ report after, delete limits root s = .ok report after) :
    ∃ subtree seen, preview limits root s = .ok subtree seen := by
  obtain ⟨report, after, ok⟩ := ok
  cases walked : preview limits root s with
  | ok subtree seen => exact ⟨subtree, seen, rfl⟩
  | error e seen =>
      rw [delete, bind_of_error walked] at ok
      cases ok

end Steps

variable {σ : Type} [TaskStore σ] [ItemStore σ] {s t : σ} {gone : String → Prop} {x y root : String}
  {m : Nat}

open scoped Classical in
/-- A store of which whole subtrees have gone. -/
structure Trimmed (gone : String → Prop) (s t : σ) : Prop where
  faultless : Faultless t
  step_iff : ∀ x p, (pointers t).Step x p ↔ (pointers s).Step x p ∧ ¬ gone x
  left : items t = (items s).filter fun a => ¬ gone (idOf a)
  closed : ∀ x p, (pointers s).Step x p → gone p → gone x

/-- Ids of a subtree, at least those that have not gone. -/
structure Covers (gone : String → Prop) (s : σ) (root : String) (ids : List String) : Prop where
  below : ∀ x ∈ ids, (pointers s).Reaches x root
  all : ∀ x, (pointers s).Reaches x root → ¬ gone x → x ∈ ids

theorem Covers.of_gone {more : String → Prop} {ids : List String} (h : Covers gone s root ids)
    (le : ∀ x, gone x → more x) : Covers more s root ids :=
  ⟨h.below, fun x below stays => h.all x below fun went => stays (le x went)⟩

namespace Trimmed

theorem refl (h : Faultless s) : Trimmed (fun _ => False) s s :=
  ⟨h, by simp, by simp, fun _ _ _ h => h⟩

open scoped Classical in
theorem mem_items {a : ItemStore.Item σ} (h : Trimmed gone s t) :
    a ∈ items t ↔ a ∈ items s ∧ ¬ gone (idOf a) := by
  rw [h.left, List.mem_filter, decide_eq_true_eq]

theorem of_resembles {t' : σ} (h : Trimmed gone s t) (same : Resembles t' t) : Trimmed gone s t' :=
  ⟨same.faultless, same.pointers ▸ h.step_iff, same.items ▸ h.left, h.closed⟩

theorem step (h : Trimmed gone s t) : ∀ x p, (pointers t).Step x p → (pointers s).Step x p :=
  fun x p step => ((h.step_iff x p).1 step).1

theorem reaches (h : Trimmed gone s t) (up : (pointers t).Reaches x y) : (pointers s).Reaches x y :=
  Relation.ReflTransGen.mono h.step _ _ up

/-- What has not gone is met from below by what has not gone. -/
theorem reaches_of_stays (h : Trimmed gone s t) (up : (pointers s).Reaches x y) (stays : ¬ gone x) :
    (pointers t).Reaches x y := by
  induction up using Relation.ReflTransGen.head_induction_on with
  | refl => exact .refl
  | @head x p step _ ih =>
      exact .head ((h.step_iff x p).2 ⟨step, stays⟩) (ih fun went => stays (h.closed x p step went))

theorem atLevel (h : Trimmed gone s t) (low : (pointers t).AtLevel root x m) :
    (pointers s).AtLevel root x m := by
  induction low with
  | root => exact .root
  | child _ step ih => exact .child ih (h.step _ _ step)

theorem tellsChildren (h : Trimmed gone s t) (tells : TellsChildren s x) : TellsChildren t x := by
  intro a stored step
  rw [h.left] at stored
  exact tells a (List.mem_of_mem_filter stored) (h.step _ _ step)

/-- A walk that is made on the whole store is made on what is left of it. -/
theorem preview_ok (h : Trimmed gone s t) (faultless : Faultless s) {limits : Limits}
    (alone : ∃ subtree seen, preview limits root s = .ok subtree seen) :
    ∃ subtree seen, preview limits root t = .ok subtree seen ∧ Trimmed gone s seen ∧
      Covers gone s root subtree.ids := by
  obtain ⟨whole, _, walked⟩ := alone
  obtain ⟨_, spans, tells⟩ := (ItemStore.collect_yields limits.maxDepth root faultless).of_ok walked
  have outcome := ItemStore.collect_yields limits.maxDepth root h.faultless
  cases k : preview limits root t with
  | ok subtree seen =>
      obtain ⟨same, here, _⟩ := outcome.of_ok k
      refine ⟨subtree, seen, rfl, h.of_resembles same, fun x hx => ?_, fun x up stays => ?_⟩
      · exact h.reaches ((here.mem_iff x).1 hx)
      · exact (here.mem_iff x).2 (h.reaches_of_stays up stays)
  | error e seen =>
      obtain ⟨_, refuses, unread⟩ := outcome.of_error k
      cases e with
      | cycle y => exact absurd (Relation.TransGen.mono h.step _ _ refuses.2) spans.off
      | tooDeep y =>
          have low : limits.maxDepth + 1 ≤ whole.depth := spans.depth.2 ⟨y, h.atLevel refuses⟩
          have le := spans.le
          omega
      | subtreeChanged _ => exact refuses.elim
      | store _ =>
          obtain ⟨y, up, silent⟩ := unread rfl
          exact absurd (h.tellsChildren (tells y (h.reaches up))) silent

/-- The batch of what covers a subtree is made, and the subtree has gone then. -/
theorem finish_ok (h : Trimmed gone s t) {c : Client} {subtree : Subtree}
    (covers : Covers gone s c.root subtree.ids) :
    ∃ report after, c.finish subtree t = .ok report after ∧
      Trimmed (fun x => gone x ∨ (pointers s).Reaches x c.root) s after ∧
      report.deleted + (items after).length = (items t).length := by
  have listed : ∀ x, x ∈ subtree.leavesFirst ↔ x ∈ subtree.ids := fun x => List.mem_reverse
  have closed : (pointers t).Closed subtree.leavesFirst := by
    intro x p step hp
    obtain ⟨step, stays⟩ := (h.step_iff x p).1 step
    exact (listed x).2 (covers.all x (.head step (covers.below p ((listed p).1 hp))) stays)
  have batch := ItemStore.deleteAll_takes c.limits.orphanGuard subtree.leavesFirst h.faultless
  have linked := deleteAll_pointers c.limits.orphanGuard subtree.leavesFirst t
  rw [Client.finish]
  cases made : deleteAll c.limits.orphanGuard subtree.leavesFirst t with
  | error e after => exact absurd closed (batch.of_error made).2.2.1
  | ok removed after =>
      obtain ⟨left, faultless, _, counted⟩ := batch.of_ok made
      have taken : ∀ x, (¬ gone x ∧ x ∉ subtree.leavesFirst) ↔
          ¬ (gone x ∨ (pointers s).Reaches x c.root) := by
        intro x
        rw [listed, not_or]
        refine and_congr_right fun stays => not_congr ⟨covers.below x, fun below => ?_⟩
        exact covers.all x below stays
      rw [bind_of_ok made]
      refine ⟨_, after, rfl, ⟨faultless, fun x p => ?_, ?_, ?_⟩, counted⟩
      · rw [← taken, ← and_assoc, ← h.step_iff, linked.of_ok made]
        exact Pointers.without_step
      · rw [left, h.left, List.filter_filter]
        refine List.filter_congr fun a _ => ?_
        rw [Bool.eq_iff_iff]
        simp only [Bool.and_eq_true, decide_eq_true_eq]
        exact and_comm.trans (taken (idOf a))
      · rintro x p step (went | below)
        · exact .inl (h.closed x p step went)
        · exact .inr (.head step below)

theorem delete_ok (h : Trimmed gone s t) (faultless : Faultless s) {c : Client}
    (alone : ∃ subtree seen, preview c.limits c.root s = .ok subtree seen) :
    ∃ report after, delete c.limits c.root t = .ok report after ∧
      Trimmed (fun x => gone x ∨ (pointers s).Reaches x c.root) s after ∧
      report.deleted + (items after).length = (items t).length := by
  obtain ⟨subtree, seen, walked, trimmed, covers⟩ := h.preview_ok faultless alone
  obtain ⟨report, after, made, left, counted⟩ := trimmed.finish_ok covers
  refine ⟨report, after, ?_, left, ?_⟩
  · rw [c.delete_eq, bind_of_ok walked, made]
  · rw [counted, trimmed.left, h.left]

end Trimmed

section Crowd

variable {n : Nat} {clients : Fin n → Client} {c : Crowd σ n} {i : Fin n} {p : Phase}

/-- What reaches the root of a client whose delete is done. -/
def Gone (clients : Fin n → Client) (s : σ) (phase : Fin n → Phase) (x : String) : Prop :=
  ∃ i, (phase i).IsDone ∧ (pointers s).Reaches x (clients i).root

theorem gone_update {phase : Fin n → Phase} (open_yet : ¬ (phase i).IsDone) (p : Phase) :
    Gone clients s (Function.update phase i p) x ↔
      Gone clients s phase x ∨ p.IsDone ∧ (pointers s).Reaches x (clients i).root := by
  constructor
  · rintro ⟨j, done, below⟩
    by_cases same : j = i
    · subst same
      rw [Function.update_self] at done
      exact .inr ⟨done, below⟩
    · rw [Function.update_of_ne same] at done
      exact .inl ⟨j, done, below⟩
  · rintro (⟨j, done, below⟩ | ⟨done, below⟩)
    · have other : j ≠ i := by
        rintro rfl
        exact open_yet done
      exact ⟨j, by rwa [Function.update_of_ne other], below⟩
    · exact ⟨i, by rwa [Function.update_self], below⟩

/-- What holds of a crowd after any steps of its clients. -/
structure Crowd.Sound (clients : Fin n → Client) (s : σ) (c : Crowd σ n) : Prop where
  trimmed : Trimmed (Gone clients s c.phase) s c.store
  covers : ∀ i subtree, c.phase i = .walked subtree →
    Covers (Gone clients s c.phase) s (clients i).root subtree.ids
  succeeded : ∀ i result, c.phase i = .done result → ∃ report, result = .ok report
  counted : ∑ i, (c.phase i).deleted + (items c.store).length = (items s).length

namespace Crowd.Sound

theorem start (clients : Fin n → Client) (h : Faultless s) : (Crowd.start s).Sound clients s := by
  have nothing : Gone clients s (Crowd.start (n := n) s).phase = fun _ => False := by
    funext x
    simp [Gone, Crowd.start, Phase.IsDone]
  refine ⟨nothing ▸ .refl h, nofun, nofun, ?_⟩
  simp [Crowd.start, Phase.deleted]

theorem sum_deleted_update {phase : Fin n → Phase} (nothing : (phase i).deleted = 0)
    (p : Phase) :
    ∑ j, (Function.update phase i p j).deleted = p.deleted + ∑ j, (phase j).deleted := by
  have moved : (fun j => (Function.update phase i p j).deleted) =
      Function.update (fun j => (phase j).deleted) i p.deleted :=
    Function.comp_update Phase.deleted phase i p
  rw [moved, Finset.sum_update_of_mem (Finset.mem_univ i), Finset.sdiff_singleton_eq_erase]
  exact congrArg (p.deleted + ·) (Finset.sum_erase _ nothing)

/-- A client that is not done yet makes a step. -/
theorem update (h : c.Sound clients s) (open_yet : ¬ (c.phase i).IsDone) {store : σ}
    (trimmed : Trimmed (fun x => Gone clients s c.phase x ∨
      p.IsDone ∧ (pointers s).Reaches x (clients i).root) s store)
    (covers : ∀ subtree, p = .walked subtree →
      Covers (Gone clients s c.phase) s (clients i).root subtree.ids)
    (succeeded : ∀ result, p = .done result → ∃ report, result = .ok report)
    (counted : p.deleted + (items store).length = (items c.store).length) :
    Crowd.Sound clients s ⟨store, Function.update c.phase i p⟩ := by
  have gone : (fun x => Gone clients s c.phase x ∨
      p.IsDone ∧ (pointers s).Reaches x (clients i).root) =
      Gone clients s (Function.update c.phase i p) :=
    funext fun x => propext (gone_update open_yet p).symm
  have more : ∀ x, Gone clients s c.phase x → Gone clients s (Function.update c.phase i p) x :=
    fun x went => gone ▸ .inl went
  refine ⟨gone ▸ trimmed, fun j subtree here => ?_, fun j result here => ?_, ?_⟩
  · refine Covers.of_gone ?_ more
    by_cases same : j = i
    · subst same
      exact covers subtree ((Function.update_self ..).symm.trans here)
    · exact h.covers j subtree ((Function.update_of_ne same ..).symm.trans here)
  · by_cases same : j = i
    · subst same
      exact succeeded result ((Function.update_self ..).symm.trans here)
    · exact h.succeeded j result ((Function.update_of_ne same ..).symm.trans here)
  · have nothing : (c.phase i).deleted = 0 := by
      cases k : c.phase i with
      | waiting | walked _ => rfl
      | done _ =>
          rw [k] at open_yet
          exact absurd trivial open_yet
    have before := h.counted
    change ∑ j, (Function.update c.phase i p j).deleted + (items store).length = _
    rw [sum_deleted_update nothing]
    omega

theorem step (h : c.Sound clients s) (faultless : Faultless s)
    (alone : ∀ i, ∃ subtree seen, preview (clients i).limits (clients i).root s = .ok subtree seen)
    (i : Fin n) : (c.step clients i).Sound clients s := by
  cases k : c.phase i with
  | waiting =>
      obtain ⟨subtree, seen, walked, trimmed, covers⟩ := h.trimmed.preview_ok faultless (alone i)
      have next : c.step clients i = ⟨seen, Function.update c.phase i (.walked subtree)⟩ := by
        simp only [Crowd.step, k, Client.advance, walked]
      rw [next]
      refine h.update (by rw [k]; exact id) ?_ ?_ nofun ?_
      · simpa [Phase.IsDone] using trimmed
      · rintro _ ⟨⟩
        exact covers
      · rw [trimmed.left, h.trimmed.left]
        exact Nat.zero_add _
  | walked subtree =>
      obtain ⟨report, after, made, trimmed, counted⟩ := h.trimmed.finish_ok (h.covers i subtree k)
      have next : c.step clients i = ⟨after, Function.update c.phase i (.done (.ok report))⟩ := by
        simp only [Crowd.step, k, Client.advance, made]
      rw [next]
      refine h.update (by rw [k]; exact id) ?_ nofun ?_ counted
      · simpa [Phase.IsDone] using trimmed
      · rintro _ ⟨⟩
        exact ⟨report, rfl⟩
  | done result =>
      have next : c.step clients i = c := by
        simp only [Crowd.step, k, Client.advance]
        rw [← k, Function.update_eq_self]
      rwa [next]

theorem run (h : c.Sound clients s) (faultless : Faultless s)
    (alone : ∀ i, ∃ subtree seen, preview (clients i).limits (clients i).root s = .ok subtree seen)
    (schedule : List (Fin n)) : (c.run clients schedule).Sound clients s := by
  induction schedule generalizing c with
  | nil => exact h
  | cons i rest ih => exact ih (h.step faultless alone i)

/-- The reports of clients that have made both of their steps. -/
theorem exists_reports (h : c.Sound clients s) (twice : ∀ i, 2 ≤ (c.phase i).stage) :
    ∃ reports : Fin n → Report, ∀ i, c.phase i = .done (.ok (reports i)) := by
  have done : ∀ i, ∃ report, c.phase i = .done (.ok report) := by
    intro i
    have stage := twice i
    cases k : c.phase i with
    | waiting | walked _ =>
        rw [k, Phase.stage] at stage
        omega
    | done result =>
        obtain ⟨report, rfl⟩ := h.succeeded i result k
        exact ⟨report, rfl⟩
  choose reports done using done
  exact ⟨reports, done⟩

open scoped Classical in
/-- What is left when all deletes are done, and what they have counted. -/
theorem of_done (h : c.Sound clients s) {reports : Fin n → Report}
    (done : ∀ i, c.phase i = .done (.ok (reports i))) :
    items c.store = (items s).filter (fun a => ∀ i, ¬ (pointers s).Reaches (idOf a) (clients i).root) ∧
      ∑ i, (reports i).deleted + (items c.store).length = (items s).length := by
  constructor
  · rw [h.trimmed.left]
    refine List.filter_congr fun a _ => decide_eq_decide.2 ?_
    rw [Gone, not_exists]
    refine forall_congr' fun i => ⟨fun stays below => stays ⟨?_, below⟩, fun stays got => stays got.2⟩
    exact done i ▸ trivial
  · have each : ∀ i, (c.phase i).deleted = (reports i).deleted := fun i => by
      rw [done i, Phase.deleted]
    rw [← h.counted]
    exact congrArg (· + (items c.store).length) (Finset.sum_congr rfl fun i _ => (each i).symm)

end Crowd.Sound
end Crowd

open scoped Classical in
/-- Two deletes, one after the other. -/
theorem exists_delete_delete (faultless : Faultless s) {c d : Client}
    (first : ∃ report after, delete c.limits c.root s = .ok report after)
    (second : ∃ report after, delete d.limits d.root s = .ok report after) :
    ∃ a b s₁ s₂, delete c.limits c.root s = .ok a s₁ ∧ delete d.limits d.root s₁ = .ok b s₂ ∧
      items s₁ = (items s).filter (fun x => ¬ (pointers s).Reaches (idOf x) c.root) ∧
      items s₂ = (items s).filter
        (fun x => ¬ ((pointers s).Reaches (idOf x) c.root ∨ (pointers s).Reaches (idOf x) d.root)) ∧
      a.deleted + (items s₁).length = (items s).length ∧
      b.deleted + (items s₂).length = (items s₁).length := by
  obtain ⟨a, s₁, ok, trimmed, counted⟩ :=
    (Trimmed.refl faultless).delete_ok faultless (exists_preview_of_delete first)
  obtain ⟨b, s₂, ok', trimmed', counted'⟩ :=
    trimmed.delete_ok faultless (exists_preview_of_delete second)
  refine ⟨a, b, s₁, s₂, ok, ok', ?_, ?_, counted, counted'⟩
  · simpa only [false_or] using trimmed.left
  · simpa only [false_or] using trimmed'.left

open scoped Classical in
/-- Deletes each of which would succeed alone all succeed, in whatever order their walks and batches come. Once
they are done, the subtrees of their roots have gone and nothing else, and together they have counted each item
that has gone once. Two deletes leave the same in either order, and one that is made again deletes nothing. -/
theorem deletes_interleave {n : Nat} (s : σ) (faultless : Faultless s) (clients : Fin n → Client)
    (alone : ∀ i, ∃ report after, delete (clients i).limits (clients i).root s = .ok report after) :
    (∀ schedule i e, ((Crowd.start s).run clients schedule).phase i ≠ .done (.error e)) ∧
    (∀ schedule : List (Fin n), (∀ i, 2 ≤ schedule.count i) →
      let c := (Crowd.start s).run clients schedule
      ∃ reports : Fin n → Report, (∀ i, c.phase i = .done (.ok (reports i))) ∧
        items c.store =
          (items s).filter (fun a => ∀ i, ¬ (pointers s).Reaches (idOf a) (clients i).root) ∧
        ∑ i, (reports i).deleted + (items c.store).length = (items s).length) ∧
    (∀ i j, ∃ a b a' b' s₁ s₂ s₁' s₂',
      delete (clients i).limits (clients i).root s = .ok a s₁ ∧
      delete (clients j).limits (clients j).root s₁ = .ok b s₂ ∧
      delete (clients j).limits (clients j).root s = .ok b' s₁' ∧
      delete (clients i).limits (clients i).root s₁' = .ok a' s₂' ∧
      items s₂ = items s₂' ∧ a.deleted + b.deleted = b'.deleted + a'.deleted) ∧
    ∀ i, ∃ first again s₁ s₂,
      delete (clients i).limits (clients i).root s = .ok first s₁ ∧
      delete (clients i).limits (clients i).root s₁ = .ok again s₂ ∧
      again.deleted = 0 ∧ items s₂ = items s₁ := by
  have sound : ∀ schedule, ((Crowd.start s).run clients schedule).Sound clients s := fun schedule =>
    (Crowd.Sound.start clients faultless).run faultless (fun i => exists_preview_of_delete (alone i)) schedule
  refine ⟨fun schedule i e failed => ?_, fun schedule all => ?_, fun i j => ?_, fun i => ?_⟩
  · obtain ⟨_, ⟨⟩⟩ := (sound schedule).succeeded i _ failed
  · intro c
    obtain ⟨reports, done⟩ := (sound schedule).exists_reports fun i => by
      have stage := Crowd.stage_run clients schedule (.start s) i
      have enough := all i
      omega
    exact ⟨reports, done, (sound schedule).of_done done⟩
  · obtain ⟨a, b, s₁, s₂, first, second, _, left, counted, counted'⟩ :=
      exists_delete_delete faultless (alone i) (alone j)
    obtain ⟨b', a', s₁', s₂', first', second', _, left', counted₁, counted₂⟩ :=
      exists_delete_delete faultless (alone j) (alone i)
    have same : items s₂ = items s₂' := by
      rw [left, left']
      simp only [or_comm]
    refine ⟨a, b, a', b', s₁, s₂, s₁', s₂', first, second, first', second', same, ?_⟩
    rw [same] at counted'
    omega
  · obtain ⟨a, b, s₁, s₂, first, second, left, again, _, counted⟩ :=
      exists_delete_delete faultless (alone i) (alone i)
    have same : items s₂ = items s₁ := by
      rw [left, again]
      simp only [or_self]
    rw [same] at counted
    exact ⟨a, b, s₁, s₂, first, second, by omega, same⟩

/-- Two clients delete a task and one below it; the batch of the inner delete comes between the walk and the
batch of the outer one. -/
theorem deletes_interleave_of_two :
    let oak : Task := .new "oak" "Oak" 1
    let elm : Task := { Task.new "elm" "Elm" 2 with parent := some "oak" }
    let ivy : Task := { Task.new "ivy" "Ivy" 3 with parent := some "elm" }
    let ash : Task := .new "ash" "Ash" 4
    let store : Table := .ofList [oak, elm, ivy, ash]
    let clients : Fin 2 → Client := ![⟨"oak", {}⟩, ⟨"elm", {}⟩]
    let c := (Crowd.start store).run clients [0, 1, 1, 0]
    ∃ outer inner, c.phase 0 = .done (.ok outer) ∧ c.phase 1 = .done (.ok inner) ∧
      c.store.rows.map Row.id = ["ash"] ∧ outer.deleted + inner.deleted = 3 := by
  intro oak elm ivy ash store clients c
  have alone : ∀ i, ∃ report after,
      delete (clients i).limits (clients i).root store = .ok report after :=
    Fin.forall_fin_two.2 ⟨⟨_, _, by cbv⟩, ⟨_, _, by cbv⟩⟩
  have faultless : Faultless store := by cbv
  obtain ⟨reports, done, _, counted⟩ :=
    (deletes_interleave store faultless clients alone).2.1 [0, 1, 1, 0] (by decide)
  have left : c.store.rows.map Row.id = ["ash"] := by cbv
  refine ⟨reports 0, reports 1, done 0, done 1, left, ?_⟩
  rw [Fin.sum_univ_two] at counted
  have one : (items c.store).length = 1 := by
    rw [← List.length_map Row.id]
    exact congrArg List.length left
  have four : (items store).length = 4 := by cbv
  change _ + (items c.store).length = _ at counted
  omega

end TaskForest
