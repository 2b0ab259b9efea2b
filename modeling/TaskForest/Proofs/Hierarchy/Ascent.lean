import Mathlib
import TaskForest.Hierarchy.Ancestors
import TaskForest.Proofs.Pointers.Upward
import TaskForest.Proofs.Store.Coded

/-!
The way up, stop by stop. A climb goes along the stored ids above its start as long as it meets none twice and has
room for them, and what it meets next decides how it ends: the end of the way, an id that was met before, or one
for which there is no room.
-/

namespace TaskForest

open LinkedStore (pointers)
open ItemStore (items Readable)

variable {σ : Type} [TaskStore σ]

/-- Every look-up succeeds, leaves the store as it is and shows the pointers. -/
def LooksUp (s : σ) (f : Pointers) : Prop :=
  ∀ id, ∃ found, TaskStore.get id s = .ok found s ∧ f.Shows id found

namespace LooksUp

variable {s : σ} {f : Pointers} {start p z : String} {room maxDepth n : Nat} {seen : List String}

open Ancestors (climb)

theorem climb_of_end (looks : LooksUp s f) (ends : f.storedParent z = none) (start : String) (room : Nat)
    (seen : List String) : climb start room seen (f.parent z) s = .ok [] s := by
  unfold climb
  cases up : f.parent z with
  | none => rfl
  | some p =>
      obtain ⟨found, told, shows⟩ := looks p
      cases found with
      | none => simp only [bind_of_ok (lift_of_ok told), pure, EStateM.pure]
      | some task =>
          rw [Pointers.storedParent_eq_some.2 ⟨up, shows.stored⟩] at ends
          cases ends

theorem climb_of_stored (looks : LooksUp s f) (stored : f.storedParent z = some p) (start : String)
    (room : Nat) (seen : List String) :
    climb start room seen (f.parent z) s =
      if p ∈ seen then .error (.cycle p) s
      else match room with
        | 0 => .error (.tooDeep start) s
        | room + 1 => ((p :: ·) <$> climb start room (p :: seen) (f.parent p) : HierarchyM σ _) s := by
  obtain ⟨up, here⟩ := Pointers.storedParent_eq_some.1 stored
  obtain ⟨found, told, shows⟩ := looks p
  cases found with
  | none => exact absurd here shows.missing
  | some task =>
      have next : f.parent p = task.parent := shows.parent
      rw [up, next]
      conv_lhs => unfold climb
      rw [bind_of_ok (lift_of_ok told)]
      by_cases met : p ∈ seen
      · simp only [if_pos met]
        rfl
      · simp only [if_neg met]
        cases room with
        | zero => rfl
        | succ room => simp only [bind_pure_comp]

theorem climb_of_met (looks : LooksUp s f) (stored : f.storedParent z = some p) (met : p ∈ seen)
    (start : String) (room : Nat) : climb start room seen (f.parent z) s = .error (.cycle p) s := by
  rw [looks.climb_of_stored stored, if_pos met]

theorem climb_of_no_room (looks : LooksUp s f) (stored : f.storedParent z = some p) (new : p ∉ seen)
    (start : String) : climb start 0 seen (f.parent z) s = .error (.tooDeep start) s := by
  rw [looks.climb_of_stored stored, if_neg new]

theorem climb_of_room (looks : LooksUp s f) (stored : f.storedParent z = some p) (new : p ∉ seen)
    (start : String) (room : Nat) :
    climb start (room + 1) seen (f.parent z) s =
      ((p :: ·) <$> climb start room (p :: seen) (f.parent p) : HierarchyM σ _) s := by
  rw [looks.climb_of_stored stored, if_neg new]

/-- Where a climb stands after `n` stored ids: it has come to `top`, and knows the ids that it met. -/
structure Climbed (f : Pointers) (start : String) (n : Nat) (as seen : List String) (top : String) : Prop
    extends f.Nearest start n as where
  seen_iff : ∀ y, y ∈ seen ↔ ∃ i ≤ n, f.ancestor? start i = some y
  next : f.storedParent top = f.ancestor? start (n + 1)

theorem Climbed.zero (f : Pointers) (x : String) : Climbed f x 0 [] [x] x where
  toNearest := .zero f x
  seen_iff y := by simp [Pointers.ancestor?, eq_comm]
  next := rfl

theorem Climbed.succ {as : List String} {top : String} (h : Climbed f start n as seen top)
    (there : f.ancestor? start (n + 1) = some p) : Climbed f start (n + 1) (as ++ [p]) (p :: seen) p where
  toNearest := h.toNearest.succ there
  seen_iff y := by
    rw [List.mem_cons, h.seen_iff]
    constructor
    · rintro (rfl | ⟨i, le, same⟩)
      · exact ⟨n + 1, Nat.le_refl _, there⟩
      · exact ⟨i, Nat.le_succ_of_le le, same⟩
    · intro got
      obtain ⟨i, le, same⟩ := got
      rcases Nat.le_succ_iff.1 le with le | rfl
      · exact .inr ⟨i, le, same⟩
      · exact .inl (Option.some.inj (same.symm.trans there))
  next := (Pointers.ancestor?_succ there).symm

theorem Climbed.new {as : List String} {top : String} (h : Climbed f start n as seen top)
    (straight : f.Straight start (n + 1)) (there : f.ancestor? start (n + 1) = some p) : p ∉ seen := by
  intro met
  obtain ⟨i, le, same⟩ := (h.seen_iff p).1 met
  exact straight.apart i (n + 1) (Nat.lt_succ_of_le le) (Nat.le_refl _) (same.trans there.symm)

/-- As far as the way is straight and there is room, the climb goes along it. -/
theorem climb_along (looks : LooksUp s f) (straight : f.Straight start n) (le : n ≤ room) :
    ∃ as seen top, Climbed f start n as seen top ∧
      climb start room [start] (f.parent start) s =
        ((as ++ ·) <$> climb start (room - n) seen (f.parent top) : HierarchyM σ _) s := by
  -- each id that is met takes one of the room, and the next one is new as the way is straight
  induction n with
  | zero => exact ⟨[], [start], start, .zero f start, by simp⟩
  | succ n ih =>
      obtain ⟨as, seen, top, h, climbed⟩ := ih straight.of_succ (Nat.le_of_succ_le le)
      obtain ⟨p, there⟩ := Option.ne_none_iff_exists'.1 straight.met
      have room_left : room - n = (room - (n + 1)) + 1 := by omega
      have next := looks.climb_of_room (h.next.trans there) (h.new straight there) start (room - (n + 1))
      refine ⟨as ++ [p], p :: seen, p, h.succ there, ?_⟩
      rw [climbed, room_left, map_congr_at next, Functor.map_map]
      simp only [List.append_assoc, List.singleton_append]

theorem ancestors_along (looks : LooksUp s f) (straight : f.Straight start n) (le : n + 1 ≤ maxDepth) :
    ∃ as seen top, Climbed f start n as seen top ∧
      ancestors maxDepth start s =
        ((as ++ ·) <$> climb start (maxDepth - (n + 1)) seen (f.parent top) : HierarchyM σ _) s := by
  obtain ⟨found, told, shows⟩ := looks start
  have first : ancestors maxDepth start s = climb start (maxDepth - 1) [start] (f.parent start) s := by
    rw [ancestors, bind_of_ok (lift_of_ok told), shows.parent]
  have room : maxDepth - (n + 1) = maxDepth - 1 - n := by omega
  rw [first, room]
  exact looks.climb_along straight (by omega)

theorem ancestors_of_ancestry {as : List String} (looks : LooksUp s f) (ancestry : f.Ancestry start as)
    (short : as.length + 1 ≤ maxDepth) : ancestors maxDepth start s = .ok as s := by
  obtain ⟨bs, seen, top, h, climbed⟩ := looks.ancestors_along ancestry.straight short
  rw [climbed, map_of_ok (looks.climb_of_end (h.next.trans ancestry.ends) _ _ _), List.append_nil,
    ancestry.eq_of_nearest h.toNearest]

theorem ancestors_of_firstRepeat {k : Nat} (looks : LooksUp s f) (again : f.FirstRepeat start k p)
    (near : k ≤ maxDepth) : ancestors maxDepth start s = .error (.cycle p) s := by
  obtain ⟨n, rfl, straight⟩ := again.exists_straight
  obtain ⟨as, seen, top, h, climbed⟩ := looks.ancestors_along straight near
  obtain ⟨j, lt, before⟩ := again.before
  have met : p ∈ seen := (h.seen_iff p).2 ⟨j, Nat.le_of_lt_succ lt, before⟩
  rw [climbed, map_of_error (looks.climb_of_met (h.next.trans again.here) met _ _)]

/-- With room for fewer ids than the way goes on to new ones, the climb gives up. -/
theorem ancestors_of_straight (looks : LooksUp s f) (some_level : 1 ≤ maxDepth)
    (straight : f.Straight start maxDepth) : ancestors maxDepth start s = .error (.tooDeep start) s := by
  obtain ⟨n, rfl⟩ : ∃ n, maxDepth = n + 1 := ⟨maxDepth - 1, by omega⟩
  obtain ⟨as, seen, top, h, climbed⟩ := looks.ancestors_along straight.of_succ (Nat.le_refl _)
  obtain ⟨p, there⟩ := Option.ne_none_iff_exists'.1 straight.met
  have full := looks.climb_of_no_room (h.next.trans there) (h.new straight there) start
  rw [climbed, Nat.sub_self, map_of_error full]

end LooksUp

variable [CodedStore σ]

theorem looksUp_of_readable {s : σ} (readable : ∀ a ∈ items s, Readable a) : LooksUp s (pointers s) := by
  intro id
  obtain ⟨found, told, _⟩ := CodedStore.exists_get readable id
  exact ⟨found, told, ((LinkedStore.get_yields id s).of_ok told).2⟩

/-- The way up from an id is told if it ends and leaves room for the id itself, and the nearest ids come first. If it
does not, the id that is met again before any other is reported as a cycle, as long as it is met within the bound, and
otherwise the id that the way began at is too deep. For an id that is not stored the answer is empty. -/
theorem ancestors_outcome (s : σ) (readable : ∀ a ∈ items s, Readable a) (maxDepth : Nat)
    (some_level : 1 ≤ maxDepth) (id : String) :
    let f := pointers s
    (∀ as, f.Ancestry id as → as.length + 1 ≤ maxDepth → ancestors maxDepth id s = .ok as s) ∧
    (∀ k x, f.FirstRepeat id k x → k ≤ maxDepth → ancestors maxDepth id s = .error (.cycle x) s) ∧
    ((∀ as, f.Ancestry id as → maxDepth < as.length + 1) → (∀ k x, f.FirstRepeat id k x → maxDepth < k) →
      ancestors maxDepth id s = .error (.tooDeep id) s) ∧
    (¬ f.Stored id → ancestors maxDepth id s = .ok [] s) := by
  intro f
  have looks : LooksUp s f := looksUp_of_readable readable
  refine ⟨fun as => looks.ancestors_of_ancestry, fun k x => looks.ancestors_of_firstRepeat, ?_, ?_⟩
  · intro long late
    have met : f.ancestor? id maxDepth ≠ none := by
      rcases f.nearest_or_ancestry id maxDepth with ⟨as, nearest⟩ | ⟨as, ancestry, short⟩
      · exact nearest.met
      · exact absurd (long as ancestry) (by omega)
    rcases f.straight_or_firstRepeat met with straight | ⟨k, x, again, near⟩
    · exact looks.ancestors_of_straight some_level straight
    · exact absurd near (Nat.not_le.2 (late k x again))
  · intro missing
    have alone : f.Ancestry id [] :=
      (Pointers.Nearest.zero f id).ancestry (Pointers.storedParent_of_missing missing)
    exact looks.ancestors_of_ancestry alone some_level

/-- A way up that goes into a cycle of two behind two more ids, and one that ends at a pointer that dangles. -/
theorem ancestors_outcome_of_six :
    let oak : Task := { Task.new "oak" "Oak" 1 with parent := some "elm" }
    let elm : Task := { Task.new "elm" "Elm" 2 with parent := some "oak" }
    let twig : Task := { Task.new "twig" "Twig" 3 with parent := some "oak" }
    let bud : Task := { Task.new "bud" "Bud" 4 with parent := some "twig" }
    let ash : Task := { Task.new "ash" "Ash" 5 with parent := some "ghost" }
    let ivy : Task := { Task.new "ivy" "Ivy" 6 with parent := some "ash" }
    let store : InMemory := .ofList [oak, elm, twig, bud, ash, ivy]
    ancestors 4 "bud" store = .error (.cycle "oak") store ∧
    ancestors 3 "bud" store = .error (.tooDeep "bud") store ∧
    ancestors 2 "ivy" store = .ok ["ash"] store ∧
    ancestors 1 "ghost" store = .ok [] store := by
  intro oak elm twig bud ash ivy store
  have readable : ∀ a ∈ items store, Readable a := fun _ _ => trivial
  have first : (pointers store).ancestor? "bud" 1 = some "twig" := by cbv
  have second : (pointers store).ancestor? "bud" 2 = some "oak" := by cbv
  have third : (pointers store).ancestor? "bud" 3 = some "elm" := by cbv
  have fourth : (pointers store).ancestor? "bud" 4 = some "oak" := by cbv
  have straight : (pointers store).Straight "bud" 3 := by
    refine ⟨by rw [third]; exact Option.some_ne_none _, fun i j lt le => ?_⟩
    interval_cases j <;> interval_cases i <;> simp [Pointers.ancestor?.eq_1, first, second, third]
  have again : (pointers store).FirstRepeat "bud" 4 "oak" :=
    ⟨fourth, ⟨2, by decide, second⟩, fun i j lt le => straight.apart i j lt (Nat.le_of_lt_succ le)⟩
  have alone : (pointers store).Ancestry "ivy" ["ash"] :=
    ((Pointers.Nearest.zero _ _).succ (by cbv)).ancestry (by cbv)
  have missing : ¬ (pointers store).Stored "ghost" := by
    unfold Pointers.Stored
    cbv
  obtain ⟨_, cyclic, _⟩ := ancestors_outcome store readable 4 (by decide) "bud"
  obtain ⟨_, _, deep, _⟩ := ancestors_outcome store readable 3 (by decide) "bud"
  obtain ⟨told, _⟩ := ancestors_outcome store readable 2 (by decide) "ivy"
  obtain ⟨_, _, _, nothing⟩ := ancestors_outcome store readable 1 (by decide) "ghost"
  refine ⟨cyclic 4 "oak" again (Nat.le_refl 4), deep ?_ ?_, told ["ash"] alone (Nat.le_refl 2), nothing missing⟩
  · intro as ancestry
    by_contra short
    exact straight.met (Pointers.ancestor?_eq_none_of_le ancestry.ends (Nat.not_lt.1 short))
  · intro k x early
    by_contra near
    obtain ⟨j, lt, same⟩ := early.before
    exact straight.apart j k lt (Nat.not_lt.1 near) (same.trans early.here.symm)

end TaskForest
