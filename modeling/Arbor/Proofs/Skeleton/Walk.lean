import Mathlib.Logic.Relation
import Mathlib.Data.List.Forall2
import Arbor.Proofs.Skeleton.Build
import Arbor.Skeleton.Grow
/-!
# A skeleton follows the walk it is grown from

A space turtle and a builder fed its trace move in step: a push of the turtle saves its pose
where the builder saves its focus, a pop restores both, and a move lays a bone from where the
turtle stood to where it stops. Read against the walk of a turtle from a pose `start`:

* `FocusAt origin bones f pos`: the focus `f` stands at `pos`: `pos` is the tip of the bone `f`
  names, or, for a lost focus, the origin, where bone `0` then ends;
* `Tracks origin t b`: the builder `b`, fed the trace of `t`, stands where `t` stands, focus by
  focus and level by level; its bones start where their parents end, bone `0` starts at the
  origin, and after the anchor, if one was laid, the bones lay the moves of the trace in order.

Main statements: every step that succeeds keeps `Tracks` (`Tracks.run`), so along every walk
the builder takes the trace without failing and stays in step (`Tracks.walk`); a fresh builder fed
the trace of a walk from `start` therefore follows it event by event (`Tracks.followsWalk`), and
growing a skeleton fails exactly when the walk does (`growSkeleton_follows_walk`).
-/

namespace Arbor

open Relation

/-- The segment a move event lays: where it starts, where it ends, and the orientation. -/
def Event.segment? : Event → Option (Vec3 × Vec3 × Quat)
  | .move src dst rotation => some (src, dst, rotation)
  | _ => none

/-- Where a bone starts and ends, and the orientation it was laid with. -/
def Bone.segment (b : Bone) : Vec3 × Vec3 × Quat := (b.base, b.tip, b.rotation)

/-- One step that succeeds takes `t` to `t'`. -/
def SpaceTurtle.StepsTo (t t' : SpaceTurtle) : Prop := ∃ s : SpaceStep, s.run t = (t', none)

/-- The focus `f` stands at `pos`: at the tip of the bone it names, or, when it is lost, at the
origin, where bone `0` then ends. -/
def FocusAt (origin : Vec3) (bones : Array Bone) : Option Nat → Vec3 → Prop
  | some i, pos => bones[i]?.map Bone.tip = some pos
  | none, pos => pos = origin ∧ ∀ x ∈ bones[0]?.map Bone.tip, x = origin

/-- How a builder fed the trace of a walk from `origin` stands to the turtle at that point. -/
structure Tracks (origin : Vec3) (t : SpaceTurtle) (b : Builder) : Prop where
  /-- The focus stands where the turtle stands. -/
  focus : FocusAt origin b.bones b.focus t.pose.position
  /-- Each saved focus stands where the turtle saved its pose, level by level. -/
  saved : List.Forall₂ (fun s p => FocusAt origin b.bones s.focus p.position) b.stack t.saved
  /-- Before the first bone, a branch is open at every level but the bottom one. -/
  opens : b.bones.size = 0 →
    b.opensBranch :: b.stack.map (·.opensBranch) = List.replicate b.stack.length true ++ [false]
  /-- Every bone starts where its parent ends. -/
  joined : ∀ i p, parentOf b.bones i = some p → b.bones[i]?.map Bone.base = b.bones[p]?.map Bone.tip
  /-- Bone `0` starts at the origin. -/
  root : ∀ x ∈ b.bones[0]?.map Bone.base, x = origin
  /-- After the anchor, if one was laid, the bones lay the moves of the trace in order; the
  anchor ends at the origin. -/
  moves : ∃ a ≤ 1, a ≤ b.bones.size ∧
    (b.bones.toList.map Bone.segment).drop a = t.events.toList.filterMap Event.segment? ∧
    (a = 1 → ∀ x ∈ b.bones[0]?.map Bone.tip, x = origin)

namespace SpaceTurtle

variable (t : SpaceTurtle)

@[simp] theorem moveForward_pose (d : Float32) :
    (t.moveForward d).pose = { t.pose with position := t.pose.ahead d } := rfl

@[simp] theorem moveForward_saved (d : Float32) : (t.moveForward d).saved = t.saved := rfl

@[simp] theorem moveForward_events (d : Float32) :
    (t.moveForward d).events =
      t.events.push (.move t.pose.position (t.pose.ahead d) t.pose.rotation) :=
  rfl

@[simp] theorem rotate_position (yaw pitch : Float32) :
    (t.rotate yaw pitch).pose.position = t.pose.position := rfl

@[simp] theorem rotate_saved (yaw pitch : Float32) : (t.rotate yaw pitch).saved = t.saved := rfl

@[simp] theorem rotate_events (yaw pitch : Float32) :
    (t.rotate yaw pitch).events = t.events.push (.rotate yaw pitch) := rfl

@[simp] theorem push_pose : t.push.pose = t.pose := rfl

@[simp] theorem push_saved : t.push.saved = t.pose :: t.saved := rfl

@[simp] theorem push_events : t.push.events = t.events.push .push := rfl

end SpaceTurtle

section Attach

variable {origin : Vec3} {bones : Array Bone} {bone : Bone}

theorem forall_mem_map_attach_zero {α : Type} {f : Bone → α} {P : α → Prop}
    (hf : ∀ q cs, f { q with children := cs } = f q) (hnew : bones.size = 0 → P (f bone))
    (hold : ∀ x ∈ bones[0]?.map f, P x) : ∀ x ∈ (attach bones bone)[0]?.map f, P x := by
  rw [getElem?_map_attach hf]
  split
  · rename_i h0
    rintro x ⟨⟩
    exact hnew h0.symm
  · exact hold

theorem FocusAt.attach_self : FocusAt origin (attach bones bone) (some bones.size) bone.tip := by
  show (attach bones bone)[bones.size]?.map Bone.tip = some bone.tip
  rw [getElem?_map_attach (fun _ _ => rfl), if_pos rfl]

/-- A focus keeps its place when a leaf is attached, unless the leaf becomes bone `0` away from
the origin. -/
theorem FocusAt.attach {f : Option Nat} {pos : Vec3} (h : FocusAt origin bones f pos)
    (hfirst : bones.size = 0 → bone.tip = origin) : FocusAt origin (attach bones bone) f pos := by
  cases f with
  | some i =>
    have hi : i ≠ bones.size := fun hi => by
      simp [FocusAt, hi] at h
    simp only [FocusAt] at h ⊢
    rw [getElem?_map_attach (fun _ _ => rfl), if_neg hi, h]
  | none => exact ⟨h.1, forall_mem_map_attach_zero (fun _ _ => rfl) hfirst h.2⟩

end Attach

namespace Builder

theorem observeAll_append {b b' : Builder} {es : List Event} (h : b.observeAll es = (b', none))
    (es' : List Event) : b.observeAll (es ++ es') = b'.observeAll es' := by
  induction es generalizing b with
  | nil =>
    obtain ⟨rfl, -⟩ := Prod.mk.inj h
    rfl
  | cons e es ih =>
    rcases hb : b.observe e with ⟨b₁, _ | f⟩
    · simp only [List.cons_append, observeAll, hb] at h ⊢
      exact ih h
    · simp [observeAll, hb] at h

theorem observeAll_singleton {b : Builder} {e : Event} (h : (b.observe e).2 = none) :
    b.observeAll [e] = ((b.observe e).1, none) := by
  rcases hb : b.observe e with ⟨b₁, _ | f⟩
  · simp [observeAll, hb]
  · simp [hb] at h

theorem feed_append_singleton (b : Builder) (es : List Event) (e : Event) :
    b.feed (es ++ [e]) = ((b.feed es).observe e).1 := by
  simp [feed, List.foldl_append]

end Builder

namespace Tracks

variable {origin : Vec3} {t : SpaceTurtle} {b : Builder}

theorem position_of_empty (h : Tracks origin t b) (h0 : b.bones.size = 0) :
    b.focus = none ∧ t.pose.position = origin := by
  have hf := h.focus
  cases hb : b.focus with
  | some i => simp [hb, FocusAt, h0] at hf
  | none =>
    rw [hb] at hf
    exact ⟨rfl, hf.1⟩

theorem tip_nextParent (h : Tracks origin t b) {p : Nat} (hp : b.nextParent = some p) :
    b.bones[p]?.map Bone.tip = some t.pose.position := by
  have hpos : 0 < b.bones.size := Nat.pos_of_ne_zero fun h0 => by
    simp [Builder.nextParent, (h.position_of_empty h0).1, h0] at hp
  rw [Builder.nextParent_of_pos hpos, Option.some.injEq] at hp
  have hf := h.focus
  cases hb : b.focus with
  | some i =>
    rw [hb] at hf hp
    rw [← hp]
    exact hf
  | none =>
    rw [hb] at hf hp
    rw [← hp, hf.1]
    obtain ⟨r, hr⟩ : ∃ r, b.bones[0]? = some r := ⟨_, Array.getElem?_eq_getElem hpos⟩
    have := hf.2 r.tip (by simp [hr])
    simp [hr, this]

theorem addBone (h : Tracks origin t b) (hfirst : b.bones.size = 0 → b.stack = []) (d : Float32) :
    Tracks origin (t.moveForward d)
      (b.addBone t.pose.position (t.pose.ahead d) t.pose.rotation) := by
  rw [Builder.addBone_eq]
  refine ⟨FocusAt.attach_self, ?_, fun h0 => absurd h0 (by simp), ?_, ?_, ?_⟩
  · rcases Nat.eq_zero_or_pos b.bones.size with h0 | hpos
    · have hs := hfirst h0
      have hsv : t.saved = [] := List.forall₂_nil_left_iff.1 (hs ▸ h.saved)
      simp [hs, hsv]
    · exact h.saved.imp fun _ _ hs => hs.attach fun h0 => absurd h0 (by omega)
  · intro i p hp
    rw [parentOf_attach] at hp
    rw [getElem?_map_attach (fun _ _ => rfl), getElem?_map_attach (fun _ _ => rfl)]
    split at hp
    · -- the new bone starts where its parent ends
      subst i
      have hpn : p < b.bones.size := by
        have := h.tip_nextParent hp
        by_contra hn
        simp [Array.getElem?_eq_none (Nat.le_of_not_lt hn)] at this
      rw [if_pos rfl, if_neg (by omega), h.tip_nextParent hp]
      rfl
    · rename_i hi
      have hj := h.joined i p hp
      have hpn : p ≠ b.bones.size := fun hpn => by
        rw [hpn, Array.getElem?_eq_none (Nat.le_refl _)] at hj
        simp [Array.getElem?_eq_getElem (lt_size_of_parentOf hp)] at hj
      rw [if_neg hi, if_neg hpn, hj]
  · exact forall_mem_map_attach_zero (fun _ _ => rfl) (fun h0 => (h.position_of_empty h0).2) h.root
  · obtain ⟨a, ha, han, hmoves, hanchor⟩ := h.moves
    refine ⟨a, ha, by simp; omega, ?_, fun h1 => ?_⟩
    · rw [map_toList_attach (fun _ _ => rfl), List.drop_append_of_le_length (by simp; omega),
        hmoves, SpaceTurtle.moveForward_events, Array.toList_push, List.filterMap_append]
      rfl
    · rw [getElem?_map_attach (fun _ _ => rfl), if_neg (by omega)]
      exact hanchor h1

/-- When the first move comes while something is saved, the anchor laid at the origin keeps
the builder in step with the turtle that has not moved yet. -/
theorem anchor (h : Tracks origin t b) (h0 : b.bones.size = 0) (rotation : Quat) :
    Tracks origin t
      { b.addBone t.pose.position t.pose.position rotation with opensBranch := true } := by
  obtain ⟨hfocus, hpos⟩ := h.position_of_empty h0
  have hempty : b.bones = #[] := Array.size_eq_zero_iff.1 h0
  have hparent : b.nextParent = none := by simp [Builder.nextParent, hfocus, h0]
  rw [Builder.addBone_eq]
  have hnone {f : Bone → Vec3} : ∀ x ∈ b.bones[0]?.map f, x = origin := by simp [hempty]
  refine ⟨FocusAt.attach_self, ?_, fun h1 => absurd h1 (by simp), ?_, ?_, ?_⟩
  · exact h.saved.imp fun _ _ hs => hs.attach fun _ => hpos
  · intro i p hp
    rw [parentOf_attach] at hp
    split at hp
    · simp [Builder.nextBone, hparent] at hp
    · simp [parentOf, hempty] at hp
  · exact forall_mem_map_attach_zero (fun _ _ => rfl) (fun _ => hpos) hnone
  · -- the anchor is the only bone, and no move was traced yet
    obtain ⟨a, -, han, hmoves, -⟩ := h.moves
    obtain rfl : a = 0 := by omega
    refine ⟨1, Nat.le_refl _, by simp, ?_, fun _ => ?_⟩
    · rw [map_toList_attach (fun _ _ => rfl), ← hmoves, hempty]
      rfl
    · exact forall_mem_map_attach_zero (fun _ _ => rfl) (fun _ => hpos) hnone

theorem push (h : Tracks origin t b) : Tracks origin t.push (b.observe .push).1 := by
  rw [Builder.observe_push]
  obtain ⟨a, ha, han, hmoves, hanchor⟩ := h.moves
  refine ⟨h.focus, .cons h.focus h.saved, fun h0 => ?_, h.joined, h.root,
    ⟨a, ha, han, ?_, hanchor⟩⟩
  · rw [List.map_cons, h.opens h0]
    simp [List.replicate_succ]
  · rw [SpaceTurtle.push_events, Array.toList_push, List.filterMap_append, ← hmoves]
    simp [Event.segment?]

theorem pop (h : Tracks origin t b) {p : SpacePose} {rest : List SpacePose}
    (ht : t.saved = p :: rest) :
    (b.observe .pop).2 = none ∧
      Tracks origin ⟨p, rest, t.events.push .pop⟩ (b.observe .pop).1 := by
  have hsaved := h.saved
  rw [ht, List.forall₂_cons_right_iff] at hsaved
  obtain ⟨s, srest, hs, hrest, hstack⟩ := hsaved
  rw [Builder.observe_pop, hstack]
  obtain ⟨a, ha, han, hmoves, hanchor⟩ := h.moves
  refine ⟨rfl, hs, hrest, fun h0 => ?_, h.joined, h.root, ⟨a, ha, han, ?_, hanchor⟩⟩
  · have := h.opens h0
    rw [hstack] at this
    simpa [List.replicate_succ] using (List.cons.inj this).2
  · rw [Array.toList_push, List.filterMap_append, ← hmoves]
    simp [Event.segment?]

theorem rotate (h : Tracks origin t b) (yaw pitch : Float32) :
    Tracks origin (t.rotate yaw pitch) b := by
  obtain ⟨a, ha, han, hmoves, hanchor⟩ := h.moves
  refine ⟨?_, ?_, h.opens, h.joined, h.root, ⟨a, ha, han, ?_, hanchor⟩⟩
  · rw [SpaceTurtle.rotate_position]
    exact h.focus
  · rw [SpaceTurtle.rotate_saved]
    exact h.saved
  · rw [SpaceTurtle.rotate_events, Array.toList_push, List.filterMap_append, ← hmoves]
    simp [Event.segment?]

theorem move (h : Tracks origin t b) (d : Float32) :
    Tracks origin (t.moveForward d)
      (b.observe (.move t.pose.position (t.pose.ahead d) t.pose.rotation)).1 := by
  rw [Builder.observe_move]
  split
  · rename_i hc
    have h0 : b.bones.size = 0 := by
      simp only [Bool.and_eq_true, decide_eq_true_eq] at hc
      exact hc.1
    have hanchored := h.anchor h0 t.pose.rotation
    exact hanchored.addBone (fun h1 => absurd h1 (by simp [Builder.addBone_eq])) d
  · -- before the first bone no branch is open only when nothing is saved
    rename_i hc
    refine h.addBone (fun h0 => ?_) d
    have hob : b.opensBranch = false := by simpa [h0] using hc
    have := h.opens h0
    rw [hob] at this
    cases hs : b.stack with
    | nil => rfl
    | cons s rest => simp [hs, List.replicate_succ] at this

/-- Every step that succeeds adds one event to the trace, which the builder takes without failing
and stays in step. -/
theorem run (h : Tracks origin t b) {s : SpaceStep} {t' : SpaceTurtle}
    (hs : s.run t = (t', none)) :
    ∃ e, t'.events = t.events.push e ∧ (b.observe e).2 = none ∧
      Tracks origin t' (b.observe e).1 := by
  cases s with
  | move d =>
    obtain ⟨rfl, -⟩ := Prod.mk.inj hs
    exact ⟨_, rfl, rfl, h.move d⟩
  | rotate yaw pitch =>
    obtain ⟨rfl, -⟩ := Prod.mk.inj hs
    exact ⟨_, rfl, rfl, h.rotate yaw pitch⟩
  | push =>
    obtain ⟨rfl, -⟩ := Prod.mk.inj hs
    exact ⟨_, rfl, rfl, h.push⟩
  | pop =>
    obtain ⟨pose, saved, events⟩ := t
    cases saved with
    | nil => simp [SpaceStep.run, SpaceTurtle.pop] at hs
    | cons p rest =>
      obtain ⟨rfl, -⟩ := Prod.mk.inj hs
      exact ⟨.pop, rfl, h.pop rfl⟩

theorem init (start : SpacePose) (config : SkeletonConfig) (falloff : Option Falloff) :
    Tracks start.position (.startingAt start) { config, falloff } :=
  ⟨⟨rfl, by simp⟩, .nil, fun _ => rfl, by simp [parentOf], by simp,
    ⟨0, Nat.zero_le _, Nat.le_refl _, rfl, by simp⟩⟩

/-- Along every walk of successful steps the builder takes the events the walk adds without
failing, and stays in step. -/
theorem walk (h : Tracks origin t b) {t' : SpaceTurtle}
    (hw : ReflTransGen SpaceTurtle.StepsTo t t') :
    ∃ es, t'.events.toList = t.events.toList ++ es ∧ b.observeAll es = (b.feed es, none) ∧
      Tracks origin t' (b.feed es) := by
  induction hw with
  | refl => exact ⟨[], by simp, rfl, h⟩
  | tail _ hstep ih =>
    obtain ⟨es, hev, hall, hu⟩ := ih
    obtain ⟨s, hs⟩ := hstep
    obtain ⟨e, hev', hok, ht'⟩ := hu.run hs
    refine ⟨es ++ [e], ?_, ?_, ?_⟩
    · rw [hev', Array.toList_push, hev, List.append_assoc]
    · rw [Builder.observeAll_append hall, Builder.observeAll_singleton hok,
        Builder.feed_append_singleton]
    · rw [Builder.feed_append_singleton]
      exact ht'

end Tracks

namespace SpaceTurtle

theorem StepsTo.events {t t' : SpaceTurtle} (h : t.StepsTo t') :
    ∃ e, t'.events = t.events.push e := by
  obtain ⟨s, hs⟩ := h
  cases s with
  | move d =>
    obtain ⟨rfl, -⟩ := Prod.mk.inj hs
    exact ⟨_, rfl⟩
  | rotate yaw pitch =>
    obtain ⟨rfl, -⟩ := Prod.mk.inj hs
    exact ⟨_, rfl⟩
  | push =>
    obtain ⟨rfl, -⟩ := Prod.mk.inj hs
    exact ⟨_, rfl⟩
  | pop =>
    obtain ⟨pose, saved, events⟩ := t
    cases saved with
    | nil => simp [SpaceStep.run, SpaceTurtle.pop] at hs
    | cons p rest =>
      obtain ⟨rfl, -⟩ := Prod.mk.inj hs
      exact ⟨.pop, rfl⟩

/-- Every prefix of the trace a walk adds is the trace at some point of the walk. -/
theorem exists_between {t t' : SpaceTurtle} (hw : ReflTransGen StepsTo t t') (k : Nat)
    (hlo : t.events.size ≤ k) (hhi : k ≤ t'.events.size) :
    ∃ tk, ReflTransGen StepsTo t tk ∧ ReflTransGen StepsTo tk t' ∧
      tk.events.toList = t'.events.toList.take k := by
  induction hw with
  | refl =>
    obtain rfl : k = t.events.size := by omega
    exact ⟨t, .refl, .refl, (List.take_of_length_le (by simp)).symm⟩
  | @tail u t' hw hstep ih =>
    obtain ⟨e, he⟩ := hstep.events
    rw [he, Array.size_push] at hhi
    -- a prefix short of the last event was met before the last step; the whole trace is met at
    -- its end
    by_cases hk : k ≤ u.events.size
    · obtain ⟨tk, h₁, h₂, hev⟩ := ih hk
      refine ⟨tk, h₁, h₂.tail hstep, ?_⟩
      rw [hev, he, Array.toList_push, List.take_append_of_le_length (by simpa using hk)]
    · obtain rfl : k = u.events.size + 1 := by omega
      refine ⟨t', hw.tail hstep, .refl, ?_⟩
      rw [he, List.take_of_length_le (by simp)]

theorem stepsTo_runAll (t : SpaceTurtle) (steps : List SpaceStep)
    (h : (SpaceStep.runAll t steps).2 = none) :
    ReflTransGen StepsTo t (SpaceStep.runAll t steps).1 := by
  induction steps generalizing t with
  | nil => exact .refl
  | cons s steps ih =>
    rcases hs : s.run t with ⟨t₁, _ | f⟩
    · simp only [SpaceStep.runAll, hs] at h ⊢
      exact ReflTransGen.head ⟨s, hs⟩ (ih t₁ h)
    · simp [SpaceStep.runAll, hs] at h

end SpaceTurtle

namespace SpaceInterpreter

open SpaceTurtle

theorem stepsTo_walkRuns (ip : SpaceInterpreter) (t : SpaceTurtle) (r : Rng)
    (runs : List (Symbol × Nat)) (h : (ip.walkRuns t r runs).2.2 = none) :
    ReflTransGen StepsTo t (ip.walkRuns t r runs).1 := by
  induction runs generalizing t r with
  | nil => exact .refl
  | cons run runs ih =>
    obtain ⟨a, n⟩ := run
    rcases hrun : SpaceStep.runAll t ((ip.actions a).plan n r).1 with ⟨t₁, _ | f⟩
    · have hsteps := stepsTo_runAll t _ (by rw [hrun])
      rw [hrun] at hsteps
      simp only [walkRuns, hrun] at h ⊢
      exact hsteps.trans (ih t₁ _ h)
    · simp [walkRuns, hrun] at h

theorem stepsTo_interpretFrom (ip : SpaceInterpreter) (word : Word) (start : SpacePose) (r : Rng)
    (h : (ip.interpretFrom word start r).2.2 = none) :
    ReflTransGen StepsTo (.startingAt start) (ip.interpretFrom word start r).1 :=
  ip.stepsTo_walkRuns _ r _ h

end SpaceInterpreter

/-- What a builder `b` ends as (`b'`) when fed the trace of a walk from `start` that ends at `t`:
no event fails; after each event the builder holds as many saved foci as the turtle at that
point of the walk holds poses; the bones lay the moves of the trace in order, after a zero-length
anchor at the start when one is laid; every bone starts where its parent ends; and bone `0`
starts at the start. -/
structure FollowsWalk (start : SpacePose) (t : SpaceTurtle) (b b' : Builder) : Prop where
  observeAll_eq : b.observeAll t.events.toList = (b', none)
  depth : ∀ k ≤ t.events.size, ∃ tk : SpaceTurtle,
    ReflTransGen SpaceTurtle.StepsTo (.startingAt start) tk ∧ ReflTransGen SpaceTurtle.StepsTo tk t ∧
      tk.events.toList = t.events.toList.take k ∧
      (b.observeAll (t.events.toList.take k)).1.stack.length = tk.depth
  moves : ∃ a ≤ 1, a ≤ b'.bones.size ∧
    (b'.bones.toList.map Bone.segment).drop a = t.events.toList.filterMap Event.segment? ∧
    (a = 1 → ∀ x ∈ b'.bones[0]?.map Bone.tip, x = start.position)
  joined : ∀ i p, parentOf b'.bones i = some p → b'.bones[i]?.map Bone.base = b'.bones[p]?.map Bone.tip
  root : ∀ x ∈ b'.bones[0]?.map Bone.base, x = start.position

theorem Tracks.followsWalk (start : SpacePose) (config : SkeletonConfig) (falloff : Option Falloff)
    {t : SpaceTurtle} (hw : ReflTransGen SpaceTurtle.StepsTo (.startingAt start) t) :
    FollowsWalk start t { config, falloff }
      (({ config, falloff } : Builder).feed t.events.toList) := by
  have hinit := Tracks.init start config falloff
  have hwalk {u : SpaceTurtle} (hu : ReflTransGen SpaceTurtle.StepsTo (.startingAt start) u) :
      (({ config, falloff } : Builder).observeAll u.events.toList) =
          (({ config, falloff } : Builder).feed u.events.toList, none) ∧
        Tracks start.position u (({ config, falloff } : Builder).feed u.events.toList) := by
    obtain ⟨es, hev, hall, hu⟩ := hinit.walk hu
    rw [hev]
    exact ⟨hall, hu⟩
  obtain ⟨hall, ht⟩ := hwalk hw
  refine ⟨hall, fun k hk => ?_, ht.moves, ht.joined, ht.root⟩
  obtain ⟨tk, h₁, h₂, hev⟩ := SpaceTurtle.exists_between hw k (Nat.zero_le _) hk
  obtain ⟨hallk, htk⟩ := hwalk h₁
  refine ⟨tk, h₁, h₂, hev, ?_⟩
  rw [← hev, hallk]
  exact htk.saved.length_eq

/-- Growing a skeleton fails exactly when the walk from the origin fails, with the same fault;
and for every start, a fresh builder fed the trace of a walk that succeeds follows that walk. -/
theorem SpaceInterpreter.growSkeleton_follows_walk (ip : SpaceInterpreter) (word : Word) (r : Rng)
    (config : SkeletonConfig) (falloff : Option Falloff) :
    (∀ e, (ip.growSkeleton word r { config, falloff }).1 = .error e ↔
        (ip.interpretFrom word {} r).2.2 = some e) ∧
      ∀ start, (ip.interpretFrom word start r).2.2 = none →
        ∃ b', FollowsWalk start (ip.interpretFrom word start r).1 { config, falloff } b' := by
  refine ⟨fun e => ?_, fun start h =>
    ⟨_, Tracks.followsWalk start config falloff (ip.stepsTo_interpretFrom word start r h)⟩⟩
  unfold growSkeleton
  rcases hw : ip.interpretFrom word {} r with ⟨t, r', _ | f⟩
  · have hall := (Tracks.followsWalk {} config falloff
      (ip.stepsTo_interpretFrom word {} r (by rw [hw]))).observeAll_eq
    rw [hw] at hall
    simp [hall]
  · simp

/-- The walk of `[F]F`, which forks at its very start, succeeds, and the builder follows it. -/
theorem growSkeleton_follows_walk_fork :
    ((SpaceInterpreter.standard {}).interpretFrom [91, 70, 93, 70] {} (Rng.ofSeed 0)).2.2 = none ∧
      ∃ b', FollowsWalk {} ((SpaceInterpreter.standard {}).interpretFrom [91, 70, 93, 70] {}
        (Rng.ofSeed 0)).1 {} b' :=
  ⟨rfl, (SpaceInterpreter.growSkeleton_follows_walk _ _ _ {} none).2 {} rfl⟩

end Arbor