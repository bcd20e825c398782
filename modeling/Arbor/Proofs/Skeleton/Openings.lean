import Arbor.Proofs.Skeleton.Frame
/-!
# Anchors and branch openings

What a builder does at a move depends only on the events before it that are still open: the
*trail* (`Event.trail`). It keeps the moves and the pushes in order and drops the turns; a pop
deletes the latest push with everything after it, and a pop with no push to match, which fails,
changes nothing. Read latest first, the trail gives the builder's state (`Builder.FollowsTrail`):
a branch is open exactly when the trail ends in a push (`Event.pushOnTop`), the saved foci are the
trail's pushes, and each remembers whether the trail ended in a push when it was saved.

So the first move lays an anchor, a bone of length zero at its start, exactly when a push is open
then (`Event.anchors`), and the skeleton has one bone more than there are moves; every other bone
opens a branch exactly when the trail ends in a push at its move; and a move that finds the focus
lost once bones exist comes after an anchor.

Main statement: `Builder.feed_anchors_and_openings`.
-/

namespace Arbor

namespace Event

/-- A move. -/
def isMove : Event → Bool
  | .move .. => true
  | _ => false

/-- A push. -/
def isPush : Event → Bool
  | .push => true
  | _ => false

/-- The open trail after one more event, latest first: moves and pushes join it, turns do not,
and a pop deletes the latest push with everything after it, or changes nothing when there is no
push to match. -/
def trailStep (r : List Event) : Event → List Event
  | .move src dst rotation => .move src dst rotation :: r
  | .rotate _ _ => r
  | .push => .push :: r
  | .pop => if r.any isPush then (r.dropWhile fun e => !e.isPush).tail else r

/-- The open trail of a run of events, latest first. -/
def trail (es : List Event) : List Event := es.foldl trailStep []

/-- Whether a trail, read latest first, ends in a push. -/
def pushOnTop : List Event → Bool
  | .push :: _ => true
  | _ => false

/-- What lies below each push of a trail, the latest push first. -/
def belowPushes : List Event → List (List Event)
  | [] => []
  | .push :: r => r :: belowPushes r
  | _ :: r => belowPushes r

/-- Whether the first move comes while a push is open. -/
def anchors (es : List Event) : Bool :=
  es.any isMove && (trail (es.takeWhile fun e => !e.isMove)).any isPush

theorem trail_append_singleton (es : List Event) (e : Event) :
    trail (es ++ [e]) = trailStep (trail es) e := by
  simp [trail, List.foldl_append]

theorem mem_trail {es : List Event} {x : Event} (hx : x ∈ trail es) :
    x ∈ es ∧ (x.isMove = true ∨ x = .push) := by
  induction es using List.reverseRecOn generalizing x with
  | nil => simp [trail] at hx
  | append_singleton es e ih =>
    rw [trail_append_singleton] at hx
    have grow : ∀ {y}, y ∈ es ∧ (y.isMove = true ∨ y = .push) →
        y ∈ es ++ [e] ∧ (y.isMove = true ∨ y = .push) :=
      fun h => ⟨List.mem_append_left _ h.1, h.2⟩
    cases e with
    | move src dst rotation =>
      rcases List.mem_cons.1 hx with rfl | hx
      · simp [isMove]
      · exact grow (ih hx)
    | rotate => exact grow (ih hx)
    | push =>
      rcases List.mem_cons.1 hx with rfl | hx
      · simp
      · exact grow (ih hx)
    | pop =>
      simp only [trailStep] at hx
      split at hx
      · exact grow (ih ((List.dropWhile_suffix _).subset (List.mem_of_mem_tail hx)))
      · exact grow (ih hx)

theorem eq_push_of_mem_trail {es : List Event} (h : es.any isMove = false) {x : Event}
    (hx : x ∈ trail es) : x = .push := by
  obtain ⟨hmem, hkind⟩ := mem_trail hx
  exact hkind.resolve_left (List.any_eq_false.1 h x hmem)

/-- A trail ends in a push exactly when, read in order, it has a push with no move after it. -/
theorem pushOnTop_iff {r : List Event} (hr : ∀ x ∈ r, x.isMove = true ∨ x = .push) :
    pushOnTop r = true ↔
      ∃ u v : List Event, r.reverse = u ++ .push :: v ∧ ∀ x ∈ v, x.isMove = false := by
  constructor
  · intro h
    match r, h with
    | .push :: r, _ => exact ⟨r.reverse, [], by simp, by simp⟩
  · rintro ⟨u, v, hr', hv⟩
    have hrv : r = v.reverse ++ .push :: u.reverse := by
      rw [← List.reverse_reverse r, hr']
      simp
    -- the latest event is the last of `v`, a push since it is no move, or the push itself
    cases hv' : v.reverse with
    | nil => simp [hrv, hv', pushOnTop]
    | cons y ys =>
      have hy : y ∈ v := List.mem_reverse.1 (hv' ▸ List.mem_cons_self)
      have hpush : y = .push :=
        (hr y (by rw [hrv, hv']; exact List.mem_cons_self)).resolve_left (by simp [hv y hy])
      simp [hrv, hv', hpush, pushOnTop]

theorem pushOnTop_of_forall_eq_push {r : List Event} (hr : ∀ x ∈ r, x = .push) :
    pushOnTop r = r.any isPush := by
  cases r with
  | nil => rfl
  | cons x r =>
    obtain rfl := hr x List.mem_cons_self
    rfl

theorem belowPushes_eq_nil_iff (r : List Event) : belowPushes r = [] ↔ r.any isPush = false := by
  induction r with
  | nil => simp [belowPushes]
  | cons x r ih => cases x <;> simp [belowPushes, isPush, ih]

theorem belowPushes_of_any {r : List Event} (h : r.any isPush = true) :
    belowPushes r = (r.dropWhile fun e => !e.isPush).tail ::
      belowPushes (r.dropWhile fun e => !e.isPush).tail := by
  induction r with
  | nil => simp at h
  | cons x r ih =>
    cases x with
    | push => rfl
    | move | rotate | pop =>
      simp only [List.any_cons, isPush, Bool.false_or] at h
      simpa [belowPushes, isPush] using ih h

theorem takeWhile_append_of_any {es : List Event} (h : es.any isMove = true) (ys : List Event) :
    (es ++ ys).takeWhile (fun e => !e.isMove) = es.takeWhile fun e => !e.isMove := by
  induction es with
  | nil => simp at h
  | cons x es ih =>
    by_cases hx : x.isMove
    · simp [hx]
    · simp only [List.any_cons, hx, Bool.false_or] at h
      simp [hx, ih h]

theorem takeWhile_append_of_not_any {es : List Event} (h : es.any isMove = false)
    (ys : List Event) :
    (es ++ ys).takeWhile (fun e => !e.isMove) = es ++ ys.takeWhile fun e => !e.isMove :=
  List.takeWhile_append_of_pos (by simpa using List.any_eq_false.1 h)

theorem anchors_append {es : List Event} (h : es.any isMove = true) (ys : List Event) :
    anchors (es ++ ys) = anchors es := by
  simp [anchors, h, takeWhile_append_of_any h]

theorem anchors_append_singleton_of_not_any {es : List Event} (h : es.any isMove = false)
    (e : Event) : anchors (es ++ [e]) = (e.isMove && (trail es).any isPush) := by
  cases he : e.isMove
  · simp [anchors, h, he]
  · have htake : [e].takeWhile (fun e => !e.isMove) = [] := by simp [he]
    simp [anchors, he, takeWhile_append_of_not_any h, htake]

theorem anchors_of_not_any {es : List Event} (h : es.any isMove = false) : anchors es = false := by
  simp [anchors, h]

theorem countP_isMove_eq_zero {es : List Event} (h : es.any isMove = false) :
    es.countP isMove = 0 :=
  List.countP_eq_zero.2 fun x hx => List.any_eq_false.1 h x hx

theorem anchors_append_singleton_of_not_isMove {e : Event} (he : e.isMove = false)
    (es : List Event) : anchors (es ++ [e]) = anchors es := by
  cases hany : es.any isMove
  · rw [anchors_append_singleton_of_not_any hany, anchors_of_not_any hany, he, Bool.false_and]
  · exact anchors_append hany [e]

theorem anchors_append_move (pre : List Event) (src dst : Vec3) (rotation : Quat)
    (rest : List Event) :
    anchors (pre ++ .move src dst rotation :: rest) =
      anchors (pre ++ [.move src dst rotation]) := by
  rw [← List.singleton_append, ← List.append_assoc]
  exact anchors_append (by simp [isMove]) rest

theorem anchors_first_move {pre : List Event} (hpre : pre.any isMove = false) (src dst : Vec3)
    (rotation : Quat) (rest : List Event) :
    anchors (pre ++ .move src dst rotation :: rest) = (trail pre).any isPush := by
  rw [anchors_append_move, anchors_append_singleton_of_not_any hpre]
  rfl

theorem exists_first_move {es : List Event} (h : es.any isMove = true) :
    ∃ (pre : List Event) (src dst : Vec3) (rotation : Quat) (rest : List Event),
      es = pre ++ .move src dst rotation :: rest ∧
      pre.any isMove = false := by
  induction es with
  | nil => simp at h
  | cons x es ih =>
    cases x with
    | move src dst rotation => exact ⟨[], src, dst, rotation, es, rfl, rfl⟩
    | rotate _ _ | push | pop =>
      obtain ⟨pre, src, dst, rotation, rest, rfl, hpre⟩ := ih (by simpa [isMove] using h)
      exact ⟨_ :: pre, src, dst, rotation, rest, rfl, by simpa [isMove] using hpre⟩

/-- A run anchors exactly when its first move comes while a push is open. -/
theorem anchors_iff (es : List Event) :
    anchors es = true ↔
      ∃ (pre : List Event) (src dst : Vec3) (rotation : Quat) (rest : List Event),
        es = pre ++ .move src dst rotation :: rest ∧ pre.any isMove = false ∧
          (trail pre).any isPush = true := by
  constructor
  · intro h
    have hany : es.any isMove = true := by
      simp only [anchors, Bool.and_eq_true] at h
      exact h.1
    obtain ⟨pre, src, dst, rotation, rest, rfl, hpre⟩ := exists_first_move hany
    exact ⟨pre, src, dst, rotation, rest, rfl, hpre, by rwa [anchors_first_move hpre] at h⟩
  · rintro ⟨pre, src, dst, rotation, rest, rfl, hpre, hpush⟩
    rw [anchors_first_move hpre, hpush]

end Event

namespace Builder

open Event

/-- How a builder reads the open trail of the events it took. A branch is open exactly when the
trail ends in a push; each saved focus remembers whether the trail below its push ended in one;
there is a bone for each move and one for the anchor; and without an anchor no focus is lost once
a move has come. -/
structure FollowsTrail (b : Builder) (es : List Event) : Prop where
  opensBranch_eq : b.opensBranch = pushOnTop (trail es)
  stack_opensBranch : b.stack.map SavedFocus.opensBranch = (belowPushes (trail es)).map pushOnTop
  size_eq : b.bones.size = es.countP isMove + if anchors es then 1 else 0
  focus_isSome : anchors es = false → es.any isMove = true →
    b.focus.isSome ∧ ∀ s ∈ b.stack, s.focus.isSome

theorem followsTrail_fresh (config : SkeletonConfig) (falloff : Option Falloff) :
    FollowsTrail { config, falloff } [] :=
  ⟨rfl, rfl, rfl, fun _ h => absurd h (by simp)⟩

namespace FollowsTrail

variable {b : Builder} {es : List Event}

/-- An event other than a move keeps the count of bones and the anchor; it is enough that the
builder after it reads the new trail and keeps its foci. -/
theorem of_not_isMove (h : FollowsTrail b es) {b' : Builder} {e : Event} (he : e.isMove = false)
    (hopen : b'.opensBranch = pushOnTop (trailStep (trail es) e))
    (hstack : b'.stack.map SavedFocus.opensBranch =
      (belowPushes (trailStep (trail es) e)).map pushOnTop)
    (hsize : b'.bones.size = b.bones.size)
    (hfocus : anchors es = false → es.any isMove = true →
      b'.focus.isSome ∧ ∀ s ∈ b'.stack, s.focus.isSome) :
    FollowsTrail b' (es ++ [e]) where
  opensBranch_eq := by rw [trail_append_singleton, hopen]
  stack_opensBranch := by rw [trail_append_singleton, hstack]
  size_eq := by
    rw [anchors_append_singleton_of_not_isMove he, hsize, h.size_eq, List.countP_append]
    simp [he]
  focus_isSome hanchor hany := by
    rw [anchors_append_singleton_of_not_isMove he] at hanchor
    simp only [List.any_append, List.any_cons, he, List.any_nil, Bool.or_false] at hany
    exact hfocus hanchor hany

theorem stack_eq_nil_iff (h : FollowsTrail b es) :
    b.stack = [] ↔ (trail es).any isPush = false := by
  rw [← belowPushes_eq_nil_iff, ← List.map_eq_nil_iff (f := SavedFocus.opensBranch),
    h.stack_opensBranch, List.map_eq_nil_iff]

theorem size_eq_zero_of_not_any (h : FollowsTrail b es) (hany : es.any isMove = false) :
    b.bones.size = 0 := by
  rw [h.size_eq, anchors_of_not_any hany, countP_isMove_eq_zero hany]
  rfl

theorem pos_of_any (h : FollowsTrail b es) (hany : es.any isMove = true) : 0 < b.bones.size := by
  obtain ⟨x, hx, hmove⟩ := List.any_eq_true.1 hany
  have := List.countP_pos_iff.2 ⟨x, hx, hmove⟩
  rw [h.size_eq]
  omega

theorem any_of_pos (h : FollowsTrail b es) (hpos : 0 < b.bones.size) : es.any isMove = true := by
  cases hany : es.any isMove
  · rw [h.size_eq_zero_of_not_any hany] at hpos
    cases hpos
  · rfl

theorem opensBranch_of_not_any (h : FollowsTrail b es) (hany : es.any isMove = false) :
    b.opensBranch = (trail es).any isPush := by
  rw [h.opensBranch_eq, pushOnTop_of_forall_eq_push fun _ hx => eq_push_of_mem_trail hany hx]

theorem observe_rotate (h : FollowsTrail b es) (yaw pitch : Float32) :
    FollowsTrail (b.observe (.rotate yaw pitch)).1 (es ++ [.rotate yaw pitch]) :=
  h.of_not_isMove rfl h.opensBranch_eq h.stack_opensBranch rfl h.focus_isSome

theorem observe_push (h : FollowsTrail b es) :
    FollowsTrail (b.observe .push).1 (es ++ [.push]) := by
  refine h.of_not_isMove rfl rfl ?_ rfl fun hanchor hany => ?_
  · simp [trailStep, belowPushes, h.stack_opensBranch, h.opensBranch_eq]
  · -- the focus saved is the current one
    obtain ⟨hfocus, hstack⟩ := h.focus_isSome hanchor hany
    simpa [hfocus] using hstack

theorem observe_pop (h : FollowsTrail b es) : FollowsTrail (b.observe .pop).1 (es ++ [.pop]) := by
  by_cases hpush : (trail es).any isPush = true
  · -- the pop restores the focus saved at the latest open push
    obtain ⟨s, rest, hst⟩ : ∃ s rest, b.stack = s :: rest :=
      List.exists_cons_of_ne_nil (mt h.stack_eq_nil_iff.1 (by simp [hpush]))
    have hmap := h.stack_opensBranch
    rw [hst, belowPushes_of_any hpush, List.map_cons, List.map_cons, List.cons.injEq] at hmap
    have hfoci := h.focus_isSome
    rw [hst] at hfoci
    rw [Builder.observe_pop, hst]
    refine h.of_not_isMove rfl ?_ ?_ rfl fun hanchor hany => ?_
    · simp [trailStep, hpush, hmap.1]
    · simp [trailStep, hpush, hmap.2]
    · obtain ⟨-, hstack⟩ := hfoci hanchor hany
      exact ⟨hstack s List.mem_cons_self, fun s' hs' => hstack s' (List.mem_cons_of_mem s hs')⟩
  · -- nothing is saved, so the pop fails and changes nothing
    have hst := h.stack_eq_nil_iff.2 (by simpa using hpush)
    rw [Builder.observe_pop, hst]
    refine h.of_not_isMove rfl ?_ ?_ rfl h.focus_isSome
    · simp [trailStep, hpush, h.opensBranch_eq]
    · simp [trailStep, hpush, h.stack_opensBranch]

theorem observe_first_move_eq (h : FollowsTrail b es) (hany : es.any isMove = false)
    (src dst : Vec3) (rotation : Quat) :
    (b.observe (.move src dst rotation)).1 =
      if (trail es).any isPush then
        { b.addBone src src rotation with opensBranch := true }.addBone src dst rotation
      else b.addBone src dst rotation := by
  rw [Builder.observe_move, h.size_eq_zero_of_not_any hany, h.opensBranch_of_not_any hany]
  cases (trail es).any isPush <;> rfl

theorem observe_move (h : FollowsTrail b es) (src dst : Vec3) (rotation : Quat) :
    FollowsTrail (b.observe (.move src dst rotation)).1 (es ++ [.move src dst rotation]) := by
  have htrail : trail (es ++ [.move src dst rotation]) = .move src dst rotation :: trail es :=
    trail_append_singleton es _
  have hcount : (es ++ [Event.move src dst rotation]).countP isMove = es.countP isMove + 1 := by
    simp [isMove]
  have hopen : pushOnTop (trail (es ++ [.move src dst rotation])) = false := by
    rw [htrail]
    rfl
  have hstack : (belowPushes (trail (es ++ [.move src dst rotation]))).map pushOnTop =
      (belowPushes (trail es)).map pushOnTop := by
    rw [htrail]
    rfl
  by_cases hany : es.any isMove = true
  · -- a later move lays its own bone only
    rw [observe_move_of_pos (h.pos_of_any hany)]
    refine ⟨by simp [hopen], by simp [hstack, h.stack_opensBranch], ?_, fun hanchor _ => ?_⟩
    · rw [addBone_size, h.size_eq, hcount, anchors_append hany]
      omega
    · rw [anchors_append hany] at hanchor
      obtain ⟨-, hfoci⟩ := h.focus_isSome hanchor hany
      exact ⟨by simp, by simpa using hfoci⟩
  · -- the first move lays an anchor first when a push is open
    rw [Bool.not_eq_true] at hany
    have h0 := h.size_eq_zero_of_not_any hany
    have hnone := countP_isMove_eq_zero hany
    have hanchor := anchors_append_singleton_of_not_any hany (.move src dst rotation)
    simp only [isMove, Bool.true_and] at hanchor
    rw [h.observe_first_move_eq hany]
    cases hpush : (trail es).any isPush
    · refine ⟨by simp [hopen], by simp [hstack, h.stack_opensBranch], ?_, fun _ _ => ?_⟩
      · simp [h0, hcount, hnone, hanchor, hpush]
      · -- nothing is saved yet, and the move's bone is the focus
        simp [h.stack_eq_nil_iff.2 hpush]
    · refine ⟨by simp [hopen], by simp [hstack, h.stack_opensBranch], ?_, fun hno _ => ?_⟩
      · simp [h0, hcount, hnone, hanchor, hpush]
      · rw [hanchor, hpush] at hno
        cases hno

theorem observe (h : FollowsTrail b es) (e : Event) :
    FollowsTrail (b.observe e).1 (es ++ [e]) := by
  cases e with
  | move src dst rotation => exact h.observe_move src dst rotation
  | rotate yaw pitch => exact h.observe_rotate yaw pitch
  | push => exact h.observe_push
  | pop => exact h.observe_pop

/-- The first move lays bone `0`: the anchor, of length zero at the move's start, when a push is
open, or else the move's own bone. -/
theorem observe_first_move (h : FollowsTrail b es) (hany : es.any isMove = false)
    (src dst : Vec3) (rotation : Quat) :
    (b.observe (.move src dst rotation)).1.bones[0]?.map (fun x => (x.base, x.tip, x.rotation)) =
      some (if (trail es).any isPush then (src, src, rotation) else (src, dst, rotation)) := by
  have h0 := h.size_eq_zero_of_not_any hany
  rw [h.observe_first_move_eq hany]
  cases (trail es).any isPush
  · exact getElem?_map_addBone_of_size_eq (fun _ _ => rfl) h0 src dst rotation
  · -- bone `0` is the anchor, laid before the move's own bone
    rw [if_pos rfl, getElem?_map_addBone_of_lt (fun _ _ => rfl) _ _ _ (by simp)]
    exact getElem?_map_addBone_of_size_eq (fun _ _ => rfl) h0 src src rotation

/-- A move lays its own bone after one bone for each earlier move and one for the anchor; unless
it is bone `0`, it opens a branch exactly when the trail ends in a push. -/
theorem observe_move_bone (h : FollowsTrail b es) (src dst : Vec3) (rotation : Quat) :
    ∃ opens, (b.observe (.move src dst rotation)).1.bones[es.countP isMove +
        if anchors (es ++ [.move src dst rotation]) then 1 else 0]?.map
          (fun x => (x.base, x.tip, x.rotation, x.startsBranch)) =
        some (src, dst, rotation, opens) ∧
      (0 < es.countP isMove + (if anchors (es ++ [.move src dst rotation]) then 1 else 0) →
        opens = pushOnTop (trail es)) := by
  by_cases hany : es.any isMove = true
  · -- bones exist: the move lays its bone at the end, below the focus
    have hpos := h.pos_of_any hany
    obtain ⟨-, hopens⟩ := nextBone_of_pos hpos src dst rotation
    have hbone := getElem?_map_addBone_self
      (f := fun x : Bone => (x.base, x.tip, x.rotation, x.startsBranch)) (fun _ _ => rfl) (b := b)
      src dst rotation
    rw [anchors_append hany, ← h.size_eq, observe_move_of_pos hpos, hbone]
    exact ⟨_, rfl, fun _ => by rw [hopens, h.opensBranch_eq]⟩
  · rw [Bool.not_eq_true] at hany
    have h0 := h.size_eq_zero_of_not_any hany
    rw [anchors_append_singleton_of_not_any hany, countP_isMove_eq_zero hany,
      h.observe_first_move_eq hany]
    cases hpush : (trail es).any isPush
    · -- no anchor: the move's bone is bone `0`, the root
      exact ⟨_, getElem?_map_addBone_of_size_eq (fun _ _ => rfl) h0 src dst rotation,
        fun hk => absurd hk (by simp [isMove])⟩
    · -- after the anchor the move's bone is bone `1`, and it opens a branch
      set b₁ : Builder := { b.addBone src src rotation with opensBranch := true } with hb₁
      have hsize : b₁.bones.size = 1 := by simp [hb₁, h0]
      obtain ⟨-, hopens⟩ := nextBone_of_pos (b := b₁) (by omega) src dst rotation
      simp only [isMove, Bool.true_and, ↓reduceIte, Nat.zero_add]
      refine ⟨_, getElem?_map_addBone_of_size_eq (fun _ _ => rfl) hsize src dst rotation,
        fun _ => ?_⟩
      rw [hopens, pushOnTop_of_forall_eq_push fun _ hx => eq_push_of_mem_trail hany hx, hpush]

end FollowsTrail

theorem feed_append (b : Builder) (u v : List Event) : b.feed (u ++ v) = (b.feed u).feed v :=
  List.foldl_append

theorem followsTrail_feed (config : SkeletonConfig) (falloff : Option Falloff) (es : List Event) :
    FollowsTrail (({ config, falloff } : Builder).feed es) es := by
  induction es using List.reverseRecOn with
  | nil => exact followsTrail_fresh config falloff
  | append_singleton es e ih =>
    rw [feed_append_singleton]
    exact ih.observe e

theorem lt_size_of_getElem?_map_eq_some {bones : Array Bone} {α : Type} {f : Bone → α} {i : Nat}
    {a : α} (h : bones[i]?.map f = some a) : i < bones.size := by
  obtain ⟨x, hx, -⟩ := Option.map_eq_some_iff.1 h
  exact (Array.getElem?_eq_some_iff.1 hx).1

/-- What the builder `b`, fed the events `es`, does at their moves, read off the open trail before
each. -/
structure AnchorsAndOpenings (b : Builder) (es : List Event) : Prop where
  /-- A push is open exactly when a focus is saved. -/
  stack_ne_nil_iff : ∀ pre rest, es = pre ++ rest →
    ((b.feed pre).stack ≠ [] ↔ (trail pre).any isPush = true)
  /-- The run anchors exactly when its first move comes while a push is open. -/
  anchors_iff : anchors es = true ↔
    ∃ (pre : List Event) (src dst : Vec3) (rotation : Quat) (rest : List Event),
      es = pre ++ .move src dst rotation :: rest ∧ pre.any isMove = false ∧
        (trail pre).any isPush = true
  /-- There is a bone for each move, and one for the anchor. -/
  size_eq : (b.feed es).bones.size = es.countP isMove + if anchors es then 1 else 0
  /-- Bone `0` is the anchor, of length zero at the start of the first move, or else the first
  move's own bone. -/
  first_bone : ∀ (pre : List Event) (src dst : Vec3) (rotation : Quat) (rest : List Event),
    es = pre ++ .move src dst rotation :: rest →
    pre.any isMove = false →
      (b.feed es).bones[0]?.map (fun x => (x.base, x.tip, x.rotation)) =
        some (if (trail pre).any isPush then (src, src, rotation) else (src, dst, rotation))
  /-- Each move lays its own bone after those of the earlier moves and the anchor; a bone other
  than bone `0` opens a branch exactly when the trail, read in order, has a push with no move
  after it. -/
  move_bone : ∀ (pre : List Event) (src dst : Vec3) (rotation : Quat) (rest : List Event),
    es = pre ++ .move src dst rotation :: rest →
    ∃ x, (b.feed es).bones[pre.countP isMove + if anchors es then 1 else 0]? = some x ∧
      x.base = src ∧ x.tip = dst ∧ x.rotation = rotation ∧
      (0 < pre.countP isMove + (if anchors es then 1 else 0) →
        (x.startsBranch = true ↔ ∃ u v : List Event,
          (trail pre).reverse = u ++ .push :: v ∧ ∀ y ∈ v, y.isMove = false))
  /-- A move that finds the focus lost once bones exist comes after an anchor, and bone `0` is
  that anchor. -/
  fallback : ∀ (pre : List Event) (src dst : Vec3) (rotation : Quat) (rest : List Event),
    es = pre ++ .move src dst rotation :: rest →
    0 < (b.feed pre).bones.size → (b.feed pre).focus = none →
      ∃ (pre₀ : List Event) (src₀ dst₀ : Vec3) (rotation₀ : Quat) (rest₀ : List Event),
        es = pre₀ ++ .move src₀ dst₀ rotation₀ :: rest₀ ∧
        pre₀.any isMove = false ∧ (trail pre₀).any isPush = true ∧
        (b.feed es).bones[0]?.map (fun x => (x.base, x.tip, x.rotation)) =
          some (src₀, src₀, rotation₀)

section Fresh

variable (config : SkeletonConfig) (falloff : Option Falloff)

theorem feed_first_bone {pre : List Event} (hpre : pre.any isMove = false) (src dst : Vec3)
    (rotation : Quat) (rest : List Event) :
    (({ config, falloff } : Builder).feed (pre ++ .move src dst rotation :: rest)).bones[0]?.map
        (fun x => (x.base, x.tip, x.rotation)) =
      some (if (trail pre).any isPush then (src, src, rotation) else (src, dst, rotation)) := by
  have hfirst := (followsTrail_feed config falloff pre).observe_first_move hpre src dst rotation
  rw [← List.singleton_append, ← List.append_assoc, feed_append, feed_append_singleton,
    getElem?_map_feed (fun _ _ => rfl) rest (lt_size_of_getElem?_map_eq_some hfirst), hfirst]

/-- A fresh builder anchors the skeleton exactly when its first move comes inside an open push,
lays one bone per move besides, opens a branch at a move exactly when the open trail ends in a
push, and falls back to bone `0` for a lost focus only when bone `0` is the anchor. -/
theorem feed_anchors_and_openings (es : List Event) :
    AnchorsAndOpenings { config, falloff } es where
  stack_ne_nil_iff pre _ _ := by
    rw [Ne, (followsTrail_feed config falloff pre).stack_eq_nil_iff, Bool.not_eq_false]
  anchors_iff := Event.anchors_iff es
  size_eq := (followsTrail_feed config falloff es).size_eq
  first_bone := by
    rintro pre src dst rotation rest rfl hpre
    exact feed_first_bone config falloff hpre src dst rotation rest
  move_bone := by
    rintro pre src dst rotation rest rfl
    obtain ⟨opens, hbone, hopens⟩ :=
      (followsTrail_feed config falloff pre).observe_move_bone src dst rotation
    have hframe := getElem?_map_feed
      (f := fun x : Bone => (x.base, x.tip, x.rotation, x.startsBranch)) (fun _ _ => rfl) rest
      (lt_size_of_getElem?_map_eq_some hbone)
    rw [hbone, ← feed_append_singleton, ← feed_append, List.append_assoc,
      List.singleton_append, ← anchors_append_move] at hframe
    obtain ⟨x, hx, hxs⟩ := Option.map_eq_some_iff.1 hframe
    simp only [Prod.mk.injEq] at hxs
    obtain ⟨hbase, htip, hrot, hsb⟩ := hxs
    refine ⟨x, hx, hbase, htip, hrot, fun hpos => ?_⟩
    rw [hsb, hopens (by rwa [anchors_append_move] at hpos)]
    exact pushOnTop_iff fun y hy => (mem_trail hy).2
  fallback := by
    rintro pre src dst rotation rest rfl hpos hfocus
    have h := followsTrail_feed config falloff pre
    have hany := h.any_of_pos hpos
    have hanchor : anchors pre = true := by
      by_contra hno
      have := (h.focus_isSome (by simpa using hno) hany).1
      simp [hfocus] at this
    obtain ⟨pre₀, src₀, dst₀, rotation₀, rest₀, hes, hpre₀, hpush⟩ :=
      (Event.anchors_iff _).1 ((anchors_append hany _).trans hanchor)
    refine ⟨pre₀, src₀, dst₀, rotation₀, rest₀, hes, hpre₀, hpush, ?_⟩
    rw [hes, feed_first_bone config falloff hpre₀, if_pos hpush]

end Fresh

end Builder

end Arbor
