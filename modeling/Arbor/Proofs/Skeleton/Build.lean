import Arbor.Skeleton.Builder
import Arbor.Proofs.Skeleton.Tree
/-!
# What a builder keeps

A builder that has been fed any events, pops with nothing saved included, keeps its arena a tree
numbered in depth-first preorder, and keeps the foci it can come back to on one path from bone `0`
down to the last bone laid.

* `Builder.feed b es` feeds events in order; an event that fails leaves the builder as it was and
  the next one is fed.
* `Builder.foci b`: the saved foci, the oldest first, then the current focus; a lost focus stands
  for bone `0`.
* `Builder.Inv b`: the arena is a `PreorderTree`, each focus lies above every later one, and all of
  them lie above the last bone.

Main statements: `Builder.Inv` holds of a fresh builder and every event keeps it (`Inv.observe`),
so it holds after any events (`Inv.feed`); an event fails only as a pop with nothing saved, and
then leaves the builder as it was (`observe_eq_of_isSome`).
-/

namespace Arbor

namespace Builder

/-- The props the next bone gets: its parent's through `childProps`, or the root's. -/
def nextProps (b : Builder) : BoneProps :=
  match b.nextParent.bind fun p => b.bones[p]? with
  | some pb => b.childProps pb.props
  | none => ⟨0, 0, b.config.rootLengthFactor, b.config.rootThickness⟩

/-- The bone `addBone` lays. -/
def nextBone (b : Builder) (base tip : Vec3) (rotation : Quat) : Bone :=
  ⟨b.bones.size, b.nextParent, [], base, tip, rotation, b.nextProps,
    b.nextParent.isSome && b.opensBranch⟩

theorem addBone_eq (b : Builder) (base tip : Vec3) (rotation : Quat) :
    b.addBone base tip rotation =
      { b with
        bones := attach b.bones (b.nextBone base tip rotation)
        focus := some b.bones.size
        opensBranch := false } := by
  obtain ⟨config, falloff, bones, focus, ob, stack⟩ := b
  rfl

@[simp] theorem observe_rotate (b : Builder) (yaw pitch : Float32) :
    b.observe (.rotate yaw pitch) = (b, none) := rfl

@[simp] theorem observe_push (b : Builder) :
    b.observe .push =
      ({ b with stack := ⟨b.focus, b.opensBranch⟩ :: b.stack, opensBranch := true }, none) :=
  rfl

theorem observe_move (b : Builder) (src dst : Vec3) (rotation : Quat) :
    b.observe (.move src dst rotation) =
      ((if b.bones.size = 0 && b.opensBranch then
          { b.addBone src src rotation with opensBranch := true } else b).addBone src dst rotation,
        none) := rfl

theorem observe_pop (b : Builder) :
    b.observe .pop =
      match b.stack with
      | [] => (b, some .stackUnderflow)
      | s :: rest =>
        ({ b with focus := s.focus, opensBranch := s.opensBranch, stack := rest }, none) :=
  rfl

/-- An event fails only as a pop with nothing saved; it then reports an underflow and leaves the
builder as it was. -/
theorem observe_eq_of_isSome {b : Builder} {e : Event} (h : (b.observe e).2.isSome) :
    (b.observe e).1 = b ∧ (b.observe e).2 = some .stackUnderflow := by
  cases e with
  | move => simp [observe_move] at h
  | rotate => simp at h
  | push => simp at h
  | pop =>
    rw [observe_pop] at h ⊢
    split at h
    · exact ⟨rfl, rfl⟩
    · simp at h

/-- Feeds events in order; an event that fails leaves the builder as it was and the next one is
fed. -/
def feed (b : Builder) (es : List Event) : Builder := es.foldl (fun b e => (b.observe e).1) b

@[simp] theorem feed_nil (b : Builder) : b.feed [] = b := rfl

@[simp] theorem feed_cons (b : Builder) (e : Event) (es : List Event) :
    b.feed (e :: es) = (b.observe e).1.feed es := rfl

/-- The foci a builder can come back to: the saved ones, the oldest first, then the current one;
a lost focus stands for bone `0`. -/
def foci (b : Builder) : List Nat := b.stack.reverse.map (·.focus.getD 0) ++ [b.focus.getD 0]

/-- What a builder keeps between events. -/
structure Inv (b : Builder) : Prop where
  /-- The arena numbers a tree in depth-first preorder. -/
  tree : PreorderTree b.bones
  /-- Each focus lies above every later one. -/
  foci_chain : b.foci.Pairwise (Ancestor b.bones)
  /-- Every focus lies above the last bone. -/
  foci_last : 0 < b.bones.size → ∀ f ∈ b.foci, Ancestor b.bones f (b.bones.size - 1)
  /-- Before the first bone every focus is lost. -/
  empty : b.bones.size = 0 → b.focus = none ∧ ∀ s ∈ b.stack, s.focus = none

theorem inv_fresh (config : SkeletonConfig) (falloff : Option Falloff) :
    ({ config, falloff } : Builder).Inv where
  tree :=
    { id_eq := fun _ h => absurd h (by simp)
      parent_eq_none_iff := fun _ h => absurd h (by simp)
      parent_lt := fun _ _ h => absurd (lt_size_of_parentOf h) (by simp)
      mem_children_iff := fun _ h => absurd h (by simp)
      children_sorted := fun _ h => absurd h (by simp)
      subtree := fun _ h => absurd h (by simp) }
  foci_chain := by simp [foci]
  foci_last := fun h => absurd h (by simp)
  empty := fun _ => ⟨rfl, by simp⟩

theorem nextParent_of_pos {b : Builder} (h : 0 < b.bones.size) :
    b.nextParent = some (b.focus.getD 0) := by
  unfold nextParent
  cases b.focus <;> simp [Nat.pos_iff_ne_zero.1 h]

namespace Inv

variable {b : Builder}

theorem nextParent_eq_none_iff (hb : b.Inv) : b.nextParent = none ↔ b.bones.size = 0 := by
  rcases Nat.eq_zero_or_pos b.bones.size with h | h
  · simp [nextParent, (hb.empty h).1, h]
  · simp [nextParent_of_pos h, Nat.pos_iff_ne_zero.1 h]

theorem ancestor_last_of_nextParent (hb : b.Inv) {p : Nat} (hp : b.nextParent = some p) :
    Ancestor b.bones p (b.bones.size - 1) := by
  have h : 0 < b.bones.size := Nat.pos_of_ne_zero fun h => by
    rw [← hb.nextParent_eq_none_iff] at h
    simp [h] at hp
  rw [nextParent_of_pos h, Option.some.injEq] at hp
  exact hb.foci_last h p (by simp [foci, hp])

theorem le_of_mem_foci (hb : b.Inv) {f : Nat} (hf : f ∈ b.foci) : f ≤ b.bones.size - 1 := by
  rcases Nat.eq_zero_or_pos b.bones.size with h0 | hpos
  · obtain ⟨hfocus, hstack⟩ := hb.empty h0
    simp only [foci, List.mem_append, List.mem_map, List.mem_reverse, List.mem_singleton] at hf
    rcases hf with ⟨s, hs, rfl⟩ | rfl
    · simp [hstack s hs]
    · simp [hfocus]
  · exact hb.tree.le_of_ancestor (hb.foci_last hpos f hf)

/-- Laying a bone keeps the invariant: it hangs from the current focus, which lies below every
saved one and above the last bone, and it becomes the focus. -/
theorem addBone (hb : b.Inv) (base tip : Vec3) (rotation : Quat) :
    (b.addBone base tip rotation).Inv := by
  have hroot : (b.nextBone base tip rotation).parent = none ↔ b.bones.size = 0 :=
    hb.nextParent_eq_none_iff
  have hpath : ∀ p, (b.nextBone base tip rotation).parent = some p →
      Ancestor b.bones p (b.bones.size - 1) := fun p hp => hb.ancestor_last_of_nextParent hp
  have hsaved : ∀ f ∈ b.stack.reverse.map (·.focus.getD 0), f ∈ b.foci := fun f hf => by
    simp only [foci, List.mem_append]; exact .inl hf
  have hkeep : ∀ f ∈ b.stack.reverse.map (·.focus.getD 0),
      ∀ g ∈ b.stack.reverse.map (·.focus.getD 0),
      Ancestor b.bones f g → Ancestor (attach b.bones (b.nextBone base tip rotation)) f g := by
    intro f hf g hg h
    rcases Nat.eq_zero_or_pos b.bones.size with h0 | hpos
    · have := hb.le_of_mem_foci (hsaved f hf)
      have := hb.le_of_mem_foci (hsaved g hg)
      obtain rfl : f = g := by omega
      exact .refl
    · have := hb.le_of_mem_foci (hsaved g hg)
      exact (hb.tree.ancestor_attach_iff hroot hpath (by omega)).2 h
  have hnew : ∀ f ∈ b.stack.reverse.map (·.focus.getD 0),
      Ancestor (attach b.bones (b.nextBone base tip rotation)) f b.bones.size := by
    intro f hf
    rw [hb.tree.ancestor_attach_self_iff hroot hpath]
    rcases Nat.eq_zero_or_pos b.bones.size with h0 | hpos
    · exact .inl (by have := hb.le_of_mem_foci (hsaved f hf); omega)
    · exact .inr ⟨b.focus.getD 0, nextParent_of_pos hpos,
        (List.pairwise_append.1 hb.foci_chain).2.2 f hf _ (List.mem_singleton_self _)⟩
  rw [addBone_eq]
  refine ⟨hb.tree.attach hroot hpath rfl rfl, ?_, ?_, fun h => absurd h (by simp)⟩
  · refine List.pairwise_append.2 ⟨?_, List.pairwise_singleton _ _, ?_⟩
    · exact (List.pairwise_append.1 hb.foci_chain).1.imp_of_mem fun hf hg h => hkeep _ hf _ hg h
    · intro f hf g hg
      rw [List.mem_singleton.1 hg]
      exact hnew f hf
  · intro _ f hf
    simp only [size_attach, Nat.add_sub_cancel]
    rcases List.mem_append.1 hf with hf | hf
    · exact hnew f hf
    · rw [List.mem_singleton.1 hf]
      exact .refl

theorem setOpensBranch (hb : b.Inv) (o : Bool) : ({ b with opensBranch := o } : Builder).Inv :=
  ⟨hb.tree, hb.foci_chain, hb.foci_last, hb.empty⟩

theorem push (hb : b.Inv) : (b.observe .push).1.Inv := by
  have hfoci : (b.observe .push).1.foci = b.foci ++ [b.focus.getD 0] := by simp [foci]
  refine ⟨hb.tree, ?_, ?_, ?_⟩
  · rw [hfoci]
    refine List.pairwise_append.2
      ⟨hb.foci_chain, List.pairwise_singleton _ _, fun f hf g hg => ?_⟩
    rw [List.mem_singleton.1 hg]
    rcases List.mem_append.1 hf with hf | hf
    · exact (List.pairwise_append.1 hb.foci_chain).2.2 f hf _ (List.mem_singleton_self _)
    · rw [List.mem_singleton.1 hf]
      exact .refl
  · intro h f hf
    rw [hfoci] at hf
    rcases List.mem_append.1 hf with hf | hf
    · exact hb.foci_last h f hf
    · exact hb.foci_last h f (by simp [foci, List.mem_singleton.1 hf])
  · intro h
    obtain ⟨hfocus, hstack⟩ := hb.empty h
    refine ⟨hfocus, ?_⟩
    simpa [hfocus] using hstack

theorem pop (hb : b.Inv) : (b.observe .pop).1.Inv := by
  rw [observe_pop]
  split
  · exact hb
  · rename_i s rest hstack
    have hfoci : b.foci =
        ({ b with focus := s.focus, opensBranch := s.opensBranch, stack := rest } : Builder).foci ++
          [b.focus.getD 0] := by
      simp [foci, hstack]
    refine ⟨hb.tree, ?_, ?_, ?_⟩
    · exact (hfoci ▸ hb.foci_chain).sublist (List.sublist_append_left _ _)
    · intro h f hf
      exact hb.foci_last h f (hfoci ▸ List.mem_append_left _ hf)
    · intro h
      have hsaved := (hb.empty h).2
      rw [hstack] at hsaved
      exact ⟨hsaved s (by simp), fun s' hs' => hsaved s' (by simp [hs'])⟩

theorem observe (hb : b.Inv) (e : Event) : (b.observe e).1.Inv := by
  cases e with
  | move src dst rotation =>
    -- the anchor, if one is laid, keeps the invariant before the bone of the move does
    have hanchor : (if b.bones.size = 0 && b.opensBranch then
        { b.addBone src src rotation with opensBranch := true } else b).Inv := by
      split
      · exact (hb.addBone src src rotation).setOpensBranch true
      · exact hb
    rw [observe_move]
    exact hanchor.addBone src dst rotation
  | rotate => exact hb
  | push => exact hb.push
  | pop => exact hb.pop

theorem feed (hb : b.Inv) (es : List Event) : (b.feed es).Inv := by
  induction es generalizing b with
  | nil => exact hb
  | cons e es ih => exact ih (hb.observe e)

end Inv

/-- Fed any events from fresh, failing pops included, a builder keeps its arena a tree numbered in
depth-first preorder and its foci on one path down to the last bone; an event that fails leaves
the builder exactly as it was. -/
theorem inv_feed_and_fault_unchanged (config : SkeletonConfig) (falloff : Option Falloff)
    (es : List Event) :
    (({ config, falloff } : Builder).feed es).Inv ∧
      ∀ (b : Builder) (e : Event), (b.observe e).2.isSome →
        (b.observe e).1 = b ∧ (b.observe e).2 = some .stackUnderflow :=
  ⟨(inv_fresh config falloff).feed es, fun _ _ h => observe_eq_of_isSome h⟩

end Builder

end Arbor
