import Mathlib
import Arbor.Proofs.Skeleton.Build
/-!
# Props along the path from the root

A builder gives the root the configured factors at depth and branch order `0`, and every other
bone the props of its parent, one deeper and one more branch order when it starts a branch, with
the factors scaled by the falloff exactly then (`BoneProps.inherit`). The falloff compares the
branch orders of child and parent, which differ exactly when the child starts a branch
(`Builder.childProps_eq_inherit`).

* `PropsInherited config falloff bones`: the root's props come from `config`, every other bone's
  from its parent's by `BoneProps.inherit`.
* `PropsAlongPath config falloff bones`: what follows along the tree: depth counts the bones above a
  bone, branch order the bones that start a branch on its path from the root, each factor is the
  root's scaled once per branch order, and none of the counters passes the bone's index.

Main statements: every event keeps `PropsInherited` (`propsInherited_observe`), and in a preorder
tree it gives `PropsAlongPath` (`PropsInherited.along_path`); so a builder fed any events from
fresh satisfies both (`Builder.props_along_path_feed`).
-/

namespace Arbor

/-- The props a child gets from its parent's: one deeper, one more branch order when it starts a
branch, and the parent's factors, scaled by the falloff when it starts a branch. -/
def BoneProps.inherit (falloff : Option Falloff) (parent : BoneProps) (opens : Bool) :
    BoneProps where
  depth := parent.depth + 1
  branchOrder := parent.branchOrder + if opens then 1 else 0
  lengthFactor := match falloff, opens with
    | some f, true => parent.lengthFactor * f.lengthRatio
    | _, _ => parent.lengthFactor
  thickness := match falloff, opens with
    | some f, true => parent.thickness * f.thicknessRatio
    | _, _ => parent.thickness

/-- The props of the root. -/
def SkeletonConfig.rootProps (config : SkeletonConfig) : BoneProps :=
  ⟨0, 0, config.rootLengthFactor, config.rootThickness⟩

/-- The falloff scales a child's factors when its branch order exceeds its parent's, which is
exactly when it starts a branch. -/
theorem Builder.childProps_eq_inherit (b : Builder) (parent : BoneProps) :
    b.childProps parent = parent.inherit b.falloff b.opensBranch := by
  unfold Builder.childProps BoneProps.inherit
  cases b.falloff <;> cases b.opensBranch <;> simp [Falloff.apply]

/-- The props of an arena's bones as a builder with `config` and `falloff` sets them. -/
structure PropsInherited (config : SkeletonConfig) (falloff : Option Falloff)
    (bones : Array Bone) : Prop where
  /-- The root has the configured props and starts no branch. -/
  root : ∀ h : 0 < bones.size, bones[0].props = config.rootProps ∧ bones[0].startsBranch = false
  /-- Every other bone inherits from its parent. -/
  child : ∀ i p (hi : i < bones.size) (hp : p < bones.size), bones[i].parent = some p →
    bones[i].props = bones[p].props.inherit falloff bones[i].startsBranch

section Attach

variable {config : SkeletonConfig} {falloff : Option Falloff} {bones : Array Bone} {bone : Bone}

theorem exists_getElem_attach_of_lt {i : Nat} (h : i < (attach bones bone).size)
    (hi : i < bones.size) : ∃ cs, (attach bones bone)[i] = { bones[i] with children := cs } := by
  rw [getElem_attach_of_lt h hi]
  split
  · exact ⟨_, rfl⟩
  · exact ⟨bones[i].children, rfl⟩

theorem getElem_attach_of_eq {i : Nat} (h : i < (attach bones bone).size) (hi : i = bones.size) :
    (attach bones bone)[i] = bone := by
  subst hi
  exact getElem_attach_self h

/-- A leaf whose props come from the configuration when it is the first bone, and from its
parent otherwise, keeps the props inherited. -/
theorem PropsInherited.attach (hP : PropsInherited config falloff bones)
    (hlt : ∀ i p, parentOf bones i = some p → p < i)
    (hroot : bones.size = 0 → bone.props = config.rootProps ∧ bone.startsBranch = false)
    (hpar : ∀ p, bone.parent = some p → p < bones.size)
    (hchild : ∀ p (hp : p < bones.size), bone.parent = some p →
      bone.props = bones[p].props.inherit falloff bone.startsBranch) :
    PropsInherited config falloff (attach bones bone) where
  root h := by
    rcases Nat.eq_zero_or_pos bones.size with h0 | hpos
    · rw [getElem_attach_of_eq h h0.symm]
      exact hroot h0
    · obtain ⟨cs, hcs⟩ := exists_getElem_attach_of_lt h hpos
      rw [hcs]
      exact hP.root hpos
  child i p hi hp hip := by
    rcases Nat.lt_or_ge i bones.size with hi' | hi'
    · -- an old bone keeps its parent, its props and those of its parent
      obtain ⟨cs, hcs⟩ := exists_getElem_attach_of_lt hi hi'
      rw [hcs] at hip ⊢
      have hpi : p < i := hlt i p ((parentOf_of_lt hi').trans hip)
      obtain ⟨cs', hcs'⟩ := exists_getElem_attach_of_lt hp (by omega)
      rw [hcs']
      exact hP.child i p hi' (by omega) hip
    · -- the new bone hangs from an old one
      have hi'' : i = bones.size := by simp at hi; omega
      rw [getElem_attach_of_eq hi hi''] at hip ⊢
      obtain ⟨cs', hcs'⟩ := exists_getElem_attach_of_lt hp (hpar p hip)
      rw [hcs']
      exact hchild p (hpar p hip) hip

end Attach

namespace Builder

variable {b : Builder}

theorem Inv.nextParent_lt (hb : b.Inv) {p : Nat} (hp : b.nextParent = some p) :
    p < b.bones.size := by
  have hle := hb.tree.le_of_ancestor (hb.ancestor_last_of_nextParent hp)
  have hpos : b.bones.size ≠ 0 := fun h0 => by
    rw [← hb.nextParent_eq_none_iff] at h0
    simp [h0] at hp
  omega

theorem propsInherited_addBone (hb : b.Inv) (hP : PropsInherited b.config b.falloff b.bones)
    (base tip : Vec3) (rotation : Quat) :
    PropsInherited b.config b.falloff (b.addBone base tip rotation).bones := by
  rw [addBone_eq]
  refine hP.attach hb.tree.parent_lt (fun h0 => ?_) (fun p hp => hb.nextParent_lt hp)
    (fun p hp hpar => ?_)
  · have hnone : b.nextParent = none := hb.nextParent_eq_none_iff.2 h0
    simp [nextBone, nextProps, hnone, SkeletonConfig.rootProps]
  · have hpar' : b.nextParent = some p := hpar
    have hget : b.bones[p]? = some b.bones[p] := Array.getElem?_eq_getElem hp
    simp only [nextBone, nextProps, hpar', Option.bind_some, hget, Option.isSome_some,
      Bool.true_and, childProps_eq_inherit]

theorem propsInherited_observe (hb : b.Inv) (hP : PropsInherited b.config b.falloff b.bones)
    (e : Event) :
    PropsInherited (b.observe e).1.config (b.observe e).1.falloff (b.observe e).1.bones := by
  cases e with
  | move src dst rotation =>
    rw [observe_move]
    split
    · have hb' := (hb.addBone src src rotation).setOpensBranch true
      have hP' := propsInherited_addBone hb hP src src rotation
      rw [addBone_eq] at hb' hP' ⊢
      exact propsInherited_addBone hb' hP' src dst rotation
    · rw [addBone_eq]
      exact propsInherited_addBone hb hP src dst rotation
  | rotate => exact hP
  | push => exact hP
  | pop =>
    rw [observe_pop]
    split
    · exact hP
    · exact hP

theorem propsInherited_feed (hb : b.Inv) (hP : PropsInherited b.config b.falloff b.bones)
    (es : List Event) :
    PropsInherited (b.feed es).config (b.feed es).falloff (b.feed es).bones := by
  induction es generalizing b with
  | nil => exact hP
  | cons e es ih => exact ih (hb.observe e) (propsInherited_observe hb hP e)

theorem observe_config_falloff (e : Event) :
    (b.observe e).1.config = b.config ∧ (b.observe e).1.falloff = b.falloff := by
  cases e with
  | move src dst rotation =>
    rw [observe_move]
    split <;> simp [addBone_eq]
  | rotate => exact ⟨rfl, rfl⟩
  | push => exact ⟨rfl, rfl⟩
  | pop =>
    rw [observe_pop]
    split <;> exact ⟨rfl, rfl⟩

theorem config_feed (es : List Event) : (b.feed es).config = b.config := by
  induction es generalizing b with
  | nil => rfl
  | cons e es ih => rw [feed_cons, ih, (observe_config_falloff e).1]

theorem falloff_feed (es : List Event) : (b.feed es).falloff = b.falloff := by
  induction es generalizing b with
  | nil => rfl
  | cons e es ih => rw [feed_cons, ih, (observe_config_falloff e).2]

end Builder

/-! ## Along the path from the root -/

section Path

variable {bones : Array Bone}

theorem ancestor_iff_of_parentOf {i p a : Nat} (hp : parentOf bones i = some p) :
    Ancestor bones a i ↔ a = i ∨ Ancestor bones a p := by
  constructor
  · intro h
    by_cases hai : a = i
    · exact .inl hai
    · obtain ⟨q, hq, haq⟩ := h.exists_parentOf hai
      rw [hp, Option.some.injEq] at hq
      subst hq
      exact .inr haq
  · rintro (rfl | h)
    · exact .refl
    · exact .child h hp

open scoped Classical in
theorem PreorderTree.path_of_parentOf (hT : PreorderTree bones) {i p : Nat}
    (hp : parentOf bones i = some p) :
    (Finset.range (i + 1)).filter (Ancestor bones · i) =
      insert i ((Finset.range (p + 1)).filter (Ancestor bones · p)) := by
  have hpi := hT.parent_lt _ _ hp
  ext a
  simp only [Finset.mem_filter, Finset.mem_range, Finset.mem_insert, ancestor_iff_of_parentOf hp]
  constructor
  · rintro ⟨-, rfl | h⟩
    · exact .inl rfl
    · exact .inr ⟨Nat.lt_succ_of_le (hT.le_of_ancestor h), h⟩
  · rintro (rfl | ⟨-, h⟩)
    · exact ⟨Nat.lt_succ_self _, .inl rfl⟩
    · exact ⟨by have := hT.le_of_ancestor h; omega, .inr h⟩

open scoped Classical in
theorem path_zero : (Finset.range 1).filter (Ancestor bones · 0) = {0} := by
  ext a
  simp only [Finset.mem_filter, Finset.mem_range, Finset.mem_singleton]
  constructor
  · intro h
    omega
  · rintro rfl
    exact ⟨Nat.one_pos, .refl⟩

open scoped Classical in
theorem not_mem_path_of_lt {i p : Nat} (hpi : p < i) :
    i ∉ (Finset.range (p + 1)).filter (Ancestor bones · p) := by
  simp only [Finset.mem_filter, Finset.mem_range, not_and]
  intro h
  omega

/-- Induction down the tree: what holds of the root, and of every child whose parent has it,
holds of every bone. -/
theorem PreorderTree.induction_parent (hT : PreorderTree bones)
    {motive : (i : Nat) → i < bones.size → Prop}
    (root : ∀ h : 0 < bones.size, motive 0 h)
    (child : ∀ i p (hi : i < bones.size) (hp : p < bones.size), parentOf bones i = some p →
      motive p hp → motive i hi)
    (i : Nat) (hi : i < bones.size) : motive i hi := by
  -- parents come before their children, so strong induction on the index reaches every bone
  induction i using Nat.strong_induction_on with
  | _ i ih =>
    rcases Nat.eq_zero_or_pos i with rfl | hpos
    · exact root hi
    · cases hpar : bones[i].parent with
      | none => exact absurd ((hT.parent_eq_none_iff i hi).1 hpar) (by omega)
      | some p =>
        have hpi : parentOf bones i = some p := (parentOf_of_lt hi).trans hpar
        have hlt := hT.parent_lt _ _ hpi
        exact child i p hi (by omega) hpi (ih p hlt (by omega))

end Path

open scoped Classical in
/-- What inherited props come to along the tree. -/
structure PropsAlongPath (config : SkeletonConfig) (falloff : Option Falloff)
    (bones : Array Bone) : Prop where
  /-- The root has depth and branch order `0`, the configured factors, and starts no branch. -/
  root : ∀ h : 0 < bones.size, bones[0].props.depth = 0 ∧ bones[0].props.branchOrder = 0 ∧
    bones[0].startsBranch = false ∧ bones[0].props.lengthFactor = config.rootLengthFactor ∧
    bones[0].props.thickness = config.rootThickness
  /-- Every other bone is one deeper than its parent, and one more branch order when it starts a
  branch. -/
  child : ∀ i (hi : i < bones.size) p, bones[i].parent = some p →
    ∃ hp : p < bones.size, bones[i].props.depth = bones[p].props.depth + 1 ∧
      bones[i].props.branchOrder =
        bones[p].props.branchOrder + if bones[i].startsBranch then 1 else 0
  /-- The path from the root to a bone has one bone more than the bone's depth. -/
  depth_eq_card : ∀ i (hi : i < bones.size),
    ((Finset.range (i + 1)).filter (Ancestor bones · i)).card = bones[i].props.depth + 1
  /-- The branch order counts the bones on that path that start a branch. -/
  branchOrder_eq_card : ∀ i (hi : i < bones.size),
    (((Finset.range (i + 1)).filter (Ancestor bones · i)).filter
      fun a => bones[a]?.map Bone.startsBranch = some true).card = bones[i].props.branchOrder
  /-- With a falloff, each factor is the root's scaled once per branch order. -/
  factors_falloff : ∀ f, falloff = some f → ∀ i (hi : i < bones.size),
    bones[i].props.lengthFactor =
        (· * f.lengthRatio)^[bones[i].props.branchOrder] config.rootLengthFactor ∧
      bones[i].props.thickness =
        (· * f.thicknessRatio)^[bones[i].props.branchOrder] config.rootThickness
  /-- Without one, every bone has the root's factors. -/
  factors_none : falloff = none → ∀ i (hi : i < bones.size),
    bones[i].props.lengthFactor = config.rootLengthFactor ∧
      bones[i].props.thickness = config.rootThickness
  /-- Depth is at most the index, and branch order at most the depth. -/
  depth_le : ∀ i (hi : i < bones.size), bones[i].props.depth ≤ i
  branchOrder_le_depth : ∀ i (hi : i < bones.size),
    bones[i].props.branchOrder ≤ bones[i].props.depth
  /-- With at most `2^32` bones, the counters a child is given fit in 32 bits. -/
  no_wrap : bones.size ≤ 2 ^ 32 → ∀ i (hi : i < bones.size) p, bones[i].parent = some p →
    ∃ hp : p < bones.size, bones[p].props.depth + 1 < 2 ^ 32 ∧
      bones[p].props.branchOrder + (if bones[i].startsBranch then 1 else 0) < 2 ^ 32

namespace PropsInherited

variable {config : SkeletonConfig} {falloff : Option Falloff} {bones : Array Bone}
  (hP : PropsInherited config falloff bones) (hT : PreorderTree bones)
include hP hT

theorem props_of_parentOf {i p : Nat} (hi : i < bones.size) (hpi : parentOf bones i = some p) :
    ∃ hp : p < bones.size,
      bones[i].props = bones[p].props.inherit falloff bones[i].startsBranch := by
  have hlt := hT.parent_lt _ _ hpi
  exact ⟨by omega, hP.child i p hi (by omega) ((parentOf_of_lt hi).symm.trans hpi)⟩

theorem depth_eq_card (i : Nat) (hi : i < bones.size) :
    open scoped Classical in
    ((Finset.range (i + 1)).filter (Ancestor bones · i)).card = bones[i].props.depth + 1 := by
  classical
  induction i, hi using hT.induction_parent with
  | root h =>
    rw [path_zero, (hP.root h).1]
    rfl
  | child i p hi hp hpi ih =>
    obtain ⟨_, hprops⟩ := hP.props_of_parentOf hT hi hpi
    rw [hT.path_of_parentOf hpi, Finset.card_insert_of_notMem
      (not_mem_path_of_lt (hT.parent_lt _ _ hpi)), ih, hprops]
    rfl

theorem branchOrder_eq_card (i : Nat) (hi : i < bones.size) :
    open scoped Classical in
    (((Finset.range (i + 1)).filter (Ancestor bones · i)).filter
      fun a => bones[a]?.map Bone.startsBranch = some true).card = bones[i].props.branchOrder := by
  classical
  induction i, hi using hT.induction_parent with
  | root h =>
    rw [path_zero]
    simp [Finset.filter_singleton, Array.getElem?_eq_getElem h, (hP.root h).1, (hP.root h).2,
      SkeletonConfig.rootProps]
  | child i p hi hp hpi ih =>
    obtain ⟨_, hprops⟩ := hP.props_of_parentOf hT hi hpi
    have hnot : i ∉ (Finset.range (p + 1)).filter (Ancestor bones · p) :=
      not_mem_path_of_lt (hT.parent_lt _ _ hpi)
    rw [hT.path_of_parentOf hpi, Finset.filter_insert, hprops]
    cases hs : bones[i].startsBranch
    · rw [if_neg (by simp [Array.getElem?_eq_getElem hi, hs]), ih]
      rfl
    · rw [if_pos (by simp [Array.getElem?_eq_getElem hi, hs]), Finset.card_insert_of_notMem
        (fun h => hnot (Finset.mem_of_mem_filter _ h)), ih]
      rfl

theorem factors_falloff {f : Falloff} (hf : falloff = some f) (i : Nat) (hi : i < bones.size) :
    bones[i].props.lengthFactor =
        (· * f.lengthRatio)^[bones[i].props.branchOrder] config.rootLengthFactor ∧
      bones[i].props.thickness =
        (· * f.thicknessRatio)^[bones[i].props.branchOrder] config.rootThickness := by
  induction i, hi using hT.induction_parent with
  | root h =>
    rw [(hP.root h).1]
    exact ⟨rfl, rfl⟩
  | child i p hi hp hpi ih =>
    obtain ⟨_, hprops⟩ := hP.props_of_parentOf hT hi hpi
    obtain ⟨hl, ht⟩ := ih
    rw [hprops, hf]
    cases bones[i].startsBranch
    · exact ⟨hl, ht⟩
    · have horder : (bones[p].props.inherit (some f) true).branchOrder =
          bones[p].props.branchOrder + 1 := rfl
      rw [horder, Function.iterate_succ_apply', Function.iterate_succ_apply', ← hl, ← ht]
      exact ⟨rfl, rfl⟩

theorem factors_none (hf : falloff = none) (i : Nat) (hi : i < bones.size) :
    bones[i].props.lengthFactor = config.rootLengthFactor ∧
      bones[i].props.thickness = config.rootThickness := by
  induction i, hi using hT.induction_parent with
  | root h =>
    rw [(hP.root h).1]
    exact ⟨rfl, rfl⟩
  | child i p hi hp hpi ih =>
    obtain ⟨_, hprops⟩ := hP.props_of_parentOf hT hi hpi
    rw [hprops, hf]
    exact ih

theorem depth_le (i : Nat) (hi : i < bones.size) : bones[i].props.depth ≤ i := by
  induction i, hi using hT.induction_parent with
  | root h =>
    rw [(hP.root h).1]
    exact Nat.le_refl _
  | child i p hi hp hpi ih =>
    obtain ⟨_, hprops⟩ := hP.props_of_parentOf hT hi hpi
    have hlt := hT.parent_lt _ _ hpi
    rw [hprops]
    show bones[p].props.depth + 1 ≤ i
    omega

theorem branchOrder_le_depth (i : Nat) (hi : i < bones.size) :
    bones[i].props.branchOrder ≤ bones[i].props.depth := by
  induction i, hi using hT.induction_parent with
  | root h =>
    rw [(hP.root h).1]
    exact Nat.le_refl _
  | child i p hi hp hpi ih =>
    obtain ⟨_, hprops⟩ := hP.props_of_parentOf hT hi hpi
    rw [hprops]
    show bones[p].props.branchOrder + (if bones[i].startsBranch then 1 else 0) ≤
      bones[p].props.depth + 1
    split <;> omega

theorem along_path : PropsAlongPath config falloff bones where
  root h := by
    obtain ⟨hprops, hs⟩ := hP.root h
    rw [hprops]
    exact ⟨rfl, rfl, hs, rfl, rfl⟩
  child i hi p hip := by
    obtain ⟨hp, hprops⟩ := hP.props_of_parentOf hT hi ((parentOf_of_lt hi).trans hip)
    rw [hprops]
    exact ⟨hp, rfl, rfl⟩
  depth_eq_card := hP.depth_eq_card hT
  branchOrder_eq_card := hP.branchOrder_eq_card hT
  factors_falloff _ hf := hP.factors_falloff hT hf
  factors_none hf := hP.factors_none hT hf
  depth_le := hP.depth_le hT
  branchOrder_le_depth := hP.branchOrder_le_depth hT
  no_wrap hsize i hi p hip := by
    obtain ⟨hp, hprops⟩ := hP.props_of_parentOf hT hi ((parentOf_of_lt hi).trans hip)
    have hdepth := hP.depth_le hT i hi
    have horder := hP.branchOrder_le_depth hT i hi
    rw [hprops] at hdepth horder
    refine ⟨hp, ?_, ?_⟩
    · show bones[p].props.depth + 1 < 2 ^ 32
      have : bones[p].props.depth + 1 ≤ i := hdepth
      omega
    · have : bones[p].props.branchOrder + (if bones[i].startsBranch then 1 else 0) ≤
          bones[p].props.depth + 1 := horder
      have : bones[p].props.depth + 1 ≤ i := hdepth
      omega

end PropsInherited

/-- Fed any events from fresh, with or without a falloff, a builder gives the root the configured
props and every other bone its parent's, one deeper and one more branch order when it starts a
branch: so depth counts the bones above a bone, branch order the bones that start a branch on its
path from the root, each factor is the root's scaled once per branch order, and no counter passes
the bone's index. -/
theorem Builder.props_along_path_feed (config : SkeletonConfig) (falloff : Option Falloff)
    (es : List Event) :
    PropsInherited config falloff (({ config, falloff } : Builder).feed es).bones ∧
      PropsAlongPath config falloff (({ config, falloff } : Builder).feed es).bones := by
  have hinv := (Builder.inv_fresh config falloff).feed es
  have hP : PropsInherited config falloff (({ config, falloff } : Builder).feed es).bones := by
    have := Builder.propsInherited_feed (Builder.inv_fresh config falloff)
      ⟨fun h => absurd h (by simp), fun _ _ hi => absurd hi (by simp)⟩ es
    rwa [Builder.config_feed, Builder.falloff_feed] at this
  exact ⟨hP, hP.along_path hinv.tree⟩

end Arbor
