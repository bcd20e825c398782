import Arbor.Skeleton.Bone
import Mathlib.Data.Nat.Init
import Mathlib.Tactic.ByContra
/-!
# Bone arenas as trees

The bones of a skeleton sit in one array and name their parents by index. This module reads such
an arena as a tree.

* `parentOf bones i` is the parent that bone `i` names.
* `Ancestor bones a d`: `a` is `d` or lies above it, on the chain of parents from `d`.
* `Subtree bones x e`: the bones below `x`, `x` included, are exactly `x, x + 1, …, e - 1`.
* `PreorderTree bones`: every bone carries its index, bone `0` is the only root, a parent comes
  before its children and lists them in increasing order, and every subtree is an interval that
  starts at its root; the indices then number the tree in depth-first preorder.

Main statements: in a preorder tree every ancestor has a smaller index (`le_of_ancestor`), the
subtree of bone `0` is the whole arena (`subtree_zero`), and the children of a bone cut the rest
of its interval into their own intervals, in order (`flatMap_children`).
-/

namespace Arbor

/-- The parent that bone `i` names, when there is a bone `i`. -/
def parentOf (bones : Array Bone) (i : Nat) : Option Nat := bones[i]?.bind Bone.parent

/-- `a` is `d` or an ancestor of `d`: following parents from `d` reaches `a`. -/
inductive Ancestor (bones : Array Bone) (a : Nat) : Nat → Prop
  | refl : Ancestor bones a a
  | child {p d : Nat} : Ancestor bones a p → parentOf bones d = some p → Ancestor bones a d

/-- The bones below `x`, `x` included, are exactly `x, x + 1, …, e - 1`. -/
def Subtree (bones : Array Bone) (x e : Nat) : Prop := ∀ d, Ancestor bones x d ↔ x ≤ d ∧ d < e

/-- An arena that numbers a tree in depth-first preorder. -/
structure PreorderTree (bones : Array Bone) : Prop where
  /-- Every bone carries its own index. -/
  id_eq : ∀ i (h : i < bones.size), bones[i].id = i
  /-- Bone `0` is the only bone without a parent. -/
  parent_eq_none_iff : ∀ i (h : i < bones.size), bones[i].parent = none ↔ i = 0
  /-- A parent comes before its child. -/
  parent_lt : ∀ i p, parentOf bones i = some p → p < i
  /-- A bone lists exactly the bones that name it as their parent. -/
  mem_children_iff : ∀ q (h : q < bones.size) c, c ∈ bones[q].children ↔ parentOf bones c = some q
  /-- Children are listed in increasing order. -/
  children_sorted : ∀ q (h : q < bones.size), bones[q].children.Pairwise (· < ·)
  /-- The bones below a bone form an interval that starts at it. -/
  subtree : ∀ x < bones.size, ∃ e ≤ bones.size, Subtree bones x e

section Ancestor

variable {bones : Array Bone}

theorem lt_size_of_parentOf {i p : Nat} (h : parentOf bones i = some p) : i < bones.size := by
  by_contra hi
  simp [parentOf, Array.getElem?_eq_none (Nat.le_of_not_lt hi)] at h

theorem parentOf_of_lt {i : Nat} (h : i < bones.size) : parentOf bones i = bones[i].parent := by
  simp [parentOf, Array.getElem?_eq_getElem h]

theorem Ancestor.of_parentOf {p d : Nat} (h : parentOf bones d = some p) : Ancestor bones p d :=
  .child .refl h

theorem Ancestor.trans {a b c : Nat} (hab : Ancestor bones a b) (hbc : Ancestor bones b c) :
    Ancestor bones a c := by
  induction hbc with
  | refl => exact hab
  | child _ hp ih => exact .child ih hp

theorem Ancestor.exists_parentOf {a d : Nat} (h : Ancestor bones a d) (hne : a ≠ d) :
    ∃ p, parentOf bones d = some p ∧ Ancestor bones a p := by
  cases h with
  | refl => exact absurd rfl hne
  | child hp hd => exact ⟨_, hd, hp⟩

/-- Ancestry only reads parent links below its lower end: two arenas that agree on the parents of
the bones below `n` have the same ancestors of those bones. -/
theorem Ancestor.congr {bones' : Array Bone} {n : Nat}
    (hlt : ∀ i p, parentOf bones i = some p → p < i)
    (heq : ∀ i < n, parentOf bones' i = parentOf bones i) {a d : Nat} (hd : d < n)
    (h : Ancestor bones a d) : Ancestor bones' a d := by
  induction h with
  | refl => exact .refl
  | @child p d _ hp ih => exact .child (ih (Nat.lt_trans (hlt _ _ hp) hd)) ((heq d hd).trans hp)

theorem Ancestor.le (hlt : ∀ i p, parentOf bones i = some p → p < i) {a d : Nat}
    (h : Ancestor bones a d) : a ≤ d := by
  induction h with
  | refl => exact Nat.le_refl _
  | child _ hp ih => exact Nat.le_trans ih (Nat.le_of_lt (hlt _ _ hp))

end Ancestor

namespace PreorderTree

variable {bones : Array Bone} (hT : PreorderTree bones)
include hT

theorem le_of_ancestor {a d : Nat} (h : Ancestor bones a d) : a ≤ d := h.le hT.parent_lt

theorem lt_of_ancestor_of_ne {a d : Nat} (h : Ancestor bones a d) (hne : a ≠ d) : a < d :=
  Nat.lt_of_le_of_ne (hT.le_of_ancestor h) hne

theorem ancestor_zero {d : Nat} (hd : d < bones.size) : Ancestor bones 0 d := by
  induction d using Nat.strong_induction_on with
  | _ d ih =>
    rcases Nat.eq_zero_or_pos d with rfl | hpos
    · exact .refl
    · cases hp : bones[d].parent with
      | none => exact absurd ((hT.parent_eq_none_iff d hd).1 hp) (Nat.pos_iff_ne_zero.1 hpos)
      | some p =>
        have hpd : parentOf bones d = some p := (parentOf_of_lt hd).trans hp
        have hlt := hT.parent_lt _ _ hpd
        exact .child (ih p hlt (Nat.lt_trans hlt hd)) hpd

theorem subtree_zero (h : 0 < bones.size) : Subtree bones 0 bones.size := by
  obtain ⟨e, he, hsub⟩ := hT.subtree 0 h
  have hlast := ((hsub (bones.size - 1)).1 (hT.ancestor_zero (by omega))).2
  have : e = bones.size := by omega
  subst this
  exact hsub

end PreorderTree

/-! ## Intervals of subtrees -/

namespace Subtree

variable {bones : Array Bone} {x e : Nat}

theorem lt (h : Subtree bones x e) : x < e := ((h x).1 .refl).2

theorem le_of_ancestor {y e' : Nat} (h : Subtree bones x e) (hxy : Ancestor bones x y)
    (h' : Subtree bones y e') : e' ≤ e := by
  have hlast : Ancestor bones y (e' - 1) := (h' _).2 ⟨by have := h'.lt; omega, by
    have := h'.lt; omega⟩
  have := ((h _).1 (hxy.trans hlast)).2
  omega

end Subtree

namespace PreorderTree

variable {bones : Array Bone} (hT : PreorderTree bones)
include hT

theorem parentOf_succ {x e : Nat} (hsub : Subtree bones x e) (h : x + 1 < e) :
    parentOf bones (x + 1) = some x := by
  obtain ⟨q, hq, hxq⟩ := ((hsub _).2 ⟨by omega, h⟩).exists_parentOf (by omega)
  have := hT.parent_lt _ _ hq
  have := hT.le_of_ancestor hxq
  rw [hq, show q = x by omega]

/-- A child's subtree ends where the parent's ends or at the next child of the parent. -/
theorem parentOf_end_of_child {x e y e' : Nat} (hsub : Subtree bones x e)
    (hy : parentOf bones y = some x) (hsub' : Subtree bones y e') (hlt : e' < e) :
    parentOf bones e' = some x := by
  have hxy : Ancestor bones x y := .of_parentOf hy
  have hxy' := hT.parent_lt _ _ hy
  have hye' := hsub'.lt
  have hxe' : Ancestor bones x e' := (hsub _).2 ⟨by omega, hlt⟩
  obtain ⟨q, hq, hxq⟩ := hxe'.exists_parentOf (by omega)
  have hqe' := hT.parent_lt _ _ hq
  obtain ⟨eq, -, hsubq⟩ := hT.subtree q (Nat.lt_trans hqe' (lt_size_of_parentOf hq))
  have hqm : e' < eq := ((hsubq _).1 (.of_parentOf hq)).2
  -- `q` lies above `e' - 1`, as `y` does; it cannot lie below `y`, or `e'` would too
  have hqy : q < y := by
    by_contra hyq
    have hyq' : Ancestor bones y q := (hsub' _).2 ⟨by omega, by omega⟩
    have := ((hsub' _).1 (hyq'.trans (.of_parentOf hq))).2
    omega
  -- and above `y` but below `x` it would lie above `x` itself
  by_contra hne
  have hxq' : x < q := hT.lt_of_ancestor_of_ne hxq (fun h => hne (h ▸ hq))
  have hqy' : Ancestor bones q y := (hsubq _).2 ⟨by omega, by omega⟩
  obtain ⟨p, hp, hqp⟩ := hqy'.exists_parentOf (by omega)
  rw [hy] at hp
  cases hp
  have := hT.le_of_ancestor hqp
  omega

theorem not_child_inside {x y e' c : Nat} (hy : parentOf bones y = some x)
    (hsub' : Subtree bones y e') (hc : parentOf bones c = some x) (hyc : y < c) (hce : c < e') :
    False := by
  obtain ⟨p, hp, hyp⟩ := ((hsub' c).2 ⟨by omega, hce⟩).exists_parentOf (by omega)
  rw [hc] at hp
  cases hp
  have := hT.le_of_ancestor hyp
  have := hT.parent_lt _ _ hy
  omega

/-- From a boundary `y` on (the end of the subtree of `x`, or a child of `x`), the children of `x`
cover the rest of its subtree, each child with its own interval. -/
theorem flatMap_children_from {x e : Nat} (hsub : Subtree bones x e) {F : Nat → List Nat}
    (hF : ∀ c e', parentOf bones c = some x → Subtree bones c e' →
      F c = List.range' c (e' - c)) :
    ∀ (cs : List Nat) (y : Nat), cs.Pairwise (· < ·) →
      (∀ c, c ∈ cs ↔ parentOf bones c = some x ∧ y ≤ c) →
      (y = e ∨ parentOf bones y = some x) → y ≤ e → cs.flatMap F = List.range' y (e - y)
  | [], y, _, hcs, hy, _ => by
    rcases hy with rfl | hy
    · simp
    · exact absurd ((hcs y).2 ⟨hy, Nat.le_refl _⟩) (by simp)
  | c :: cs, y, hsorted, hcs, hy, hye => by
    obtain ⟨hc, hyc⟩ := (hcs c).1 (by simp)
    have hce : c < e := ((hsub c).1 (.of_parentOf hc)).2
    have hy' : parentOf bones y = some x := hy.resolve_left (by omega)
    have hcy : c = y := by
      rcases List.mem_cons.1 ((hcs y).2 ⟨hy', Nat.le_refl _⟩) with h | h
      · exact h.symm
      · exact absurd (List.rel_of_pairwise_cons hsorted h) (by omega)
    subst hcy
    obtain ⟨e', -, hsub'⟩ := hT.subtree c (lt_size_of_parentOf hc)
    have he' : e' ≤ e := hsub.le_of_ancestor (.of_parentOf hc) hsub'
    have hrest : cs.flatMap F = List.range' e' (e - e') := by
      refine flatMap_children_from hsub hF cs e' hsorted.of_cons (fun c' => ?_) ?_ he'
      · constructor
        · intro h
          obtain ⟨hc', -⟩ := (hcs c').1 (List.mem_cons_of_mem _ h)
          refine ⟨hc', Nat.le_of_not_lt fun hlt => ?_⟩
          exact hT.not_child_inside hc hsub' hc' (List.rel_of_pairwise_cons hsorted h) hlt
        · rintro ⟨hc', hle⟩
          have := hsub'.lt
          exact (List.mem_cons.1 ((hcs c').2 ⟨hc', by omega⟩)).resolve_left (by omega)
      · rcases Nat.lt_or_eq_of_le he' with hlt | heq
        · exact .inr (hT.parentOf_end_of_child hsub hc hsub' hlt)
        · exact .inl heq
    obtain ⟨k, rfl⟩ : ∃ k, e' = c + k := ⟨e' - c, by have := hsub'.lt; omega⟩
    rw [List.flatMap_cons, hF c _ hc hsub', hrest, Nat.add_sub_cancel_left, List.range'_append_1]
    congr 1
    omega

/-- The children of `x` cut the subtree of `x`, less `x`, into their own intervals, in order. -/
theorem flatMap_children {x e : Nat} (hx : x < bones.size) (hsub : Subtree bones x e)
    {F : Nat → List Nat}
    (hF : ∀ c e', parentOf bones c = some x → Subtree bones c e' →
      F c = List.range' c (e' - c)) :
    bones[x].children.flatMap F = List.range' (x + 1) (e - (x + 1)) := by
  refine hT.flatMap_children_from hsub hF _ _ (hT.children_sorted x hx) (fun c => ?_) ?_ hsub.lt
  · rw [hT.mem_children_iff x hx]
    exact ⟨fun h => ⟨h, hT.parent_lt _ _ h⟩, And.left⟩
  · rcases Nat.lt_or_eq_of_le hsub.lt with hlt | heq
    · exact .inr (hT.parentOf_succ hsub hlt)
    · exact .inl heq

end PreorderTree

/-! ## Attaching a leaf -/

/-- The arena with `c` added to the children of the bone `p` names. -/
def adopt (bones : Array Bone) (p : Option Nat) (c : Nat) : Array Bone :=
  match p with
  | some p => bones.modify p fun q => { q with children := q.children ++ [c] }
  | none => bones

/-- The arena with `bone` added last and listed among the children of its parent. -/
def attach (bones : Array Bone) (bone : Bone) : Array Bone :=
  (adopt bones bone.parent bones.size).push bone

section Attach

variable {bones : Array Bone} {bone : Bone}

@[simp] theorem size_adopt {p : Option Nat} {c : Nat} : (adopt bones p c).size = bones.size := by
  cases p <;> simp [adopt]

theorem getElem_adopt {p : Option Nat} {c i : Nat} (h : i < (adopt bones p c).size)
    (hi : i < bones.size) :
    (adopt bones p c)[i] =
      if p = some i then { bones[i] with children := bones[i].children ++ [c] } else bones[i] := by
  cases p <;> simp [adopt, Array.getElem_modify]

@[simp] theorem size_attach : (attach bones bone).size = bones.size + 1 := by simp [attach]

theorem getElem_attach_of_lt {i : Nat} (h : i < (attach bones bone).size) (hi : i < bones.size) :
    (attach bones bone)[i] =
      if bone.parent = some i then { bones[i] with children := bones[i].children ++ [bones.size] }
      else bones[i] := by
  simp [attach, Array.getElem_push, getElem_adopt _ hi, hi]

theorem getElem_attach_self (h : bones.size < (attach bones bone).size) :
    (attach bones bone)[bones.size] = bone := by
  simp [attach, Array.getElem_push]

theorem parentOf_attach (i : Nat) :
    parentOf (attach bones bone) i = if i = bones.size then bone.parent else parentOf bones i := by
  rcases Nat.lt_trichotomy i bones.size with hi | rfl | hi
  · rw [if_neg (by omega), parentOf_of_lt (by simp; omega), parentOf_of_lt hi,
      getElem_attach_of_lt _ hi]
    split <;> rfl
  · rw [if_pos rfl, parentOf_of_lt (by simp), getElem_attach_self]
  · have h1 : parentOf (attach bones bone) i = none := by
      simp [parentOf, Array.getElem?_eq_none (show (attach bones bone).size ≤ i by simp; omega)]
    have h2 : parentOf bones i = none := by
      simp [parentOf, Array.getElem?_eq_none (show bones.size ≤ i by omega)]
    rw [if_neg (by omega), h1, h2]

theorem getElem?_map_attach {α : Type} {f : Bone → α}
    (hf : ∀ q cs, f { q with children := cs } = f q) (i : Nat) :
    (attach bones bone)[i]?.map f = if i = bones.size then some (f bone) else bones[i]?.map f := by
  unfold attach adopt
  split <;> simp only [Array.getElem?_push, Array.getElem?_modify] <;> split <;> try split
  all_goals simp_all [Function.comp_def]

theorem map_toList_attach {α : Type} {f : Bone → α}
    (hf : ∀ q cs, f { q with children := cs } = f q) :
    (attach bones bone).toList.map f = bones.toList.map f ++ [f bone] := by
  have hadopt : (adopt bones bone.parent bones.size).toList.map f = bones.toList.map f := by
    unfold adopt
    split
    · rw [Array.toList_modify]
      apply List.ext_getElem?
      intro i
      simp only [List.getElem?_map, List.getElem?_modify]
      split <;> simp [Function.comp_def, hf]
    · rfl
  simp [attach, hadopt]

theorem ancestor_attach_of_gt {a d : Nat} (hd : bones.size < d)
    (h : Ancestor (attach bones bone) a d) : a = d := by
  by_contra hne
  obtain ⟨p, hp, -⟩ := h.exists_parentOf hne
  have := lt_size_of_parentOf hp
  simp at this
  omega

end Attach

namespace PreorderTree

variable {bones : Array Bone} {bone : Bone} (hT : PreorderTree bones)
  (hroot : bone.parent = none ↔ bones.size = 0)
  (hpath : ∀ p, bone.parent = some p → Ancestor bones p (bones.size - 1))
include hT hroot hpath

theorem parent_lt_size_of_attach {p : Nat} (h : bone.parent = some p) : p < bones.size := by
  have hp := hT.le_of_ancestor (hpath p h)
  have : bones.size ≠ 0 := fun h0 => by rw [← hroot] at h0; simp [h0] at h
  omega

theorem parent_lt_attach : ∀ i p, parentOf (attach bones bone) i = some p → p < i := by
  intro i p h
  rw [parentOf_attach] at h
  split at h
  · subst i
    exact hT.parent_lt_size_of_attach hroot hpath h
  · exact hT.parent_lt _ _ h

theorem ancestor_attach_iff {a d : Nat} (hd : d < bones.size) :
    Ancestor (attach bones bone) a d ↔ Ancestor bones a d := by
  have heq : ∀ i < bones.size, parentOf (attach bones bone) i = parentOf bones i := fun i hi => by
    rw [parentOf_attach, if_neg (by omega)]
  exact ⟨Ancestor.congr (hT.parent_lt_attach hroot hpath) (fun i hi => (heq i hi).symm) hd,
    Ancestor.congr hT.parent_lt heq hd⟩

theorem ancestor_attach_self_iff {a : Nat} :
    Ancestor (attach bones bone) a bones.size ↔
      a = bones.size ∨ ∃ p, bone.parent = some p ∧ Ancestor bones a p := by
  constructor
  · intro h
    by_cases ha : a = bones.size
    · exact .inl ha
    · obtain ⟨p, hp, hap⟩ := h.exists_parentOf ha
      rw [parentOf_attach, if_pos rfl] at hp
      exact .inr ⟨p, hp, (hT.ancestor_attach_iff hroot hpath
        (hT.parent_lt_size_of_attach hroot hpath hp)).1 hap⟩
  · rintro (rfl | ⟨p, hp, hap⟩)
    · exact .refl
    · refine .child ((hT.ancestor_attach_iff hroot hpath
        (hT.parent_lt_size_of_attach hroot hpath hp)).2 hap) ?_
      rw [parentOf_attach, if_pos rfl, hp]

theorem mem_children_attach_iff (hleaf : bone.children = []) (q : Nat)
    (hq : q < (attach bones bone).size) (c : Nat) :
    c ∈ (attach bones bone)[q].children ↔ parentOf (attach bones bone) c = some q := by
  rw [parentOf_attach]
  rcases Nat.lt_or_ge q bones.size with hq' | hq'
  · rw [getElem_attach_of_lt _ hq']
    by_cases hpq : bone.parent = some q
    · simp only [hpq, if_true, List.mem_append, List.mem_singleton, hT.mem_children_iff q hq']
      by_cases hc : c = bones.size
      · simp [hc]
      · simp [hc]
    · simp only [hpq, if_false, hT.mem_children_iff q hq']
      split
      · subst c
        simp [parentOf, hpq]
      · rfl
  · obtain rfl : q = bones.size := by simp at hq; omega
    rw [getElem_attach_self, hleaf]
    simp only [List.not_mem_nil, false_iff]
    split
    · intro h
      have := hT.parent_lt_size_of_attach hroot hpath h
      omega
    · intro h
      have := hT.parent_lt _ _ h
      have := lt_size_of_parentOf h
      omega

/-- An old bone keeps its subtree, grown by the new bone when that hangs below it: the subtree
then ran to the end of the arena. -/
theorem subtree_attach_of_lt {x : Nat} (hx : x < bones.size) :
    ∃ e ≤ (attach bones bone).size, Subtree (attach bones bone) x e := by
  obtain ⟨e, he, hsub⟩ := hT.subtree x hx
  by_cases hxp : ∃ p, bone.parent = some p ∧ Ancestor bones x p
  · obtain ⟨p, hp, hxp⟩ := hxp
    have hlast := ((hsub _).1 (hxp.trans (hpath p hp))).2
    refine ⟨bones.size + 1, by simp, fun d => ?_⟩
    rcases Nat.lt_trichotomy d bones.size with hd | rfl | hd
    · rw [hT.ancestor_attach_iff hroot hpath hd, hsub]
      omega
    · rw [hT.ancestor_attach_self_iff hroot hpath]
      exact ⟨fun _ => ⟨by omega, by omega⟩, fun _ => .inr ⟨p, hp, hxp⟩⟩
    · exact ⟨fun h => absurd (ancestor_attach_of_gt hd h) (by omega),
        fun h => absurd h.2 (by omega)⟩
  · refine ⟨e, by simp; omega, fun d => ?_⟩
    rcases Nat.lt_trichotomy d bones.size with hd | rfl | hd
    · rw [hT.ancestor_attach_iff hroot hpath hd, hsub]
    · rw [hT.ancestor_attach_self_iff hroot hpath]
      exact ⟨fun h => h.elim (fun h => absurd h (by omega)) (absurd · hxp),
        fun h => absurd h.2 (by omega)⟩
    · exact ⟨fun h => absurd (ancestor_attach_of_gt hd h) (by omega),
        fun h => absurd h.2 (by omega)⟩

theorem subtree_attach_self : Subtree (attach bones bone) bones.size (bones.size + 1) := by
  intro d
  constructor
  · intro h
    have := h.le (hT.parent_lt_attach hroot hpath)
    rcases Nat.lt_or_ge bones.size d with hd | hd
    · exact absurd (ancestor_attach_of_gt hd h) (by omega)
    · omega
  · intro h
    obtain rfl : d = bones.size := by omega
    exact .refl

/-- A preorder tree stays one when a leaf is attached below a bone on the path to the last bone. -/
theorem attach (hid : bone.id = bones.size) (hleaf : bone.children = []) :
    PreorderTree (attach bones bone) where
  id_eq i hi := by
    rcases Nat.lt_or_ge i bones.size with hi' | hi'
    · rw [getElem_attach_of_lt _ hi']
      split <;> exact hT.id_eq i hi'
    · obtain rfl : i = bones.size := by simp at hi; omega
      rw [getElem_attach_self, hid]
  parent_eq_none_iff i hi := by
    rcases Nat.lt_or_ge i bones.size with hi' | hi'
    · rw [getElem_attach_of_lt _ hi']
      split <;> exact hT.parent_eq_none_iff i hi'
    · obtain rfl : i = bones.size := by simp at hi; omega
      rw [getElem_attach_self, hroot]
  parent_lt := hT.parent_lt_attach hroot hpath
  mem_children_iff := hT.mem_children_attach_iff hroot hpath hleaf
  children_sorted q hq := by
    rcases Nat.lt_or_ge q bones.size with hq' | hq'
    · rw [getElem_attach_of_lt _ hq']
      split
      · refine List.pairwise_append.2 ⟨hT.children_sorted q hq', by simp, ?_⟩
        intro c hc _ h
        simp only [List.mem_singleton] at h
        subst h
        exact lt_size_of_parentOf ((hT.mem_children_iff q hq' c).1 hc)
      · exact hT.children_sorted q hq'
    · obtain rfl : q = bones.size := by simp at hq; omega
      rw [getElem_attach_self, hleaf]
      exact .nil
  subtree x hx := by
    rcases Nat.lt_or_ge x bones.size with hx' | hx'
    · exact hT.subtree_attach_of_lt hroot hpath hx'
    · obtain rfl : x = bones.size := by simp at hx; omega
      exact ⟨bones.size + 1, by simp, hT.subtree_attach_self hroot hpath⟩

end PreorderTree

end Arbor
