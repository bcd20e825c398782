import Arbor.Proofs.Skeleton.Build
/-!
# Branches cover the bones in order

`Branch.classify` walks the tree from bone `0`: a branch follows lone children that open no branch
of their own, and after it come the branches below each child of its last bone, child by child.
In a tree numbered in depth-first preorder that walk meets the bones in index order.

Main statements: the chain from a bone is a run of consecutive indices and the branches below its
last bone cover the rest of its subtree (`chainFrom_spec`); so the branches below a bone cover its
subtree in order (`flatMap_branchesFrom`) and those of a whole arena concatenate to
`0, 1, …, n - 1` (`flatMap_classify`). For every skeleton a builder finishes, the branches are
moreover non-empty runs of consecutive bones, listed by their first bone
(`finish_branches_preorder`).
-/

namespace Arbor

namespace Branch

/-- The bones the branches below `c` meet, in order; nothing for a `c` that the walk from
`start` does not follow. -/
def below (bones : Array Bone) (start c : Nat) : List Nat :=
  if start < c ∧ c < bones.size then (branchesFrom bones c).flatMap (·.nodes) else []

theorem chainFrom_nodes_ne_nil (bones : Array Bone) (acc : List Nat) (cur : Nat) :
    (chainFrom bones acc cur).1 ≠ [] := by
  fun_induction chainFrom bones acc cur with
  | case4 => assumption
  | _ => simp

theorem nodes_ne_nil_of_mem_branchesFrom (bones : Array Bone) (start : Nat) :
    ∀ br ∈ branchesFrom bones start, br.nodes ≠ [] := by
  fun_induction branchesFrom bones start with
  | case1 x nodes kind next hchain ih =>
    intro br hbr
    rcases List.mem_cons.1 hbr with rfl | hbr
    · simpa [hchain] using chainFrom_nodes_ne_nil bones [] x
    · obtain ⟨c, -, hc⟩ := List.mem_flatMap.1 hbr
      split at hc
      · exact ih c ‹_› br hc
      · simp at hc

theorem flatMap_nodes_branchesFrom (bones : Array Bone) (start : Nat) :
    (branchesFrom bones start).flatMap (·.nodes) =
      (chainFrom bones [] start).1 ++
        (chainFrom bones [] start).2.2.flatMap (below bones start) := by
  rw [branchesFrom]
  simp only [List.flatMap_cons, List.flatMap_assoc]
  congr 2
  funext c
  unfold below
  split <;> rfl

end Branch

namespace PreorderTree

open Branch

variable {bones : Array Bone} (hT : PreorderTree bones)
include hT

theorem flatMap_below_children {start cur e : Nat} {b : Bone}
    (hflat : ∀ c e', start < c → c < bones.size → Subtree bones c e' →
      (branchesFrom bones c).flatMap (·.nodes) = List.range' c (e' - c))
    (hstart : start ≤ cur) (hb : bones[cur]? = some b) (hsub : Subtree bones cur e) :
    b.children.flatMap (below bones start) = List.range' (cur + 1) (e - (cur + 1)) := by
  have hcur : cur < bones.size := (Array.getElem?_eq_some_iff.1 hb).1
  obtain rfl : bones[cur] = b := (Array.getElem?_eq_some_iff.1 hb).2
  refine hT.flatMap_children hcur hsub fun c e' hc hsub' => ?_
  have := hT.parent_lt _ _ hc
  rw [below, if_pos ⟨by omega, lt_size_of_parentOf hc⟩]
  exact hflat c e' (by omega) (lt_size_of_parentOf hc) hsub'

/-- The chain from `cur` (after the bones `acc`) runs through consecutive bones, and the branches
below the children of its last bone cover the rest of the subtree of `cur`. -/
theorem chainFrom_spec {start : Nat}
    (hflat : ∀ c e', start < c → c < bones.size → Subtree bones c e' →
      (branchesFrom bones c).flatMap (·.nodes) = List.range' c (e' - c))
    (acc : List Nat) (cur : Nat) :
    ∀ e, start ≤ cur → cur < bones.size → Subtree bones cur e →
      ∃ k, 0 < k ∧ cur + k ≤ e ∧
        (chainFrom bones acc cur).1 = acc.reverse ++ List.range' cur k ∧
        (chainFrom bones acc cur).2.2.flatMap (below bones start) =
          List.range' (cur + k) (e - (cur + k)) := by
  fun_induction chainFrom bones acc cur with
  | case1 acc cur hnone =>
    intro e _ hcur _
    simp [Array.getElem?_eq_getElem hcur] at hnone
  | case2 acc cur b hb hc =>
    intro e hstart _ hsub
    have := hT.flatMap_below_children hflat hstart hb hsub
    rw [hc] at this
    exact ⟨1, Nat.one_pos, hsub.lt, by simp, this⟩
  | case3 acc cur b hb c hc _ _ _ =>
    intro e hstart _ hsub
    have := hT.flatMap_below_children hflat hstart hb hsub
    rw [hc] at this
    exact ⟨1, Nat.one_pos, hsub.lt, by simp, this⟩
  | case4 acc cur b hb c hc hlt _ _ ih =>
    intro e hstart hcur hsub
    -- the lone child is the next bone, and its subtree ends where that of `cur` ends
    obtain ⟨ec, -, hsubc⟩ := hT.subtree c hlt.2
    have hone := hT.flatMap_below_children hflat hstart hb hsub
    rw [hc, List.flatMap_singleton, below, if_pos ⟨by omega, hlt.2⟩,
      hflat c ec (by omega) hlt.2 hsubc, List.range'_inj] at hone
    have := hsubc.lt
    obtain ⟨hlen, rfl⟩ : ec - c = e - (cur + 1) ∧ c = cur + 1 :=
      ⟨hone.1, hone.2.resolve_left (by omega)⟩
    obtain ⟨k, hk, hke, hnodes, hnext⟩ := ih ec (by omega) hlt.2 hsubc
    refine ⟨k + 1, by omega, by omega, ?_, ?_⟩
    · rw [hnodes, List.range'_succ]
      simp
    · rw [hnext]
      congr 1 <;> omega
  | case5 acc cur b hb c hc _ =>
    intro e hstart _ hsub
    have := hT.flatMap_below_children hflat hstart hb hsub
    rw [hc] at this
    exact ⟨1, Nat.one_pos, hsub.lt, by simp, this⟩
  | case6 acc cur b hb _ _ =>
    intro e hstart _ hsub
    exact ⟨1, Nat.one_pos, hsub.lt, by simp, hT.flatMap_below_children hflat hstart hb hsub⟩

/-- The branches below a bone meet the bones of its subtree in index order. -/
theorem flatMap_branchesFrom (x : Nat) :
    ∀ e, x < bones.size → Subtree bones x e →
      (branchesFrom bones x).flatMap (·.nodes) = List.range' x (e - x) := by
  induction x using branchesFrom.induct bones with
  | case1 x _ _ _ _ ih =>
    intro e hx hsub
    obtain ⟨k, hk, hke, hnodes, hnext⟩ := hT.chainFrom_spec
      (fun c e' hc hc' hsub' => ih c ⟨hc, hc'⟩ e' hc' hsub') [] x e (Nat.le_refl _) hx hsub
    have := hsub.lt
    rw [flatMap_nodes_branchesFrom, hnodes, hnext, List.reverse_nil, List.nil_append,
      List.range'_append_1]
    congr 1
    omega

theorem flatMap_classify : (classify bones).flatMap (·.nodes) = List.range bones.size := by
  unfold classify
  split
  · simp [*]
  · rw [hT.flatMap_branchesFrom 0 bones.size (by omega) (hT.subtree_zero (by omega)),
      List.range_eq_range', Nat.sub_zero]

end PreorderTree

/-- A list cut into pieces that concatenate to a run of consecutive numbers is cut into runs of
consecutive numbers. -/
theorem eq_range'_of_mem_flatMap {α : Type} {f : α → List Nat} :
    ∀ {l : List α} {s n : Nat}, l.flatMap f = List.range' s n → ∀ x ∈ l,
      ∃ a, f x = List.range' a (f x).length
  | [], _, _, _, x, hx => absurd hx (by simp)
  | y :: l, s, n, h, x, hx => by
    rw [List.flatMap_cons, eq_comm, List.range'_eq_append_iff] at h
    obtain ⟨k, -, hy, hl⟩ := h
    rcases List.mem_cons.1 hx with rfl | hx
    · exact ⟨s, by rw [hy, List.length_range']⟩
    · exact eq_range'_of_mem_flatMap hl x hx

/-- The branches of every skeleton a builder finishes, whatever events it was fed, concatenate
to `0, 1, …, n - 1`: every bone lies in exactly one branch, every branch is a non-empty run of
consecutive bones, and every bone of a branch comes before every bone of a later branch. -/
theorem Builder.finish_branches_preorder (config : SkeletonConfig) (falloff : Option Falloff)
    (es : List Event) :
    let s := (({ config, falloff } : Builder).feed es).finish
    s.branches.flatMap (·.nodes) = List.range s.bones.size ∧
      (∀ br ∈ s.branches, ∃ a k, 0 < k ∧ br.nodes = List.range' a k) ∧
      s.branches.Pairwise fun x y => ∀ i ∈ x.nodes, ∀ j ∈ y.nodes, i < j := by
  have hT := ((Builder.inv_fresh config falloff).feed es).tree
  have hflat := hT.flatMap_classify
  refine ⟨hflat, fun br hbr => ?_, ?_⟩
  · obtain ⟨a, ha⟩ := eq_range'_of_mem_flatMap (hflat.trans List.range_eq_range') br hbr
    refine ⟨a, br.nodes.length, List.length_pos_iff.2 ?_, ha⟩
    simp only [Builder.finish, Branch.classify] at hbr
    split at hbr
    · simp at hbr
    · exact Branch.nodes_ne_nil_of_mem_branchesFrom _ 0 br hbr
  · exact (List.pairwise_flatMap.1 (hflat ▸ List.pairwise_lt_range)).2

end Arbor
