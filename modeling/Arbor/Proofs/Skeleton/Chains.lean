import Mathlib.Data.List.Chain
import Arbor.Proofs.Skeleton.Branches
/-!
# Branches are the maximal chains of the tree

A branch goes on from a bone to its only child as long as that child opens no branch of its own
(`Branch.Continues`). It ends at a leaf, or at a bone where the tree splits: one with two
children or more, or with a single child that opens a branch (`Branch.splits`); the children of
that last bone then start branches of their own.

Main statements: in a tree numbered in depth-first preorder the chain that `chainFrom` builds from
a bone is such a maximal chain (`PreorderTree.chainFrom_isChainFrom`); every branch below a bone is
one (`PreorderTree.isChainFrom_of_mem_branchesFrom`), starts at that bone or at a child of the last
bone of a branch point (`PreorderTree.first_of_mem_branchesFrom`), and every such child starts a
branch (`PreorderTree.exists_first_of_mem_branchesFrom`). Since the branches cover the bones once
each, that branch is unique, and a query that keeps the bones of some kind keeps exactly the last
bones of the branches of the matching kind (`PreorderTree.filter_toList_eq`).
`Builder.finish_branches_maximal` reads all of this off the skeletons a builder finishes.
-/

namespace Arbor

namespace Branch

/-- `y` carries the branch through `x` on: it is the only child of `x` and opens no branch. -/
def Continues (bones : Array Bone) (x y : Nat) : Prop :=
  bones[x]?.map Bone.children = some [y] ∧ bones[y]?.map Bone.startsBranch = some false

/-- The tree splits at `b`: it has two children or more, or one child that opens a branch. -/
def splits (bones : Array Bone) (b : Bone) : Bool :=
  match b.children with
  | [] => false
  | [c] => bones[c]?.any Bone.startsBranch
  | _ :: _ :: _ => true

theorem splits_iff {bones : Array Bone} {b : Bone} :
    splits bones b = true ↔
      2 ≤ b.children.length ∨
        ∃ c, b.children = [c] ∧ bones[c]?.map Bone.startsBranch = some true := by
  unfold splits
  split
  · simp_all
  · simp_all [Option.any_eq_true]
  · simp_all

theorem splits_of_mem_children {bones : Array Bone} {b : Bone} {c : Nat} (hc : c ∈ b.children)
    (hsb : bones[c]?.map Bone.startsBranch = some true) : splits bones b = true := by
  rw [splits_iff]
  match h : b.children with
  | [] => simp [h] at hc
  | [c'] =>
    obtain rfl : c = c' := by simpa [h] using hc
    exact .inr ⟨c, rfl, hsb⟩
  | _ :: _ :: _ => exact .inl (by simp)

/-- How a branch that ends at bone `l` ends: at a leaf exactly when `l` has no children, at a
branch point exactly when the tree splits at `l`, and the branches after it start at the children
of `l`. -/
structure EndsAt (bones : Array Bone) (l : Nat) (kind : BranchKind) (next : List Nat) :
    Prop where
  lt_size : l < bones.size
  leaf_iff : kind = .leaf ↔ bones[l].children = []
  branchPoint_iff : kind = .branchPoint ↔ splits bones bones[l] = true
  next_eq : next = bones[l].children

/-- A maximal chain from `cur`: it starts at `cur`, each bone carries it on to the next, and its
last bone ends it. -/
structure IsChainFrom (bones : Array Bone) (cur : Nat) (nodes : List Nat) (kind : BranchKind)
    (next : List Nat) : Prop where
  head : nodes.head? = some cur
  links : nodes.IsChain (Continues bones)
  ends : ∃ l, cur ≤ l ∧ nodes.getLast? = some l ∧ EndsAt bones l kind next

theorem endsAt_of_children_eq_nil {bones : Array Bone} {l : Nat} (hl : l < bones.size)
    (h : bones[l].children = []) : EndsAt bones l .leaf [] where
  lt_size := hl
  leaf_iff := iff_of_true rfl h
  branchPoint_iff := iff_of_false (by simp) (by simp [splits, h])
  next_eq := h.symm

theorem endsAt_of_splits {bones : Array Bone} {l : Nat} (hl : l < bones.size)
    (h : splits bones bones[l] = true) : EndsAt bones l .branchPoint bones[l].children where
  lt_size := hl
  leaf_iff := iff_of_false (by simp) fun hnil => by simp [splits, hnil] at h
  branchPoint_iff := iff_of_true rfl h
  next_eq := rfl

/-- The branches below `x`: the maximal chain from `x`, then the branches below each child of its
last bone. -/
theorem mem_branchesFrom_iff {bones : Array Bone} {x : Nat} {br : Branch} :
    br ∈ branchesFrom bones x ↔
      br = ⟨(chainFrom bones [] x).1, (chainFrom bones [] x).2.1⟩ ∨
        ∃ c ∈ (chainFrom bones [] x).2.2, x < c ∧ c < bones.size ∧ br ∈ branchesFrom bones c := by
  rw [branchesFrom, List.mem_cons, List.mem_flatMap]
  refine or_congr Iff.rfl ⟨?_, ?_⟩
  · rintro ⟨c, hc, hbr⟩
    split at hbr
    · rename_i hguard
      exact ⟨c, hc, hguard.1, hguard.2, hbr⟩
    · simp at hbr
  · rintro ⟨c, hc, hguard, hc', hbr⟩
    exact ⟨c, hc, by rw [if_pos ⟨hguard, hc'⟩]; exact hbr⟩

end Branch

open Branch

namespace PreorderTree

variable {bones : Array Bone} (hT : PreorderTree bones)
include hT

theorem lt_of_mem_children {x c : Nat} (hx : x < bones.size) (hc : c ∈ bones[x].children) :
    x < c ∧ c < bones.size := by
  have hp := (hT.mem_children_iff x hx c).1 hc
  exact ⟨hT.parent_lt _ _ hp, lt_size_of_parentOf hp⟩

/-- The chain that `chainFrom` builds from `cur`, after the bones `acc`, is the maximal chain from
`cur`. -/
theorem chainFrom_isChainFrom (acc : List Nat) (cur : Nat) (hcur : cur < bones.size) :
    ∃ L, (chainFrom bones acc cur).1 = acc.reverse ++ L ∧
      IsChainFrom bones cur L (chainFrom bones acc cur).2.1 (chainFrom bones acc cur).2.2 := by
  fun_induction chainFrom bones acc cur with
  | case1 acc cur hnone => simp [Array.getElem?_eq_getElem hcur] at hnone
  | case2 acc cur b hb hc =>
    -- a leaf
    obtain rfl : bones[cur] = b := (Array.getElem?_eq_some_iff.1 hb).2
    exact ⟨[cur], by simp,
      ⟨rfl, .singleton _, cur, Nat.le_refl _, rfl, endsAt_of_children_eq_nil hcur hc⟩⟩
  | case3 acc cur b hb c hc hlt _ hsb =>
    -- a lone child that opens a branch
    obtain rfl : bones[cur] = b := (Array.getElem?_eq_some_iff.1 hb).2
    have hsplit : splits bones bones[cur] = true := by
      simp [splits, hc, Array.getElem?_eq_getElem hlt.2, hsb]
    refine ⟨[cur], by simp, ⟨rfl, .singleton _, cur, Nat.le_refl _, rfl, ?_⟩⟩
    simpa [hc] using endsAt_of_splits hcur hsplit
  | case4 acc cur b hb c hc hlt _ hsb ih =>
    -- a lone child that carries the chain on
    obtain rfl : bones[cur] = b := (Array.getElem?_eq_some_iff.1 hb).2
    obtain ⟨L, hL, hhead, hlinks, l, hcl, hlast, hend⟩ := ih hlt.2
    have hcont : Continues bones cur c := by
      simp [Continues, Array.getElem?_eq_getElem hcur, Array.getElem?_eq_getElem hlt.2, hc, hsb]
    refine ⟨cur :: L, by simp [hL], ⟨rfl, ?_, l, by omega, ?_, hend⟩⟩
    · exact List.isChain_cons.2 ⟨fun y hy => by rw [hhead] at hy; cases hy; exact hcont, hlinks⟩
    · cases L with
      | nil => cases hhead
      | cons y L' => rwa [List.getLast?_cons_cons]
  | case5 acc cur b hb c hc hlt =>
    -- a child outside the tree's order cannot occur
    obtain rfl : bones[cur] = b := (Array.getElem?_eq_some_iff.1 hb).2
    exact absurd (hT.lt_of_mem_children hcur (by simp [hc])) hlt
  | case6 acc cur b hb hnil hone =>
    -- two children or more
    obtain rfl : bones[cur] = b := (Array.getElem?_eq_some_iff.1 hb).2
    have hsplit : splits bones bones[cur] = true := by
      unfold splits
      split
      · exact absurd ‹_› hnil
      · exact absurd ‹_› (hone _)
      · rfl
    exact ⟨[cur], by simp,
      ⟨rfl, .singleton _, cur, Nat.le_refl _, rfl, endsAt_of_splits hcur hsplit⟩⟩

theorem head_mem_branchesFrom {x : Nat} (hx : x < bones.size) :
    ∃ br ∈ branchesFrom bones x, br.first? = some x := by
  obtain ⟨L, hL, hchain⟩ := hT.chainFrom_isChainFrom [] x hx
  refine ⟨_, mem_branchesFrom_iff.2 (.inl rfl), ?_⟩
  simpa [Branch.first?, hL] using hchain.head

theorem next_of_chainFrom {x c : Nat} (hx : x < bones.size)
    (hc : c ∈ (chainFrom bones [] x).2.2) :
    (chainFrom bones [] x).2.1 = .branchPoint ∧ ∃ l, (chainFrom bones [] x).1.getLast? = some l ∧
      ∃ hl : l < bones.size, c ∈ bones[l].children := by
  obtain ⟨L, hL, _, _, l, _, hlast, hend⟩ := hT.chainFrom_isChainFrom [] x hx
  rw [hend.next_eq] at hc
  refine ⟨?_, l, by simpa [hL] using hlast, hend.lt_size, hc⟩
  cases hkind : (chainFrom bones [] x).2.1 with
  | leaf => simp [hend.leaf_iff.1 hkind] at hc
  | branchPoint => rfl

theorem isChainFrom_of_mem_branchesFrom (x : Nat) (hx : x < bones.size) :
    ∀ br ∈ branchesFrom bones x,
      ∃ y next, y < bones.size ∧ IsChainFrom bones y br.nodes br.kind next := by
  induction x using branchesFrom.induct bones with
  | case1 x _ _ _ _ ih =>
    intro br hbr
    rcases mem_branchesFrom_iff.1 hbr with rfl | ⟨c, hc, hxc, hc', hbr⟩
    · obtain ⟨L, hL, hchain⟩ := hT.chainFrom_isChainFrom [] x hx
      exact ⟨x, _, hx, by simpa [hL] using hchain⟩
    · exact ih c ⟨hxc, hc'⟩ hc' br hbr

/-- Every branch below `x` starts at `x` or at a child of the last bone of a branch point below
`x`. -/
theorem first_of_mem_branchesFrom (x : Nat) (hx : x < bones.size) :
    ∀ br ∈ branchesFrom bones x, ∀ f, br.first? = some f → f = x ∨
      ∃ br' ∈ branchesFrom bones x, br'.kind = .branchPoint ∧
        ∃ l, br'.last? = some l ∧ ∃ hl : l < bones.size, f ∈ bones[l].children := by
  induction x using branchesFrom.induct bones with
  | case1 x _ _ _ _ ih =>
    intro br hbr f hf
    rcases mem_branchesFrom_iff.1 hbr with rfl | ⟨c, hc, hxc, hc', hbr⟩
    · obtain ⟨L, hL, hchain⟩ := hT.chainFrom_isChainFrom [] x hx
      have hhead : (chainFrom bones [] x).1.head? = some x := by simpa [hL] using hchain.head
      simp only [Branch.first?, hhead, Option.some.injEq] at hf
      exact .inl hf.symm
    · right
      rcases ih c ⟨hxc, hc'⟩ hc' br hbr f hf with rfl | ⟨br', hbr', hkind, hlast⟩
      · -- a branch right after the chain from `x` starts at a child of its last bone
        obtain ⟨hkind, l, hl, hlt, hmem⟩ := hT.next_of_chainFrom hx hc
        exact ⟨_, mem_branchesFrom_iff.2 (.inl rfl), hkind, l, hl, hlt, hmem⟩
      · exact ⟨br', mem_branchesFrom_iff.2 (.inr ⟨c, hc, hxc, hc', hbr'⟩), hkind, hlast⟩

theorem exists_first_of_mem_branchesFrom (x : Nat) (hx : x < bones.size) :
    ∀ br' ∈ branchesFrom bones x, br'.kind = .branchPoint → ∀ l, br'.last? = some l →
      ∀ hl : l < bones.size, ∀ c ∈ bones[l].children,
        ∃ br ∈ branchesFrom bones x, br.first? = some c := by
  induction x using branchesFrom.induct bones with
  | case1 x _ _ _ _ ih =>
    intro br' hbr' hkind l hlast hl c hc
    rcases mem_branchesFrom_iff.1 hbr' with rfl | ⟨c', hc', hxc', hc'', hbr'⟩
    · -- the children of the last bone of the chain from `x` are where the next branches start
      obtain ⟨L, hL, _, _, l', hxl', hlast', hend⟩ := hT.chainFrom_isChainFrom [] x hx
      obtain rfl : l = l' := by simpa [Branch.last?, hL, hlast'] using hlast.symm
      have hcl := hT.lt_of_mem_children hl hc
      obtain ⟨br, hbr, hfirst⟩ := hT.head_mem_branchesFrom hcl.2
      exact ⟨br, mem_branchesFrom_iff.2 (.inr ⟨c, hend.next_eq ▸ hc, by omega, hcl.2, hbr⟩),
        hfirst⟩
    · obtain ⟨br, hbr, hfirst⟩ := ih c' ⟨hxc', hc''⟩ hc'' br' hbr' hkind l hlast hl c hc
      exact ⟨br, mem_branchesFrom_iff.2 (.inr ⟨c', hc', hxc', hc'', hbr⟩), hfirst⟩

/-! ## The whole arena -/

theorem isChainFrom_of_mem_classify {br : Branch} (h : br ∈ classify bones) :
    ∃ y next, y < bones.size ∧ IsChainFrom bones y br.nodes br.kind next := by
  unfold classify at h
  split at h
  · simp at h
  · exact hT.isChainFrom_of_mem_branchesFrom 0 (by omega) br h

theorem endsAt_of_mem_classify {br : Branch} (h : br ∈ classify bones) {l : Nat}
    (hl : br.last? = some l) : ∃ next, EndsAt bones l br.kind next := by
  obtain ⟨y, next, -, hchain⟩ := hT.isChainFrom_of_mem_classify h
  obtain ⟨l', -, hlast, hend⟩ := hchain.ends
  obtain rfl : l = l' := by simpa [Branch.last?, hlast] using hl.symm
  exact ⟨next, hend⟩

end PreorderTree

/-! ## Queries over the whole arena -/

theorem BranchKind.beq_eq_decide (a b : BranchKind) : (a == b) = decide (a = b) := by
  cases a <;> cases b <;> rfl

theorem countP_first_le_one {L : List Branch} (hnodup : (L.flatMap (·.nodes)).Nodup) (c : Nat) :
    L.countP (·.first? == some c) ≤ 1 := by
  induction L with
  | nil => simp
  | cons br L ih =>
    rw [List.flatMap_cons, List.nodup_append] at hnodup
    obtain ⟨-, hL, hdisj⟩ := hnodup
    rw [List.countP_cons]
    split
    · -- `c` lies in `br`, so no later branch holds it, let alone starts at it
      rename_i hfirst
      obtain ⟨t, ht⟩ := List.head?_eq_some_iff.1 (beq_iff_eq.1 hfirst)
      have hnone : L.countP (·.first? == some c) = 0 := by
        refine List.countP_eq_zero.2 fun b hb hb' => ?_
        obtain ⟨t', ht'⟩ := List.head?_eq_some_iff.1 (beq_iff_eq.1 hb')
        exact hdisj c (by simp [ht]) c (List.mem_flatMap.2 ⟨b, hb, by simp [ht']⟩) rfl
      omega
    · simpa using ih hL

theorem filter_eq_filterMap_range {α : Type} (l : List α) (p : α → Bool) :
    l.filter p = (List.range l.length).filterMap fun i => l[i]?.filter p := by
  induction l with
  | nil => rfl
  | cons a l ih =>
    rw [List.length_cons, List.range_succ_eq_map, List.filterMap_cons, List.filterMap_map,
      List.filter_cons, ih]
    simp only [List.getElem?_cons_zero, Option.filter_some, Function.comp_def,
      Nat.succ_eq_add_one, List.getElem?_cons_succ]
    split <;> rfl

/-- Along a chain, a query that no bone carrying the chain on passes keeps at most the last
bone. -/
theorem filterMap_chain {bones : Array Bone} {p : Bone → Bool}
    (hmid : ∀ x y, Continues bones x y → bones[x]?.filter p = none) :
    ∀ {L : List Nat} {l : Nat}, L.IsChain (Continues bones) → L.getLast? = some l →
      L.filterMap (fun i => bones[i]?.filter p) = (bones[l]?.filter p).toList
  | [], _, _, h => by simp at h
  | [x], l, _, h => by
    obtain rfl : x = l := by simpa using h
    rcases hx : bones[x]?.filter p with _ | b <;> simp [hx]
  | x :: y :: L, l, hchain, h => by
    rw [List.isChain_cons_cons] at hchain
    rw [List.getLast?_cons_cons] at h
    rw [List.filterMap_cons, hmid x y hchain.1]
    exact filterMap_chain hmid hchain.2 h

namespace PreorderTree

variable {bones : Array Bone} (hT : PreorderTree bones)
include hT

theorem countP_first_classify_le_one (c : Nat) :
    (classify bones).countP (·.first? == some c) ≤ 1 :=
  countP_first_le_one (hT.flatMap_classify ▸ List.nodup_range) c

/-- A query that no bone carrying a branch on passes, and that the last bone of a branch passes
exactly when the branch is of kind `K`, keeps exactly the last bones of the branches of kind `K`,
in branch order. -/
theorem filter_toList_eq {p : Bone → Bool} {K : BranchKind}
    (hmid : ∀ x y, Continues bones x y → bones[x]?.filter p = none)
    (hend : ∀ l kind next, EndsAt bones l kind next → ∀ b, bones[l]? = some b →
      (p b = true ↔ kind = K)) :
    bones.toList.filter p =
      ((classify bones).filter (·.kind == K)).filterMap fun br => br.last?.bind (bones[·]?) := by
  -- every bone lies in one branch, and in its branch only the last bone can pass
  have hbranch : ∀ br ∈ classify bones,
      br.nodes.filterMap (fun i => bones[i]?.filter p) =
        (if br.kind == K then br.last?.bind (bones[·]?) else none).toList := by
    intro br hbr
    obtain ⟨y, next, -, hchain⟩ := hT.isChainFrom_of_mem_classify hbr
    obtain ⟨l, -, hlast, hends⟩ := hchain.ends
    have hl := hends.lt_size
    have hb : bones[l]? = some bones[l] := Array.getElem?_eq_getElem hl
    have hpass := hend l _ _ hends bones[l] hb
    rw [filterMap_chain hmid hchain.links hlast, Branch.last?, hlast, Option.bind_some, hb,
      Option.filter_some, BranchKind.beq_eq_decide]
    by_cases hk : br.kind = K
    · simp [hk, hpass.2 hk]
    · simp [hk, mt hpass.1 hk]
  calc bones.toList.filter p
      = (List.range bones.size).filterMap (fun i => bones[i]?.filter p) := by
        simpa using filter_eq_filterMap_range bones.toList p
    _ = ((classify bones).flatMap (·.nodes)).filterMap (fun i => bones[i]?.filter p) := by
        rw [hT.flatMap_classify]
    _ = (classify bones).flatMap (fun br => br.nodes.filterMap fun i => bones[i]?.filter p) :=
        List.filterMap_flatMap
    _ = (classify bones).flatMap
          (fun br => (if br.kind == K then br.last?.bind (bones[·]?) else none).toList) :=
        List.flatMap_congr hbranch
    _ = ((classify bones).filter (·.kind == K)).filterMap fun br => br.last?.bind (bones[·]?) := by
        rw [List.filterMap_filter, List.filterMap_eq_flatMap_toList]

theorem leaves_classify :
    (⟨bones, classify bones⟩ : Skeleton).leaves =
      ((classify bones).filter (·.kind == .leaf)).filterMap fun br => br.last?.bind (bones[·]?) := by
  refine hT.filter_toList_eq (fun x y hxy => ?_) fun l kind next hends b hb => ?_
  · -- a bone that carries a branch on has a child
    obtain ⟨hx, -⟩ := hxy
    cases hbx : bones[x]? with
    | none => rfl
    | some bx =>
      simp only [hbx, Option.map_some, Option.some.injEq] at hx
      simp [Option.filter_some, Bone.isLeaf, hx]
  · obtain ⟨-, rfl⟩ := Array.getElem?_eq_some_iff.1 hb
    rw [hends.leaf_iff, Bone.isLeaf, List.isEmpty_iff]

theorem branchPoints_classify :
    (⟨bones, classify bones⟩ : Skeleton).branchPoints = bones.toList.filter (splits bones) := by
  refine (hT.filter_toList_eq (fun x y hxy => ?_) fun l kind next hends b hb => ?_).symm
  · -- a bone that carries a branch on has one child, which opens no branch
    obtain ⟨hx, hy⟩ := hxy
    cases hbx : bones[x]? with
    | none => rfl
    | some bx =>
      obtain ⟨byy, hby, hsb⟩ : ∃ byy, bones[y]? = some byy ∧ byy.startsBranch = false := by
        simpa using hy
      simp only [hbx, Option.map_some, Option.some.injEq] at hx
      simp [Option.filter_some, splits, hx, hby, hsb]
  · obtain ⟨-, rfl⟩ := Array.getElem?_eq_some_iff.1 hb
    exact hends.branchPoint_iff.symm

end PreorderTree

namespace Skeleton

/-- The branches of a skeleton are the maximal chains of its tree, and its queries agree with
them. -/
structure MaximalChains (s : Skeleton) : Prop where
  /-- Every branch holds a bone. -/
  nonempty : ∀ br ∈ s.branches, br.nodes ≠ []
  /-- Each bone of a branch after the first is the only child of the one before, and opens no
  branch. -/
  links : ∀ br ∈ s.branches, br.nodes.IsChain (Continues s.bones)
  /-- A branch ends at a leaf exactly when its last bone has no children, and at a branch point
  exactly when that bone has two children or more, or one that opens a branch. -/
  ends : ∀ br ∈ s.branches, ∀ l, br.last? = some l → ∃ b, s.bone? l = some b ∧
    (br.kind = .leaf ↔ b.children = []) ∧
    (br.kind = .branchPoint ↔ 2 ≤ b.children.length ∨
      ∃ c, b.children = [c] ∧ (s.bone? c).map Bone.startsBranch = some true)
  /-- A branch starts at bone `0` or at a child of the last bone of a branch point. -/
  first : ∀ br ∈ s.branches, ∀ f, br.first? = some f → f = 0 ∨
    ∃ br' ∈ s.branches, br'.kind = .branchPoint ∧
      ∃ l b, br'.last? = some l ∧ s.bone? l = some b ∧ f ∈ b.children
  /-- Each child of the last bone of a branch point starts exactly one branch. -/
  starts_once : ∀ br ∈ s.branches, br.kind = .branchPoint → ∀ l b, br.last? = some l →
    s.bone? l = some b → ∀ c ∈ b.children, s.branches.countP (·.first? == some c) = 1
  /-- The leaves are the last bones of the leaf branches, in order. -/
  leaves : s.leaves = (s.branches.filter (·.kind == .leaf)).filterMap fun br => br.last?.bind s.bone?
  /-- The branch points are the bones where the tree splits, in order. -/
  branchPoints : s.branchPoints = s.bones.toList.filter (splits s.bones)
  /-- A child names as its parent the bone that lists it. -/
  parent_of_child : ∀ i, ∀ c ∈ s.children i, s.parent? c.id = s.bone? i

theorem parent?_of_mem_children {s : Skeleton} (hT : PreorderTree s.bones) (i : Nat) :
    ∀ c ∈ s.children i, s.parent? c.id = s.bone? i := by
  intro c hc
  unfold children at hc
  split at hc
  · rename_i b hb
    obtain ⟨j, hj, hcj⟩ := List.mem_filterMap.1 hc
    obtain ⟨hi, rfl⟩ := Array.getElem?_eq_some_iff.1 hb
    obtain ⟨hjs, rfl⟩ := Array.getElem?_eq_some_iff.1 hcj
    have hp : parentOf s.bones j = some i := (hT.mem_children_iff i hi j).1 hj
    rw [hT.id_eq j hjs, parent?, bone?, Array.getElem?_eq_getElem hjs, Option.bind_some,
      ← parentOf_of_lt hjs, hp, Option.bind_some]
  · simp at hc

end Skeleton

/-- For every skeleton a builder finishes, whatever events it was fed, the branches are the
maximal chains of the tree: each is non-empty, goes on only to a lone child that opens no branch,
and ends at a leaf or where the tree splits; each starts at bone `0` or at a child of the last
bone of a branch point, and each such child starts exactly one branch. The leaves are the last
bones of the leaf branches, the branch points the bones where the tree splits, and a child's
parent is the bone that lists it. -/
theorem Builder.finish_branches_maximal (config : SkeletonConfig) (falloff : Option Falloff)
    (es : List Event) : (({ config, falloff } : Builder).feed es).finish.MaximalChains := by
  have hT := ((Builder.inv_fresh config falloff).feed es).tree
  show (⟨_, classify _⟩ : Skeleton).MaximalChains
  generalize (({ config, falloff } : Builder).feed es).bones = bones at hT ⊢
  have hclassify : ∀ br, br ∈ classify bones ↔ 0 < bones.size ∧ br ∈ branchesFrom bones 0 := by
    intro br
    unfold classify
    split
    · simp [*]
    · exact ⟨fun h => ⟨by omega, h⟩, And.right⟩
  refine ⟨fun br hbr => ?_, fun br hbr => ?_, fun br hbr l hl => ?_, fun br hbr f hf => ?_,
    fun br hbr hkind l b hl hb c hc => ?_, ?_, ?_, Skeleton.parent?_of_mem_children hT⟩
  · exact Branch.nodes_ne_nil_of_mem_branchesFrom bones 0 br ((hclassify br).1 hbr).2
  · obtain ⟨y, next, -, hchain⟩ := hT.isChainFrom_of_mem_classify hbr
    exact hchain.links
  · obtain ⟨next, hends⟩ := hT.endsAt_of_mem_classify hbr hl
    have hls := hends.lt_size
    refine ⟨bones[l], Array.getElem?_eq_getElem hls, hends.leaf_iff, ?_⟩
    rw [hends.branchPoint_iff, splits_iff]
    rfl
  · obtain ⟨hpos, hbr⟩ := (hclassify br).1 hbr
    rcases hT.first_of_mem_branchesFrom 0 hpos br hbr f hf with
      rfl | ⟨br', hbr', hk, l, hl, hls, hf⟩
    · exact .inl rfl
    · exact .inr ⟨br', (hclassify br').2 ⟨hpos, hbr'⟩, hk, l, bones[l], hl,
        Array.getElem?_eq_getElem hls, hf⟩
  · -- one branch starts at `c`, and no two do
    obtain ⟨hpos, hbr⟩ := (hclassify br).1 hbr
    obtain ⟨hls, rfl⟩ := Array.getElem?_eq_some_iff.1 hb
    obtain ⟨br₁, hbr₁, hfirst⟩ :=
      hT.exists_first_of_mem_branchesFrom 0 hpos br hbr hkind l hl hls c hc
    have hge : 0 < (classify bones).countP (·.first? == some c) :=
      List.countP_pos_iff.2 ⟨br₁, (hclassify br₁).2 ⟨hpos, hbr₁⟩, by simpa using hfirst⟩
    have hle := hT.countP_first_classify_le_one c
    show (classify bones).countP (·.first? == some c) = 1
    omega
  · exact hT.leaves_classify
  · exact hT.branchPoints_classify

end Arbor
