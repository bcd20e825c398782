import Arbor.Skeleton.Worklist
import Arbor.Proofs.Skeleton.Chains
/-!
# The branch walk stops inside the arena

On an arena that a builder grows, the walk with an explicit stack (`Branch.Walk`) reads only bones
of the arena, lists exactly the branches `Branch.classify` lists, and stops after one pass per
bone, one per branch, and a last pass that finds the stack empty.

A state is read through what it still owes (`Walk.rest`): the branch it follows, then the branches
below the bones on its stack, as `branchesFrom` lists them. On a preorder tree every pass keeps
the branches listed so far, followed by those still owed, equal to `classify` (`Walk.Inv`):
popping a start unfolds `branchesFrom`, following a child unfolds `chainFrom`, and closing a
branch moves it from the owed branches to the listed ones. So each pass either places one more
bone in a branch or closes a branch (`Walk.Inv.step`); the bones placed are the first bones of the
arena in index order (`Walk.Inv.placed_prefix`), and the starts popped or waiting are distinct
(`Walk.Inv.popped_append_starts_nodup`).

Main statements: from a state in order the walk halts with `classify` after exactly the passes it
owes (`Walk.Inv.run_passesLeft`), and no pass on the way reads outside the arena
(`Walk.Inv.step_ne_outOfRange`). `Builder.finish_walk_halts` says all of this of the arenas a
builder grows.
-/

namespace Arbor

namespace Branch

/-! ## Chains and the branches below a bone -/

theorem chainFrom_fst (bones : Array Bone) (acc : List Nat) (cur : Nat) :
    ∃ t, (chainFrom bones acc cur).1 = acc.reverse ++ cur :: t := by
  fun_induction chainFrom bones acc cur with
  | case4 acc cur b hb c hc hlt _ hsb ih =>
    obtain ⟨t, ht⟩ := ih
    exact ⟨c :: t, by simp [ht]⟩
  | _ => exact ⟨[], by simp⟩

theorem filterMap_first?_sublist :
    ∀ L : List Branch, List.Sublist (L.filterMap first?) (L.flatMap (·.nodes))
  | [] => by simp
  | br :: L => by
    rw [List.filterMap_cons, List.flatMap_cons]
    have ih := filterMap_first?_sublist L
    cases hbr : br.nodes with
    | nil =>
      simp only [first?, hbr, List.head?_nil, List.nil_append]
      exact ih
    | cons f t =>
      simp only [first?, hbr, List.head?_cons, List.cons_append]
      exact (ih.trans (List.sublist_append_right t _)).cons_cons f

theorem sublist_flatMap_branchesFrom (bones : Array Bone) :
    ∀ starts : List Nat,
      List.Sublist starts ((starts.flatMap (branchesFrom bones)).flatMap (·.nodes))
  | [] => by simp
  | s :: starts => by
    obtain ⟨t, ht⟩ := chainFrom_fst bones [] s
    have ih := sublist_flatMap_branchesFrom bones starts
    rw [List.flatMap_cons, List.flatMap_append, branchesFrom, List.flatMap_cons]
    simp only [ht, List.reverse_nil, List.nil_append, List.cons_append]
    exact (ih.trans (List.sublist_append_right _ _)).cons_cons s

theorem chainFrom_dropLast (bones : Array Bone) {nodes : List Nat} {cur : Nat}
    (h : nodes.getLast? = some cur) :
    ∃ t, (chainFrom bones nodes.dropLast.reverse cur).1 = nodes ++ t := by
  obtain ⟨ys, rfl⟩ := List.getLast?_eq_some_iff.1 h
  obtain ⟨t, ht⟩ := chainFrom_fst bones ys.reverse cur
  exact ⟨t, by simp [ht]⟩

end Branch

namespace PreorderTree

open Branch

variable {bones : Array Bone} (hT : PreorderTree bones)
include hT

/-- In a preorder tree `branchesFrom` follows every child of the last bone of the chain from a
bone: each lies after that bone and in the arena. -/
theorem branchesFrom_eq {s : Nat} (hs : s < bones.size) :
    branchesFrom bones s = ⟨(chainFrom bones [] s).1, (chainFrom bones [] s).2.1⟩ ::
      (chainFrom bones [] s).2.2.flatMap (branchesFrom bones) := by
  rw [branchesFrom]
  refine congrArg (List.cons _) (List.flatMap_congr fun c hc => ?_)
  obtain ⟨L, -, hchain⟩ := hT.chainFrom_isChainFrom [] s hs
  obtain ⟨l, hsl, -, hend⟩ := hchain.ends
  rw [hend.next_eq] at hc
  have hlc := hT.lt_of_mem_children hend.lt_size hc
  rw [if_pos ⟨by omega, hlc.2⟩]

end PreorderTree

namespace Branch

namespace Walk

/-! ## Runs -/

section Run

variable {bones : Array Bone}

theorem run_succ_of_next {w w' : Walk} (h : w.step bones = .next w') (k : Nat) :
    run bones (k + 1) w = run bones k w' := by
  simp [run, h]

theorem run_succ_of_halted {w : Walk} {r : List Branch} (h : w.step bones = .halted r)
    (k : Nat) : run bones (k + 1) w = .halted r := by
  simp [run, h]

theorem run_add_of_halted {w : Walk} {r : List Branch} {k : Nat} (h : run bones k w = .halted r)
    (j : Nat) : run bones (k + j) w = .halted r := by
  induction k generalizing w with
  | zero => simp [run] at h
  | succ k ih =>
    rw [Nat.add_right_comm]
    cases hs : w.step bones with
    | next w' =>
      rw [run_succ_of_next hs] at h ⊢
      exact ih h
    | halted r' =>
      rw [run_succ_of_halted hs] at h ⊢
      exact h
    | outOfRange i => simp [run, hs] at h

end Run

/-! ## What a state holds and owes -/

/-- The bones waiting on the stack, the top first. -/
def starts : Walk → List Nat
  | scan starts _ => starts
  | chain starts _ _ _ => starts

/-- The branches listed so far. -/
def done : Walk → List Branch
  | scan _ done => done
  | chain _ done _ _ => done

/-- The walk is in the inner loop, following a branch. -/
def following : Walk → Bool
  | scan .. => false
  | chain .. => true

/-- The bones the walk has put into branches: those of the branches listed, then those of the
branch it follows. -/
def placed : Walk → List Nat
  | scan _ done => done.flatMap (·.nodes)
  | chain _ done nodes _ => done.flatMap (·.nodes) ++ nodes

/-- How many bones of the arena are in no branch yet. -/
def unplaced (bones : Array Bone) (w : Walk) : Nat := bones.size - w.placed.length

/-- The bones the walk has popped as starts: the first bones of the branches listed and of the
branch it follows. -/
def popped : Walk → List Nat
  | scan _ done => done.filterMap first?
  | chain _ done nodes _ => done.filterMap first? ++ nodes.head?.toList

/-- The branch being followed climbs through strictly larger bones to the current one, a bone of
the arena. -/
def Climbs (bones : Array Bone) : Walk → Prop
  | scan .. => True
  | chain _ _ nodes cur => nodes.Pairwise (· < ·) ∧ nodes.getLast? = some cur ∧ cur < bones.size

/-- The branches a state still owes, in order: the branch it follows, whole, then the branches
below the children of that branch's last bone, then those below each waiting start. -/
def rest (bones : Array Bone) : Walk → List Branch
  | scan starts _ => starts.flatMap (branchesFrom bones)
  | chain starts _ nodes cur =>
    let r := chainFrom bones nodes.dropLast.reverse cur
    ⟨r.1, r.2.1⟩ :: (r.2.2 ++ starts).flatMap (branchesFrom bones)

/-- The passes still to make: one per bone in no branch yet, one per branch still owed, and the
last, which finds the stack empty. -/
def passesLeft (bones : Array Bone) (w : Walk) : Nat :=
  w.unplaced bones + (w.rest bones).length + 1

/-! ## The invariant, pass by pass -/

/-- What a pass does to the bones placed and the branches owed: it enters or stays in the inner
loop, having placed one more bone and owing the same branches (a pop or a follow), or goes back to
the outer loop, having placed none and owing one branch fewer (a close). -/
def Advances (bones : Array Bone) (w w' : Walk) : Prop :=
  (w'.following ∧ w'.rest bones = w.rest bones ∧ ∃ x, w'.placed = w.placed ++ [x]) ∨
    (w'.following = false ∧ w'.placed = w.placed ∧ ∃ br, w.rest bones = br :: w'.rest bones)

/-- What the walk keeps, on a preorder tree, at every state it reaches. -/
structure Inv (bones : Array Bone) (w : Walk) : Prop where
  /-- The branches listed so far, then those still owed, are the branches of the arena. -/
  listed : w.done ++ w.rest bones = classify bones
  /-- Every waiting start is a bone. -/
  starts_lt : ∀ s ∈ w.starts, s < bones.size
  climbs : w.Climbs bones

theorem inv_init (bones : Array Bone) : Inv bones (init bones) where
  listed := by
    by_cases h : bones.size = 0 <;> simp [init, classify, rest, done, h]
  starts_lt := by
    by_cases h : bones.size = 0 <;> simp [init, starts, h]
    omega
  climbs := trivial

section Passes

variable {bones : Array Bone} (hT : PreorderTree bones)
include hT

/-- A pass inside a branch does what one unfolding of `chainFrom` does: it closes the branch
where `chainFrom` stops, stacking the children of the current bone, or follows the lone child with
which `chainFrom` goes on. -/
theorem step_chain (starts : List Nat) (done : List Branch) (nodes : List Nat) {cur : Nat}
    (hcur : cur < bones.size) (acc : List Nat) :
    ((chain starts done nodes cur).step bones =
        close starts done nodes (chainFrom bones acc cur).2.1 bones[cur].children ∧
      chainFrom bones acc cur =
        ((cur :: acc).reverse, (chainFrom bones acc cur).2.1, bones[cur].children)) ∨
    ∃ c, cur < c ∧ c < bones.size ∧
      (chain starts done nodes cur).step bones = .next (chain starts done (nodes ++ [c]) c) ∧
      chainFrom bones acc cur = chainFrom bones (cur :: acc) c := by
  have hb : bones[cur]? = some bones[cur] := Array.getElem?_eq_getElem hcur
  match hc : bones[cur].children with
  | [] =>
    left
    rw [chainFrom]
    simp [step, hb, hc]
  | [c] =>
    have hmem : c ∈ bones[cur].children := by simp [hc]
    obtain ⟨hcc, hc_lt⟩ := hT.lt_of_mem_children hcur hmem
    have hb' : bones[c]? = some bones[c] := Array.getElem?_eq_getElem hc_lt
    by_cases hsb : bones[c].startsBranch
    · left
      rw [chainFrom]
      simp [step, hb, hc, hsb, hcc, hc_lt]
    · right
      refine ⟨c, hcc, hc_lt, by simp [step, hb, hc, hb', hsb], ?_⟩
      rw [chainFrom]
      simp [hb, hc, hsb, hcc, hc_lt]
  | _ :: _ :: _ =>
    left
    rw [chainFrom]
    simp [step, hb, hc]

theorem Inv.pop {s : Nat} {starts : List Nat} {done : List Branch}
    (hw : Inv bones (scan (s :: starts) done)) :
    Inv bones (chain starts done [s] s) ∧
      (chain starts done [s] s).rest bones = (scan (s :: starts) done).rest bones := by
  have hs : s < bones.size := hw.starts_lt s (by simp [Walk.starts])
  have hrest : (chain starts done [s] s).rest bones = (scan (s :: starts) done).rest bones := by
    simp [rest, hT.branchesFrom_eq hs]
  refine ⟨⟨?_, fun x hx => hw.starts_lt x ?_, ⟨List.pairwise_singleton _ _, rfl, hs⟩⟩, hrest⟩
  · rw [← hw.listed]
    simp only [Walk.done, hrest]
  · simp only [Walk.starts] at hx ⊢
    exact List.mem_cons_of_mem s hx

omit hT in
theorem Inv.follow {starts : List Nat} {done : List Branch} {ys : List Nat} {cur c : Nat}
    (hw : Inv bones (chain starts done (ys ++ [cur]) cur)) (hcc : cur < c) (hc : c < bones.size)
    (hchain : chainFrom bones ys.reverse cur = chainFrom bones (cur :: ys.reverse) c) :
    Inv bones (chain starts done (ys ++ [cur] ++ [c]) c) ∧
      (chain starts done (ys ++ [cur] ++ [c]) c).rest bones =
        (chain starts done (ys ++ [cur]) cur).rest bones := by
  have hrest : (chain starts done (ys ++ [cur] ++ [c]) c).rest bones =
      (chain starts done (ys ++ [cur]) cur).rest bones := by
    simp [rest, hchain]
  obtain ⟨hsorted, -, -⟩ := hw.climbs
  have hle : ∀ x ∈ ys ++ [cur], x < c := by
    intro x hx
    rcases List.mem_append.1 hx with hx | hx
    · exact Nat.lt_trans (List.pairwise_append.1 hsorted |>.2.2 x hx cur (by simp)) hcc
    · simp only [List.mem_singleton] at hx
      omega
  refine ⟨⟨?_, hw.starts_lt, ?_⟩, hrest⟩
  · rw [← hw.listed]
    simp only [Walk.done, hrest]
  · exact ⟨List.pairwise_append.2 ⟨hsorted, List.pairwise_singleton _ _,
      fun x hx y hy => by simp only [List.mem_singleton] at hy; exact hy ▸ hle x hx⟩,
      List.getLast?_concat, hc⟩

/-- Closing a branch where `chainFrom` stops keeps the walk in order: the branch moves from the
owed ones to the listed ones, and the children of its last bone wait on the stack. -/
theorem Inv.close {starts : List Nat} {done : List Branch} {nodes : List Nat} {cur : Nat}
    {kind : BranchKind} (hw : Inv bones (chain starts done nodes cur)) (hcur : cur < bones.size)
    (hchain : chainFrom bones nodes.dropLast.reverse cur = (nodes, kind, bones[cur].children)) :
    Inv bones (scan (bones[cur].children ++ starts) (done ++ [⟨nodes, kind⟩])) ∧
      (chain starts done nodes cur).rest bones =
        ⟨nodes, kind⟩ :: (scan (bones[cur].children ++ starts) (done ++ [⟨nodes, kind⟩])).rest
          bones := by
  have hrest : (chain starts done nodes cur).rest bones =
      ⟨nodes, kind⟩ :: (scan (bones[cur].children ++ starts) (done ++ [⟨nodes, kind⟩])).rest
        bones := by
    simp [rest, hchain]
  refine ⟨⟨?_, fun x hx => ?_, trivial⟩, hrest⟩
  · rw [← hw.listed]
    simp [Walk.done, hrest]
  · simp only [Walk.starts, List.mem_append] at hx
    rcases hx with hx | hx
    · exact (hT.lt_of_mem_children hcur hx).2
    · exact hw.starts_lt x hx

/-- A pass from a state in order ends the walk with the branches of the arena, or advances to a
state in order. -/
theorem Inv.step {w : Walk} (hw : Inv bones w) :
    w.step bones = .halted (classify bones) ∨
      ∃ w', w.step bones = .next w' ∧ Inv bones w' ∧ Advances bones w w' := by
  cases w with
  | scan starts done =>
    cases starts with
    | nil =>
      left
      have hdone : done = classify bones := by simpa [Walk.done, rest] using hw.listed
      simp [Walk.step, hdone]
    | cons s starts =>
      obtain ⟨hw', hrest⟩ := hw.pop hT
      exact .inr ⟨_, rfl, hw', Or.inl ⟨rfl, hrest, s, by simp [placed]⟩⟩
  | chain starts done nodes cur =>
    obtain ⟨-, hlast, hcur⟩ := hw.climbs
    obtain ⟨ys, rfl⟩ := List.getLast?_eq_some_iff.1 hlast
    rcases step_chain hT starts done (ys ++ [cur]) hcur ys.reverse with
      ⟨hstep, hchain⟩ | ⟨c, hcc, hc, hstep, hchain⟩
    · -- the pass closes the branch
      have hchain' : chainFrom bones (ys ++ [cur]).dropLast.reverse cur =
          (ys ++ [cur], (chainFrom bones ys.reverse cur).2.1, bones[cur].children) := by
        simpa using hchain
      obtain ⟨hw', hrest⟩ := hw.close hT hcur hchain'
      exact .inr ⟨_, hstep, hw', Or.inr ⟨rfl, by simp [placed], _, hrest⟩⟩
    · -- the pass follows the lone child `c`
      obtain ⟨hw', hrest⟩ := hw.follow hcc hc hchain
      exact .inr ⟨_, hstep, hw', Or.inl ⟨rfl, hrest, c, by simp [placed]⟩⟩

theorem Inv.step_ne_outOfRange {w : Walk} (hw : Inv bones w) (i : Nat) :
    w.step bones ≠ .outOfRange i := by
  rcases hw.step hT with hs | ⟨w', hs, -⟩ <;> rw [hs] <;> simp

omit hT in
theorem Inv.placed_prefix {w : Walk} (hw : Inv bones w) :
    w.placed <+: (classify bones).flatMap (·.nodes) := by
  rw [← hw.listed, List.flatMap_append]
  cases w with
  | scan starts done => exact List.prefix_append _ _
  | chain starts done nodes cur =>
    obtain ⟨-, hlast, -⟩ := hw.climbs
    obtain ⟨t, ht⟩ := chainFrom_dropLast bones hlast
    simp only [placed, rest, Walk.done, List.flatMap_cons, ht, List.append_assoc]
    exact (List.prefix_append_right_inj _).2 (List.prefix_append _ _)

theorem Inv.placed_length_le {w : Walk} (hw : Inv bones w) : w.placed.length ≤ bones.size := by
  simpa [hT.flatMap_classify] using hw.placed_prefix.length_le

theorem Inv.step_next {w w' : Walk} (hw : Inv bones w) (hs : w.step bones = .next w') :
    Inv bones w' ∧ Advances bones w w' := by
  rcases hw.step hT with hs' | ⟨w₁, hs', hmove⟩
  · rw [hs] at hs'
    cases hs'
  · rw [hs] at hs'
    cases hs'
    exact hmove

theorem Inv.passesLeft_step {w w' : Walk} (hw : Inv bones w) (hs : w.step bones = .next w') :
    w'.passesLeft bones + 1 = w.passesLeft bones := by
  obtain ⟨hw', hmove⟩ := hw.step_next hT hs
  have hle := hw'.placed_length_le hT
  rcases hmove with ⟨-, hrest, x, hplaced⟩ | ⟨-, hplaced, br, hrest⟩
  · simp only [passesLeft, unplaced, hrest, hplaced, List.length_append,
      List.length_singleton] at hle ⊢
    omega
  · simp only [passesLeft, unplaced, hrest, hplaced, List.length_cons]
    omega

/-- A pass never leaves more bones outside the branches, and leaves fewer when it pops a start or
follows a child. -/
theorem Inv.unplaced_step {w w' : Walk} (hw : Inv bones w) (hs : w.step bones = .next w') :
    w'.unplaced bones ≤ w.unplaced bones ∧
      (w'.following → w'.unplaced bones < w.unplaced bones) := by
  obtain ⟨hw', hmove⟩ := hw.step_next hT hs
  have hle := hw'.placed_length_le hT
  rcases hmove with ⟨-, -, x, hplaced⟩ | ⟨hfollow, hplaced, -⟩
  · simp only [unplaced, hplaced, List.length_append, List.length_singleton] at hle ⊢
    omega
  · simp [unplaced, hplaced, hfollow]

omit hT in
theorem Inv.popped_append_starts_sublist {w : Walk} (hw : Inv bones w) :
    List.Sublist (w.popped ++ w.starts) ((classify bones).flatMap (·.nodes)) := by
  rw [← hw.listed, List.flatMap_append]
  cases w with
  | scan starts done =>
    exact (filterMap_first?_sublist done).append (sublist_flatMap_branchesFrom bones starts)
  | chain starts done nodes cur =>
    obtain ⟨-, hlast, -⟩ := hw.climbs
    obtain ⟨t, ht⟩ := chainFrom_dropLast bones hlast
    obtain ⟨ys, rfl⟩ := List.getLast?_eq_some_iff.1 hlast
    have hhead : List.Sublist (ys ++ [cur]).head?.toList (ys ++ [cur] ++ t) := by
      cases ys <;> simp
    have hstarts := sublist_flatMap_branchesFrom bones starts
    simp only [popped, Walk.starts, rest, Walk.done, List.flatMap_cons, ht, List.flatMap_append]
    rw [List.append_assoc (done.filterMap first?)]
    exact (filterMap_first?_sublist done).append
      (hhead.append (hstarts.trans (List.sublist_append_right _ _)))

/-- No bone is popped as a start twice, and none waits on the stack twice or after it was
popped. -/
theorem Inv.popped_append_starts_nodup {w : Walk} (hw : Inv bones w) :
    (w.popped ++ w.starts).Nodup :=
  hw.popped_append_starts_sublist.nodup (hT.flatMap_classify ▸ List.nodup_range)

end Passes

/-! ## Whole runs -/

section Runs

variable {bones : Array Bone} (hT : PreorderTree bones)
include hT

theorem Inv.of_run {w w' : Walk} (hw : Inv bones w) {k : Nat} (h : run bones k w = .next w') :
    Inv bones w' := by
  induction k generalizing w with
  | zero =>
    simp only [run, Outcome.next.injEq] at h
    exact h ▸ hw
  | succ k ih =>
    rcases hw.step hT with hs | ⟨w₁, hs, hw₁, -⟩
    · rw [run_succ_of_halted hs] at h
      cases h
    · rw [run_succ_of_next hs] at h
      exact ih hw₁ h

/-- From a state in order the walk halts with the branches of the arena after exactly the passes
it owes. -/
theorem Inv.run_passesLeft {w : Walk} (hw : Inv bones w) :
    run bones (w.passesLeft bones) w = .halted (classify bones) := by
  -- induction on the passes left, which every pass lowers by one
  suffices h : ∀ k w, Inv bones w → w.passesLeft bones = k + 1 →
      run bones (k + 1) w = .halted (classify bones) from h _ w hw (by simp [passesLeft])
  intro k
  induction k with
  | zero =>
    intro w hw hleft
    rcases hw.step hT with hs | ⟨w₁, hs, -⟩
    · exact run_succ_of_halted hs 0
    · have := hw.passesLeft_step hT hs
      simp only [passesLeft] at this hleft
      omega
  | succ k ih =>
    intro w hw hleft
    rcases hw.step hT with hs | ⟨w₁, hs, hw₁, -⟩
    · exact run_succ_of_halted hs _
    · rw [run_succ_of_next hs]
      exact ih w₁ hw₁ (by have := hw.passesLeft_step hT hs; omega)

end Runs

/-- The walk of an arena owes one pass per bone, one per branch, and the last. -/
theorem passesLeft_init (bones : Array Bone) :
    (init bones).passesLeft bones = bones.size + (classify bones).length + 1 := by
  have hrest : (init bones).rest bones = classify bones := by
    simpa [init, Walk.done] using (inv_init bones).listed
  rw [passesLeft, hrest]
  simp [unplaced, placed, init]

end Walk

end Branch

open Branch

/-- On every arena a builder grows, whatever events it was fed, the walk with an explicit stack
halts with the branches of the finished skeleton after one pass per bone, one per branch and a
last one, and more passes change nothing. At every state it reaches: the next pass reads no index
outside the arena; no bone has been popped as a start twice or waits again; the branch being
followed climbs through strictly larger bones, so it holds at most all of them; and the pass
leaves no more bones outside the branches, and fewer when it pops a start or follows a child. -/
theorem Builder.finish_walk_halts (config : SkeletonConfig) (falloff : Option Falloff)
    (es : List Event) :
    let s := (({ config, falloff } : Builder).feed es).finish
    (∀ k, s.bones.size + s.branches.length + 1 ≤ k →
      (Walk.init s.bones).run s.bones k = .halted s.branches) ∧
    ∀ k w, (Walk.init s.bones).run s.bones k = .next w →
      (∀ i, w.step s.bones ≠ .outOfRange i) ∧
      (w.popped ++ w.starts).Nodup ∧
      (∀ starts done nodes cur, w = .chain starts done nodes cur →
        nodes.Pairwise (· < ·) ∧ nodes.getLast? = some cur ∧ nodes.length ≤ s.bones.size) ∧
      ∀ w', w.step s.bones = .next w' →
        w'.unplaced s.bones ≤ w.unplaced s.bones ∧
          (w'.following → w'.unplaced s.bones < w.unplaced s.bones) := by
  intro s
  have hT : PreorderTree s.bones := ((Builder.inv_fresh config falloff).feed es).tree
  have hinit := Walk.inv_init s.bones
  refine ⟨fun k hk => ?_, fun k w hrun => ?_⟩
  · obtain ⟨j, rfl⟩ := Nat.exists_eq_add_of_le hk
    have hhalt := hinit.run_passesLeft hT
    rw [Walk.passesLeft_init] at hhalt
    exact Walk.run_add_of_halted hhalt j
  · have hw := hinit.of_run hT hrun
    refine ⟨hw.step_ne_outOfRange hT, hw.popped_append_starts_nodup hT, ?_,
      fun w' hs => hw.unplaced_step hT hs⟩
    rintro starts done nodes cur rfl
    obtain ⟨hsorted, hlast, -⟩ := hw.climbs
    have hlen : nodes.length ≤ (Walk.chain starts done nodes cur).placed.length := by
      simp [Walk.placed]
    exact ⟨hsorted, hlast, hlen.trans (hw.placed_length_le hT)⟩

end Arbor
