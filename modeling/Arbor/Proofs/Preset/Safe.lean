import Arbor.Preset.Space
import Arbor.Proofs.Grammar.Nesting
import Arbor.Proofs.Skeleton.Chains
import Arbor.Proofs.Skeleton.Frame
import Arbor.Proofs.Interpret.RunLength
/-!
# The bracketed presets never fail

The binary tree, the plant, the leaf and the stochastic space plant keep brackets: their grammars
give `[` and `]` no rule, every word their rules write is balanced, and they start from a balanced
word, so every generation is balanced (`Grammar.KeepsBrackets.balanced_expand`). Their
interpreters save a pose at `[` and restore one at `]`, at no other symbol, so the walk of a
balanced word never restores a pose it did not save and ends with nothing saved; a builder takes
the trace of such a walk to its end.

From the first generation on, a word of the space plant begins with a run of `1`, a `[` and a
growth symbol (`SpacePreset.Sprouts`). Its walk moves, pushes, turns and moves again, so the second
bone opens a branch below the first, and the skeleton splits there.

Main statement: `bracketed_presets_never_fail`.
-/

namespace Arbor

open Relation

/-! ## Runs of equal symbols -/

theorem symbolRuns_replicate_append {a b c : Symbol} (hba : b ≠ a) (hcb : c ≠ b) {k : Nat}
    (hk : 0 < k) (rest : Word) :
    ∃ m more, symbolRuns (List.replicate k a ++ b :: c :: rest) =
      (a, k) :: (b, 1) :: (c, m) :: more := by
  obtain ⟨j, rfl⟩ : ∃ j, k = j + 1 := ⟨k - 1, by omega⟩
  obtain ⟨m, more, h⟩ := exists_runsFrom c 1 rest
  refine ⟨m, more, ?_⟩
  rw [List.replicate_succ, List.cons_append, symbolRuns, runsFrom_replicate_append,
    runsFrom_cons_of_ne hba, runsFrom_cons_of_ne hcb, h, Nat.add_comm]

/-! ## Walks that succeed -/

namespace SpaceTurtle

theorem events_append_of_reflTransGen {t t' : SpaceTurtle} (hw : ReflTransGen StepsTo t t') :
    ∃ es, t'.events.toList = t.events.toList ++ es := by
  induction hw with
  | refl => exact ⟨[], by simp⟩
  | tail _ hstep ih =>
    obtain ⟨es, hes⟩ := ih
    obtain ⟨e, he⟩ := hstep.events
    exact ⟨es ++ [e], by rw [he, Array.toList_push, hes, List.append_assoc]⟩

end SpaceTurtle

namespace SpaceInterpreter

variable {ip : SpaceInterpreter}

theorem walkRuns_grow {a : Symbol} {scale : Float32} (ha : ip.actions a = .grow scale)
    (t : SpaceTurtle) (r : Rng) (n : Nat) (rest : List (Symbol × Nat)) :
    ip.walkRuns t r ((a, n) :: rest) =
      ip.walkRuns (t.moveForward (scale * (SpaceAction.uniformSum n (-0) r).1))
        (SpaceAction.uniformSum n (-0) r).2 rest := by
  rw [walkRuns_cons_of_runAll (by rw [ha]; rfl), ha]
  rfl

theorem walkRuns_pushTurn {a : Symbol} {tr : RandomTurn} (ha : ip.actions a = .pushTurn tr)
    (t : SpaceTurtle) (r : Rng) (rest : List (Symbol × Nat)) :
    ip.walkRuns t r ((a, 1) :: rest) =
      ip.walkRuns (t.push.rotate (tr.draw r).1.1 (tr.draw r).1.2) (tr.draw r).2 rest := by
  rw [walkRuns_cons_of_runAll (by rw [ha]; rfl), ha]
  rfl

/-- An interpreter that saves at `[` and restores at `]` only grows, from a balanced word, the
skeleton of the whole trace of its walk, with any builder. -/
theorem growSkeleton_of_balanced (hsaves : ip.saves = Word.opensBracket)
    (hrestores : ip.restores = Word.closesBracket) {w : Word} (hw : Word.Balanced w) (r : Rng)
    (b : Builder) :
    (ip.growSkeleton w r b).1 = .ok (b.feed (ip.interpretFrom w {} r).1.events.toList).finish := by
  have hreach : Brackets.reach ip.saves ip.restores (SpaceTurtle.startingAt {}).depth
      (expandRuns (symbolRuns w)) = some 0 := by
    rw [(symbolRuns_encoding w).expand, hsaves, hrestores]
    exact hw
  have hok : (ip.interpretFrom w {} r).2.2 = none := (walkRuns_of_reach_some hreach).1
  -- the trace is balanced, so the builder takes it on top of the foci it has saved
  have htrace : (ip.interpretFrom w {} r).1.TraceBalanced :=
    (SpaceTurtle.traceBalanced_startingAt {}).reflTransGen (ip.reflTransGen_walkRuns _ r _)
  have hall := Builder.observeAll_of_reach (b := b)
    (by simpa using Brackets.reach_add htrace b.stack.length)
  rcases hrun : ip.interpretFrom w {} r with ⟨t, r', fault⟩
  rw [hrun] at hok hall
  cases hok
  simp only [growSkeleton, hrun, hall]

end SpaceInterpreter

/-! ## A branch at the first bone -/

namespace Builder

/-- A fresh builder that takes a move, a push, a turn and a move lays its second bone below the
first, opening a branch, whatever comes after. -/
theorem second_bone_opens_branch (config : SkeletonConfig) (falloff : Option Falloff)
    (s₁ d₁ s₂ d₂ : Vec3) (q₁ q₂ : Quat) (yaw pitch : Float32) (rest : List Event) :
    (({ config, falloff } : Builder).feed
        (.move s₁ d₁ q₁ :: .push :: .rotate yaw pitch :: .move s₂ d₂ q₂ :: rest)).bones[1]?.map
      (fun q => (q.parent, q.startsBranch)) = some (some 0, true) := by
  -- before the second move: one bone, the focus on it and a branch open
  set b : Builder :=
    ((({ config, falloff } : Builder).addBone s₁ d₁ q₁).observe .push).1 with hb
  have hsize : b.bones.size = 1 := by simp [hb]
  have hfirst : (({ config, falloff } : Builder).observe (.move s₁ d₁ q₁)).1 =
      ({ config, falloff } : Builder).addBone s₁ d₁ q₁ := rfl
  have hfeed : ({ config, falloff } : Builder).feed
      (.move s₁ d₁ q₁ :: .push :: .rotate yaw pitch :: .move s₂ d₂ q₂ :: rest) =
        (b.addBone s₂ d₂ q₂).feed rest := by
    rw [feed_cons, hfirst, feed_cons, feed_cons, observe_rotate, feed_cons,
      observe_move_of_pos (by simp)]
  obtain ⟨hparent, hopens⟩ := nextBone_of_pos (b := b) (by omega) s₂ d₂ q₂
  rw [hfeed, getElem?_map_feed (f := fun q : Bone => (q.parent, q.startsBranch)) (fun _ _ => rfl)
    rest (by simp [hsize]),
    getElem?_map_addBone_of_size_eq (f := fun q : Bone => (q.parent, q.startsBranch))
      (fun _ _ => rfl) hsize, hparent, hopens]
  simp [hb]

theorem branchPoints_ne_nil_of_opens_branch (config : SkeletonConfig) (falloff : Option Falloff)
    (s₁ d₁ s₂ d₂ : Vec3) (q₁ q₂ : Quat) (yaw pitch : Float32) (rest : List Event) :
    (({ config, falloff } : Builder).feed
        (.move s₁ d₁ q₁ :: .push :: .rotate yaw pitch :: .move s₂ d₂ q₂ :: rest)).finish.branchPoints
      ≠ [] := by
  have hbone := second_bone_opens_branch config falloff s₁ d₁ s₂ d₂ q₁ q₂ yaw pitch rest
  have hT := ((inv_fresh config falloff).feed
    (.move s₁ d₁ q₁ :: .push :: .rotate yaw pitch :: .move s₂ d₂ q₂ :: rest)).tree
  show (⟨_, Branch.classify _⟩ : Skeleton).branchPoints ≠ []
  generalize (({ config, falloff } : Builder).feed _).bones = bones at hbone hT ⊢
  obtain ⟨bone, hget, hbone⟩ := Option.map_eq_some_iff.1 hbone
  simp only [Prod.mk.injEq] at hbone
  have h1 : 1 < bones.size := (Array.getElem?_eq_some_iff.1 hget).1
  have hchild : 1 ∈ bones[0].children :=
    (hT.mem_children_iff 0 (by omega) 1).2 (by simp [parentOf, hget, hbone.1])
  have hsplit : Branch.splits bones bones[0] = true :=
    Branch.splits_of_mem_children hchild (by simp [hget, hbone.2])
  rw [hT.branchPoints_classify]
  exact List.ne_nil_of_mem (List.mem_filter.2 ⟨Array.getElem_mem_toList (by omega), hsplit⟩)

end Builder

/-! ## Plane presets -/

namespace PlanePreset

/-- What a bracketed plane preset guarantees, for every number of generations and every stream:
its words are balanced, and drawing them ends without a fault and with nothing saved. -/
structure Safe (p : PlanePreset) : Prop where
  balanced : ∀ n r, ∃ w, (p.grammar.expand n r).1 = .ok w ∧ Word.Balanced w
  draw_ok : ∀ n origin heading canvas r, (p.draw n origin heading canvas r).2 = none ∧
    (p.draw n origin heading canvas r).1.turtle.depth = 0

/-- A preset whose grammar keeps brackets, has no limit and starts balanced, and whose
interpreter saves at `[` and restores at `]` only, is safe. -/
theorem safe_of_keepsBrackets {p : PlanePreset} (hg : p.grammar.KeepsBrackets)
    (hmax : p.grammar.maxLen = none) (hstart : Word.Balanced p.grammar.start)
    (hsaves : p.interpreter.saves = Word.opensBracket)
    (hrestores : p.interpreter.restores = Word.closesBracket) : p.Safe where
  balanced := hg.balanced_expand hmax hstart
  draw_ok n origin heading canvas r := by
    unfold draw
    rw [Grammar.expand_of_maxLen_none hmax]
    apply PlaneInterpreter.walk_of_reach_some
    rw [hsaves, hrestores]
    exact hg.balanced_iterate hstart n r

theorem fractalTree_brackets (scale : Float32) :
    (fractalTree scale).interpreter.saves = Word.opensBracket ∧
      (fractalTree scale).interpreter.restores = Word.closesBracket := by
  constructor <;> funext a <;>
    simp only [PlaneInterpreter.saves, PlaneInterpreter.restores, fractalTree, scaled,
      PlaneInterpreter.copyAction, PlaneInterpreter.setAction, Word.opensBracket,
      Word.closesBracket] <;>
    split_ifs <;> simp_all [PlaneAction.opens, PlaneAction.closes, sym]

theorem fractalPlant_brackets (scale : Float32) :
    (fractalPlant scale).interpreter.saves = Word.opensBracket ∧
      (fractalPlant scale).interpreter.restores = Word.closesBracket := by
  constructor <;> funext a <;>
    simp only [PlaneInterpreter.saves, PlaneInterpreter.restores, fractalPlant, scaled,
      PlaneInterpreter.setAction, Word.opensBracket, Word.closesBracket] <;>
    split_ifs <;> simp_all [PlaneAction.opens, PlaneAction.closes, sym]

theorem fractalLeaf_brackets (scale : Float32) (color : Color) :
    (fractalLeaf scale color).interpreter.saves = Word.opensBracket ∧
      (fractalLeaf scale color).interpreter.restores = Word.closesBracket := by
  constructor <;> funext a <;>
    simp only [PlaneInterpreter.saves, PlaneInterpreter.restores, fractalLeaf, List.foldl,
      PlaneInterpreter.copyAction, PlaneInterpreter.setAction, Word.opensBracket,
      Word.closesBracket] <;>
    split_ifs <;> simp_all [PlaneAction.opens, PlaneAction.closes, sym]

theorem fractalTree_safe (scale : Float32) : (fractalTree scale).Safe :=
  safe_of_keepsBrackets
    (((Grammar.keepsBrackets_start _).setRule (by decide) (by decide)
      (Rule.balanced_fixed (by decide))).setRule (by decide) (by decide)
      (Rule.balanced_fixed (by decide)))
    rfl rfl (fractalTree_brackets scale).1 (fractalTree_brackets scale).2

theorem fractalPlant_safe (scale : Float32) : (fractalPlant scale).Safe :=
  safe_of_keepsBrackets
    (((Grammar.keepsBrackets_start _).setRule (by decide) (by decide)
      (Rule.balanced_fixed (by decide))).setRule (by decide) (by decide)
      (Rule.balanced_fixed (by decide)))
    rfl rfl (fractalPlant_brackets scale).1 (fractalPlant_brackets scale).2

theorem fractalLeaf_safe (scale : Float32) (color : Color) : (fractalLeaf scale color).Safe :=
  safe_of_keepsBrackets
    ((((Grammar.keepsBrackets_start _).setRule (by decide) (by decide)
      (Rule.balanced_fixed (by decide))).setRule (by decide) (by decide)
      (Rule.balanced_fixed (by decide))).aliasRule (by decide) (by decide) _)
    rfl rfl (fractalLeaf_brackets scale color).1 (fractalLeaf_brackets scale color).2

end PlanePreset

/-! ## The space plant -/

namespace SpacePreset

theorem skeleton_of_keepsBrackets {p : SpacePreset} (hg : p.grammar.KeepsBrackets)
    (hmax : p.grammar.maxLen = none) (hstart : Word.Balanced p.grammar.start)
    (hsaves : p.interpreter.saves = Word.opensBracket)
    (hrestores : p.interpreter.restores = Word.closesBracket) (n : Nat) (r : Rng) (b : Builder) :
    (p.skeleton n r b).1 = .ok (b.feed (p.interpreter.interpretFrom
      (p.grammar.iterate n p.grammar.start r).1 {}
        (p.grammar.iterate n p.grammar.start r).2).1.events.toList).finish := by
  unfold skeleton
  rw [Grammar.expand_of_maxLen_none hmax]
  exact SpaceInterpreter.growSkeleton_of_balanced hsaves hrestores
    (hg.balanced_iterate hstart n r) _ b

theorem fractalPlant3d_keepsBrackets (scale : Float32) :
    (fractalPlant3d scale).grammar.KeepsBrackets :=
  ((Grammar.keepsBrackets_start _).setRule (by decide) (by decide)
    (Rule.balanced_chance (by decide))).setRule (by decide) (by decide)
    (Rule.balanced_fixed (by decide))

theorem fractalPlant3d_brackets (scale : Float32) :
    (fractalPlant3d scale).interpreter.saves = Word.opensBracket ∧
      (fractalPlant3d scale).interpreter.restores = Word.closesBracket := by
  constructor <;> funext a <;>
    simp only [SpaceInterpreter.saves, SpaceInterpreter.restores, fractalPlant3d,
      SpaceInterpreter.copyAction, SpaceInterpreter.setAction, Word.opensBracket,
      Word.closesBracket] <;>
    split_ifs <;> simp_all [SpaceAction.opens, SpaceAction.closes, sym]

theorem fractalPlant3d_skeleton (scale : Float32) (n : Nat) (r : Rng) (b : Builder) :
    ((fractalPlant3d scale).skeleton n r b).1 =
      .ok (b.feed ((fractalPlant3d scale).interpreter.interpretFrom
        ((fractalPlant3d scale).grammar.iterate n (word "0") r).1 {}
        ((fractalPlant3d scale).grammar.iterate n (word "0") r).2).1.events.toList).finish :=
  skeleton_of_keepsBrackets (fractalPlant3d_keepsBrackets scale) rfl rfl
    (fractalPlant3d_brackets scale).1 (fractalPlant3d_brackets scale).2 n r b

/-! ### The first branch -/

/-- A word that begins with a run of `1`, a `[` and a growth symbol. -/
def Sprouts (w : Word) : Prop :=
  ∃ k c rest, 0 < k ∧ (c = sym '0' ∨ c = sym '1') ∧
    w = List.replicate k (sym '1') ++ sym '[' :: c :: rest

section Sprouts

variable (scale : Float32)

theorem fractalPlant3d_rewrite_one (r : Rng) :
    (fractalPlant3d scale).grammar.rewrite (sym '1') r = (word "11", r) := rfl

theorem fractalPlant3d_rewrite_open (r : Rng) :
    (fractalPlant3d scale).grammar.rewrite (sym '[') r = ([sym '['], r) := rfl

theorem fractalPlant3d_rewrite_zero (r : Rng) :
    ((fractalPlant3d scale).grammar.rewrite (sym '0') r).1 = word "1[0]0" ∨
      ((fractalPlant3d scale).grammar.rewrite (sym '0') r).1 = word "1[0][0]0" := by
  rw [show (fractalPlant3d scale).grammar.rewrite (sym '0') r =
    (Rule.chance [(0.5, word "1[0][0]0")] (word "1[0]0")).apply r from rfl]
  simpa using Rule.apply_chance_mem [(0.5, word "1[0][0]0")] (word "1[0]0") r

theorem fractalPlant3d_rewrite_grow {c : Symbol} (hc : c = sym '0' ∨ c = sym '1') (r : Rng) :
    ∃ tail, ((fractalPlant3d scale).grammar.rewrite c r).1 = sym '1' :: tail := by
  rcases hc with rfl | rfl
  · rcases fractalPlant3d_rewrite_zero scale r with h | h
    · exact ⟨_, h⟩
    · exact ⟨_, h⟩
  · exact ⟨_, congrArg Prod.fst (fractalPlant3d_rewrite_one scale r)⟩

theorem fractalPlant3d_step_replicate (k : Nat) (r : Rng) :
    (fractalPlant3d scale).grammar.step (List.replicate k (sym '1')) r =
      (List.replicate (2 * k) (sym '1'), r) := by
  induction k with
  | zero => rfl
  | succ k ih =>
    rw [List.replicate_succ, Grammar.step_cons, fractalPlant3d_rewrite_one, ih,
      show 2 * (k + 1) = 2 * k + 1 + 1 by omega, List.replicate_succ, List.replicate_succ]
    rfl

theorem sprouts_step_start (r : Rng) :
    Sprouts ((fractalPlant3d scale).grammar.step (word "0") r).1 := by
  rw [show word "0" = [sym '0'] from rfl, Grammar.step_cons, Grammar.step_nil, List.append_nil]
  rcases fractalPlant3d_rewrite_zero scale r with h | h <;> rw [h]
  · exact ⟨1, sym '0', word "]0", by decide, .inl rfl, by decide⟩
  · exact ⟨1, sym '0', word "][0]0", by decide, .inl rfl, by decide⟩

/-- A generation keeps a word sprouting: the run of `1` doubles, and the growth symbol after the
`[` rewrites to a word that begins with `1`. -/
theorem Sprouts.step {w : Word} (hw : Sprouts w) (r : Rng) :
    Sprouts ((fractalPlant3d scale).grammar.step w r).1 := by
  obtain ⟨k, c, rest, hk, hc, rfl⟩ := hw
  obtain ⟨tail, htail⟩ := fractalPlant3d_rewrite_grow scale hc r
  refine ⟨2 * k, sym '1', tail ++ ((fractalPlant3d scale).grammar.step rest
    ((fractalPlant3d scale).grammar.rewrite c r).2).1, by omega, .inr rfl, ?_⟩
  rw [Grammar.step_append, fractalPlant3d_step_replicate, Grammar.step_cons,
    fractalPlant3d_rewrite_open, Grammar.step_cons, htail]
  rfl

theorem Sprouts.iterate {w : Word} (hw : Sprouts w) (n : Nat) (r : Rng) :
    Sprouts ((fractalPlant3d scale).grammar.iterate n w r).1 := by
  induction n generalizing w r with
  | zero => exact hw
  | succ n ih => exact ih (hw.step scale r) _

theorem sprouts_iterate_start {n : Nat} (hn : 0 < n) (r : Rng) :
    Sprouts ((fractalPlant3d scale).grammar.iterate n (word "0") r).1 := by
  obtain ⟨n, rfl⟩ : ∃ m, n = m + 1 := ⟨n - 1, by omega⟩
  exact (sprouts_step_start scale r).iterate scale n _

theorem fractalPlant3d_trace_of_sprouts {w : Word} (hw : Sprouts w) (r : Rng) :
    ∃ s₁ d₁ s₂ d₂ q₁ q₂ yaw pitch rest,
      ((fractalPlant3d scale).interpreter.interpretFrom w {} r).1.events.toList =
        .move s₁ d₁ q₁ :: .push :: .rotate yaw pitch :: .move s₂ d₂ q₂ :: rest := by
  obtain ⟨k, c, rest, hk, hc, rfl⟩ := hw
  have hcopen : c ≠ sym '[' := by rcases hc with rfl | rfl <;> decide
  obtain ⟨m, more, hruns⟩ :=
    symbolRuns_replicate_append (a := sym '1') (by decide) hcopen hk rest
  have hgrow : (fractalPlant3d scale).interpreter.actions c = .grow scale := by
    rcases hc with rfl | rfl <;> rfl
  rw [SpaceInterpreter.interpretFrom, hruns, SpaceInterpreter.walkRuns_grow rfl,
    SpaceInterpreter.walkRuns_pushTurn rfl, SpaceInterpreter.walkRuns_grow hgrow]
  obtain ⟨es, hes⟩ := SpaceTurtle.events_append_of_reflTransGen
    ((fractalPlant3d scale).interpreter.reflTransGen_walkRuns _ _ more)
  rw [hes]
  exact ⟨_, _, _, _, _, _, _, _, es, rfl⟩

end Sprouts

end SpacePreset

/-- The bracketed presets never fail. A grammar that gives the brackets no rule and writes only
balanced words maps balanced words to balanced words; the tree, the plant and the leaf therefore
expand to balanced words and draw them to the end with nothing saved; the space plant expands to
balanced words whatever its chance rule draws, and grows a skeleton with any builder; and from the
first generation on, the space tree splits somewhere. -/
theorem bracketed_presets_never_fail :
    (∀ g : Grammar, g.KeepsBrackets →
      ∀ w r, Word.Balanced w → Word.Balanced (g.step w r).1) ∧
    (∀ scale, (PlanePreset.fractalTree scale).Safe) ∧
    (∀ scale, (PlanePreset.fractalPlant scale).Safe) ∧
    (∀ scale color, (PlanePreset.fractalLeaf scale color).Safe) ∧
    (∀ scale n r, ∃ w, ((SpacePreset.fractalPlant3d scale).grammar.expand n r).1 = .ok w ∧
      Word.Balanced w) ∧
    (∀ scale n r b, ∃ s, ((SpacePreset.fractalPlant3d scale).skeleton n r b).1 = .ok s) ∧
    (∀ r n, ∃ s, (SpacePreset.fractalTree3d r n).1 = .ok s ∧
      (0 < n → s.branchPoints ≠ [])) := by
  refine ⟨fun g hg w r hw => hg.balanced_step hw r, PlanePreset.fractalTree_safe,
    PlanePreset.fractalPlant_safe, PlanePreset.fractalLeaf_safe,
    fun scale => (SpacePreset.fractalPlant3d_keepsBrackets scale).balanced_expand rfl rfl,
    fun scale n r b => ⟨_, SpacePreset.fractalPlant3d_skeleton scale n r b⟩,
    fun r n => ⟨_, SpacePreset.fractalPlant3d_skeleton 0.1 n r _, fun hn => ?_⟩⟩
  obtain ⟨s₁, d₁, s₂, d₂, q₁, q₂, yaw, pitch, rest, htrace⟩ :=
    SpacePreset.fractalPlant3d_trace_of_sprouts 0.1 (SpacePreset.sprouts_iterate_start 0.1 hn r) _
  rw [htrace]
  exact Builder.branchPoints_ne_nil_of_opens_branch _ _ s₁ d₁ s₂ d₂ q₁ q₂ yaw pitch rest

end Arbor
