import Arbor.Proofs.Interpret.Underflow
/-!
# What an event leaves alone

An event changes a builder's arena only by laying bones at its end and by listing each new bone
among its parent's children: what a bone shows apart from its children never changes once it is
laid. The saved foci follow the brackets of the trace: a push saves one, a pop that succeeds
restores one, and only a pop with nothing saved fails.

Main statements: every event keeps what the bones already laid show apart from their children
(`getElem?_map_feed`); a trace whose pops never outnumber the pushes and the foci saved before it
is taken to the end, as `feed` takes it (`observeAll_of_reach`); and once a bone is laid, a move
lays its bone below the focus, opening a branch exactly when one is open (`nextBone_of_pos`).
-/

namespace Arbor

namespace Builder

variable {b : Builder}

@[simp] theorem addBone_size (b : Builder) (base tip : Vec3) (rotation : Quat) :
    (b.addBone base tip rotation).bones.size = b.bones.size + 1 := by
  simp [addBone_eq]

@[simp] theorem addBone_stack (b : Builder) (base tip : Vec3) (rotation : Quat) :
    (b.addBone base tip rotation).stack = b.stack := by
  simp [addBone_eq]

@[simp] theorem addBone_focus (b : Builder) (base tip : Vec3) (rotation : Quat) :
    (b.addBone base tip rotation).focus = some b.bones.size := by
  simp [addBone_eq]

@[simp] theorem addBone_opensBranch (b : Builder) (base tip : Vec3) (rotation : Quat) :
    (b.addBone base tip rotation).opensBranch = false := by
  simp [addBone_eq]

theorem observe_move_of_pos (hpos : 0 < b.bones.size) (src dst : Vec3) (rotation : Quat) :
    (b.observe (.move src dst rotation)).1 = b.addBone src dst rotation := by
  rw [observe_move, if_neg (by simp [Nat.pos_iff_ne_zero.1 hpos])]

/-- Once a bone is laid, the next bone hangs from the focus (bone `0` for a lost one) and opens a
branch exactly when one is open. -/
theorem nextBone_of_pos (hpos : 0 < b.bones.size) (base tip : Vec3) (rotation : Quat) :
    (b.nextBone base tip rotation).parent = some (b.focus.getD 0) ∧
      (b.nextBone base tip rotation).startsBranch = b.opensBranch := by
  simp [nextBone, nextParent_of_pos hpos]

section Frame

variable {α : Type} {f : Bone → α} (hf : ∀ q cs, f { q with children := cs } = f q)
include hf

theorem getElem?_map_addBone_of_lt (base tip : Vec3) (rotation : Quat) {i : Nat}
    (hi : i < b.bones.size) :
    (b.addBone base tip rotation).bones[i]?.map f = b.bones[i]?.map f := by
  rw [addBone_eq]
  exact (getElem?_map_attach hf i).trans (if_neg (by omega))

theorem getElem?_map_addBone_self (base tip : Vec3) (rotation : Quat) :
    (b.addBone base tip rotation).bones[b.bones.size]?.map f =
      some (f (b.nextBone base tip rotation)) := by
  rw [addBone_eq]
  exact (getElem?_map_attach hf _).trans (if_pos rfl)

theorem getElem?_map_addBone_of_size_eq {i : Nat} (hi : b.bones.size = i) (base tip : Vec3)
    (rotation : Quat) :
    (b.addBone base tip rotation).bones[i]?.map f = some (f (b.nextBone base tip rotation)) :=
  hi ▸ getElem?_map_addBone_self hf base tip rotation

theorem getElem?_map_observe (e : Event) {i : Nat} (hi : i < b.bones.size) :
    (b.observe e).1.bones[i]?.map f = b.bones[i]?.map f := by
  cases e with
  | move src dst rotation =>
    rw [observe_move]
    split
    · -- the anchor comes first, then the bone of the move
      rw [getElem?_map_addBone_of_lt hf _ _ _ (by simp; omega)]
      exact getElem?_map_addBone_of_lt hf _ _ _ hi
    · exact getElem?_map_addBone_of_lt hf _ _ _ hi
  | rotate => rfl
  | push => rfl
  | pop =>
    rw [observe_pop]
    split <;> rfl

end Frame

theorem size_le_observe (e : Event) : b.bones.size ≤ (b.observe e).1.bones.size := by
  cases e with
  | move src dst rotation =>
    rw [observe_move]
    split
    · simp only [addBone_size]
      omega
    · simp
  | rotate => exact Nat.le_refl _
  | push => exact Nat.le_refl _
  | pop =>
    rw [observe_pop]
    split <;> exact Nat.le_refl _

theorem getElem?_map_feed {α : Type} {f : Bone → α}
    (hf : ∀ q cs, f { q with children := cs } = f q) (es : List Event) {i : Nat}
    (hi : i < b.bones.size) : (b.feed es).bones[i]?.map f = b.bones[i]?.map f := by
  induction es generalizing b with
  | nil => rfl
  | cons e es ih =>
    rw [feed_cons, ih (Nat.lt_of_lt_of_le hi (size_le_observe e)), getElem?_map_observe hf e hi]

/-! ## Saved foci -/

theorem observe_stack {e : Event} (h : e.closes ≤ b.stack.length) :
    (b.observe e).2 = none ∧
      (b.observe e).1.stack.length = b.stack.length - e.closes + e.opens := by
  cases e with
  | move src dst rotation =>
    rw [observe_move]
    split <;> simp [Event.opens, Event.closes]
  | rotate => simp [Event.opens, Event.closes]
  | push => simp [Event.opens, Event.closes]
  | pop =>
    rw [observe_pop]
    cases hs : b.stack with
    | nil => simp [hs, Event.closes] at h
    | cons s rest => simp [Event.opens, Event.closes]

/-- A trace whose pops never outnumber the pushes and the foci saved before it is taken to the
end, each event as `feed` takes it. -/
theorem observeAll_of_reach {es : List Event} {d : Nat}
    (h : Brackets.reach Event.opens Event.closes b.stack.length es = some d) :
    b.observeAll es = (b.feed es, none) := by
  induction es generalizing b with
  | nil => rfl
  | cons e es ih =>
    rw [Brackets.reach_cons] at h
    split at h
    · rename_i hle
      obtain ⟨hok, hlen⟩ := observe_stack hle
      rw [← hlen] at h
      rcases hobs : b.observe e with ⟨b₁, _ | f⟩
      · rw [hobs] at h
        simp only [observeAll, hobs, feed_cons]
        exact ih h
      · rw [hobs] at hok
        cases hok
    · cases h

end Builder

end Arbor
