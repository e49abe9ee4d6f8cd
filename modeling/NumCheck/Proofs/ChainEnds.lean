import Mathlib.Logic.Relation
import NumCheck.Proofs.Chains

/-!
# How a chain of links ends

A chain of links ends in a root, or it leaves the arena at a number that no slot has, or it runs
into a circle and has no end. In an arena that may hold any links at all this is all that can
happen, and the three exclude each other.

The links alone say what a chain comes to, so `Circles` and `Leaves` are stated without the fuel
and the list of slots that the arena follows a chain with. The arena looks at a slot, remembers it,
and goes on to its target. This loop is the relation `Follows`, which has no bound on the rounds. It
ends in every arena, because the slots it remembers are different ones and the arena has no more; so
the fuel bounds nothing. That a chain must end in one of the three ways is then read off the answer.

Which slot of a circle the fault names, and that the loop has no second answer, is left to
`ChainFollowing`.
-/

namespace NumCheck.Arena

open Relation (ReflTransGen TransGen)

variable {a : Arena} {x y z r : SlotId}

/-! ### What a chain comes to -/

/-- Slot `x` is a link to slot `y`. -/
def Link (a : Arena) (x y : SlotId) : Prop := ∃ s, a.get? x = some s ∧ s.content = .link y

/-- The chain of `x` comes to `y`. -/
def Reaches (a : Arena) : SlotId → SlotId → Prop := ReflTransGen a.Link

/-- The chain of `x` runs into a circle: it comes to a slot from which links lead back to it. -/
def Circles (a : Arena) (x : SlotId) : Prop := ∃ y, a.Reaches x y ∧ TransGen a.Link y y

/-- The chain of `x` leaves the arena: it comes to a number that no slot has. -/
def Leaves (a : Arena) (x : SlotId) : Prop := ∃ y, a.Reaches x y ∧ ¬ a.Has y

theorem Link.has (h : a.Link x y) : a.Has x := by
  obtain ⟨s, hs, -⟩ := h
  exact ⟨s, hs⟩

/-- A slot is a link to one slot only. -/
theorem Link.unique (h : a.Link x y) (h' : a.Link x z) : y = z := by
  obtain ⟨s, hs, hc⟩ := h
  obtain ⟨s', hs', hc'⟩ := h'
  rw [hs, Option.some.injEq] at hs'
  subst hs'
  exact Content.link.inj (hc.symm.trans hc')

/-- A root is no link. -/
theorem Leads.not_link (h : Leads a x r) : ¬ a.Link r y := by
  obtain ⟨s, hs, hc⟩ := h.isRoot
  rintro ⟨s', hs', hc'⟩
  rw [hs, Option.some.injEq] at hs'
  exact hc y (hs' ▸ hc')

/-! ### A link ends as its target does -/

theorem Link.circles_iff (h : a.Link x y) : a.Circles x ↔ a.Circles y := by
  constructor
  · rintro ⟨z, hxz, hz⟩
    rcases ReflTransGen.cases_head hxz with rfl | ⟨w, hxw, hwz⟩
    · -- `x` itself is on the circle, and so is the slot after it
      obtain ⟨w, hxw, hwx⟩ := TransGen.head'_iff.mp hz
      cases h.unique hxw
      exact ⟨x, hwx, hz⟩
    · cases h.unique hxw
      exact ⟨z, hwz, hz⟩
  · rintro ⟨z, hyz, hz⟩
    exact ⟨z, .head h hyz, hz⟩

theorem Link.leaves_iff (h : a.Link x y) : a.Leaves x ↔ a.Leaves y := by
  constructor
  · rintro ⟨z, hxz, hz⟩
    rcases ReflTransGen.cases_head hxz with rfl | ⟨w, hxw, hwz⟩
    · exact absurd h.has hz
    · cases h.unique hxw
      exact ⟨z, hwz, hz⟩
  · rintro ⟨z, hyz, hz⟩
    exact ⟨z, .head h hyz, hz⟩

/-! ### No chain ends in two ways -/

/-- A chain that runs into a circle starts with a link. -/
theorem Circles.exists_link (h : a.Circles x) : ∃ y, a.Link x y := by
  obtain ⟨z, hxz, hz⟩ := h
  rcases ReflTransGen.cases_head hxz with rfl | ⟨y, hxy, -⟩
  · obtain ⟨y, hxy, -⟩ := TransGen.head'_iff.mp hz
    exact ⟨y, hxy⟩
  · exact ⟨y, hxy⟩

/-- Every slot that the chain comes to is on a chain into the same circle. -/
theorem Circles.of_reaches (h : a.Circles x) (hxy : a.Reaches x y) : a.Circles y := by
  induction hxy with
  | refl => exact h
  | tail _ hl ih => exact hl.circles_iff.mp ih

theorem Circles.not_leaves (h : a.Circles x) : ¬ a.Leaves x := by
  rintro ⟨y, hxy, hy⟩
  obtain ⟨z, hyz⟩ := (h.of_reaches hxy).exists_link
  exact hy hyz.has

theorem Leads.not_circles (h : Leads a x r) : ¬ a.Circles x := by
  induction h with
  | @root r s hs hc =>
    intro hr
    obtain ⟨y, hl⟩ := hr.exists_link
    exact (Leads.root hs hc).not_link hl
  | @link x y r s hs hc _ ih =>
    have hl : a.Link x y := ⟨s, hs, hc⟩
    intro hx
    exact ih (hl.circles_iff.mp hx)

theorem Leads.not_leaves (h : Leads a x r) : ¬ a.Leaves x := by
  induction h with
  | @root r s hs hc =>
    rintro ⟨y, hry, hy⟩
    rcases ReflTransGen.cases_head hry with rfl | ⟨z, hl, -⟩
    · exact hy ⟨s, hs⟩
    · exact (Leads.root hs hc).not_link hl
  | @link x y r s hs hc _ ih =>
    have hl : a.Link x y := ⟨s, hs, hc⟩
    intro hx
    exact ih (hl.leaves_iff.mp hx)

/-! ### The loop that follows a chain -/

/-- Slot `x` is there and is no link. -/
def IsRoot (a : Arena) (x : SlotId) : Prop := ∃ s, a.get? x = some s ∧ ∀ t, s.content ≠ .link t

/-- Links are followed from slot `x`, after the slots `seen`, for `n` rounds, and `answer` is what
comes out. -/
inductive Follows (a : Arena) : List SlotId → SlotId → Nat → Except Fault SlotId → Prop where
  /-- There is no slot `x`. -/
  | missing {seen : List SlotId} {x : SlotId} :
      ¬ a.Has x → Follows a seen x 1 (.error (.missing x))
  /-- Slot `x` is the root. -/
  | root {seen : List SlotId} {x : SlotId} : a.IsRoot x → Follows a seen x 1 (.ok x)
  /-- Slot `x` is met again. -/
  | again {seen : List SlotId} {x y : SlotId} :
      a.Link x y → x ∈ seen → Follows a seen x 1 (.error (.cycle x))
  /-- Slot `x` is a link that has not been seen, and its target is next. -/
  | next {seen : List SlotId} {x y : SlotId} {n : Nat} {answer : Except Fault SlotId} :
      a.Link x y → x ∉ seen → Follows a (x :: seen) y n answer → Follows a seen x (n + 1) answer

theorem Walk.link {seen : List SlotId} (h : Walk a seen x) (hl : a.Link x y) :
    Walk a (x :: seen) y := by
  obtain ⟨s, hs, hc⟩ := hl
  exact .step h hs hc

/-- The answer that is found with fuel is that of the loop, if the fuel is enough for the slots that
have not been seen. -/
theorem follow_follows {fuel : Nat} {seen : List SlotId} (hw : Walk a seen x) (hn : seen.Nodup)
    (hf : fuel + seen.length = a.size + 1) :
    ∃ n ≤ fuel, a.Follows seen x n (a.follow fuel seen x) := by
  induction fuel generalizing seen x with
  | zero =>
    -- the slots that have been seen would be one more than there are
    have := hw.length_le hn
    omega
  | succ fuel ih =>
    rw [follow]
    split
    · next hx => exact ⟨1, by omega, .missing (by simp [Has, hx])⟩
    · next s hx =>
      split
      · next t hc =>
        have hl : a.Link x t := ⟨s, hx, hc⟩
        split
        · next hs => exact ⟨1, by omega, .again hl hs⟩
        · next hs =>
          have hf' : fuel + (x :: seen).length = a.size + 1 := by
            simp only [List.length_cons]
            omega
          obtain ⟨n, hle, hnext⟩ := ih (hw.step hx hc) (List.nodup_cons.mpr ⟨hs, hn⟩) hf'
          exact ⟨n + 1, by omega, .next hl hs hnext⟩
      · next hc => exact ⟨1, by omega, .root ⟨s, hx, hc⟩⟩

/-- **The loop ends**, after one round for each slot at most and one more. -/
theorem exists_follows (a : Arena) (x : SlotId) :
    ∃ n ≤ a.size + 1, a.Follows [] x n (a.root x) :=
  follow_follows (.start x) List.nodup_nil rfl

/-! ### Every chain ends in one of these ways -/

/-- A slot on a walk leads on to where the walk has come to. -/
theorem Walk.transGen {seen : List SlotId} (h : Walk a seen x) (hy : y ∈ seen) :
    TransGen a.Link y x := by
  induction h with
  | start => simp at hy
  | @step seen x z s _ hs hc ih =>
    have hl : a.Link x z := ⟨s, hs, hc⟩
    rcases List.mem_cons.mp hy with rfl | hy
    · exact .single hl
    · exact .tail (ih hy) hl

/-- What the fault of a chain means: the number that is missing, or a slot of the circle. -/
theorem Follows.error_cases {seen : List SlotId} {n : Nat} {f : Fault} (hw : Walk a seen x)
    (h : a.Follows seen x n (.error f)) :
    (∃ z, f = .missing z ∧ a.Reaches x z ∧ ¬ a.Has z) ∨
      ∃ z, f = .cycle z ∧ a.Reaches x z ∧ TransGen a.Link z z := by
  generalize hanswer : (Except.error f : Except Fault SlotId) = answer at h
  induction h with
  | @missing _ x hx =>
    cases hanswer
    exact .inl ⟨x, rfl, .refl, hx⟩
  | root _ => cases hanswer
  | @again _ x _ hl hx =>
    cases hanswer
    exact .inr ⟨x, rfl, .refl, hw.transGen hx⟩
  | next hl _ _ ih =>
    rcases ih (hw.link hl) hanswer with ⟨z, hz, hyz, hend⟩ | ⟨z, hz, hyz, hend⟩
    · exact .inl ⟨z, hz, .head hl hyz, hend⟩
    · exact .inr ⟨z, hz, .head hl hyz, hend⟩

theorem root_eq_error {f : Fault} (h : a.root x = .error f) :
    (∃ z, f = .missing z ∧ a.Reaches x z ∧ ¬ a.Has z) ∨
      ∃ z, f = .cycle z ∧ a.Reaches x z ∧ TransGen a.Link z z := by
  obtain ⟨n, -, hfollows⟩ := exists_follows a x
  rw [h] at hfollows
  exact hfollows.error_cases (.start x)

/-- **How a chain ends**, in any arena. -/
theorem leads_or_circles_or_leaves (a : Arena) (x : SlotId) :
    (∃ r, Leads a x r) ∨ a.Circles x ∨ a.Leaves x := by
  cases h : a.root x with
  | ok r => exact .inl ⟨r, root_eq_ok_iff.mp h⟩
  | error f =>
    rcases root_eq_error h with ⟨z, -, hz⟩ | ⟨z, -, hz⟩
    · exact .inr (.inr ⟨z, hz⟩)
    · exact .inr (.inl ⟨z, hz⟩)

end NumCheck.Arena
