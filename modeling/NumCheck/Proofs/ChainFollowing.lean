import Mathlib.Logic.Function.Iterate
import Mathlib.Tactic.Choose
import NumCheck.Proofs.ChainEnds

/-!
# Following any chain

The loop that follows a chain ends in every arena, and it has one answer. What the answer is can be
told along the chain. A slot that is not on a circle is never met again, so it has the answer of its
target. From a slot on a circle the loop goes around once and meets that slot first: a return to a
later slot would be a circle that leaves out the slots before it, and all slots of a circle lead to
each other. The fault therefore names the first slot of the chain that is on a circle, and a chain
that leaves the arena is named by the first number that no slot has.

Resolution and unification pass these faults on as they are, unification that of its first slot if
both have one. What they do at the end of a chain with a root is in `Chains`.
-/

namespace NumCheck.Arena

open Relation (ReflTransGen TransGen)

variable {a : Arena} {x y z r : SlotId} {seen : List SlotId} {n : Nat}
  {answer : Except Fault SlotId} {f : Fault}

/-! ### The loop has one answer -/

theorem IsRoot.has (h : a.IsRoot x) : a.Has x := by
  obtain ⟨s, hs, -⟩ := h
  exact ⟨s, hs⟩

theorem Link.not_isRoot (h : a.Link x y) : ¬ a.IsRoot x := by
  obtain ⟨s, hs, hc⟩ := h
  rintro ⟨s', hs', hc'⟩
  rw [hs, Option.some.injEq] at hs'
  exact hc' y (hs' ▸ hc)

/-- The loop can go in one way only. -/
theorem Follows.unique {m : Nat} {answer' : Except Fault SlotId} (h : a.Follows seen x n answer)
    (h' : a.Follows seen x m answer') : m = n ∧ answer' = answer := by
  induction h generalizing m with
  | missing hx =>
    cases h' with
    | missing _ => exact ⟨rfl, rfl⟩
    | root hr => exact absurd hr.has hx
    | again hl _ => exact absurd hl.has hx
    | next hl _ _ => exact absurd hl.has hx
  | root hr =>
    cases h' with
    | missing hx => exact absurd hr.has hx
    | root _ => exact ⟨rfl, rfl⟩
    | again hl _ => exact absurd hr hl.not_isRoot
    | next hl _ _ => exact absurd hr hl.not_isRoot
  | again hl hs =>
    cases h' with
    | missing hx => exact absurd hl.has hx
    | root hr => exact absurd hr hl.not_isRoot
    | again _ _ => exact ⟨rfl, rfl⟩
    | next _ hs' _ => exact absurd hs hs'
  | next hl hs _ ih =>
    cases h' with
    | missing hx => exact absurd hl.has hx
    | root hr => exact absurd hr hl.not_isRoot
    | again _ hs' => exact absurd hs' hs
    | next hl' _ h' =>
      cases hl.unique hl'
      obtain ⟨hm, ha⟩ := ih h'
      exact ⟨congrArg (· + 1) hm, ha⟩

theorem Follows.root_eq (h : a.Follows [] x n answer) : a.root x = answer := by
  obtain ⟨m, -, hroot⟩ := exists_follows a x
  exact (h.unique hroot).2

/-! ### Slots on no circle -/

/-- Slot `x` is on a circle: links lead from it back to it. -/
def OnCircle (a : Arena) (x : SlotId) : Prop := TransGen a.Link x x

/-- Of the slots that have been seen only those matter that the chain can come to. -/
theorem Follows.congr_seen {seen' : List SlotId} (h : a.Follows seen x n answer)
    (hseen : ∀ z, a.Reaches x z → (z ∈ seen ↔ z ∈ seen')) : a.Follows seen' x n answer := by
  induction h generalizing seen' with
  | missing hx => exact .missing hx
  | root hr => exact .root hr
  | again hl hs => exact .again hl ((hseen _ .refl).mp hs)
  | next hl hs _ ih =>
    refine .next hl (fun h => hs ((hseen _ .refl).mpr h)) (ih ?_)
    intro z hz
    rw [List.mem_cons, List.mem_cons, hseen z (.head hl hz)]

/-- A link that is on no circle is not met again, so what is found for it is what is found for its
target. -/
theorem Link.root_eq (h : a.Link x y) (hx : ¬ a.OnCircle x) : a.root x = a.root y := by
  obtain ⟨n, -, hy⟩ := exists_follows a y
  have hseen : ∀ z, a.Reaches y z → (z ∈ [] ↔ z ∈ [x]) := by
    intro z hyz
    have hzx : z ≠ x := by
      rintro rfl
      exact hx (.head' h hyz)
    simp [hzx]
  exact (Follows.next h (List.not_mem_nil) (hy.congr_seen hseen)).root_eq

/-! ### Slots on a circle -/

/-- A walk can as well start at a slot that it comes through. -/
theorem Walk.restart {front back : List SlotId} (h : Walk a (front ++ y :: back) z) :
    Walk a (front ++ [y]) z := by
  induction front generalizing z with
  | nil =>
    cases h with
    | step _ hs hc => exact .step (.start y) hs hc
  | cons w front ih =>
    cases h with
    | step h hs hc => exact .step (ih h) hs hc

/-- A walk that has come back to one of its slots goes on in these slots. -/
theorem Walk.mem_of_reaches (h : Walk a seen x) (hx : x ∈ seen) (hxz : a.Reaches x z) :
    z ∈ seen := by
  induction hxz with
  | refl => exact hx
  | tail _ hl ih =>
    obtain ⟨s, hs, hc⟩ := hl
    rcases List.mem_cons.mp (h.mem_next ih hs hc) with rfl | hz
    · exact hx
    · exact hz

/-- The first slot that a walk comes back to is the one where it started, if the chain comes to that
slot again. -/
theorem Walk.eq_start {later : List SlotId} (h : Walk a (later ++ [x]) y)
    (hn : (later ++ [x]).Nodup) (hy : y ∈ later ++ [x]) (hyx : a.Reaches y x) : y = x := by
  rcases List.mem_append.mp hy with hy | hy
  · -- the walk from `y` back to `y` comes to slots after `x` only, and can never leave them
    obtain ⟨front, back, rfl⟩ := List.append_of_mem hy
    rw [List.append_assoc, List.cons_append] at h
    have hx : x ∈ front ++ [y] := h.restart.mem_of_reaches (by simp) hyx
    have hx' : x ∈ front ++ y :: back := by
      rcases List.mem_append.mp hx with hx | hx
      · exact List.mem_append_left _ hx
      · rwa [List.mem_singleton.mp hx]
    exact absurd rfl ((List.nodup_append.mp hn).2.2 x hx' x (List.mem_singleton_self x))
  · exact List.mem_singleton.mp hy

/-- All slots that are reached from a circle lead back to it. -/
theorem OnCircle.reaches (hx : a.OnCircle x) (hxy : a.Reaches x y) : a.Reaches y x := by
  induction hxy with
  | refl => exact .refl
  | tail _ hl ih =>
    rcases ReflTransGen.cases_head ih with rfl | ⟨w, hw, hwx⟩
    · obtain ⟨w, hw, hwx⟩ := TransGen.head'_iff.mp hx
      exact hl.unique hw ▸ hwx
    · exact hl.unique hw ▸ hwx

theorem OnCircle.exists_link (hx : a.OnCircle x) (hxy : a.Reaches x y) : ∃ z, a.Link y z :=
  Circles.exists_link (Circles.of_reaches ⟨x, .refl, hx⟩ hxy)

/-- Once around a circle: the loop ends with the slot where it started. -/
theorem Follows.eq_cycle {later : List SlotId} (hx : a.OnCircle x)
    (h : a.Follows (later ++ [x]) y n answer) (hw : Walk a (later ++ [x]) y)
    (hn : (later ++ [x]).Nodup) : answer = .error (.cycle x) := by
  generalize htrail : later ++ [x] = trail at h
  induction h generalizing later with
  | missing hy =>
    obtain ⟨z, hl⟩ := hx.exists_link (hw.transGen (by simp)).to_reflTransGen
    exact absurd hl.has hy
  | root hr =>
    obtain ⟨z, hl⟩ := hx.exists_link (hw.transGen (by simp)).to_reflTransGen
    exact absurd hr hl.not_isRoot
  | again hl hs =>
    subst htrail
    have hback := hx.reaches (hw.transGen (by simp)).to_reflTransGen
    rw [hw.eq_start hn hs hback]
  | @next _ y z _ _ hl hs _ ih =>
    subst htrail
    have hw' : Walk a ((y :: later) ++ [x]) z := hw.link hl
    exact ih hw' (List.nodup_cons.mpr ⟨hs, hn⟩) rfl

/-- A slot on a circle is met again before any other slot is. -/
theorem root_of_onCircle (hx : a.OnCircle x) : a.root x = .error (.cycle x) := by
  obtain ⟨y, hl, -⟩ := TransGen.head'_iff.mp hx
  have hw : Walk a ([] ++ [x]) y := (Walk.start x).link hl
  have hn : ([] ++ [x]).Nodup := by simp
  obtain ⟨n, -, hfollows⟩ := follow_follows hw hn rfl
  rw [← hfollows.eq_cycle hx hw hn]
  exact (Follows.next hl List.not_mem_nil hfollows).root_eq

/-! ### The first of a kind on a chain -/

/-- Of the numbers on the chain of a slot, the first that is `p`. -/
inductive First (a : Arena) (p : SlotId → Prop) : SlotId → SlotId → Prop where
  /-- The chain starts with it. -/
  | here {x : SlotId} : p x → First a p x x
  /-- The chain starts with a link that is not `p`. -/
  | later {x y z : SlotId} : ¬ p x → a.Link x y → First a p y z → First a p x z

/-- There is a first one exactly if there is one. -/
theorem exists_first_iff {p : SlotId → Prop} :
    (∃ z, a.First p x z) ↔ ∃ z, a.Reaches x z ∧ p z := by
  constructor
  · rintro ⟨z, h⟩
    induction h with
    | @here x hx => exact ⟨x, .refl, hx⟩
    | later _ hl _ ih =>
      obtain ⟨z, hyz, hz⟩ := ih
      exact ⟨z, .head hl hyz, hz⟩
  · rintro ⟨z, hxz, hz⟩
    induction hxz using ReflTransGen.head_induction_on with
    | refl => exact ⟨z, .here hz⟩
    | @head x y hl _ ih =>
      by_cases hx : p x
      · exact ⟨x, .here hx⟩
      · obtain ⟨w, hw⟩ := ih
        exact ⟨w, .later hx hl hw⟩

theorem leaves_iff_exists_first : a.Leaves x ↔ ∃ z, a.First (fun z => ¬ a.Has z) x z :=
  exists_first_iff.symm

theorem circles_iff_exists_first : a.Circles x ↔ ∃ z, a.First a.OnCircle x z :=
  exists_first_iff.symm

/-- A chain that leaves the arena is named by the first number that no slot has. -/
theorem First.root_missing (h : a.First (fun z => ¬ a.Has z) x z) :
    a.root x = .error (.missing z) := by
  induction h with
  | here hx => exact (Follows.missing hx).root_eq
  | @later x y z hx hl hyz ih =>
    have hleaves : a.Leaves x := leaves_iff_exists_first.mpr ⟨z, .later hx hl hyz⟩
    have hcircle : ¬ a.OnCircle x := fun h => Circles.not_leaves ⟨x, .refl, h⟩ hleaves
    exact (hl.root_eq hcircle).trans ih

/-- A chain that runs into a circle is named by the first slot of it that is on a circle. -/
theorem First.root_cycle (h : a.First a.OnCircle x z) : a.root x = .error (.cycle z) := by
  induction h with
  | here hx => exact root_of_onCircle hx
  | later hx hl _ ih => exact (hl.root_eq hx).trans ih

theorem root_eq_missing_iff :
    a.root x = .error (.missing z) ↔ a.First (fun z => ¬ a.Has z) x z := by
  refine ⟨fun h => ?_, First.root_missing⟩
  rcases root_eq_error h with ⟨w, -, hw⟩ | ⟨w, hzw, -⟩
  · obtain ⟨z', hfirst⟩ := leaves_iff_exists_first.mp ⟨w, hw⟩
    rw [hfirst.root_missing, Except.error.injEq, Fault.missing.injEq] at h
    exact h ▸ hfirst
  · cases hzw

theorem root_eq_cycle_iff : a.root x = .error (.cycle z) ↔ a.First a.OnCircle x z := by
  refine ⟨fun h => ?_, First.root_cycle⟩
  rcases root_eq_error h with ⟨w, hzw, -⟩ | ⟨w, -, hw⟩
  · cases hzw
  · obtain ⟨z', hfirst⟩ := circles_iff_exists_first.mp ⟨w, hw⟩
    rw [hfirst.root_cycle, Except.error.injEq, Fault.cycle.injEq] at h
    exact h ▸ hfirst

/-- The root is the one slot on the chain that is no link. -/
theorem leads_iff : Leads a x r ↔ a.Reaches x r ∧ a.IsRoot r := by
  constructor
  · intro h
    refine ⟨?_, h.isRoot⟩
    induction h with
    | root _ _ => exact .refl
    | link hs hc _ ih => exact .head ⟨_, hs, hc⟩ ih
  · rintro ⟨hxr, s, hs, hc⟩
    induction hxr using ReflTransGen.head_induction_on with
    | refl => exact .root hs hc
    | head hl _ ih =>
      obtain ⟨s', hs', hc'⟩ := hl
      exact .link hs' hc' ih

theorem root_eq_ok_iff_unique :
    a.root x = .ok r ↔ ∀ z, a.Reaches x z ∧ a.IsRoot z ↔ z = r := by
  rw [root_eq_ok_iff]
  constructor
  · intro h z
    rw [← leads_iff]
    exact ⟨fun hz => hz.unique h, fun hz => hz ▸ h⟩
  · intro h
    exact leads_iff.mpr ((h r).mpr rfl)

/-! ### Chains without an end -/

/-- The chain of slot `x` has no end. -/
def Endless (a : Arena) (x : SlotId) : Prop :=
  ∃ chain : Nat → SlotId, chain 0 = x ∧ ∀ n, a.Link (chain n) (chain (n + 1))

/-- Wherever a chain without an end comes to, it goes on. -/
theorem Endless.exists_link (h : a.Endless x) (hxy : a.Reaches x y) : ∃ z, a.Link y z := by
  obtain ⟨chain, rfl, hchain⟩ := h
  suffices hy : ∃ n, y = chain n by
    obtain ⟨n, rfl⟩ := hy
    exact ⟨_, hchain n⟩
  induction hxy with
  | refl => exact ⟨0, rfl⟩
  | tail _ hl ih =>
    obtain ⟨n, rfl⟩ := ih
    exact ⟨n + 1, hl.unique (hchain n)⟩

theorem Circles.endless (h : a.Circles x) : a.Endless x := by
  -- the slots whose chains run into a circle have their targets among themselves
  have hnext : ∀ y : { y // a.Circles y }, ∃ z : { z // a.Circles z }, a.Link y z := by
    rintro ⟨y, hy⟩
    obtain ⟨z, hl⟩ := hy.exists_link
    exact ⟨⟨z, hl.circles_iff.mp hy⟩, hl⟩
  choose next hlink using hnext
  refine ⟨fun n => (next^[n] ⟨x, h⟩).val, rfl, fun n => ?_⟩
  simp only [Function.iterate_succ_apply']
  exact hlink _

/-- A chain without an end runs into a circle, because it can end in no other way. -/
theorem circles_iff_endless : a.Circles x ↔ a.Endless x := by
  refine ⟨Circles.endless, fun h => ?_⟩
  rcases leads_or_circles_or_leaves a x with ⟨r, hr⟩ | hc | ⟨z, hxz, hz⟩
  · obtain ⟨hxr, hroot⟩ := leads_iff.mp hr
    obtain ⟨y, hl⟩ := h.exists_link hxr
    exact absurd hroot hl.not_isRoot
  · exact hc
  · obtain ⟨y, hl⟩ := h.exists_link hxz
    exact absurd hl.has hz

/-! ### Resolution and unification -/

theorem resolve_of_root_eq_error (h : a.root x = .error f) : a.resolve x = .error (.fault f) := by
  rw [resolve, rootContent, h]
  cases hx : a.get? x with
  | none =>
    have hmissing : a.root x = .error (.missing x) :=
      (First.here (p := fun z => ¬ a.Has z) (by simp [Has, hx])).root_missing
    rw [h, Except.error.injEq] at hmissing
    rw [slot, hx, hmissing]
  | some s =>
    rw [slot_of_get? hx]
    rfl

/-- A slot cannot be resolved for a fault exactly if its chain has one. -/
theorem resolve_eq_fault_iff : a.resolve x = .error (.fault f) ↔ a.root x = .error f := by
  refine ⟨fun h => ?_, resolve_of_root_eq_error⟩
  cases hx : a.root x with
  | error g =>
    rw [resolve_of_root_eq_error hx, Except.error.injEq, Error.fault.injEq] at h
    rw [h]
  | ok r =>
    have hl := root_eq_ok_iff.mp hx
    obtain ⟨s, hs⟩ := hl.has
    obtain ⟨s', hs', -⟩ := hl.isRoot
    rw [resolve_of_leads hl hs hs'] at h
    split at h <;> cases h

/-- Slots that both have roots are not refused for a fault of their chains. -/
theorem incompatible_of_unify {r' : SlotId} (hx : Leads a x r) (hy : Leads a y r')
    (h : a.unify x y = .error (.fault f)) : ∃ c d, f = .incompatible c d := by
  obtain ⟨s, hs, -⟩ := hx.isRoot
  obtain ⟨s', hs', -⟩ := hy.isRoot
  rw [unify_of_leads hx hy hs hs'] at h
  split at h
  · cases h
  · split at h
    · cases h
    · cases h
    · split at h <;> cases h
    · cases h
      exact ⟨_, _, rfl⟩

/-- Two slots cannot be unified for a fault of a chain exactly if the chain of the first has it, or
the first has a root and the chain of the second has it. -/
theorem unify_eq_fault_iff (hf : ∀ c d, f ≠ .incompatible c d) :
    a.unify x y = .error (.fault f) ↔
      a.root x = .error f ∨ (∃ r, a.root x = .ok r) ∧ a.root y = .error f := by
  cases hx : a.root x with
  | error g =>
    have hunify : a.unify x y = .error (.fault g) := by
      rw [unify, union, hx]
      rfl
    simp [hunify]
  | ok r =>
    cases hy : a.root y with
    | error g =>
      have hunify : a.unify x y = .error (.fault g) := by
        rw [unify, union, hx, hy]
        rfl
      simp [hunify]
    | ok r' =>
      have hunify : a.unify x y ≠ .error (.fault f) := by
        intro h
        obtain ⟨c, d, hcd⟩ := incompatible_of_unify (root_eq_ok_iff.mp hx) (root_eq_ok_iff.mp hy) h
        exact hf c d hcd
      simp [hunify]

/-! ### All chains of an arena -/

/-- The arena follows every chain to its end, or says why it has none. -/
structure ClassifiesChains (a : Arena) : Prop where
  /-- The loop has one run from each slot. It takes one round for each slot at most and one more,
  and the answer is the root or the fault of the slot. -/
  ends : ∀ x, ∃ n ≤ a.size + 1, ∀ m answer, a.Follows [] x m answer ↔ m = n ∧ answer = a.root x
  /-- The root is the one slot on the chain that is no link. -/
  root_iff : ∀ x r, a.root x = .ok r ↔ ∀ z, a.Reaches x z ∧ a.IsRoot z ↔ z = r
  /-- A number is missing exactly if the chain leaves the arena. -/
  exists_missing_iff : ∀ x, (∃ z, a.root x = .error (.missing z)) ↔ a.Leaves x
  /-- It is the first number on the chain that no slot has. -/
  missing_iff : ∀ x z, a.root x = .error (.missing z) ↔ a.First (fun z => ¬ a.Has z) x z
  /-- There is a cycle exactly if the chain has no end. -/
  exists_cycle_iff : ∀ x, (∃ z, a.root x = .error (.cycle z)) ↔ a.Endless x
  /-- It is named by the first slot on the chain that is on a circle. -/
  cycle_iff : ∀ x z, a.root x = .error (.cycle z) ↔ a.First a.OnCircle x z
  /-- The texts say which number or slot it is. -/
  message : ∀ typeText z, (Fault.missing z).message typeText = toString z ∧
    (Fault.cycle z).message typeText = "reference cycle through slot #" ++ toString z
  /-- Resolution has the faults of its chain and no others. -/
  resolve_iff : ∀ x f, a.resolve x = .error (.fault f) ↔ a.root x = .error f
  /-- Unification has the faults of its two chains, those of the first one first. -/
  unify_missing_iff : ∀ x y z, a.unify x y = .error (.fault (.missing z)) ↔
    a.root x = .error (.missing z) ∨ (∃ r, a.root x = .ok r) ∧ a.root y = .error (.missing z)
  /-- The same for cycles. -/
  unify_cycle_iff : ∀ x y z, a.unify x y = .error (.fault (.cycle z)) ↔
    a.root x = .error (.cycle z) ∨ (∃ r, a.root x = .ok r) ∧ a.root y = .error (.cycle z)

/-- **Every chain is followed to its end or found to have none**, whatever the arena holds. -/
theorem classifiesChains (a : Arena) : a.ClassifiesChains where
  ends x := by
    obtain ⟨n, hn, hfollows⟩ := exists_follows a x
    refine ⟨n, hn, fun m answer => ⟨fun h => hfollows.unique h, ?_⟩⟩
    rintro ⟨rfl, rfl⟩
    exact hfollows
  root_iff _ _ := root_eq_ok_iff_unique
  exists_missing_iff x := by simp only [root_eq_missing_iff, leaves_iff_exists_first]
  missing_iff _ _ := root_eq_missing_iff
  exists_cycle_iff x := by
    simp only [root_eq_cycle_iff, ← circles_iff_exists_first, circles_iff_endless]
  cycle_iff _ _ := root_eq_cycle_iff
  message _ _ := ⟨rfl, rfl⟩
  resolve_iff _ _ := resolve_eq_fault_iff
  unify_missing_iff _ _ _ := unify_eq_fault_iff (by simp)
  unify_cycle_iff _ _ _ := unify_eq_fault_iff (by simp)

-- The chain of slot 1 comes to slot 2 before the circle of 3 and 4; that of slot 5 leaves at -7.
example :
    let slot (c : Content) : Slot := ⟨c, ⟨0, 1⟩⟩
    let a : Arena :=
      ⟨#[slot (.link 2), slot (.link 3), slot (.link 4), slot (.link 3), slot (.link (-7)),
        slot .absent, slot (.link 6)]⟩
    (List.range 8).map (fun n => a.root (n + 1 : Nat)) =
      [.error (.cycle 3), .error (.cycle 3), .error (.cycle 3), .error (.cycle 4),
        .error (.missing (-7)), .ok 6, .ok 6, .error (.missing 8)] := by
  rfl

end NumCheck.Arena
