import NumCheck.Proofs.ChainEnds
import NumCheck.Proofs.Closure
import NumCheck.Proofs.Confinement

/-!
# Unification changes as little as it can

The arena may hold anything when two slots are unified: circles, links that lead nowhere, slots
without a content. Nothing is known then of the arena as a whole, but both slots have roots if they
can be unified at all, and the only change is that one of these roots, an unknown one, becomes a
link to the other. A chain that ends in a root still does, and a chain that does not never comes to
the slot that has changed. So no circle is closed and none is opened.

A type that a slot has is in a root that is not unknown. No later call changes that root or a slot
on the chain to it, so the type stays for good, whatever the calls are and whichever of them fail.

## What is proved

* `union_of_mark`, `mark_of_unify`: slots can be unified without a change exactly if they are marked
  alike, and this is what unification brings about.
* `ends_iff`, `unify_ends_iff`: chains go on to end in the way in which they did.
* `resolve_unify`, `spans_unify`: types and spans stay.
* `Call.run_keeps`, `Call.runAll_keeps`: what one call keeps, and so do any calls.
* `unify_steady`: all of this for the unification of a check, from any state.
-/

namespace NumCheck.Arena

open Relation (ReflTransGen TransGen)

variable {a b : Arena} {x y z u v : SlotId}

/-! ### Slots that are marked alike -/

/-- Nothing has to be done for slots that are marked alike: they have one root, or roots of the same
type. -/
theorem union_of_mark {m : Mark} (hx : a.mark x = .ok m) (hy : a.mark y = .ok m) :
    a.union x y = .ok .agree := by
  obtain ⟨r, s, hr, hs, hm⟩ := mark_eq_ok hx
  obtain ⟨r', s', hr', hs', hm'⟩ := mark_eq_ok hy
  rw [union_of_leads hr hr' hs hs']
  by_cases hrr : r = r'
  · rw [if_pos hrr]
  · rw [if_neg hrr]
    rw [hm] at hm'
    cases hc : s.content with
    | known t =>
      cases hc' : s'.content with
      | known t' =>
        rw [hc, hc', Mark.ofContent, Mark.ofContent, Mark.ty.injEq] at hm'
        simp [hm']
      | unknown | link _ | absent => simp [hc, hc', Mark.ofContent] at hm'
    | unknown | link _ | absent =>
      -- a mark that is no type names the root itself
      cases hc' : s'.content <;> simp [hc, hc', Mark.ofContent, hrr] at hm'

/-- Slots that have been unified are marked alike. -/
theorem mark_of_unify (h : a.unify x y = .ok b) : ∃ m, b.mark x = .ok m ∧ b.mark y = .ok m := by
  rcases unify_ok_cases h with ⟨rfl, hm⟩ | ⟨u, v, su, hsu, hcu, huv, rfl, hxy⟩
  · exact hm
  · have hv : Leads a v v := by rcases hxy with hxy | hxy <;> exact hxy.2.self
    obtain ⟨sv, hsv, -⟩ := hv.isRoot
    -- what led to `u` now leads to `v`, like what did so before
    have hmark : ∀ z, Leads a z u ∨ Leads a z v →
        (a.setContent u (.link v)).mark z = .ok (.ofContent v sv.content) := by
      intro z hz
      rcases hz with hz | hz
      · rw [mark_setLink hsu hcu hv huv hz, if_pos rfl, mark_of_leads hv hsv]
      · rw [mark_setLink hsu hcu hv huv hz, if_neg huv.symm, mark_of_leads hz hsv]
    rcases hxy with ⟨hx, hy⟩ | ⟨hy, hx⟩
    · exact ⟨_, hmark x (.inl hx), hmark y (.inr hy)⟩
    · exact ⟨_, hmark x (.inr hx), hmark y (.inl hy)⟩

/-! ### Chains end as before -/

theorem size_setContent (a : Arena) (u : SlotId) (c : Content) :
    (a.setContent u c).size = a.size := by
  simp [size, setContent]

theorem has_setContent_iff {c : Content} : (a.setContent u c).Has z ↔ a.Has z := by
  simp only [has_iff, size_setContent]

/-- Chains end in the same way in two arenas with the same slots, if the links of the first are
links of the second and the chains with a root have one in both. -/
theorem ends_iff (hlink : ∀ p q, a.Link p q → b.Link p q) (hhas : ∀ p, b.Has p ↔ a.Has p)
    (hleads : ∀ p r, Leads a p r → ∃ r', Leads b p r') :
    (b.Circles z ↔ a.Circles z) ∧ (b.Leaves z ↔ a.Leaves z) := by
  have hcircles : a.Circles z → b.Circles z := by
    rintro ⟨w, hzw, hw⟩
    exact ⟨w, ReflTransGen.mono hlink _ _ hzw, TransGen.mono hlink _ _ hw⟩
  have hleaves : a.Leaves z → b.Leaves z := by
    rintro ⟨w, hzw, hw⟩
    exact ⟨w, ReflTransGen.mono hlink _ _ hzw, fun h => hw ((hhas w).mp h)⟩
  -- the other ways to end are excluded in `b`, because they are kept
  rcases leads_or_circles_or_leaves a z with ⟨r, hr⟩ | hc | hl
  · obtain ⟨r', hr'⟩ := hleads z r hr
    exact ⟨iff_of_false hr'.not_circles hr.not_circles, iff_of_false hr'.not_leaves hr.not_leaves⟩
  · exact ⟨iff_of_true (hcircles hc) hc, iff_of_false (hcircles hc).not_leaves hc.not_leaves⟩
  · refine ⟨iff_of_false (fun h => ?_) (fun h => ?_), iff_of_true (hleaves hl) hl⟩
    · exact h.not_leaves (hleaves hl)
    · exact h.not_leaves hl

/-- A slot that becomes a link was none before, so no link is lost. -/
theorem Link.setContent {s : Slot} {c : Content} {p q : SlotId} (hu : a.get? u = some s)
    (hs : s.content = .unknown) (h : a.Link p q) : (a.setContent u c).Link p q := by
  obtain ⟨t, ht, hc⟩ := h
  have hpu : p ≠ u := by
    rintro rfl
    rw [hu, Option.some.injEq] at ht
    rw [← ht, hs] at hc
    cases hc
  exact ⟨t, by rw [get?_setContent c hu, if_neg hpu, ht], hc⟩

/-- Unification closes no circle and opens none, and no chain comes to leave the arena or to stay in
it. -/
theorem unify_ends_iff (h : a.unify x y = .ok b) :
    (b.Circles z ↔ a.Circles z) ∧ (b.Leaves z ↔ a.Leaves z) := by
  rcases unify_ok_cases h with ⟨rfl, -⟩ | ⟨u, v, su, hsu, hcu, huv, rfl, hxy⟩
  · exact ⟨.rfl, .rfl⟩
  · have hu : Leads a u u := by rcases hxy with hxy | hxy <;> exact hxy.1.self
    have hv : Leads a v v := by rcases hxy with hxy | hxy <;> exact hxy.2.self
    refine ends_iff (fun p q => Link.setContent hsu hcu) (fun p => has_setContent_iff) ?_
    intro p r hr
    exact ⟨_, hr.setLink hu hv huv⟩

/-! ### What stays -/

/-- `b` is `a` but for slot `u`, which was an unknown root and is a link to another root `v` now. -/
structure Linked (a : Arena) (u v : SlotId) (b : Arena) : Prop where
  /-- The two are different. -/
  ne : u ≠ v
  /-- Slot `u` keeps its span. -/
  changed : ∃ span, a.get? u = some ⟨.unknown, span⟩ ∧ b.get? u = some ⟨.link v, span⟩
  /-- Slot `v` is a root, and stays one. -/
  target : Leads a v v ∧ Leads b v v
  /-- The other slots are as they were. -/
  kept : ∀ z, z ≠ u → b.get? z = a.get? z

theorem linked_setContent {s : Slot} (hu : a.get? u = some s) (hs : s.content = .unknown)
    (huv : u ≠ v) (hv : Leads a v v) : a.Linked u v (a.setContent u (.link v)) := by
  obtain ⟨c, span⟩ := s
  simp only at hs
  subst hs
  have hlu : Leads a u u := .root hu fun t => Content.noConfusion
  have hv' := hv.setLink hlu hv huv
  rw [if_neg huv.symm] at hv'
  refine ⟨huv, ⟨span, hu, ?_⟩, ⟨hv, hv'⟩, ?_⟩
  · rw [get?_setContent _ hu, if_pos rfl]
  · intro z hz
    rw [get?_setContent _ hu, if_neg hz]

/-- The spans of the slots, in order. -/
def spans (a : Arena) : List Span := a.slots.toList.map Slot.span

theorem spans_setContent (a : Arena) (u : SlotId) (c : Content) :
    (a.setContent u c).spans = a.spans := by
  refine List.ext_getElem? fun i => ?_
  simp only [spans, setContent, List.getElem?_map, Array.getElem?_toList, Array.getElem?_modify]
  split <;> simp [Function.comp_def]

theorem spans_unify (h : a.unify x y = .ok b) : b.spans = a.spans := by
  rcases unify_ok_cases h with ⟨rfl, -⟩ | ⟨u, v, su, -, -, -, rfl, -⟩
  · rfl
  · exact spans_setContent a u _

/-- A type that a slot has is not in an unknown root, so it stays. -/
theorem resolve_unify {t : Ty} (h : a.unify x y = .ok b) (hz : a.resolve z = .ok t) :
    b.resolve z = .ok t := by
  rcases unify_ok_cases h with ⟨rfl, -⟩ | ⟨u, v, su, hsu, hcu, huv, rfl, hxy⟩
  · exact hz
  · have hv : Leads a v v := by rcases hxy with hxy | hxy <;> exact hxy.2.self
    obtain ⟨r, s, hl, hs, hc⟩ := resolve_eq_ok_iff.mp hz
    have hru : r ≠ u := by
      rintro rfl
      rw [hsu, Option.some.injEq] at hs
      rw [← hs, hcu] at hc
      cases hc
    rw [← mark_eq_ty_iff, mark_setLink hsu hcu hv huv hl, if_neg hru, mark_eq_ty_iff, hz]

end NumCheck.Arena

namespace NumCheck.Check

open Arena (Leads)

/-! ### Calls -/

/-- The unification of a check answers as that of its arena, and a failure leaves all as it was. -/
theorem unify_cases (x y : SlotId) (s : State) :
    (∃ e, s.arena.unify x y = .error e ∧ unify x y s = .error (.ofArena e) s) ∨
      ∃ s', s.arena.unify x y = .ok s'.arena ∧ unify x y s = .ok () s' := by
  cases hu : s.arena.union x y with
  | error f =>
    refine .inl ⟨.fault f, ?_, ?_⟩
    · simp [Arena.unify, hu]
    · simp [unify, hu, Failure.ofArena]
  | ok u =>
    cases ha : s.arena.apply u with
    | error e => exact .inl ⟨e, by simp [Arena.unify, hu, ha], by simp [unify, hu, ha]⟩
    | ok b =>
      refine .inr ⟨{ s with arena := b, log := s.log ++ (Event.ofUnion? u).toArray }, ?_, ?_⟩
      · simp [Arena.unify, hu, ha]
      · simp [unify, hu, ha]

/-- A call to the arena of a check. -/
inductive Call where
  /-- Make a slot. -/
  | insert (content : Content) (span : Span)
  /-- Unify two slots. -/
  | unify (x y : SlotId)

namespace Call

/-- The state that a call leaves behind, whether it fails or not. -/
def run (s : State) : Call → State
  | .insert content span => stateOf (newSlot content span s)
  | .unify x y => stateOf (Check.unify x y s)

/-- The number of the slot that a call makes, if it makes one. -/
def made (s : State) : Call → List SlotId
  | .insert content span =>
    match newSlot content span s with
    | .ok id _ => [id]
    | .error _ _ => []
  | .unify _ _ => []

/-- The span of the slot that a call makes, if it makes one. -/
def spans : Call → List Span
  | .insert _ span => [span]
  | .unify _ _ => []

/-- The state that calls leave behind, one after the other. -/
def runAll (s : State) (calls : List Call) : State := calls.foldl run s

/-- The numbers of the slots that calls make, in order. -/
def madeAll (s : State) : List Call → List SlotId
  | [] => []
  | call :: rest => call.made s ++ madeAll (call.run s) rest

end Call

/-- What calls keep on the way from state `s` to state `s'`, if they have made slots with the
numbers `ids` and with the spans `new`. -/
structure Keeps (s : State) (ids : List SlotId) (new : List Span) (s' : State) : Prop where
  /-- The slots have got the next numbers, one after the other. -/
  ids : ids = (List.range' (s.arena.size + 1) new.length).map fun n : Nat => (n : Int)
  /-- The spans of all slots stay in their order, and the new ones come after them. -/
  spans : s'.arena.spans = s.arena.spans ++ new
  /-- A slot that has a type keeps it. -/
  types : ∀ z t, s.arena.resolve z = .ok t → s'.arena.resolve z = .ok t

namespace Keeps

variable {s s' s'' : State} {ids ids' : List SlotId} {new new' : List Span}

theorem refl (s : State) : Keeps s [] [] s := ⟨rfl, (List.append_nil _).symm, fun _ _ h => h⟩

theorem size (h : Keeps s ids new s') : s'.arena.size = s.arena.size + new.length := by
  simpa [Arena.spans, Arena.size] using congrArg List.length h.spans

theorem trans (h : Keeps s ids new s') (h' : Keeps s' ids' new' s'') :
    Keeps s (ids ++ ids') (new ++ new') s'' := by
  refine ⟨?_, ?_, ?_⟩
  · rw [h.ids, h'.ids, h.size, List.length_append, ← List.map_append, ← List.range'_append_1,
      Nat.add_right_comm]
  · rw [h'.spans, h.spans, List.append_assoc]
  · intro z t hz
    exact h'.types z t (h.types z t hz)

/-- The numbers of all slots are those from 1 to how many there are. -/
theorem has_iff (h : Keeps s ids new s') (z : Int) :
    s'.arena.Has z ↔ 1 ≤ z ∧ z ≤ s.arena.size + new.length := by
  rw [Arena.has_iff, h.size]
  omega

end Keeps

theorem Call.run_keeps (s : State) (call : Call) :
    Keeps s (call.made s) call.spans (call.run s) := by
  cases call with
  | insert content span =>
    refine ⟨by simp [Call.made, Call.spans, newSlot_apply], ?_, ?_⟩
    · simp [Call.run, Call.spans, newSlot_apply, stateOf, Arena.spans, State.slots_grow]
    · intro z t hz
      refine Arena.resolve_mono (fun id slot hs => ?_) hz
      exact Arena.get?_insert_of_some content span hs
  | unify x y =>
    rcases unify_cases x y s with ⟨e, -, hu⟩ | ⟨s', ha, hu⟩
    · have hrun : (Call.unify x y).run s = s := by simp [Call.run, hu, stateOf]
      rw [hrun]
      exact .refl s
    · have hrun : (Call.unify x y).run s = s' := by simp [Call.run, hu, stateOf]
      rw [hrun]
      refine ⟨rfl, ?_, fun z t => Arena.resolve_unify ha⟩
      rw [Arena.spans_unify ha, Call.spans, List.append_nil]

/-- Any calls keep what each of them keeps. -/
theorem Call.runAll_keeps (s : State) (calls : List Call) :
    Keeps s (Call.madeAll s calls) (calls.flatMap Call.spans) (Call.runAll s calls) := by
  induction calls generalizing s with
  | nil => exact .refl s
  | cons call rest ih => exact (call.run_keeps s).trans (ih (call.run s))

/-! ### From any state -/

/-- What the unification of slots `x` and `y` does to a state. -/
structure Steady (s : State) (x y : SlotId) : Prop where
  /-- If it fails, then nothing changes. -/
  atomic : ∀ f s', unify x y s = .error f s' → s' = s
  /-- At most one slot changes: the root of one of the two, which was unknown, is then a link to the
  root of the other. -/
  minimal : ∀ s', unify x y s = .ok () s' →
    s'.arena = s.arena ∨ ∃ u v, s.arena.Linked u v s'.arena ∧
      (Leads s.arena x u ∧ Leads s.arena y v ∨ Leads s.arena y u ∧ Leads s.arena x v)
  /-- The chains that run into a circle are the same as before. -/
  circles : ∀ z, (stateOf (unify x y s)).arena.Circles z ↔ s.arena.Circles z
  /-- So are those that leave the arena. -/
  leaves : ∀ z, (stateOf (unify x y s)).arena.Leaves z ↔ s.arena.Leaves z
  /-- The same once more, either way round, is done without a change. -/
  again : ∀ s', unify x y s = .ok () s' → unify x y s' = .ok () s' ∧ unify y x s' = .ok () s'

theorem unify_of_mark {s : State} {x y : SlotId} {m : Arena.Mark} (hx : s.arena.mark x = .ok m)
    (hy : s.arena.mark y = .ok m) : unify x y s = .ok () s :=
  unify_agree (Arena.union_of_mark hx hy)

/-- A failure changes nothing. -/
theorem steady_of_error {s : State} {x y : SlotId} {f : Failure} (hu : unify x y s = .error f s) :
    Steady s x y := by
  have hs : stateOf (unify x y s) = s := by rw [hu]; rfl
  refine ⟨?_, ?_, ?_, ?_, ?_⟩
  · intro f' s' h
    cases hu.symm.trans h
    rfl
  · intro s' h
    cases hu.symm.trans h
  · simp [hs]
  · simp [hs]
  · intro s' h
    cases hu.symm.trans h

/-- A success changes what the arena says it does. -/
theorem steady_of_ok {s s' : State} {x y : SlotId} (ha : s.arena.unify x y = .ok s'.arena)
    (hu : unify x y s = .ok () s') : Steady s x y := by
  have hs : stateOf (unify x y s) = s' := by rw [hu]; rfl
  refine ⟨?_, ?_, ?_, ?_, ?_⟩
  · intro f s'' h
    cases hu.symm.trans h
  · intro s'' h
    cases hu.symm.trans h
    rcases Arena.unify_ok_cases ha with ⟨heq, -⟩ | ⟨u, v, su, hsu, hcu, huv, heq, hxy⟩
    · exact .inl heq
    · have hv : Leads s.arena v v := by rcases hxy with hxy | hxy <;> exact hxy.2.self
      refine .inr ⟨u, v, ?_, hxy⟩
      rw [heq]
      exact Arena.linked_setContent hsu hcu huv hv
  · intro z
    rw [hs]
    exact (Arena.unify_ends_iff ha).1
  · intro z
    rw [hs]
    exact (Arena.unify_ends_iff ha).2
  · intro s'' h
    cases hu.symm.trans h
    obtain ⟨m, hx, hy⟩ := Arena.mark_of_unify ha
    exact ⟨unify_of_mark hx hy, unify_of_mark hy hx⟩

/-- **Unification is atomic, minimal and monotone** in any state. Calls of any kind then keep the
numbers and the spans of all slots, and every type that has been found. -/
theorem unify_steady (s : State) :
    (∀ x y, Steady s x y) ∧
    ∀ calls, Keeps s (Call.madeAll s calls) (calls.flatMap Call.spans) (Call.runAll s calls) ∧
      ∀ z : Int, (Call.runAll s calls).arena.Has z ↔
        1 ≤ z ∧ z ≤ s.arena.size + (calls.flatMap Call.spans).length := by
  refine ⟨fun x y => ?_, fun calls => ?_⟩
  · rcases unify_cases x y s with ⟨e, -, hu⟩ | ⟨s', ha, hu⟩
    · exact steady_of_error hu
    · exact steady_of_ok ha hu
  · have h := Call.runAll_keeps s calls
    exact ⟨h, h.has_iff⟩

-- A slot that is a link to itself and one that leads nowhere stay what they are; a slot without a
-- content can be linked to.
example :
    let s : State := { arena := ⟨#[⟨.link 1, ⟨0, 1⟩⟩, ⟨.link 9, ⟨2, 3⟩⟩, ⟨.absent, ⟨4, 5⟩⟩,
      ⟨.unknown, ⟨6, 7⟩⟩]⟩ }
    (Call.runAll s [.unify 1 4, .unify 4 2, .unify 3 4]).arena =
      ⟨#[⟨.link 1, ⟨0, 1⟩⟩, ⟨.link 9, ⟨2, 3⟩⟩, ⟨.absent, ⟨4, 5⟩⟩, ⟨.link 3, ⟨6, 7⟩⟩]⟩ :=
  rfl

end NumCheck.Check
