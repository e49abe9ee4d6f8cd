import Mathlib.Logic.Relation
import NumCheck.Proofs.Chains

/-!
# The arena closes its constraints

Every call to an arena states that some slots have one type: a slot that is made as a link has
the type of its target, and slots that are unified have the same type. `Same` is the least
equivalence that follows from the calls so far. This module shows that the arena answers as
that equivalence says, after any sequence of calls.

## The model

A `History` is an arena together with the events of the calls that made it, from an empty one
on. A call may make a slot that is unknown, that has a type, or that is a link to a slot which
is there already; and it may unify any two slots that are there. A unification that fails is an
event like any other, and leaves the arena as it was.

The chains of links do not tell by themselves which slots have the same type, because two roots
with equal types are never linked. What slots of one class do share is their *mark*: the type
in the root, or the root itself as long as it has no type.
-/

namespace NumCheck.Arena

variable {a b : Arena} {x y r : SlotId} {s : Slot}

/-! ### Histories -/

/-- What a call to an arena came to. -/
inductive Event where
  /-- Slot `id` was made. -/
  | inserted (id : SlotId) (slot : Slot)
  /-- Slots `x` and `y` were unified. -/
  | unified (x y : SlotId)
  /-- Slots `x` and `y` could not be unified. -/
  | refused (x y : SlotId) (e : Error)

/-- A slot can be made with the content: it is not absent, and if it is a link then the target
is there. -/
def Accepts (a : Arena) : Content → Prop
  | .unknown | .known _ => True
  | .link y => a.Has y
  | .absent => False

/-- The arena is made from an empty one by calls that came to `events`, the latest first. -/
inductive History : Arena → List Event → Prop where
  /-- No call has been made. -/
  | fresh : History {} []
  /-- A slot is made. -/
  | insert {a : Arena} {events : List Event} {c : Content} (span : Span) :
      History a events → a.Accepts c →
        History (a.insert c span).2 (.inserted (a.insert c span).1 ⟨c, span⟩ :: events)
  /-- Two slots are unified. -/
  | unify {a b : Arena} {events : List Event} {x y : SlotId} :
      History a events → a.Has x → a.Has y → a.unify x y = .ok b →
        History b (.unified x y :: events)
  /-- Two slots are not unified. -/
  | refuse {a : Arena} {events : List Event} {x y : SlotId} {e : Error} :
      History a events → a.Has x → a.Has y → a.unify x y = .error e →
        History a (.refused x y e :: events)

/-- A call has stated that slots `x` and `y` have one type. -/
def Joined (events : List Event) (x y : SlotId) : Prop :=
  (∃ span, .inserted x ⟨.link y, span⟩ ∈ events) ∨ .unified x y ∈ events

/-- It follows from the calls that slots `x` and `y` have one type. -/
def Same (events : List Event) : SlotId → SlotId → Prop := Relation.EqvGen (Joined events)

theorem Same.cons {events : List Event} (e : Event) (h : Same events x y) :
    Same (e :: events) x y := by
  refine Relation.EqvGen.mono (fun x y hxy => ?_) _ _ h
  rcases hxy with ⟨span, hxy⟩ | hxy
  · exact .inl ⟨span, List.mem_cons_of_mem _ hxy⟩
  · exact .inr (List.mem_cons_of_mem _ hxy)

/-- What the latest call can have joined. -/
theorem Joined.cons_cases {events : List Event} {e : Event} (h : Joined (e :: events) x y) :
    (∃ span, e = .inserted x ⟨.link y, span⟩) ∨ e = .unified x y ∨ Joined events x y := by
  rcases h with ⟨span, h⟩ | h
  · rcases List.mem_cons.mp h with heq | h
    · exact .inl ⟨span, heq.symm⟩
    · exact .inr (.inr (.inl ⟨span, h⟩))
  · rcases List.mem_cons.mp h with heq | h
    · exact .inr (.inl heq.symm)
    · exact .inr (.inr (.inr h))

/-! ### Marks -/

/-- What the slots of one class have in common. -/
inductive Mark where
  /-- Their type. -/
  | ty (t : Ty)
  /-- Their root, which has no type. -/
  | root (r : SlotId)

/-- The mark of the slots whose root is slot `r` and holds a content. -/
def Mark.ofContent (r : SlotId) : Content → Mark
  | .known t => .ty t
  | _ => .root r

/-- The mark of slot `x`. -/
def mark (a : Arena) (x : SlotId) : Except Fault Mark := do
  let r ← a.root x
  return .ofContent r (← a.slot r).content

theorem mark_of_leads (h : Leads a x r) (hs : a.get? r = some s) :
    a.mark x = .ok (.ofContent r s.content) := by
  rw [mark, root_eq_ok_iff.mpr h]
  simp only [bind, Except.bind, pure, Except.pure, slot_of_get? hs]

theorem mark_eq_ok {m : Mark} (h : a.mark x = .ok m) :
    ∃ r s, Leads a x r ∧ a.get? r = some s ∧ m = .ofContent r s.content := by
  cases hr : a.root x with
  | error f =>
    rw [mark, hr] at h
    cases h
  | ok r =>
    have hl := root_eq_ok_iff.mp hr
    obtain ⟨s, hs, -⟩ := hl.isRoot
    rw [mark_of_leads hl hs, Except.ok.injEq] at h
    exact ⟨r, s, hl, hs, h.symm⟩

/-- The slots with a type are those that are marked by it. -/
theorem mark_eq_ty_iff {t : Ty} : a.mark x = .ok (.ty t) ↔ a.resolve x = .ok t := by
  rw [resolve_eq_ok_iff]
  constructor
  · intro h
    obtain ⟨r, s, hl, hs, hm⟩ := mark_eq_ok h
    cases hc : s.content with
    | known u =>
      rw [hc, Mark.ofContent, Mark.ty.injEq] at hm
      exact ⟨r, s, hl, hs, hm ▸ hc⟩
    | unknown => simp [hc, Mark.ofContent] at hm
    | link _ => simp [hc, Mark.ofContent] at hm
    | absent => simp [hc, Mark.ofContent] at hm
  · rintro ⟨r, s, hl, hs, hc⟩
    rw [mark_of_leads hl hs, hc, Mark.ofContent]

/-- Marks stay when slots are added. -/
theorem mark_mono (hab : ∀ id s, a.get? id = some s → b.get? id = some s) (h : Leads a x r) :
    b.mark x = a.mark x := by
  obtain ⟨s, hs, -⟩ := h.isRoot
  rw [mark_of_leads h hs, mark_of_leads (h.mono hab) (hab _ _ hs)]

/-- Linking an unknown root `u` to another root `v` gives the mark of `v` to the slots that had
the root `u`, and to no others. -/
theorem mark_setLink {u v : SlotId} {su : Slot} (hu : a.get? u = some su)
    (hcu : su.content = .unknown) (hv : Leads a v v) (huv : u ≠ v) (h : Leads a x r) :
    (a.setContent u (.link v)).mark x = if r = u then a.mark v else a.mark x := by
  have hlu : Leads a u u := .root hu (by rw [hcu]; exact fun t => Content.noConfusion)
  have hl := h.setLink hlu hv huv
  by_cases hru : r = u
  · obtain ⟨sv, hsv, -⟩ := hv.isRoot
    rw [if_pos hru] at hl ⊢
    rw [mark_of_leads hv hsv,
      mark_of_leads hl (by rw [get?_setContent _ hu, if_neg huv.symm, hsv])]
  · obtain ⟨s, hs, -⟩ := h.isRoot
    rw [if_neg hru] at hl ⊢
    rw [mark_of_leads h hs, mark_of_leads hl (by rw [get?_setContent _ hu, if_neg hru, hs])]

/-- The slots that are marked by an unknown root are those that lead to it. -/
theorem leads_of_mark_eq {u : SlotId} {su : Slot} (hu : a.get? u = some su)
    (hcu : su.content = .unknown) (h : Leads a x u) (hxy : a.mark x = a.mark y) :
    Leads a y u := by
  rw [mark_of_leads h hu, hcu] at hxy
  obtain ⟨r, s, hl, hs, hm⟩ := mark_eq_ok hxy.symm
  cases hc : s.content with
  | known t => simp [hc, Mark.ofContent] at hm
  | unknown | link _ | absent =>
    simp only [hc, Mark.ofContent, Mark.root.injEq] at hm
    exact hm ▸ hl

/-- Slots of one mark keep one mark when an unknown root is linked to another root. -/
theorem mark_setLink_congr {u v : SlotId} {su : Slot} (hu : a.get? u = some su)
    (hcu : su.content = .unknown) (hv : Leads a v v) (huv : u ≠ v) {r' : SlotId}
    (hx : Leads a x r) (hy : Leads a y r') (hxy : a.mark x = a.mark y) :
    (a.setContent u (.link v)).mark x = (a.setContent u (.link v)).mark y := by
  rw [mark_setLink hu hcu hv huv hx, mark_setLink hu hcu hv huv hy]
  by_cases hru : r = u
  · subst hru
    rw [if_pos rfl, if_pos (hy.unique (leads_of_mark_eq hu hcu hx hxy))]
  · by_cases hru' : r' = u
    · subst hru'
      exact absurd (hx.unique (leads_of_mark_eq hu hcu hy hxy.symm)) hru
    · rw [if_neg hru, if_neg hru', hxy]

/-! ### Unification and marks -/

/-- Slots that can be unified have roots. -/
theorem exists_leads_of_unify (h : a.unify x y = .ok b) : ∃ r r', Leads a x r ∧ Leads a y r' := by
  cases hx : a.root x with
  | error f => simp [unify, union, hx, bind, Except.bind] at h
  | ok r =>
    cases hy : a.root y with
    | error f => simp [unify, union, hx, hy, bind, Except.bind] at h
    | ok r' => exact ⟨r, r', root_eq_ok_iff.mp hx, root_eq_ok_iff.mp hy⟩

/-- Slots that are unified have one mark already, or the root of one of them is unknown and is
linked to the root of the other. -/
theorem unify_ok_cases (h : a.unify x y = .ok b) :
    (b = a ∧ ∃ m, a.mark x = .ok m ∧ a.mark y = .ok m) ∨
      ∃ u v su, a.get? u = some su ∧ su.content = .unknown ∧ u ≠ v ∧
        b = a.setContent u (.link v) ∧ (Leads a x u ∧ Leads a y v ∨ Leads a y u ∧ Leads a x v) := by
  obtain ⟨r, r', hr, hr'⟩ := exists_leads_of_unify h
  obtain ⟨s, hs, -⟩ := hr.isRoot
  obtain ⟨s', hs', -⟩ := hr'.isRoot
  rw [unify_of_leads hr hr' hs hs'] at h
  by_cases hrr : r = r'
  · rw [if_pos hrr, Except.ok.injEq] at h
    subst hrr
    exact .inl ⟨h.symm, _, mark_of_leads hr hs, mark_of_leads hr' hs⟩
  · rw [if_neg hrr] at h
    split at h
    · next hc =>
      cases h
      exact .inr ⟨r, r', s, hs, hc, hrr, rfl, .inl ⟨hr, hr'⟩⟩
    · next hc _ =>
      cases h
      exact .inr ⟨r', r, s', hs', hc, Ne.symm hrr, rfl, .inr ⟨hr', hr⟩⟩
    · next t u hc hc' =>
      split at h
      · next htu =>
        cases h
        refine .inl ⟨rfl, .ty t, ?_, ?_⟩
        · rw [mark_of_leads hr hs, hc, Mark.ofContent]
        · rw [mark_of_leads hr' hs', hc', Mark.ofContent, htu]
      · cases h
    · cases h

/-! ### The invariant -/

/-- The arena agrees with the events that made it. -/
structure Agrees (a : Arena) (events : List Event) : Prop where
  /-- Every chain ends in a root. -/
  grounded : ∀ x, a.Has x → ∃ r, Leads a x r
  /-- No slot is without a content. -/
  present : ∀ x s, a.get? x = some s → s.content ≠ .absent
  /-- Every slot was made by a call. -/
  origin : ∀ x s, a.get? x = some s → ∃ s₀, .inserted x s₀ ∈ events
  /-- A slot that was made is as it was, or was unknown and is a link now. -/
  kept : ∀ x s₀, .inserted x s₀ ∈ events →
    ∃ s, a.get? x = some s ∧ s.span = s₀.span ∧
      (s.content = s₀.content ∨ s₀.content = .unknown ∧ ∃ y, s.content = .link y)
  /-- Links follow from the calls. -/
  linked : ∀ x s y, a.get? x = some s → s.content = .link y → Same events x y
  /-- What a call has joined is there and has one mark. -/
  joined : ∀ x y, Joined events x y → a.Has x ∧ a.Has y ∧ a.mark x = a.mark y
  /-- Slots were refused only because of their types. -/
  mismatched : ∀ x y e, .refused x y e ∈ events → ∃ first second, e = .mismatch first second

namespace Agrees

variable {events : List Event}

theorem same_of_leads (h : Agrees a events) (hl : Leads a x r) : Same events x r := by
  induction hl with
  | root _ _ => exact .refl _
  | link hs hc _ ih => exact .trans _ _ _ (h.linked _ _ _ hs hc) ih

/-- The slots of one class have one mark. -/
theorem mark_eq_of_same (h : Agrees a events) (hxy : Same events x y) : a.mark x = a.mark y := by
  induction hxy with
  | rel x y hxy => exact (h.joined x y hxy).2.2
  | refl x => rfl
  | symm x y _ ih => exact ih.symm
  | trans x y z _ _ ih₁ ih₂ => exact ih₁.trans ih₂

/-- The slots that were made with a type are those that hold one. -/
theorem inserted_known_iff (h : Agrees a events) {t : Ty} {span : Span} :
    .inserted x ⟨.known t, span⟩ ∈ events ↔ a.get? x = some ⟨.known t, span⟩ := by
  constructor
  · intro hx
    obtain ⟨⟨c, sp⟩, hs, hspan, hc | ⟨hc, -⟩⟩ := h.kept _ _ hx
    · rw [hs]
      simp only at hspan hc
      rw [hspan, hc]
    · simp at hc
  · intro hx
    obtain ⟨⟨c, sp⟩, h₀⟩ := h.origin _ _ hx
    obtain ⟨s, hs, hspan, hc⟩ := h.kept _ _ h₀
    rw [hx, Option.some.injEq] at hs
    subst hs
    rcases hc with hc | ⟨-, y, hc⟩
    · simp only at hspan hc
      rw [hspan, hc]
      exact h₀
    · simp at hc

/-! ### Every call keeps it -/

theorem fresh : Agrees {} [] where
  grounded x hx := by
    obtain ⟨s, hs⟩ := hx
    simp [get?] at hs
  present x s hs := by simp [get?] at hs
  origin x s hs := by simp [get?] at hs
  kept x s₀ hx := by simp at hx
  linked x s y hs _ := by simp [get?] at hs
  joined x y hxy := by simp [Joined] at hxy
  mismatched x y e he := by simp at he

theorem insert (h : Agrees a events) {c : Content} (span : Span) (hc : a.Accepts c) :
    Agrees (a.insert c span).2 (.inserted (a.insert c span).1 ⟨c, span⟩ :: events) := by
  have hab : ∀ id s, a.get? id = some s → (a.insert c span).2.get? id = some s :=
    fun _ _ => get?_insert_of_some c span
  have hnew : (a.insert c span).2.get? (a.insert c span).1 = some ⟨c, span⟩ := by
    rw [get?_insert, insert_fst, if_pos rfl]
  refine ⟨?_, ?_, ?_, ?_, ?_, ?_, ?_⟩
  · rintro x ⟨s, hs⟩
    rcases get?_insert_cases hs with ⟨rfl, rfl⟩ | hs
    · cases c with
      | unknown => exact ⟨_, .root hnew fun t => Content.noConfusion⟩
      | known t => exact ⟨_, .root hnew fun t => Content.noConfusion⟩
      | link y =>
        obtain ⟨r, hr⟩ := h.grounded y hc
        exact ⟨r, .link hnew rfl (hr.mono hab)⟩
      | absent => exact hc.elim
    · obtain ⟨r, hr⟩ := h.grounded x ⟨s, hs⟩
      exact ⟨r, hr.mono hab⟩
  · intro x s hs
    rcases get?_insert_cases hs with ⟨-, rfl⟩ | hs
    · rintro rfl
      exact hc
    · exact h.present x s hs
  · intro x s hs
    rcases get?_insert_cases hs with ⟨rfl, -⟩ | hs
    · exact ⟨_, List.mem_cons_self⟩
    · obtain ⟨s₀, h₀⟩ := h.origin x s hs
      exact ⟨s₀, List.mem_cons_of_mem _ h₀⟩
  · intro x s₀ hx
    rcases List.mem_cons.mp hx with heq | hx
    · rw [Event.inserted.injEq] at heq
      obtain ⟨rfl, rfl⟩ := heq
      exact ⟨_, hnew, rfl, .inl rfl⟩
    · obtain ⟨s, hs, hk⟩ := h.kept x s₀ hx
      exact ⟨s, hab _ _ hs, hk⟩
  · intro x s y hs hy
    rcases get?_insert_cases hs with ⟨rfl, rfl⟩ | hs
    · simp only at hy
      subst hy
      exact .rel _ _ (.inl ⟨span, List.mem_cons_self⟩)
    · exact (h.linked x s y hs hy).cons _
  · -- only the new slot can have been joined by this call
    intro x y hxy
    rcases hxy.cons_cases with ⟨sp, heq⟩ | heq | hxy
    · rw [Event.inserted.injEq, Slot.mk.injEq] at heq
      obtain ⟨rfl, rfl, -⟩ := heq
      obtain ⟨sy, hsy⟩ := hc
      obtain ⟨r, hr⟩ := h.grounded y ⟨sy, hsy⟩
      obtain ⟨s, hs, -⟩ := hr.isRoot
      refine ⟨⟨_, hnew⟩, ⟨_, hab _ _ hsy⟩, ?_⟩
      rw [mark_of_leads (.link hnew rfl (hr.mono hab)) (hab _ _ hs),
        mark_of_leads (hr.mono hab) (hab _ _ hs)]
    · cases heq
    · obtain ⟨⟨sx, hsx⟩, ⟨sy, hsy⟩, hm⟩ := h.joined x y hxy
      obtain ⟨rx, hrx⟩ := h.grounded x ⟨sx, hsx⟩
      obtain ⟨ry, hry⟩ := h.grounded y ⟨sy, hsy⟩
      refine ⟨⟨_, hab _ _ hsx⟩, ⟨_, hab _ _ hsy⟩, ?_⟩
      rw [mark_mono hab hrx, mark_mono hab hry, hm]
  · intro x y e he
    rcases List.mem_cons.mp he with heq | he
    · cases heq
    · exact h.mismatched x y e he

/-- Slots are refused only if their roots have different types. -/
theorem unify_error_cases (h : Agrees a events) (hx : a.Has x) (hy : a.Has y) {e : Error}
    (hu : a.unify x y = .error e) :
    ∃ r r' s s' t u, Leads a x r ∧ Leads a y r' ∧ a.get? r = some s ∧ a.get? r' = some s' ∧
      s.content = .known t ∧ s'.content = .known u ∧ t ≠ u ∧ e = .mismatch s s' := by
  obtain ⟨r, hr⟩ := h.grounded x hx
  obtain ⟨r', hr'⟩ := h.grounded y hy
  obtain ⟨s, hs, hl⟩ := hr.isRoot
  obtain ⟨s', hs', hl'⟩ := hr'.isRoot
  rw [unify_of_leads hr hr' hs hs'] at hu
  by_cases hrr : r = r'
  · rw [if_pos hrr] at hu
    cases hu
  · rw [if_neg hrr] at hu
    split at hu
    · cases hu
    · cases hu
    · next t u hc hc' =>
      split at hu
      · cases hu
      · next htu =>
        cases hu
        exact ⟨r, r', s, s', t, u, hr, hr', hs, hs', hc, hc', htu, rfl⟩
    · -- roots are neither links nor absent, so one of them is unknown or both are types
      next h₁ h₂ h₃ =>
      exfalso
      have hp := h.present r s hs
      have hp' := h.present r' s' hs'
      cases hc : s.content with
      | unknown => exact h₁ hc
      | link y => exact hl y hc
      | absent => exact hp hc
      | known t =>
        cases hc' : s'.content with
        | unknown => exact h₂ hc'
        | link y => exact hl' y hc'
        | absent => exact hp' hc'
        | known u => exact h₃ t u hc hc'

/-- The roots of unified slots follow to have one type. -/
theorem same_roots (h : Agrees a events) {u v : SlotId}
    (hxy : Leads a x u ∧ Leads a y v ∨ Leads a y u ∧ Leads a x v) :
    Same (.unified x y :: events) u v := by
  have hj : Same (.unified x y :: events) x y := .rel _ _ (.inr List.mem_cons_self)
  rcases hxy with ⟨hx, hy⟩ | ⟨hy, hx⟩
  · have hx := (h.same_of_leads hx).cons (.unified x y)
    have hy := (h.same_of_leads hy).cons (.unified x y)
    exact .trans _ _ _ (.symm _ _ hx) (.trans _ _ _ hj hy)
  · have hx := (h.same_of_leads hx).cons (.unified x y)
    have hy := (h.same_of_leads hy).cons (.unified x y)
    exact .trans _ _ _ (.symm _ _ hy) (.trans _ _ _ (.symm _ _ hj) hx)

/-- Linking the unknown root of one of two slots to the root of the other keeps the agreement. -/
theorem setLink (h : Agrees a events) {u v : SlotId} {su : Slot} (hu : a.get? u = some su)
    (hcu : su.content = .unknown) (huv : u ≠ v)
    (hxy : Leads a x u ∧ Leads a y v ∨ Leads a y u ∧ Leads a x v) :
    Agrees (a.setContent u (.link v)) (.unified x y :: events) := by
  have hlu : Leads a u u := .root hu (by rw [hcu]; exact fun t => Content.noConfusion)
  have hlv : Leads a v v := by rcases hxy with hxy | hxy <;> exact hxy.2.self
  refine ⟨?_, ?_, ?_, ?_, ?_, ?_, ?_⟩
  · rintro z ⟨s, hs⟩
    have hz : a.Has z := by
      rcases get?_setContent_cases hu hs with ⟨rfl, -⟩ | hs
      · exact ⟨_, hu⟩
      · exact ⟨s, hs⟩
    obtain ⟨r, hr⟩ := h.grounded z hz
    exact ⟨_, hr.setLink hlu hlv huv⟩
  · intro z s hs
    rcases get?_setContent_cases hu hs with ⟨-, rfl⟩ | hs
    · exact Content.noConfusion
    · exact h.present z s hs
  · intro z s hs
    have hz : ∃ s₀, .inserted z s₀ ∈ events := by
      rcases get?_setContent_cases hu hs with ⟨rfl, -⟩ | hs
      · exact h.origin _ _ hu
      · exact h.origin _ _ hs
    obtain ⟨s₀, h₀⟩ := hz
    exact ⟨s₀, List.mem_cons_of_mem _ h₀⟩
  · intro z s₀ hz
    rcases List.mem_cons.mp hz with heq | hz
    · cases heq
    · obtain ⟨s, hs, hspan, hk⟩ := h.kept z s₀ hz
      by_cases hzu : z = u
      · subst hzu
        rw [hu, Option.some.injEq] at hs
        subst hs
        refine ⟨{ su with content := .link v }, by rw [get?_setContent _ hu, if_pos rfl], hspan, ?_⟩
        rcases hk with hk | ⟨-, y, hk⟩
        · exact .inr ⟨hk ▸ hcu, v, rfl⟩
        · rw [hcu] at hk
          cases hk
      · exact ⟨s, by rw [get?_setContent _ hu, if_neg hzu, hs], hspan, hk⟩
  · intro z s w hs hw
    rcases get?_setContent_cases hu hs with ⟨rfl, rfl⟩ | hs
    · rw [← Content.link.inj hw]
      exact h.same_roots hxy
    · exact (h.linked z s w hs hw).cons _
  · intro z w hzw
    rcases hzw.cons_cases with ⟨_, heq⟩ | heq | hzw
    · cases heq
    · rw [Event.unified.injEq] at heq
      obtain ⟨rfl, rfl⟩ := heq
      obtain ⟨sv, hsv, -⟩ := hlv.isRoot
      -- one of the two slots had the mark of `v` before, and the other one gets it
      rcases hxy with ⟨hx, hy⟩ | ⟨hy, hx⟩
      · refine ⟨hx.has.setContent hu _, hy.has.setContent hu _, ?_⟩
        rw [mark_setLink hu hcu hlv huv hx, mark_setLink hu hcu hlv huv hy, if_pos rfl,
          if_neg huv.symm, mark_of_leads hlv hsv, mark_of_leads hy hsv]
      · refine ⟨hx.has.setContent hu _, hy.has.setContent hu _, ?_⟩
        rw [mark_setLink hu hcu hlv huv hx, mark_setLink hu hcu hlv huv hy, if_pos rfl,
          if_neg huv.symm, mark_of_leads hlv hsv, mark_of_leads hx hsv]
    · obtain ⟨hz, hw, hm⟩ := h.joined z w hzw
      obtain ⟨rz, hrz⟩ := h.grounded z hz
      obtain ⟨rw', hrw⟩ := h.grounded w hw
      exact ⟨hz.setContent hu _, hw.setContent hu _, mark_setLink_congr hu hcu hlv huv hrz hrw hm⟩
  · intro z w e he
    rcases List.mem_cons.mp he with heq | he
    · cases heq
    · exact h.mismatched z w e he

/-- A call that leaves the arena as it is keeps the agreement, if what it states is so already. -/
theorem keep (h : Agrees a events) {e : Event} (hi : ∀ x s, e ≠ .inserted x s)
    (hu : ∀ x y, e = .unified x y → a.Has x ∧ a.Has y ∧ a.mark x = a.mark y)
    (hr : ∀ x y f, e = .refused x y f → ∃ first second, f = .mismatch first second) :
    Agrees a (e :: events) := by
  refine ⟨h.grounded, h.present, ?_, ?_, ?_, ?_, ?_⟩
  · intro x s hs
    obtain ⟨s₀, h₀⟩ := h.origin x s hs
    exact ⟨s₀, List.mem_cons_of_mem _ h₀⟩
  · intro x s₀ hx
    rcases List.mem_cons.mp hx with heq | hx
    · exact absurd heq.symm (hi x s₀)
    · exact h.kept x s₀ hx
  · exact fun x s y hs hc => (h.linked x s y hs hc).cons _
  · intro x y hxy
    rcases hxy.cons_cases with ⟨sp, heq⟩ | heq | hxy
    · exact absurd heq (hi x _)
    · exact hu x y heq
    · exact h.joined x y hxy
  · intro x y f hf
    rcases List.mem_cons.mp hf with heq | hf
    · exact hr x y f heq.symm
    · exact h.mismatched x y f hf

theorem unify (h : Agrees a events) (hx : a.Has x) (hy : a.Has y) (hu : a.unify x y = .ok b) :
    Agrees b (.unified x y :: events) := by
  rcases unify_ok_cases hu with ⟨rfl, m, hmx, hmy⟩ | ⟨u, v, su, hsu, hcu, huv, rfl, hxy⟩
  · refine h.keep (fun _ _ => Event.noConfusion) (fun z w hzw => ?_) fun _ _ _ => Event.noConfusion
    rw [Event.unified.injEq] at hzw
    obtain ⟨rfl, rfl⟩ := hzw
    exact ⟨hx, hy, hmx.trans hmy.symm⟩
  · exact h.setLink hsu hcu huv hxy

theorem refuse (h : Agrees a events) (hx : a.Has x) (hy : a.Has y) {e : Error}
    (hu : a.unify x y = .error e) : Agrees a (.refused x y e :: events) := by
  obtain ⟨-, -, s, s', -, -, -, -, -, -, -, -, -, rfl⟩ := h.unify_error_cases hx hy hu
  refine h.keep (fun _ _ => Event.noConfusion) (fun _ _ => Event.noConfusion) fun z w f hf => ?_
  rw [Event.refused.injEq] at hf
  exact ⟨s, s', hf.2.2.symm⟩

end Agrees

/-- **Every history agrees with its arena.** -/
theorem History.agrees {events : List Event} (h : History a events) : Agrees a events := by
  induction h with
  | fresh => exact .fresh
  | insert span _ hc ih => exact ih.insert span hc
  | unify _ hx hy hu ih => exact ih.unify hx hy hu
  | refuse _ hx hy hu ih => exact ih.refuse hx hy hu

/-! ### What the arena answers -/

/-- Some slot of the class of `x` was made with the type `t`. -/
def HasType (events : List Event) (x : SlotId) (t : Ty) : Prop :=
  ∃ y span, Same events x y ∧ .inserted y ⟨.known t, span⟩ ∈ events

namespace Agrees

variable {events : List Event}

/-- A slot has the type that its class has. -/
theorem resolve_eq_ok_iff_hasType (h : Agrees a events) {t : Ty} :
    a.resolve x = .ok t ↔ HasType events x t := by
  constructor
  · intro hx
    obtain ⟨r, ⟨c, span⟩, hl, hs, hc⟩ := resolve_eq_ok_iff.mp hx
    simp only at hc
    subst hc
    exact ⟨r, span, h.same_of_leads hl, h.inserted_known_iff.mpr hs⟩
  · rintro ⟨y, span, hxy, hy⟩
    have hs := h.inserted_known_iff.mp hy
    have hl : Leads a y y := .root hs fun t => Content.noConfusion
    rw [← mark_eq_ty_iff, h.mark_eq_of_same hxy, mark_of_leads hl hs, Mark.ofContent]

/-- A class has at most one type. -/
theorem hasType_unique (h : Agrees a events) {t u : Ty} (ht : HasType events x t)
    (hu : HasType events x u) : t = u := by
  rw [← h.resolve_eq_ok_iff_hasType] at ht hu
  exact Except.ok.inj (ht.symm.trans hu)

/-- A slot without a type is named by the span it was made with. -/
theorem resolve_eq_unresolved_iff (h : Agrees a events) {s₀ : Slot}
    (hx : .inserted x s₀ ∈ events) :
    a.resolve x = .error (.unresolved s₀.span) ↔ ¬ ∃ t, HasType events x t := by
  obtain ⟨s, hs, hspan, -⟩ := h.kept x s₀ hx
  obtain ⟨r, hr⟩ := h.grounded x ⟨s, hs⟩
  obtain ⟨s', hs', -⟩ := hr.isRoot
  constructor
  · rintro hx ⟨t, ht⟩
    rw [← h.resolve_eq_ok_iff_hasType, hx] at ht
    cases ht
  · intro hno
    have hres := resolve_of_leads hr hs hs'
    split at hres
    · next t _ => exact absurd ⟨t, h.resolve_eq_ok_iff_hasType.mp hres⟩ hno
    · rw [hres, hspan]

/-- Slots are refused if their classes have different types, and the error names a slot of each
class that was made with its type. -/
theorem unify_eq_mismatch (h : Agrees a events) (hx : a.Has x) (hy : a.Has y) {e : Error}
    (hu : a.unify x y = .error e) :
    ∃ x' y' span span' t u, Same events x x' ∧ Same events y y' ∧
      .inserted x' ⟨.known t, span⟩ ∈ events ∧ .inserted y' ⟨.known u, span'⟩ ∈ events ∧
      t ≠ u ∧ e = .mismatch ⟨.known t, span⟩ ⟨.known u, span'⟩ := by
  obtain ⟨r, r', ⟨c, span⟩, ⟨c', span'⟩, t, u, hr, hr', hs, hs', hc, hc', htu, rfl⟩ :=
    h.unify_error_cases hx hy hu
  simp only at hc hc'
  subst hc hc'
  exact ⟨r, r', span, span', t, u, h.same_of_leads hr, h.same_of_leads hr',
    h.inserted_known_iff.mpr hs, h.inserted_known_iff.mpr hs', htu, rfl⟩

/-- Slots whose classes have different types are refused. -/
theorem unify_ne_ok (h : Agrees a events) (_ : a.Has x) (_ : a.Has y) {t u : Ty}
    (ht : HasType events x t) (hu : HasType events y u) (htu : t ≠ u) : a.unify x y ≠ .ok b := by
  intro hok
  rw [← h.resolve_eq_ok_iff_hasType, ← mark_eq_ty_iff] at ht hu
  rcases unify_ok_cases hok with ⟨-, m, hmx, hmy⟩ | ⟨r, v, sr, hsr, hcr, -, -, hxy⟩
  · rw [← hmy, ht, hu, Except.ok.injEq, Mark.ty.injEq] at hmx
    exact htu hmx
  · -- a slot that leads to an unknown root has no type
    rcases hxy with ⟨hl, -⟩ | ⟨hl, -⟩
    · rw [mark_of_leads hl hsr, hcr] at ht
      simp [Mark.ofContent] at ht
    · rw [mark_of_leads hl hsr, hcr] at hu
      simp [Mark.ofContent] at hu

end Agrees

/-- The arena answers every question about its slots as the least equivalence of the calls that
came to `events` says. -/
structure ClosesConstraints (a : Arena) (events : List Event) : Prop where
  /-- The slots are those that were made. -/
  made : ∀ x, a.Has x ↔ ∃ s, .inserted x s ∈ events
  /-- A slot has the type with which a slot of its class was made. -/
  typed : ∀ x t, a.resolve x = .ok t ↔
    ∃ y span, Same events x y ∧ .inserted y ⟨.known t, span⟩ ∈ events
  /-- If no slot of its class was made with a type, it has none, and the error names the span
  that it was itself made with. -/
  untyped : ∀ x s, .inserted x s ∈ events →
    (a.resolve x = .error (.unresolved s.span) ↔
      ¬ ∃ y t span, Same events x y ∧ .inserted y ⟨.known t, span⟩ ∈ events)
  /-- The types in one class are the same. -/
  consistent : ∀ x y t u span span', Same events x y → .inserted x ⟨.known t, span⟩ ∈ events →
    .inserted y ⟨.known u, span'⟩ ∈ events → t = u
  /-- Two more slots cannot be unified exactly if their classes have different types. -/
  mismatched_iff : ∀ x y, a.Has x → a.Has y →
    ((∃ first second, a.unify x y = .error (.mismatch first second)) ↔
      ∃ x' y' t u span span', Same events x x' ∧ Same events y y' ∧
        .inserted x' ⟨.known t, span⟩ ∈ events ∧ .inserted y' ⟨.known u, span'⟩ ∈ events ∧ t ≠ u)
  /-- The error then holds a slot of the class of each, as it was made with its type. -/
  mismatched : ∀ x y first second, a.Has x → a.Has y →
    a.unify x y = .error (.mismatch first second) →
      ∃ x' y' t u, Same events x x' ∧ Same events y y' ∧ .inserted x' first ∈ events ∧
        .inserted y' second ∈ events ∧ first.content = .known t ∧ second.content = .known u
  /-- No call has come to a fault, and none would. -/
  noFault : ∀ f, (∀ x y, .refused x y (.fault f) ∉ events) ∧
    (∀ x, a.Has x → a.resolve x ≠ .error (.fault f)) ∧
    (∀ x y, a.Has x → a.Has y → a.unify x y ≠ .error (.fault f))

/-- **The arena computes the closure of its constraints**, after any calls at all. -/
theorem History.closesConstraints {events : List Event} (h : History a events) :
    ClosesConstraints a events := by
  have ha := h.agrees
  refine ⟨?_, fun x t => ha.resolve_eq_ok_iff_hasType, ?_, ?_, ?_, ?_, ?_⟩
  · intro x
    constructor
    · rintro ⟨s, hs⟩
      exact ha.origin x s hs
    · rintro ⟨s₀, h₀⟩
      obtain ⟨s, hs, -⟩ := ha.kept x s₀ h₀
      exact ⟨s, hs⟩
  · intro x s₀ hx
    rw [ha.resolve_eq_unresolved_iff hx]
    constructor
    · rintro hno ⟨y, t, span, hxy, hy⟩
      exact hno ⟨t, y, span, hxy, hy⟩
    · rintro hno ⟨t, y, span, hxy, hy⟩
      exact hno ⟨y, t, span, hxy, hy⟩
  · intro x y t u span span' hxy hx hy
    exact ha.hasType_unique ⟨x, span, .refl x, hx⟩ ⟨y, span', hxy, hy⟩
  · intro x y hx hy
    constructor
    · rintro ⟨first, second, hu⟩
      obtain ⟨x', y', span, span', t, u, hxx, hyy, hx', hy', htu, -⟩ :=
        ha.unify_eq_mismatch hx hy hu
      exact ⟨x', y', t, u, span, span', hxx, hyy, hx', hy', htu⟩
    · rintro ⟨x', y', t, u, span, span', hxx, hyy, hx', hy', htu⟩
      cases hu : a.unify x y with
      | ok b =>
        exact absurd hu (ha.unify_ne_ok hx hy ⟨x', span, hxx, hx'⟩ ⟨y', span', hyy, hy'⟩ htu)
      | error e =>
        obtain ⟨-, -, _, _, _, _, -, -, -, -, -, rfl⟩ := ha.unify_eq_mismatch hx hy hu
        exact ⟨_, _, rfl⟩
  · intro x y first second hx hy hu
    obtain ⟨x', y', span, span', t, u, hxx, hyy, hx', hy', -, he⟩ := ha.unify_eq_mismatch hx hy hu
    rw [Error.mismatch.injEq] at he
    obtain ⟨rfl, rfl⟩ := he
    exact ⟨x', y', t, u, hxx, hyy, hx', hy', rfl, rfl⟩
  · intro f
    refine ⟨?_, ?_, ?_⟩
    · intro x y hxy
      obtain ⟨first, second, he⟩ := ha.mismatched x y _ hxy
      cases he
    · rintro x ⟨s, hs⟩ hf
      obtain ⟨r, hr⟩ := ha.grounded x ⟨s, hs⟩
      obtain ⟨s', hs', -⟩ := hr.isRoot
      rw [resolve_of_leads hr hs hs'] at hf
      split at hf <;> cases hf
    · intro x y hx hy hf
      obtain ⟨-, -, _, _, _, _, -, -, -, -, -, he⟩ := ha.unify_eq_mismatch hx hy hf
      cases he

/-- A history in which a link to an unknown slot gets a type, and another type is then refused. -/
theorem closesConstraints_refused :
    ∃ a events, History a events ∧
      .refused 1 4 (.mismatch ⟨.known .num, ⟨2, 3⟩⟩ ⟨.known ⟨"Bool"⟩, ⟨6, 7⟩⟩) ∈ events ∧
      ClosesConstraints a events :=
  have h₁ := History.fresh.insert (c := .unknown) ⟨0, 1⟩ trivial
  have h₂ := h₁.insert (c := .known .num) ⟨2, 3⟩ trivial
  have h₃ := h₂.insert (c := .link 1) ⟨4, 5⟩ ⟨_, rfl⟩
  have h₄ := h₃.unify (x := 3) (y := 2) ⟨_, rfl⟩ ⟨_, rfl⟩ rfl
  have h₅ := h₄.insert (c := .known ⟨"Bool"⟩) ⟨6, 7⟩ trivial
  have h₆ := h₅.refuse (x := 1) (y := 4) ⟨_, rfl⟩ ⟨_, rfl⟩ rfl
  ⟨_, _, h₆, List.mem_cons_self, History.closesConstraints h₆⟩

end NumCheck.Arena
