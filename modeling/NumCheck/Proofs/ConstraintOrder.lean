import Mathlib.Data.List.Perm.Basic
import NumCheck.Proofs.Closure

/-!
# The order of constraints does not matter

A list of constraints is run by unifying the two slots of each, one after the other, up to the
first that is refused. Which slot becomes a link to which depends on the order, and on the side
that a slot stands on, so two runs of the same constraints may leave different arenas behind.

What the runs have in common is the least equivalence of all calls. A run is refused exactly if
some class of it has two types, and if it is not refused then all types can be read off the
equivalence. This says nothing of the order any more.

The arenas themselves are not compared, only what can be asked of them. Of a list that is refused
nothing is compared but the refusal: which constraint is the first to be refused, and what has been
linked before it, does depend on the order.
-/

namespace NumCheck.Arena

variable {a b : Arena} {events : List Event} {x y : SlotId}

/-! ### Runs of constraints -/

/-- Two slots that are to have one type. -/
abbrev Constraint := SlotId × SlotId

/-- Unify the slots of each constraint, in order. The first refusal ends the run. -/
def unifyAll (a : Arena) (cs : List Constraint) : Except Error Arena :=
  cs.foldlM (fun a c => a.unify c.1 c.2) a

/-- The events of a run that is not refused, after those before it. -/
def posted (cs : List Constraint) (events : List Event) : List Event :=
  cs.foldl (fun events c => .unified c.1 c.2 :: events) events

/-- The slots of the constraints are there. -/
def Supports (a : Arena) (cs : List Constraint) : Prop := ∀ c ∈ cs, a.Has c.1 ∧ a.Has c.2

theorem unifyAll_nil : a.unifyAll [] = .ok a := rfl

theorem unifyAll_cons_ok {c : Constraint} {cs : List Constraint} (h : a.unify c.1 c.2 = .ok b) :
    a.unifyAll (c :: cs) = b.unifyAll cs := by
  rw [unifyAll, List.foldlM_cons, h]
  rfl

theorem unifyAll_cons_error {c : Constraint} {cs : List Constraint} {e : Error}
    (h : a.unify c.1 c.2 = .error e) : a.unifyAll (c :: cs) = .error e := by
  rw [unifyAll, List.foldlM_cons, h]
  rfl

theorem posted_cons (c : Constraint) (cs : List Constraint) (events : List Event) :
    posted (c :: cs) events = posted cs (.unified c.1 c.2 :: events) := rfl

theorem mem_posted {cs : List Constraint} {e : Event} :
    e ∈ posted cs events ↔ e ∈ events ∨ ∃ c ∈ cs, e = .unified c.1 c.2 := by
  induction cs generalizing events with
  | nil => simp [posted]
  | cons c cs ih =>
    rw [posted_cons, ih, List.mem_cons]
    simp only [List.exists_mem_cons_iff]
    tauto

/-- A run makes no slots. -/
theorem inserted_mem_posted {cs : List Constraint} {s : Slot} :
    .inserted x s ∈ posted cs events ↔ .inserted x s ∈ events := by
  rw [mem_posted]
  simp

namespace Agrees

/-- The slots that are there are those that were made. -/
theorem has_iff_inserted (h : Agrees a events) : a.Has x ↔ ∃ s, .inserted x s ∈ events := by
  constructor
  · rintro ⟨s, hs⟩
    exact h.origin x s hs
  · rintro ⟨s₀, h₀⟩
    obtain ⟨s, hs, -⟩ := h.kept x s₀ h₀
    exact ⟨s, hs⟩

/-- Unification makes no slots and takes none away. -/
theorem has_unify_iff (h : Agrees a events) (hx : a.Has x) (hy : a.Has y)
    (hu : a.unify x y = .ok b) {z : SlotId} : b.Has z ↔ a.Has z := by
  rw [h.has_iff_inserted, (h.unify hx hy hu).has_iff_inserted]
  simp

/-- What the first constraint leaves behind supports the others. -/
theorem supports_tail {c : Constraint} {cs : List Constraint} (h : Agrees a events)
    (hcs : a.Supports (c :: cs)) (hu : a.unify c.1 c.2 = .ok b) : b.Supports cs := by
  obtain ⟨hx, hy⟩ := hcs c List.mem_cons_self
  intro d hd
  obtain ⟨hd₁, hd₂⟩ := hcs d (List.mem_cons_of_mem c hd)
  exact ⟨(h.has_unify_iff hx hy hu).mpr hd₁, (h.has_unify_iff hx hy hu).mpr hd₂⟩

/-- A run keeps the agreement, because every unification does. -/
theorem unifyAll {cs : List Constraint} (h : Agrees a events) (hcs : a.Supports cs)
    (hb : a.unifyAll cs = .ok b) : Agrees b (posted cs events) := by
  induction cs generalizing a events with
  | nil =>
    cases hb
    exact h
  | cons c cs ih =>
    obtain ⟨hx, hy⟩ := hcs c List.mem_cons_self
    cases hu : a.unify c.1 c.2 with
    | error e =>
      rw [unifyAll_cons_error hu] at hb
      cases hb
    | ok a' =>
      rw [unifyAll_cons_ok hu] at hb
      exact ih (h.unify hx hy hu) (h.supports_tail hcs hu) hb

end Agrees

/-! ### Consistency -/

/-- No class has two types. -/
def Consistent (events : List Event) : Prop :=
  ∀ x t u, HasType events x t → HasType events x u → t = u

theorem Same.mono {events' : List Event} (hsub : ∀ x y, Joined events x y → Same events' x y)
    (h : Same events x y) : Same events' x y := by
  induction h with
  | rel x y hxy => exact hsub x y hxy
  | refl x => exact .refl x
  | symm x y _ ih => exact .symm _ _ ih
  | trans x y z _ _ ih₁ ih₂ => exact .trans _ _ _ ih₁ ih₂

/-- What followed before a run follows after it. -/
theorem Same.posted {cs : List Constraint} (h : Same events x y) :
    Same (posted cs events) x y := by
  refine h.mono fun x y hxy => .rel _ _ ?_
  rcases hxy with ⟨span, hxy⟩ | hxy
  · exact .inl ⟨span, inserted_mem_posted.mpr hxy⟩
  · exact .inr (mem_posted.mpr (.inl hxy))

/-- The slots of a constraint have one type after the run. -/
theorem same_of_mem {cs : List Constraint} {c : Constraint} (hc : c ∈ cs) :
    Same (posted cs events) c.1 c.2 :=
  .rel _ _ (.inr (mem_posted.mpr (.inr ⟨c, hc, rfl⟩)))

/-- **Constraints can be run** exactly if they are consistent with the calls before them. -/
theorem unifyAll_eq_ok_iff {cs : List Constraint} (h : Agrees a events) (hcs : a.Supports cs) :
    (∃ b, a.unifyAll cs = .ok b) ↔ Consistent (posted cs events) := by
  constructor
  · rintro ⟨b, hb⟩ x t u ht hu
    exact (h.unifyAll hcs hb).hasType_unique ht hu
  · intro hcons
    induction cs generalizing a events with
    | nil => exact ⟨a, unifyAll_nil⟩
    | cons c cs ih =>
      obtain ⟨hx, hy⟩ := hcs c List.mem_cons_self
      cases hu : a.unify c.1 c.2 with
      | ok a' =>
        obtain ⟨b, hb⟩ := ih (h.unify hx hy hu) (h.supports_tail hcs hu) hcons
        exact ⟨b, (unifyAll_cons_ok hu).trans hb⟩
      | error e =>
        -- the two slots have different types already, and the constraint puts them in one class
        obtain ⟨x', y', span, span', t, u, hxx, hyy, ht, hu, htu, -⟩ := h.unify_eq_mismatch hx hy hu
        have hxy : Same (posted (c :: cs) events) c.1 c.2 := same_of_mem List.mem_cons_self
        refine absurd (hcons c.1 t u ?_ ?_) htu
        · exact ⟨x', span, hxx.posted, inserted_mem_posted.mpr ht⟩
        · exact ⟨y', span', .trans _ _ _ hxy hyy.posted, inserted_mem_posted.mpr hu⟩

/-! ### Another order -/

/-- The constraints `ds` are `cs` in another order, and some of them have changed sides. -/
def Reordered (cs ds : List Constraint) : Prop :=
  ∃ es, cs.Perm es ∧ List.Forall₂ (fun c d => d = c ∨ d = c.swap) es ds

namespace Reordered

variable {cs ds : List Constraint}

theorem symm (h : Reordered cs ds) : Reordered ds cs := by
  obtain ⟨es, hperm, hsides⟩ := h
  obtain ⟨fs, hsides, hperm⟩ := List.perm_comp_forall₂ hperm hsides
  refine ⟨fs, hperm.symm, .flip (hsides.imp fun c d hcd => ?_)⟩
  rcases hcd with rfl | rfl
  · exact .inl rfl
  · exact .inr c.swap_swap.symm

theorem mem_or_swap_mem (h : Reordered cs ds) {c : Constraint} (hc : c ∈ cs) :
    c ∈ ds ∨ c.swap ∈ ds := by
  obtain ⟨es, hperm, hsides⟩ := h
  replace hc : c ∈ es := hperm.mem_iff.mp hc
  clear hperm
  induction hsides with
  | nil => cases hc
  | cons hd _ ih =>
    rcases List.mem_cons.mp hc with rfl | hc
    · rcases hd with rfl | rfl
      · exact .inl List.mem_cons_self
      · exact .inr List.mem_cons_self
    · exact (ih hc).imp (List.mem_cons_of_mem _) (List.mem_cons_of_mem _)

theorem supports (h : Reordered cs ds) (hcs : a.Supports cs) : a.Supports ds := by
  intro d hd
  rcases h.symm.mem_or_swap_mem hd with hd | hd
  · exact hcs d hd
  · exact (hcs _ hd).symm

/-- The constraints give the same classes in any order. -/
theorem same (h : Reordered cs ds) (hxy : Same (posted cs events) x y) :
    Same (posted ds events) x y := by
  refine hxy.mono fun x y hj => ?_
  rcases hj with ⟨span, hj⟩ | hj
  · exact .rel _ _ (.inl ⟨span, inserted_mem_posted.mpr (inserted_mem_posted.mp hj)⟩)
  · rcases mem_posted.mp hj with hj | ⟨c, hc, heq⟩
    · exact .rel _ _ (.inr (mem_posted.mpr (.inl hj)))
    · rw [Event.unified.injEq] at heq
      obtain ⟨rfl, rfl⟩ := heq
      rcases h.mem_or_swap_mem hc with hc | hc
      · exact same_of_mem hc
      · exact .symm _ _ (same_of_mem hc)

/-- The classes have the same types. -/
theorem hasType_iff (h : Reordered cs ds) {t : Ty} :
    HasType (posted cs events) x t ↔ HasType (posted ds events) x t := by
  simp only [HasType, inserted_mem_posted]
  constructor
  · rintro ⟨y, span, hxy, hy⟩
    exact ⟨y, span, h.same hxy, hy⟩
  · rintro ⟨y, span, hxy, hy⟩
    exact ⟨y, span, h.symm.same hxy, hy⟩

theorem consistent_iff (h : Reordered cs ds) :
    Consistent (posted cs events) ↔ Consistent (posted ds events) := by
  simp only [Consistent, h.hasType_iff]

end Reordered

/-! ### The answers after a run -/

theorem resolve_of_not_has (h : ¬ a.Has x) : a.resolve x = .error (.fault (.missing x)) := by
  have hx : a.get? x = none := by
    cases hs : a.get? x with
    | none => rfl
    | some s => exact absurd ⟨s, hs⟩ h
  simp only [resolve, slot, hx]

namespace Agrees

/-- A slot has a type, or it has none and is named by its span. -/
theorem resolve_cases (h : Agrees a events) (hx : a.Has x) :
    (∃ t, a.resolve x = .ok t) ∨ ∃ span, a.resolve x = .error (.unresolved span) := by
  obtain ⟨s₀, h₀⟩ := h.has_iff_inserted.mp hx
  by_cases ht : ∃ t, HasType events x t
  · obtain ⟨t, ht⟩ := ht
    exact .inl ⟨t, h.resolve_eq_ok_iff_hasType.mpr ht⟩
  · exact .inr ⟨s₀.span, (h.resolve_eq_unresolved_iff h₀).mpr ht⟩

/-- Arenas that agree on the slots that were made and on the types of the classes have the same
answers. -/
theorem resolve_congr {events' : List Event} (ha : Agrees a events) (hb : Agrees b events')
    (hmade : ∀ x s, .inserted x s ∈ events ↔ .inserted x s ∈ events')
    (htypes : ∀ x t, HasType events x t ↔ HasType events' x t) (x : SlotId) :
    a.resolve x = b.resolve x := by
  by_cases hx : a.Has x
  · obtain ⟨s₀, h₀⟩ := ha.has_iff_inserted.mp hx
    by_cases ht : ∃ t, HasType events x t
    · obtain ⟨t, ht⟩ := ht
      rw [ha.resolve_eq_ok_iff_hasType.mpr ht,
        hb.resolve_eq_ok_iff_hasType.mpr ((htypes x t).mp ht)]
    · have ht' : ¬ ∃ t, HasType events' x t := by simpa only [htypes] using ht
      rw [(ha.resolve_eq_unresolved_iff h₀).mpr ht,
        (hb.resolve_eq_unresolved_iff ((hmade x s₀).mp h₀)).mpr ht']
  · have hx' : ¬ b.Has x := by
      rw [hb.has_iff_inserted]
      simpa only [ha.has_iff_inserted, hmade] using hx
    rw [resolve_of_not_has hx, resolve_of_not_has hx']

end Agrees

/-- **The order of constraints does not matter.** After any calls, a list of constraints is refused
in all orders or in none, whichever way round its members stand. If it is not refused, then every
slot has the same type in all orders, or the same span is named because it has none. -/
theorem History.unifyAll_reordered (h : History a events) {cs ds : List Constraint}
    (hcs : a.Supports cs) (hd : Reordered cs ds) :
    ((∃ b, a.unifyAll cs = .ok b) ↔ ∃ b, a.unifyAll ds = .ok b) ∧
    ∀ b b', a.unifyAll cs = .ok b → a.unifyAll ds = .ok b' →
      (∀ x, b.resolve x = b'.resolve x) ∧
      ∀ x, a.Has x →
        (∃ t, b.resolve x = .ok t) ∨ ∃ span, b.resolve x = .error (.unresolved span) := by
  have ha := h.agrees
  have hds := hd.supports hcs
  refine ⟨?_, fun b b' hb hb' => ?_⟩
  · rw [unifyAll_eq_ok_iff ha hcs, unifyAll_eq_ok_iff ha hds]
    exact hd.consistent_iff
  · have hagrees := ha.unifyAll hcs hb
    have hagrees' := ha.unifyAll hds hb'
    constructor
    · refine hagrees.resolve_congr hagrees' (fun x s => ?_) fun x t => hd.hasType_iff
      rw [inserted_mem_posted, inserted_mem_posted]
    · intro x hx
      apply hagrees.resolve_cases
      rw [hagrees.has_iff_inserted]
      simpa only [inserted_mem_posted] using ha.has_iff_inserted.mp hx

/-- A row of slots that ends in a type, and a pair without one, from the one end and from the other.
The two arenas differ. -/
theorem unifyAll_reordered_row :
    let a : Arena := ⟨#[⟨.unknown, ⟨0, 1⟩⟩, ⟨.unknown, ⟨2, 3⟩⟩, ⟨.known .num, ⟨4, 5⟩⟩,
      ⟨.unknown, ⟨6, 7⟩⟩, ⟨.unknown, ⟨8, 9⟩⟩]⟩
    let cs : List Constraint := [(1, 2), (2, 3), (4, 5)]
    let ds : List Constraint := [(5, 4), (3, 2), (1, 2)]
    ∃ events b b', History a events ∧ a.Supports cs ∧ Reordered cs ds ∧
      a.unifyAll cs = .ok b ∧ a.unifyAll ds = .ok b' ∧ b ≠ b' ∧
      (∀ x, b.resolve x = b'.resolve x) ∧ b.resolve 1 = .ok .num ∧
      b.resolve 4 = .error (.unresolved ⟨6, 7⟩) := by
  intro a cs ds
  have h₁ := History.fresh.insert (c := .unknown) ⟨0, 1⟩ trivial
  have h₂ := h₁.insert (c := .unknown) ⟨2, 3⟩ trivial
  have h₃ := h₂.insert (c := .known .num) ⟨4, 5⟩ trivial
  have h₄ := h₃.insert (c := .unknown) ⟨6, 7⟩ trivial
  have h₅ := h₄.insert (c := .unknown) ⟨8, 9⟩ trivial
  have hcs : a.Supports cs := by
    simp only [cs, Supports, has_iff, List.forall_mem_cons]
    decide
  have hd : Reordered cs ds :=
    ⟨cs.reverse, cs.reverse_perm.symm, .cons (.inr rfl) (.cons (.inr rfl) (.cons (.inl rfl) .nil))⟩
  have hall := (History.unifyAll_reordered (a := a) h₅ hcs hd).2 _ _ rfl rfl
  exact ⟨_, _, _, h₅, hcs, hd, rfl, rfl, by decide, hall.1, rfl, rfl⟩

end NumCheck.Arena
