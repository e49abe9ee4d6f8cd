import NumCheck.Arena

/-!
# Chains of links

The arena finds the root of a slot by following links with fuel and with a list of the slots
that it has seen. Here a chain is a relation: `Leads a x r` says that the links from slot `x`
end in the root `r`. `root_eq_ok_iff` is the theorem that this is what the arena computes, in
any arena at all, and the other operations are then described by the roots of their slots.

## What is proved

* `root_eq_ok_iff`: the root of a slot is found exactly if its chain has one.
* `unify_of_leads`, `resolve_of_leads`: unification and resolution in terms of the roots.
* `Leads.mono`, `Leads.setLink`: what becomes of a chain when slots are added, and when a root
  is linked to another root.
-/

namespace NumCheck.Arena

variable {a b : Arena} {x y r : SlotId} {s : Slot}

/-! ### Slots -/

/-- Slot `x` has been made. -/
def Has (a : Arena) (x : SlotId) : Prop := ∃ s, a.get? x = some s

/-- The slots are those with the numbers from 1 to the size of the arena. -/
theorem has_iff {x : Int} : a.Has x ↔ 0 < x ∧ x ≤ a.size := by
  unfold Has get? size
  by_cases hx : 0 < x
  · rw [if_pos hx, ← Option.isSome_iff_exists, Option.isSome_iff_ne_none, ne_eq,
      Array.getElem?_eq_none_iff]
    omega
  · rw [if_neg hx]
    simp [hx]

theorem slot_of_get? (h : a.get? x = some s) : a.slot x = .ok s := by
  rw [slot, h]

theorem insert_fst (c : Content) (span : Span) : (a.insert c span).1 = a.size + 1 := rfl

theorem get?_insert {x : Int} (c : Content) (span : Span) :
    (a.insert c span).2.get? x = if x = a.size + 1 then some ⟨c, span⟩ else a.get? x := by
  unfold insert get? size
  simp only [Array.getElem?_push]
  by_cases hx : 0 < x
  · rw [if_pos hx, if_pos hx]
    by_cases h : x = a.slots.size + 1
    · rw [if_pos h, if_pos (by omega)]
    · rw [if_neg h, if_neg (by omega)]
  · rw [if_neg hx, if_neg hx, if_neg (by omega)]

/-- A new slot takes nothing from the older ones. -/
theorem get?_insert_of_some {x : Int} (c : Content) (span : Span) (h : a.get? x = some s) :
    (a.insert c span).2.get? x = some s := by
  have hx := has_iff.mp ⟨s, h⟩
  rw [get?_insert, if_neg (by omega), h]

theorem get?_setContent {x y : Int} (c : Content) (h : a.get? x = some s) :
    (a.setContent x c).get? y = if y = x then some { s with content := c } else a.get? y := by
  have hx := (has_iff.mp ⟨s, h⟩).1
  rw [get?, if_pos hx] at h
  unfold setContent get?
  rw [Array.getElem?_modify]
  by_cases hy : 0 < y
  · rw [if_pos hy, if_pos hy]
    by_cases hyx : y = x
    · rw [if_pos (by rw [hyx]), if_pos hyx, hyx, h, Option.map_some]
    · rw [if_neg (by omega), if_neg hyx]
  · rw [if_neg hy, if_neg hy, if_neg (by omega)]

theorem get?_insert_cases {x : Int} {c : Content} {span : Span}
    (h : (a.insert c span).2.get? x = some s) :
    x = (a.insert c span).1 ∧ s = ⟨c, span⟩ ∨ a.get? x = some s := by
  rw [get?_insert] at h
  split at h
  · next hx => exact .inl ⟨hx, (Option.some.inj h).symm⟩
  · exact .inr h

theorem get?_setContent_cases {c : Content} {s' : Slot} (hx : a.get? x = some s)
    (h : (a.setContent x c).get? y = some s') :
    y = x ∧ s' = { s with content := c } ∨ a.get? y = some s' := by
  rw [get?_setContent c hx] at h
  split at h
  · next hy => exact .inl ⟨hy, (Option.some.inj h).symm⟩
  · exact .inr h

theorem Has.setContent (hx : a.get? x = some s) (c : Content) (h : a.Has y) :
    (a.setContent x c).Has y := by
  rw [Has, get?_setContent c hx]
  split
  · exact ⟨_, rfl⟩
  · exact h

/-- Another content for the slot that has been made last. -/
theorem setContent_push (slots : Array Slot) (slot : Slot) (c : Content) :
    (⟨slots.push slot⟩ : Arena).setContent (slots.size + 1 : Int) c =
      ⟨slots.push { slot with content := c }⟩ := by
  rw [setContent, mk.injEq, show (slots.size + 1 - 1 : Int).toNat = slots.size by omega]
  refine Array.ext_getElem? fun i => ?_
  rw [Array.getElem?_modify, Array.getElem?_push, Array.getElem?_push]
  by_cases hi : i = slots.size
  · rw [if_pos hi.symm, if_pos hi, if_pos hi, Option.map_some]
  · rw [if_neg (Ne.symm hi), if_neg hi, if_neg hi]

/-! ### Chains -/

/-- The chain of links from a slot ends in the root `r`. -/
inductive Leads (a : Arena) : SlotId → SlotId → Prop where
  /-- A slot that is no link is its own root. -/
  | root {r : SlotId} {s : Slot} : a.get? r = some s → (∀ t, s.content ≠ .link t) → Leads a r r
  /-- A link has the root of its target. -/
  | link {x y r : SlotId} {s : Slot} :
      a.get? x = some s → s.content = .link y → Leads a y r → Leads a x r

/-- A root is a slot that is no link. -/
theorem Leads.isRoot (h : Leads a x r) : ∃ s, a.get? r = some s ∧ ∀ t, s.content ≠ .link t := by
  induction h with
  | root hs hc => exact ⟨_, hs, hc⟩
  | link _ _ _ ih => exact ih

theorem Leads.self (h : Leads a x r) : Leads a r r := by
  obtain ⟨s, hs, hc⟩ := h.isRoot
  exact .root hs hc

theorem Leads.has (h : Leads a x r) : a.Has x := by
  cases h with
  | root hs _ => exact ⟨_, hs⟩
  | link hs _ _ => exact ⟨_, hs⟩

/-- A chain has one root. -/
theorem Leads.unique {r' : SlotId} (h : Leads a x r) (h' : Leads a x r') : r = r' := by
  induction h with
  | root hs hc =>
    cases h' with
    | root _ _ => rfl
    | link hs' hc' _ =>
      rw [hs, Option.some.injEq] at hs'
      exact absurd (hs' ▸ hc') (hc _)
  | link hs hc _ ih =>
    cases h' with
    | root hs' hc' =>
      rw [hs, Option.some.injEq] at hs'
      exact absurd (hs' ▸ hc) (hc' _)
    | link hs' hc' h' =>
      rw [hs, Option.some.injEq] at hs'
      subst hs'
      rw [hc, Content.link.injEq] at hc'
      exact ih (hc' ▸ h')

/-- The chains stay when slots are added. -/
theorem Leads.mono (hab : ∀ id s, a.get? id = some s → b.get? id = some s) (h : Leads a x r) :
    Leads b x r := by
  induction h with
  | root hs hc => exact .root (hab _ _ hs) hc
  | link hs hc _ ih => exact .link (hab _ _ hs) hc ih

/-- Linking the root `u` to another root `v` moves the chains that end in `u` to `v`, and no
others. -/
theorem Leads.setLink {u v : SlotId} (h : Leads a x r) (hu : Leads a u u) (hv : Leads a v v)
    (huv : u ≠ v) : Leads (a.setContent u (.link v)) x (if r = u then v else r) := by
  obtain ⟨su, hsu, hcu⟩ := hu.isRoot
  obtain ⟨sv, hsv, hcv⟩ := hv.isRoot
  have hv' : Leads (a.setContent u (.link v)) v v :=
    .root (by rw [get?_setContent _ hsu, if_neg huv.symm, hsv]) hcv
  induction h with
  | @root r s hs hc =>
    by_cases hru : r = u
    · rw [if_pos hru]
      exact .link (by rw [get?_setContent _ hsu, if_pos hru]) rfl hv'
    · rw [if_neg hru]
      exact .root (by rw [get?_setContent _ hsu, if_neg hru, hs]) hc
  | @link x y r s hs hc _ ih =>
    -- `x` is a link and `u` is none
    have hxu : x ≠ u := by
      rintro rfl
      rw [hs, Option.some.injEq] at hsu
      exact hcu _ (hsu ▸ hc)
    exact .link (by rw [get?_setContent _ hsu, if_neg hxu, hs]) hc ih

/-! ### Following a chain -/

/-- Links lead through the slots `seen`, the latest first, to slot `x`. -/
inductive Walk (a : Arena) : List SlotId → SlotId → Prop where
  /-- The slot where the walk starts. -/
  | start (x : SlotId) : Walk a [] x
  /-- One link further. -/
  | step {seen : List SlotId} {x y : SlotId} {s : Slot} :
      Walk a seen x → a.get? x = some s → s.content = .link y → Walk a (x :: seen) y

theorem Walk.mem_link {seen : List SlotId} (h : Walk a seen x) (hy : y ∈ seen) :
    ∃ s t, a.get? y = some s ∧ s.content = .link t := by
  induction h with
  | start => simp at hy
  | step _ hs hc ih =>
    rcases List.mem_cons.mp hy with rfl | hy
    · exact ⟨_, _, hs, hc⟩
    · exact ih hy

/-- The slot after a slot of a walk is on the walk too. -/
theorem Walk.mem_next {seen : List SlotId} {z : SlotId} (h : Walk a seen z) (hx : x ∈ seen)
    (hs : a.get? x = some s) (hc : s.content = .link y) : y ∈ z :: seen := by
  induction h with
  | start => simp at hx
  | @step seen w z s' _ hs' hc' ih =>
    rcases List.mem_cons.mp hx with rfl | hx
    · rw [hs', Option.some.injEq] at hs
      subst hs
      rw [hc', Content.link.injEq] at hc
      simp [hc]
    · exact List.mem_cons_of_mem _ (ih hx)

/-- A chain that ends never comes to a slot again. -/
theorem Walk.not_mem {seen : List SlotId} (hw : Walk a seen x) (h : Leads a x r) : x ∉ seen := by
  induction h generalizing seen with
  | root hs hc =>
    intro hx
    obtain ⟨s', t, hs', hc'⟩ := hw.mem_link hx
    rw [hs, Option.some.injEq] at hs'
    exact hc t (hs' ▸ hc')
  | link hs hc _ ih =>
    intro hx
    exact ih (hw.step hs hc) (hw.mem_next hx hs hc)

/-- A walk that never comes to a slot again is no longer than the arena. -/
theorem Walk.length_le {seen : List SlotId} (h : Walk a seen x) (hn : seen.Nodup) :
    seen.length ≤ a.size := by
  have hsub : seen ⊆ (List.range a.size).map fun n : Nat => (n : Int) + 1 := by
    intro (y : Int) hy
    obtain ⟨s, -, hs, -⟩ := h.mem_link hy
    have hb := has_iff.mp ⟨s, hs⟩
    have hy : ((y - 1).toNat : Int) + 1 = y := by omega
    exact List.mem_map.mpr ⟨(y - 1).toNat, List.mem_range.mpr (by omega), hy⟩
  simpa using hn.length_le_of_subset hsub

theorem leads_of_follow {fuel : Nat} {seen : List SlotId} (h : a.follow fuel seen x = .ok r) :
    Leads a x r := by
  induction fuel generalizing seen x with
  | zero => cases h
  | succ fuel ih =>
    rw [follow] at h
    split at h
    · cases h
    · next s hs =>
      split at h
      · next t hc =>
        split at h
        · cases h
        · exact .link hs hc (ih h)
      · next hc =>
        cases h
        exact .root hs hc

theorem follow_of_leads (h : Leads a x r) {fuel : Nat} {seen : List SlotId} (hw : Walk a seen x)
    (hn : seen.Nodup) (hf : fuel + seen.length = a.size + 1) : a.follow fuel seen x = .ok r := by
  induction h generalizing fuel seen with
  | @root r s hs hc =>
    have := hw.length_le hn
    obtain ⟨fuel, rfl⟩ : ∃ n, fuel = n + 1 := ⟨fuel - 1, by omega⟩
    rw [follow, hs]
    cases hsc : s.content with
    | link t => exact absurd hsc (hc t)
    | unknown => simp only [hsc]
    | known t => simp only [hsc]
    | absent => simp only [hsc]
  | @link x y r s hs hc h ih =>
    have := hw.length_le hn
    obtain ⟨fuel, rfl⟩ : ∃ n, fuel = n + 1 := ⟨fuel - 1, by omega⟩
    have hx : x ∉ seen := hw.not_mem (.link hs hc h)
    rw [follow, hs]
    simp only [hc, if_neg hx]
    exact ih (hw.step hs hc) (List.nodup_cons.mpr ⟨hx, hn⟩) (by simp only [List.length_cons]; omega)

/-- **The root of a slot** is found if its chain has one, and only then. -/
theorem root_eq_ok_iff : a.root x = .ok r ↔ Leads a x r :=
  ⟨leads_of_follow, fun h => follow_of_leads h (.start x) List.nodup_nil (by simp)⟩

/-! ### Unification and resolution by roots -/

/-- What it takes to unify two slots depends on their roots alone. -/
theorem union_of_leads {r' : SlotId} {s' : Slot} (hx : Leads a x r) (hy : Leads a y r')
    (hs : a.get? r = some s) (hs' : a.get? r' = some s') :
    a.union x y =
      if r = r' then .ok .agree
      else match s.content, s'.content with
        | .unknown, _ => .ok (.link r r')
        | _, .unknown => .ok (.link r' r)
        | .known t, .known u => .ok (if t = u then .agree else .clash s s')
        | c, d => .error (.incompatible c d) := by
  rw [union, root_eq_ok_iff.mpr hx, root_eq_ok_iff.mpr hy]
  simp only [bind, Except.bind, pure, Except.pure]
  by_cases hr : r = r'
  · rw [if_pos hr, if_pos hr]
  · rw [if_neg hr, if_neg hr, slot_of_get? hs, slot_of_get? hs']
    rfl

/-- Unification links one root to the other, or it leaves the arena as it is. -/
theorem unify_of_leads {r' : SlotId} {s' : Slot} (hx : Leads a x r) (hy : Leads a y r')
    (hs : a.get? r = some s) (hs' : a.get? r' = some s') :
    a.unify x y =
      if r = r' then .ok a
      else match s.content, s'.content with
        | .unknown, _ => .ok (a.setContent r (.link r'))
        | _, .unknown => .ok (a.setContent r' (.link r))
        | .known t, .known u => if t = u then .ok a else .error (.mismatch s s')
        | c, d => .error (.fault (.incompatible c d)) := by
  rw [unify, union_of_leads hx hy hs hs']
  by_cases hr : r = r'
  · rw [if_pos hr, if_pos hr]
    rfl
  · rw [if_neg hr, if_neg hr]
    cases hc : s.content <;> cases hc' : s'.content <;> simp only [apply]
    -- what is left are two types
    rename_i t u
    by_cases htu : t = u
    · simp only [if_pos htu]
    · simp only [if_neg htu]

/-- The type of a slot is in its root; the span is its own. -/
theorem resolve_of_leads {s' : Slot} (hx : Leads a x r) (hs : a.get? x = some s)
    (hs' : a.get? r = some s') :
    a.resolve x =
      match s'.content with
      | .known t => .ok t
      | _ => .error (.unresolved s.span) := by
  rw [resolve, rootContent, slot_of_get? hs, root_eq_ok_iff.mpr hx]
  simp only [bind, Except.bind, pure, Except.pure, slot_of_get? hs']
  cases s'.content <;> rfl

theorem resolve_eq_ok_iff {t : Ty} :
    a.resolve x = .ok t ↔ ∃ r s, Leads a x r ∧ a.get? r = some s ∧ s.content = .known t := by
  constructor
  · intro h
    rw [resolve, rootContent] at h
    cases hr : a.root x with
    | error f =>
      rw [hr] at h
      cases hx : a.slot x <;> simp [hx, bind, Except.bind] at h
    | ok r =>
      have hl := root_eq_ok_iff.mp hr
      obtain ⟨s, hs⟩ := hl.has
      obtain ⟨s', hs', -⟩ := hl.isRoot
      rw [← rootContent, ← resolve, resolve_of_leads hl hs hs'] at h
      split at h
      · next hc =>
        cases h
        exact ⟨r, s', hl, hs', hc⟩
      · cases h
  · rintro ⟨r, s', hl, hs', hc⟩
    obtain ⟨s, hs⟩ := hl.has
    rw [resolve_of_leads hl hs hs', hc]

/-- A type that has been found stays when slots are added. -/
theorem resolve_mono {t : Ty} (hab : ∀ id s, a.get? id = some s → b.get? id = some s)
    (h : a.resolve x = .ok t) : b.resolve x = .ok t := by
  obtain ⟨r, s, hl, hs, hc⟩ := resolve_eq_ok_iff.mp h
  exact resolve_eq_ok_iff.mpr ⟨r, s, hl.mono hab, hab _ _ hs, hc⟩

end NumCheck.Arena
