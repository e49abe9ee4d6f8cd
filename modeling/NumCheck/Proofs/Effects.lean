import NumCheck.Proofs.Refinement

/-!
# The effects of a check

A list of statements can be checked in any state at all: with slots whose links run in a circle or
lead nowhere, with names that are bound to such slots or to none, and without an open scope. The
check may then end in a fault, midway through a `let` or deep inside of blocks. What it has done
to the state by then is still confined to new slots, to the names of its own `let`s in the innermost
scope, and to new diagnostics.

This is read off the changes that a check is made of, which are the rules of `Evolves`.

Which types the new slots have, and what the new diagnostics are, is not said: in states as odd as
these there is no environment to compare with.
-/

namespace NumCheck.Check

/-! ### New slots -/

/-- The slots of `b` that are not in `a` have types, or are links to slots with types that were
made just before them, and that are not in `a` either. -/
def Fresh (a b : Arena) : Prop :=
  ∀ id slot, b.get? id = some slot → ¬ a.Has id →
    (∃ ty, slot.content = .known ty) ∨
      slot.content = .link (id - 1) ∧ ¬ a.Has (id - 1) ∧
        ∃ target ty, b.get? (id - 1) = some target ∧ target.content = .known ty

theorem Fresh.refl (a : Arena) : Fresh a a := fun _ slot hs hnew => absurd ⟨slot, hs⟩ hnew

theorem Fresh.trans {a b c : Arena} (hab : Fresh a b) (hbc : Fresh b c)
    (hslots : ∀ id slot, a.get? id = some slot → b.get? id = some slot)
    (hslots' : ∀ id slot, b.get? id = some slot → c.get? id = some slot) : Fresh a c := by
  intro id slot hs hnew
  by_cases hb : b.Has id
  · -- the slot was there before the second part, and so was the one it leads to
    obtain ⟨slot', hs'⟩ := hb
    cases (hslots' id slot' hs').symm.trans hs
    rcases hab id slot hs' hnew with hty | ⟨hlink, hnew', target, ty, htarget, hty⟩
    · exact .inl hty
    · exact .inr ⟨hlink, hnew', target, ty, hslots' _ _ htarget, hty⟩
  · rcases hbc id slot hs hb with hty | ⟨hlink, hnew', htarget⟩
    · exact .inl hty
    · refine .inr ⟨hlink, ?_, htarget⟩
      rintro ⟨old, hold⟩
      exact hnew' ⟨old, hslots _ _ hold⟩

theorem Fresh.grow (s : State) (t : Typed.Expr) : Fresh s.arena (s.grow t.slot).arena := by
  intro id slot hs hnew
  rw [State.get?_grow] at hs
  split at hs
  · cases hs
    exact .inl ⟨t.ty, rfl⟩
  · exact absurd ⟨slot, hs⟩ hnew

theorem Fresh.growLink (s : State) (t : Typed.Expr) (span : Span) :
    Fresh s.arena (s.growLink t.slot span).arena := by
  have harena : (s.growLink t.slot span).arena =
      ((s.grow t.slot).grow ⟨.link (s.arena.size + 1), span⟩).arena := rfl
  have htarget := State.get?_grow_grow s t.slot ⟨.link (s.arena.size + 1), span⟩
  rw [harena]
  intro (id : Int) slot hs hnew
  rw [State.get?_grow, State.size_grow] at hs
  split at hs
  · next hid =>
    cases hs
    have hid' : id - 1 = s.arena.size + 1 := by omega
    refine .inr ⟨by rw [hid'], ?_, t.slot, t.ty, by rw [hid']; exact htarget, rfl⟩
    rw [Arena.has_iff]
    omega
  · rw [State.get?_grow] at hs
    split at hs
    · cases hs
      exact .inl ⟨t.ty, rfl⟩
    · exact absurd ⟨slot, hs⟩ hnew

namespace Evolves

variable {names : String → Prop} {s s' : State}

/-- No slot is lost or changed. -/
theorem slots (h : Evolves names s s') (id : SlotId) (slot : Slot)
    (hs : s.arena.get? id = some slot) : s'.arena.get? id = some slot :=
  Arena.get?_of_prefix h.confined.slots id slot hs

theorem fresh (h : Evolves names s s') : Fresh s.arena s'.arena := by
  induction h with
  | refl s => exact .refl s.arena
  | trans h h' ih ih' => exact ih.trans ih' h.slots h'.slots
  | known t => exact .grow _ t
  | link t span => exact .growLink _ t span
  | bind _ _ => exact .refl _
  | record d => exact .refl _
  | scope _ ih => exact ih

/-! ### The innermost scope -/

/-- The other names keep their slots in the innermost scope. -/
theorem innermost (h : Evolves names s s') {name : String} (hn : ¬ names name) :
    s'.bindings.frames.head?.map (·.lookup name) =
      s.bindings.frames.head?.map (·.lookup name) := by
  induction h with
  | refl s => rfl
  | trans _ _ ih ih' => exact (ih' hn).trans (ih hn)
  | known t => rfl
  | link t span => rfl
  | @bind names s name' id bindings hbound hi =>
    have hne : name ≠ name' := by
      rintro rfl
      exact hn hbound
    rw [Scopes.insert] at hi
    split at hi
    · cases hi
    · next frame outer hf =>
      cases hi
      simp only [State.bound, hf, List.head?_cons, Option.map_some, Frame.lookup_insert, if_neg hne]
  | record d => rfl
  | scope _ _ => rfl

end Evolves

/-! ### Lists of statements -/

/-- What checking the statements `l` may change from state `s` to state `s'`. -/
structure Effect (l : List Stmt) (s s' : State) : Prop where
  /-- Every slot that was there is as it was. -/
  slots : ∀ id slot, s.arena.get? id = some slot → s'.arena.get? id = some slot
  /-- Every new slot has a type, or is a link to a new one with a type that was made just before. -/
  fresh : Fresh s.arena s'.arena
  /-- As many scopes are open. -/
  depth : s'.bindings.depth = s.bindings.depth
  /-- The scopes around the innermost one are as they were. -/
  outer : s'.bindings.frames.tail = s.bindings.frames.tail
  /-- The innermost one differs at most at the names of `let`s that stand in the list itself. -/
  innermost : ∀ name, ¬ Stmt.HasLet l name →
    s'.bindings.frames.head?.map (·.lookup name) = s.bindings.frames.head?.map (·.lookup name)
  /-- New diagnostics come after the older ones. -/
  recorded : s.recorded <+: s'.recorded

variable (rules : Rules) (mode : Mode)

/-- **Checking is confined to new slots and to the innermost scope**, from any state, with any rules
and in both modes, whether it succeeds or fails. In particular a block leaves the scopes exactly as
they were. -/
theorem statements_effect (l : List Stmt) (s : State) :
    Effect l s (stateOf (statements rules mode l s)) ∧
      ∀ body span, (stateOf (stmt rules mode (.block body span) s)).bindings = s.bindings := by
  have h := statements_evolves rules mode l s
  have hc := h.confined
  refine ⟨⟨h.slots, h.fresh, hc.depth, hc.outer, fun _ => h.innermost, hc.recorded⟩, ?_⟩
  intro body span
  rw [stmt_block, stateOf_mapOk, inScope_apply (statements_confined rules mode body s.pushed)]
  cases statements rules mode body s.pushed <;> rfl

-- Without an open scope a `let` fails at its name, with its two slots made.
example :
    let s := stateOf (statements .standard .accumulate
      [.bind ⟨"x", ⟨4, 5⟩⟩ (.literal ⟨0⟩ ⟨8, 9⟩) ⟨0, 10⟩] {})
    s.arena.slots = #[⟨.known .num, ⟨8, 9⟩⟩, ⟨.link 1, ⟨4, 5⟩⟩] ∧ s.bindings.frames = [] :=
  ⟨rfl, rfl⟩

end NumCheck.Check
