import NumCheck.Proofs.Steps

/-!
# What a check leaves behind

A check only ever adds to a state, however it ends and whatever the state holds. An expression
adds slots and nothing else. A statement may also bind names in the innermost scope and record
diagnostics; the scopes around it, the older slots and the older diagnostics stay as they are.
`Evolves` has one rule for each of these changes, and what every change keeps is kept by a whole
check.

If nothing is recorded, the slots that are added can be read off the typed tree.
-/

namespace NumCheck

/-- One of the statements is a `let` for `name`. Those inside of blocks do not count. -/
def Stmt.HasLet (l : List Stmt) (name : String) : Prop :=
  ∃ x value span, Stmt.bind x value span ∈ l ∧ x.name = name

theorem Stmt.hasLet_cons {st : Stmt} {rest : List Stmt} {name : String} :
    Stmt.HasLet (st :: rest) name ↔ Stmt.HasLet [st] name ∨ Stmt.HasLet rest name := by
  simp [Stmt.HasLet, or_and_right, exists_or]

namespace Check

variable (rules : Rules) (mode : Mode)

/-! ### Expressions -/

/-- A result of an expression from state `s` has added slots and changed nothing else. Those of
a typed expression are its own. -/
def Grown (s : State) : EStateM.Result Failure State Typed.Expr → Prop
  | .ok t s' => s' = s.growAll t.slots
  | .error _ s' => ∃ new, s' = s.growAll new

/-- Two operands that only add slots do so one after the other. -/
theorem operands_grown {x y : CheckM Typed.Expr} (hx : ∀ s, Grown s (x s))
    (hy : ∀ s, Grown s (y s)) (s : State) :
    match operands mode x y s with
    | .ok (l, r) s' => s' = s.growAll (l.slots ++ r.slots)
    | .error _ s' => ∃ new, s' = s.growAll new := by
  rw [operands_apply]
  have hs := hx s
  rcases hl : x s with ⟨l, s₁⟩ | ⟨e, s₁⟩
  · rw [hl] at hs
    have hs₁ := hy s₁
    rcases hr : y s₁ with ⟨r, s₂⟩ | ⟨e, s₂⟩ <;> rw [hr] at hs₁ <;> simp only [hr]
    · rw [State.growAll_append, ← hs, ← hs₁]
    · obtain ⟨new, hs₁⟩ := hs₁
      exact ⟨l.slots ++ new, by rw [State.growAll_append, ← hs, ← hs₁]⟩
  · rw [hl] at hs
    obtain ⟨new, hs⟩ := hs
    rcases mode with - | -
    · exact ⟨new, hs⟩
    · rcases e with d | f
      · -- the right operand is checked although the left one is rejected
        have hs₁ := hy s₁
        rcases hr : y s₁ with ⟨r, s₂⟩ | ⟨e | f, s₂⟩ <;> rw [hr] at hs₁ <;> simp only [hr]
        · exact ⟨new ++ r.slots, by rw [State.growAll_append, ← hs, ← hs₁]⟩
        · obtain ⟨more, hs₁⟩ := hs₁
          exact ⟨new ++ more, by rw [State.growAll_append, ← hs, ← hs₁]⟩
        · obtain ⟨more, hs₁⟩ := hs₁
          exact ⟨new ++ more, by rw [State.growAll_append, ← hs, ← hs₁]⟩
      · exact ⟨new, hs⟩

/-- Checking an expression only adds slots. -/
theorem expr_grown (e : Expr) (s : State) : Grown s (expr rules mode e s) := by
  induction e generalizing s with
  | var name span =>
    rw [expr_var]
    split
    · exact ⟨[], rfl⟩
    · split
      · rfl
      · exact ⟨[], rfl⟩
  | literal value span => rfl
  | prefixed op operand span ih =>
    rw [expr_prefixed]
    split
    · exact ⟨[], rfl⟩
    · have hs := ih s
      cases ht : expr rules mode operand s with
      | error e s' =>
        rw [ht] at hs
        exact hs
      | ok t s' =>
        rw [ht] at hs
        have hg : s'.grow t.slot = s.growAll (t.slots ++ [t.slot]) := by
          rw [State.growAll_append, ← hs]
          rfl
        dsimp only
        split
        · exact hg
        · exact ⟨_, hg⟩
  | binary op lhs rhs span ihl ihr =>
    rw [expr_binary]
    split
    · exact ⟨[], rfl⟩
    · have hs := operands_grown mode ihl ihr s
      cases ht : operands mode (expr rules mode lhs) (expr rules mode rhs) s with
      | error e s' =>
        rw [ht] at hs
        exact hs
      | ok lr s' =>
        rw [ht] at hs
        obtain ⟨l, r⟩ := lr
        have hg : (s'.grow l.slot).grow r.slot =
            s.growAll (l.slots ++ r.slots ++ [l.slot, r.slot]) := by
          rw [State.growAll_append, ← hs]
          rfl
        dsimp only
        split
        · exact hg
        · exact ⟨_, hg⟩
  | stray kind => exact ⟨[], rfl⟩

/-- However an expression ends, the state has more slots and is otherwise the same. -/
theorem expr_state (e : Expr) (s : State) :
    (∃ t, expr rules mode e s = .ok t (s.growAll t.slots)) ∨
      ∃ f new, expr rules mode e s = .error f (s.growAll new) := by
  have hs := expr_grown rules mode e s
  cases ht : expr rules mode e s with
  | ok t s' =>
    rw [ht] at hs
    exact .inl ⟨t, by rw [← (show s' = _ from hs)]⟩
  | error f s' =>
    rw [ht] at hs
    obtain ⟨new, rfl⟩ := hs
    exact .inr ⟨f, new, rfl⟩

/-! ### Statements -/

/-- The state that a result leaves behind. -/
def stateOf {α : Type} : EStateM.Result Failure State α → State
  | .ok _ s => s
  | .error _ s => s

/-- State `s'` comes from state `s` by adding slots and diagnostics, and by changes in the
innermost scope. -/
structure Confined (s s' : State) : Prop where
  /-- The older slots stay. -/
  slots : s.arena.slots.toList <+: s'.arena.slots.toList
  /-- As many scopes are open. -/
  depth : s'.bindings.depth = s.bindings.depth
  /-- The scopes around the innermost one stay. -/
  outer : s'.bindings.frames.tail = s.bindings.frames.tail
  /-- The older diagnostics stay. -/
  recorded : s.recorded <+: s'.recorded

namespace Confined

variable {s s' s'' : State}

theorem refl (s : State) : Confined s s := ⟨List.prefix_rfl, rfl, rfl, List.prefix_rfl⟩

theorem trans (h : Confined s s') (h' : Confined s' s'') : Confined s s'' :=
  ⟨h.slots.trans h'.slots, h'.depth.trans h.depth, h'.outer.trans h.outer,
    h.recorded.trans h'.recorded⟩

theorem growAll (s : State) (new : List Slot) : Confined s (s.growAll new) :=
  ⟨⟨new, (s.slots_growAll new).symm⟩, by rw [State.bindings_growAll],
    by rw [State.bindings_growAll], ⟨[], by rw [List.append_nil, State.recorded_growAll]⟩⟩

theorem growLink (s : State) (slot : Slot) (span : Span) : Confined s (s.growLink slot span) :=
  ⟨⟨_, (s.slots_growLink slot span).symm⟩, rfl, rfl, List.prefix_rfl⟩

theorem bound {name : String} {id : SlotId} {bindings : Scopes String (Option SlotId)}
    (h : s.bindings.insert name (some id) = .ok bindings) :
    Confined s (s.bound name id bindings) := by
  rw [Scopes.insert] at h
  split at h
  · cases h
  · next frame outer hf =>
    cases h
    refine ⟨List.prefix_rfl, ?_, ?_, List.prefix_rfl⟩
    · simp only [State.bound, Scopes.depth, hf, List.length_cons]
    · simp only [State.bound, hf, List.tail_cons]

/-- What a scope leaves of the frames: its own, and those around it. -/
theorem frames_pushed (h : Confined s.pushed s') :
    ∃ frame, s'.bindings.frames = frame :: s.bindings.frames := by
  have hd : s'.bindings.frames.length = s.bindings.frames.length + 1 := h.depth
  have ho : s'.bindings.frames.tail = s.bindings.frames := h.outer
  cases hf : s'.bindings.frames with
  | nil => simp [hf] at hd
  | cons frame outer => exact ⟨frame, by rw [hf, List.tail_cons] at ho; rw [ho]⟩

theorem record (s : State) (d : Diagnostic) :
    Confined s { s with recorded := s.recorded ++ [d] } :=
  ⟨List.prefix_rfl, rfl, rfl, List.prefix_append _ _⟩

theorem popped (h : Confined s.pushed s') : Confined s (s'.popped s.bindings.frames) :=
  ⟨h.slots, rfl, rfl, h.recorded⟩

end Confined

/-- The changes that a check makes to a state. `names` are those that it may bind in the innermost
scope. -/
inductive Evolves : (names : String → Prop) → State → State → Prop where
  /-- Nothing has changed. -/
  | refl {names : String → Prop} (s : State) : Evolves names s s
  /-- One change after the other. -/
  | trans {names : String → Prop} {s s' s'' : State} :
      Evolves names s s' → Evolves names s' s'' → Evolves names s s''
  /-- A slot is made for a type. -/
  | known {names : String → Prop} {s : State} (t : Typed.Expr) : Evolves names s (s.grow t.slot)
  /-- A slot is made for a type, and another one that is a link to it. -/
  | link {names : String → Prop} {s : State} (t : Typed.Expr) (span : Span) :
      Evolves names s (s.growLink t.slot span)
  /-- A name is bound. -/
  | bind {names : String → Prop} {s : State} {name : String} {id : SlotId}
      {bindings : Scopes String (Option SlotId)} :
      names name → s.bindings.insert name (some id) = .ok bindings →
        Evolves names s (s.bound name id bindings)
  /-- A diagnostic is recorded. -/
  | record {names : String → Prop} {s : State} (d : Diagnostic) :
      Evolves names s { s with recorded := s.recorded ++ [d] }
  /-- A scope is opened, and closed again. The names that are bound in it are gone. -/
  | scope {names inner : String → Prop} {s s' : State} :
      Evolves inner s.pushed s' → Evolves names s (s'.popped s.bindings.frames)

namespace Evolves

variable {names names' : String → Prop} {s s' : State}

theorem mono (hsub : ∀ name, names name → names' name) (h : Evolves names s s') :
    Evolves names' s s' := by
  induction h with
  | refl s => exact .refl s
  | trans _ _ ih ih' => exact .trans (ih hsub) (ih' hsub)
  | known t => exact .known t
  | link t span => exact .link t span
  | bind hn hi => exact .bind (hsub _ hn) hi
  | record d => exact .record d
  | scope h _ => exact .scope h

/-- All of the changes are confined. -/
theorem confined (h : Evolves names s s') : Confined s s' := by
  induction h with
  | refl s => exact .refl s
  | trans _ _ ih ih' => exact ih.trans ih'
  | known t => exact .growAll _ [t.slot]
  | link t span => exact .growLink _ t.slot span
  | bind _ hi => exact .bound hi
  | record d => exact .record _ d
  | scope _ ih => exact ih.popped

end Evolves

/-- A step that is confined can be taken in a scope, and the bindings are then as before. -/
theorem inScope_apply {α : Type} {x : CheckM α} {s : State}
    (h : Confined s.pushed (stateOf (x s.pushed))) :
    inScope x s =
      match x s.pushed with
      | .ok v s' => .ok v (s'.popped s.bindings.frames)
      | .error e s' => .error e (s'.popped s.bindings.frames) := by
  obtain ⟨frame, hf⟩ := h.frames_pushed
  cases hx : x s.pushed with
  | ok v s' =>
    rw [hx] at hf
    exact inScope_ok hx hf
  | error e s' =>
    rw [hx] at hf
    exact inScope_error hx hf

/-- Two operands leave the state of the second one behind, or that of the first if the second is
not checked. -/
theorem stateOf_operands (x y : CheckM Typed.Expr) (s : State) :
    stateOf (operands mode x y s) = stateOf (x s) ∨
      stateOf (operands mode x y s) = stateOf (y (stateOf (x s))) := by
  rw [operands_apply]
  rcases x s with ⟨l, s₁⟩ | ⟨d | f, s₁⟩
  · right
    simp only [stateOf]
    cases y s₁ <;> rfl
  · cases mode with
    | failFast => exact .inl rfl
    | accumulate =>
      right
      simp only [stateOf]
      rcases y s₁ with ⟨r, s₂⟩ | ⟨e | f, s₂⟩ <;> rfl
  · cases mode <;> exact .inl rfl

theorem expr_evolves (names : String → Prop) (e : Expr) (s : State) :
    Evolves names s (stateOf (expr rules mode e s)) := by
  induction e generalizing s with
  | var name span =>
    rw [expr_var]
    split
    · exact .refl s
    · split <;> exact .refl s
  | literal value span => exact .refl s
  | prefixed op operand span ih =>
    rw [expr_prefixed]
    split
    · exact .refl s
    · have hs := ih s
      cases ht : expr rules mode operand s with
      | error e s' =>
        rw [ht] at hs
        exact hs
      | ok t s' =>
        rw [ht] at hs
        have hgrown := hs.trans (.known t)
        dsimp only
        split <;> exact hgrown
  | binary op lhs rhs span ihl ihr =>
    have hs : Evolves names s
        (stateOf (operands mode (expr rules mode lhs) (expr rules mode rhs) s)) := by
      rcases stateOf_operands mode (expr rules mode lhs) (expr rules mode rhs) s with h | h
      · rw [h]
        exact ihl s
      · rw [h]
        exact (ihl s).trans (ihr _)
    rw [expr_binary]
    split
    · exact .refl s
    · cases ht : operands mode (expr rules mode lhs) (expr rules mode rhs) s with
      | error e s' =>
        rw [ht] at hs
        exact hs
      | ok lr s' =>
        rw [ht] at hs
        have hgrown := (hs.trans (.known lr.1)).trans (.known lr.2)
        dsimp only
        split <;> exact hgrown
  | stray kind => exact .refl s

theorem binding_evolves {names : String → Prop} (name : Ident) (value : Expr) (span : Span)
    (s : State) (hn : names name.name) :
    Evolves names s (stateOf (binding rules mode name value span s)) := by
  have hs := expr_evolves rules mode names value s
  rw [binding_apply]
  cases ht : expr rules mode value s with
  | error e s' =>
    rw [ht] at hs
    exact hs
  | ok t s' =>
    rw [ht] at hs
    have hlinked := hs.trans (.link t name.span)
    dsimp only
    cases hi : s'.bindings.insert name.name (some (s'.arena.size + 1 + 1)) with
    | error e => exact hlinked
    | ok bindings => exact hlinked.trans (.bind hn hi)

theorem stateOf_mapOk {α β : Type} (f : α → β) (r : EStateM.Result Failure State α) :
    stateOf (mapOk f r) = stateOf r := by
  cases r <;> rfl

mutual
/-- What checking a statement does: it binds at most its own name. -/
theorem stmt_evolves : ∀ (st : Stmt) (s : State),
    Evolves (Stmt.HasLet [st]) s (stateOf (stmt rules mode st s))
  | .expr e span, s => by
    rw [stmt_expr, stateOf_mapOk]
    exact expr_evolves rules mode _ e s
  | .block body span, s => by
    have hs := statements_evolves body s.pushed
    rw [stmt_block, stateOf_mapOk, inScope_apply hs.confined]
    cases ht : statements rules mode body s.pushed with
    | ok typed s' =>
      rw [ht] at hs
      exact hs.scope
    | error e s' =>
      rw [ht] at hs
      exact hs.scope
  | .bind name value span, s => by
    rw [stmt_bind]
    exact binding_evolves rules mode name value span s ⟨name, value, span, List.mem_cons_self, rfl⟩
  | .print e span, s => by
    rw [stmt_print, stateOf_mapOk]
    exact expr_evolves rules mode _ e s
  | .stray kind, s => .refl s
/-- What checking a list of statements does: it binds at most the names of its own `let`s. -/
theorem statements_evolves : ∀ (l : List Stmt) (s : State),
    Evolves (Stmt.HasLet l) s (stateOf (statements rules mode l s))
  | [], s => .refl s
  | st :: rest, s => by
    have hs : Evolves (Stmt.HasLet (st :: rest)) s (stateOf (stmt rules mode st s)) :=
      (stmt_evolves st s).mono fun _ hn => Stmt.hasLet_cons.mpr (.inl hn)
    have hrest (s' : State) :
        Evolves (Stmt.HasLet (st :: rest)) s' (stateOf (statements rules mode rest s')) :=
      (statements_evolves rest s').mono fun _ hn => Stmt.hasLet_cons.mpr (.inr hn)
    rw [statements_cons]
    cases ht : stmt rules mode st s with
    | ok typed s' =>
      rw [ht] at hs
      rw [stateOf_mapOk]
      exact hs.trans (hrest s')
    | error e s' =>
      rw [ht] at hs
      dsimp only
      split
      · next d => exact hs.trans (.trans (.record d) (hrest _))
      · exact hs
end

/-- Checking a statement is confined. -/
theorem stmt_confined (st : Stmt) (s : State) : Confined s (stateOf (stmt rules mode st s)) :=
  (stmt_evolves rules mode st s).confined

/-- Checking a list of statements is confined. -/
theorem statements_confined (l : List Stmt) (s : State) :
    Confined s (stateOf (statements rules mode l s)) :=
  (statements_evolves rules mode l s).confined

/-! ### The slots of a typed tree -/

theorem expr_slots {e : Expr} {s s' : State} {t : Typed.Expr}
    (h : expr rules mode e s = .ok t s') : s' = s.growAll t.slots := by
  have hs := expr_grown rules mode e s
  rw [h] at hs
  exact hs

theorem binding_slots {name : Ident} {value : Expr} {span : Span} {s s' : State}
    {typed : Typed.Stmt} (h : binding rules mode name value span s = .ok typed s') :
    s'.arena.slots.toList = s.arena.slots.toList ++ typed.slots s.arena.size := by
  rw [binding_apply] at h
  cases ht : expr rules mode value s with
  | error e s₁ => simp [ht] at h
  | ok t s₁ =>
    rw [ht] at h
    dsimp only at h
    cases hb : s₁.bindings.insert name.name (some (s₁.arena.size + 1 + 1)) with
    | error e => simp [hb] at h
    | ok bindings =>
      rw [hb] at h
      cases h
      have hs := expr_slots rules mode ht
      have hsize : s₁.arena.size = s.arena.size + t.slots.length := by
        rw [hs, Arena.size, ← Array.length_toList, State.slots_growAll, List.length_append]
        rfl
      rw [show ((s₁.growLink t.slot name.span).bound name.name (s₁.arena.size + 1 + 1)
        bindings).arena = (s₁.growLink t.slot name.span).arena from rfl,
        State.slots_growLink, hsize]
      have hlink : ((s.arena.size + t.slots.length : Nat) : Int) + 1 =
          (s.arena.size + (t.slots ++ [t.slot]).length : Nat) := by
        rw [List.length_append, List.length_singleton]
        omega
      rw [hs, State.slots_growAll, Typed.Stmt.slots, hlink, List.append_assoc, List.append_assoc]
      rfl

mutual
/-- A statement that is checked without recording anything adds the slots of its typed tree. -/
theorem stmt_slots : ∀ (st : Stmt) {s s' : State} {typed : Typed.Stmt},
    stmt rules mode st s = .ok typed s' → s'.recorded = s.recorded →
      s'.arena.slots.toList = s.arena.slots.toList ++ typed.slots s.arena.size
  | .expr e span, s, s', typed, h, _ => by
    rw [stmt_expr] at h
    cases ht : expr rules mode e s with
    | error f s₁ => simp [ht, mapOk] at h
    | ok t s₁ =>
      rw [ht] at h
      cases h
      rw [expr_slots rules mode ht, State.slots_growAll, Typed.Stmt.slots]
  | .block body span, s, s', typed, h, hr => by
    rw [stmt_block, inScope_apply (statements_confined rules mode body s.pushed)] at h
    cases ht : statements rules mode body s.pushed with
    | error f s₁ => simp [ht, mapOk] at h
    | ok t s₁ =>
      rw [ht] at h
      cases h
      have hb := statements_slots body ht hr
      exact hb
  | .bind name value span, s, s', typed, h, _ => by
    rw [stmt_bind] at h
    exact binding_slots rules mode h
  | .print e span, s, s', typed, h, _ => by
    rw [stmt_print] at h
    cases ht : expr rules mode e s with
    | error f s₁ => simp [ht, mapOk] at h
    | ok t s₁ =>
      rw [ht] at h
      cases h
      rw [expr_slots rules mode ht, State.slots_growAll, Typed.Stmt.slots]
  | .stray kind, s, s', typed, h, _ => by
    rw [stmt] at h
    cases h
/-- Statements that are checked without recording anything add the slots of their typed trees. -/
theorem statements_slots : ∀ (l : List Stmt) {s s' : State} {typed : List Typed.Stmt},
    statements rules mode l s = .ok typed s' → s'.recorded = s.recorded →
      s'.arena.slots.toList =
        s.arena.slots.toList ++ Typed.Stmt.slotsList s.arena.size typed
  | [], s, s', typed, h, _ => by
    rw [statements] at h
    cases h
    simp [Typed.Stmt.slotsList]
  | st :: rest, s, s', typed, h, hr => by
    have hs := (stmt_confined rules mode st s).recorded
    rw [statements_cons] at h
    cases ht : stmt rules mode st s with
    | ok t s₁ =>
      rw [ht] at h hs
      dsimp only at h
      cases hm : statements rules mode rest s₁ with
      | error f s₂ => simp [hm, mapOk] at h
      | ok more s₂ =>
        have hs₁ := (statements_confined rules mode rest s₁).recorded
        rw [hm] at h hs₁
        cases h
        -- what is recorded neither before nor after is not recorded in between
        have hr₁ : s₁.recorded = s.recorded :=
          (hs.eq_of_length_le (hr ▸ hs₁.length_le)).symm
        have hown := stmt_slots st ht hr₁
        have hsize : s₁.arena.size = s.arena.size + (t.slots s.arena.size).length := by
          rw [Arena.size, ← Array.length_toList, hown, List.length_append]
          rfl
        rw [statements_slots rest hm (hr.trans hr₁.symm), hown, hsize, List.append_assoc,
          Typed.Stmt.slotsList]
    | error e s₁ =>
      rw [ht] at h hs
      dsimp only at h
      split at h
      · next d =>
        have hs₁ := (statements_confined rules .accumulate rest
          { s₁ with recorded := s₁.recorded ++ [d] }).recorded
        rw [h] at hs₁
        have hlen := hs₁.length_le
        have hlen₀ := hs.length_le
        simp only [stateOf, List.length_append, List.length_singleton] at hlen hlen₀
        rw [hr] at hlen
        omega
      · cases h
end

end Check

end NumCheck
