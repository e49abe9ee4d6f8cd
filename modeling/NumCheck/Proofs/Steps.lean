import NumCheck.Check.Walk
import NumCheck.Proofs.Chains
import NumCheck.Typed.Slots

/-!
# Steps of a check

The check is written with the operations of a state monad. Here each form of expression and of
statement gets one equation that says what it does to a state: in which order its parts are
checked, which slots are made, and how the answers of the arena come out. A slot that has just
been made is a root, whatever else the arena holds, so all these equations hold in every state.

After this module nothing unfolds the monad, and only variables need to know what an arena has
in its older slots.
-/

namespace NumCheck.Check

/-! ### Results -/

theorem bind_ok {α β : Type} {x : CheckM α} {f : α → CheckM β} {s s' : State} {v : α}
    (h : x s = .ok v s') : (x >>= f) s = f v s' := by
  simp only [bind, EStateM.bind, h]

theorem bind_error {α β : Type} {x : CheckM α} {f : α → CheckM β} {s s' : State} {e : Failure}
    (h : x s = .error e s') : (x >>= f) s = .error e s' := by
  simp only [bind, EStateM.bind, h]

/-- Another value for a result that has one. -/
def mapOk {α β : Type} (f : α → β) :
    EStateM.Result Failure State α → EStateM.Result Failure State β
  | .ok v s => .ok (f v) s
  | .error e s => .error e s

theorem bind_pure_apply {α β : Type} (x : CheckM α) (f : α → β) (s : State) :
    (x >>= fun v => pure (f v)) s = mapOk f (x s) := by
  cases h : x s with
  | ok v s' => exact bind_ok h
  | error e s' => exact bind_error h

theorem tryCatch_ok {α : Type} {x : CheckM α} {f : Failure → CheckM α} {s s' : State} {v : α}
    (h : x s = .ok v s') : tryCatch x f s = .ok v s' := by
  simp only [tryCatch, tryCatchThe, MonadExceptOf.tryCatch]
  delta EStateM.tryCatch
  simp only [h]

theorem tryCatch_error {α : Type} {x : CheckM α} {f : Failure → CheckM α} {s s' : State}
    {e : Failure} (h : x s = .error e s') : tryCatch x f s = f e s' := by
  simp only [tryCatch, tryCatchThe, MonadExceptOf.tryCatch]
  delta EStateM.tryCatch
  simp only [h]
  rfl

theorem attempt_ok {α : Type} {x : CheckM α} {s s' : State} {v : α} (h : x s = .ok v s') :
    attempt x s = .ok (.ok v) s' := by
  rw [attempt, h]

theorem attempt_rejected {α : Type} {x : CheckM α} {s s' : State} {d : Diagnostic}
    (h : x s = .error (.rejected d) s') : attempt x s = .ok (.error d) s' := by
  rw [attempt, h]

theorem attempt_fault {α : Type} {x : CheckM α} {s s' : State} {f : Fault}
    (h : x s = .error (.fault f) s') : attempt x s = .error (.fault f) s' := by
  rw [attempt, h]

/-! ### New slots -/

/-- The state with one more slot. -/
def State.grow (s : State) (slot : Slot) : State :=
  { s with
    arena := ⟨s.arena.slots.push slot⟩
    log := s.log.push (.insert (s.arena.size + 1) slot) }

/-- The state with more slots. -/
def State.growAll (s : State) (new : List Slot) : State := new.foldl State.grow s

theorem State.slots_grow (s : State) (slot : Slot) :
    (s.grow slot).arena.slots.toList = s.arena.slots.toList ++ [slot] := by
  simp [State.grow]

theorem State.growAll_append (s : State) (new more : List Slot) :
    s.growAll (new ++ more) = (s.growAll new).growAll more :=
  List.foldl_append

@[simp] theorem State.bindings_growAll (s : State) (new : List Slot) :
    (s.growAll new).bindings = s.bindings := by
  induction new generalizing s with
  | nil => rfl
  | cons slot new ih => exact ih (s.grow slot)

@[simp] theorem State.recorded_growAll (s : State) (new : List Slot) :
    (s.growAll new).recorded = s.recorded := by
  induction new generalizing s with
  | nil => rfl
  | cons slot new ih => exact ih (s.grow slot)

theorem State.slots_growAll (s : State) (new : List Slot) :
    (s.growAll new).arena.slots.toList = s.arena.slots.toList ++ new := by
  induction new generalizing s with
  | nil => simp [State.growAll]
  | cons slot new ih =>
    rw [show s.growAll (slot :: new) = (s.grow slot).growAll new from rfl, ih, State.slots_grow,
      List.append_assoc, List.singleton_append]

theorem newSlot_apply (c : Content) (span : Span) (s : State) :
    newSlot c span s = .ok (s.arena.size + 1 : Int) (s.grow ⟨c, span⟩) := rfl

theorem State.size_grow (s : State) (slot : Slot) :
    (s.grow slot).arena.size = s.arena.size + 1 := Array.size_push ..

theorem State.get?_grow (s : State) (slot : Slot) {x : Int} :
    (s.grow slot).arena.get? x = if x = s.arena.size + 1 then some slot else s.arena.get? x :=
  Arena.get?_insert slot.content slot.span

/-- The slot that has been made last. -/
theorem State.get?_grow_new (s : State) (slot : Slot) :
    (s.grow slot).arena.get? (s.arena.size + 1 : Int) = some slot := by
  rw [State.get?_grow, if_pos rfl]

/-- The slot that has been made before the last one. -/
theorem State.get?_grow_grow (s : State) (first second : Slot) :
    ((s.grow first).grow second).arena.get? (s.arena.size + 1 : Int) = some first := by
  rw [State.get?_grow, if_neg (by rw [State.size_grow]; omega), State.get?_grow_new]

theorem resolve_of_arena {s : State} {id : SlotId} {t : Ty} (h : s.arena.resolve id = .ok t) :
    resolve id s = .ok t s := by
  rw [resolve, h]

theorem resolve_of_get? {s : State} {id : SlotId} {t : Ty} {span : Span}
    (h : s.arena.get? id = some ⟨.known t, span⟩) : resolve id s = .ok t s :=
  resolve_of_arena (Arena.resolve_eq_ok_iff.mpr
    ⟨id, _, .root h fun _ => Content.noConfusion, h, rfl⟩)

theorem unify_agree {s : State} {x y : SlotId} (h : s.arena.union x y = .ok .agree) :
    unify x y s = .ok () s := by
  rw [unify, h]
  simp [Arena.apply, Event.ofUnion?]

theorem unify_clash {s : State} {x y : SlotId} {first second : Slot}
    (h : s.arena.union x y = .ok (.clash first second)) :
    unify x y s =
      .error (.problem (.typeMismatch first.span second.span first.content second.content)) s := by
  rw [unify, h]
  rfl

theorem unify_link {s : State} {x y u v : SlotId} (h : s.arena.union x y = .ok (.link u v)) :
    unify x y s =
      .ok () { s with arena := s.arena.setContent u (.link v), log := s.log.push (.link u v) } := by
  rw [unify, h]
  simp [Arena.apply, Event.ofUnion?]

/-! ### Expressions -/

variable (rules : Rules) (mode : Mode)

/-- A variable has the type of the slot that it is bound to. -/
theorem expr_var (name : Ident) (span : Span) (s : State) :
    expr rules mode (.var name span) s =
      match (s.bindings.get? name.name).join with
      | none => .error (.problem (.undefinedVariable name.name span)) s
      | some id =>
        match s.arena.resolve id with
        | .ok ty => .ok (.var name ty span) s
        | .error e => .error (.ofArena e) s := by
  rw [expr]
  cases hb : (s.bindings.get? name.name).join with
  | none => exact bind_error (by rw [lookupName, hb])
  | some id =>
    refine (bind_ok (show lookupName name.name span s = .ok id s by rw [lookupName, hb])).trans ?_
    dsimp only
    cases hr : s.arena.resolve id with
    | ok ty => exact bind_ok (resolve_of_arena hr)
    | error e => exact bind_error (by rw [resolve, hr])

/-- A prefixed expression makes a slot for its operand, and the rules are asked for its type. -/
theorem expr_prefixed (op : Operator) (operand : Expr) (span : Span) (s : State) :
    expr rules mode (.prefixed op operand span) s =
      match UnaryOp.ofSymbol? op.symbol with
      | none => .error (.problem (.custom op.span s!"Unknown prefix operator '{op.symbol}'")) s
      | some lowered =>
        match expr rules mode operand s with
        | .error e s' => .error e s'
        | .ok t s' =>
          match rules.unary lowered t.ty with
          | some ty => .ok (.prefixed (.unary lowered) op.span t ty span) (s'.grow t.slot)
          | none =>
            .error (.problem (.cannotApplyUnary op.span (.unary lowered) t.ty))
              (s'.grow t.slot) := by
  rw [expr, lowerUnary]
  cases UnaryOp.ofSymbol? op.symbol with
  | none => rfl
  | some lowered =>
    simp only [pure_bind]
    cases ht : expr rules mode operand s with
    | error e s' => exact bind_error ht
    | ok t s' =>
      refine (bind_ok ht).trans ?_
      refine (bind_ok (newSlot_apply _ _ s')).trans ?_
      refine (bind_ok (resolve_of_get? (State.get?_grow_new _ _))).trans ?_
      dsimp only
      cases rules.unary lowered t.ty <;> rfl

/-- The failures of two operands are put together only in `accumulate` mode, where a diagnostic
of the first does not keep the second from being checked. -/
theorem operands_apply (x y : CheckM Typed.Expr) (s : State) :
    operands mode x y s =
      match x s with
      | .ok l s₁ =>
        match y s₁ with
        | .ok r s₂ => .ok (l, r) s₂
        | .error e s₂ => .error e s₂
      | .error e s₁ =>
        match mode, e with
        | .accumulate, .rejected d =>
          match y s₁ with
          | .ok _ s₂ => .error (.rejected d) s₂
          | .error (.rejected e) s₂ => .error (.rejected (.many [d, e])) s₂
          | .error (.fault f) s₂ => .error (.fault f) s₂
        | _, _ => .error e s₁ := by
  cases mode with
  | failFast =>
    cases hx : x s with
    | error e s₁ => exact bind_error hx
    | ok l s₁ =>
      refine (bind_ok hx).trans ?_
      dsimp only
      cases hy : y s₁ with
      | error e s₂ => exact bind_error hy
      | ok r s₂ => exact bind_ok hy
  | accumulate =>
    cases hx : x s with
    | ok l s₁ =>
      refine (bind_ok (attempt_ok hx)).trans ?_
      dsimp only
      rcases hy : y s₁ with ⟨r, s₂⟩ | ⟨e | f, s₂⟩
      · exact bind_ok (attempt_ok hy)
      · exact bind_ok (attempt_rejected hy)
      · exact bind_error (attempt_fault hy)
    | error e s₁ =>
      cases e with
      | rejected d =>
        refine (bind_ok (attempt_rejected hx)).trans ?_
        dsimp only
        rcases hy : y s₁ with ⟨r, s₂⟩ | ⟨e | f, s₂⟩
        · exact bind_ok (attempt_ok hy)
        · exact bind_ok (attempt_rejected hy)
        · exact bind_error (attempt_fault hy)
      | fault f => exact bind_error (attempt_fault hx)

/-- Two new slots with types are unified exactly if the types are the same, and stay as they
are. -/
theorem unify_grow_grow (s : State) (t u : Ty) (span₁ span₂ : Span) :
    unify (s.arena.size + 1 : Int) ((s.arena.size + 1 : Nat) + 1 : Int)
        ((s.grow ⟨.known t, span₁⟩).grow ⟨.known u, span₂⟩) =
      if t = u then .ok () ((s.grow ⟨.known t, span₁⟩).grow ⟨.known u, span₂⟩)
      else .error (.problem (.typeMismatch span₁ span₂ (.known t) (.known u)))
        ((s.grow ⟨.known t, span₁⟩).grow ⟨.known u, span₂⟩) := by
  have hx := State.get?_grow_grow s ⟨.known t, span₁⟩ ⟨.known u, span₂⟩
  have hy := State.get?_grow_new (s.grow ⟨.known t, span₁⟩) ⟨.known u, span₂⟩
  rw [State.size_grow] at hy
  have hu := Arena.union_of_leads (.root hx fun _ => Content.noConfusion)
    (.root hy fun _ => Content.noConfusion) hx hy
  rw [if_neg (show ¬ (s.arena.size + 1 : Int) = (s.arena.size + 1 : Nat) + 1 by omega)] at hu
  by_cases htu : t = u
  · simp only [if_pos htu] at hu ⊢
    exact unify_agree hu
  · simp only [if_neg htu] at hu ⊢
    exact unify_clash hu

/-- A binary expression makes a slot for each operand. Operands of different types are refused
without asking the rules. -/
theorem expr_binary (op : Operator) (lhs rhs : Expr) (span : Span) (s : State) :
    expr rules mode (.binary op lhs rhs span) s =
      match BinaryOp.ofSymbol? op.symbol with
      | none => .error (.problem (.custom op.span s!"Unknown binary operator '{op.symbol}'")) s
      | some lowered =>
        match operands mode (expr rules mode lhs) (expr rules mode rhs) s with
        | .error e s' => .error e s'
        | .ok (l, r) s' =>
          match if l.ty = r.ty then rules.binary l.ty r.ty else none with
          | some ty =>
            .ok (.binary (.binary lowered) op.span l r ty span) ((s'.grow l.slot).grow r.slot)
          | none =>
            .error (.problem (.cannotApplyBinary op.span (.binary lowered) l.ty r.ty))
              ((s'.grow l.slot).grow r.slot) := by
  rw [expr, lowerBinary]
  cases BinaryOp.ofSymbol? op.symbol with
  | none => rfl
  | some lowered =>
    simp only [pure_bind]
    cases ht : operands mode (expr rules mode lhs) (expr rules mode rhs) s with
    | error e s' => exact bind_error ht
    | ok lr s' =>
      obtain ⟨l, r⟩ := lr
      refine (bind_ok ht).trans ?_
      refine (bind_ok (newSlot_apply _ _ s')).trans ?_
      refine (bind_ok (newSlot_apply _ _ _)).trans ?_
      have hu := unify_grow_grow s' l.ty r.ty l.span r.span
      rw [State.size_grow]
      dsimp only
      by_cases hlr : l.ty = r.ty
      · rw [if_pos hlr] at hu ⊢
        refine (bind_ok (tryCatch_ok hu)).trans ?_
        have hy := State.get?_grow_new (s'.grow l.slot) r.slot
        rw [State.size_grow] at hy
        refine (bind_ok (resolve_of_get? (State.get?_grow_grow _ _ _))).trans ?_
        refine (bind_ok (resolve_of_get? hy)).trans ?_
        cases rules.binary l.ty r.ty <;> rfl
      · rw [if_neg hlr] at hu ⊢
        exact bind_error (tryCatch_error hu)

/-! ### Statements -/

/-- The state with one more slot and a link to it. -/
def State.growLink (s : State) (slot : Slot) (span : Span) : State :=
  { s with
    arena := ⟨(s.arena.slots.push slot).push ⟨.link (s.arena.size + 1), span⟩⟩
    log := ((s.grow slot).grow ⟨.unknown, span⟩).log.push
      (.link (s.arena.size + 1 + 1) (s.arena.size + 1)) }

theorem State.slots_growLink (s : State) (slot : Slot) (span : Span) :
    (s.growLink slot span).arena.slots.toList =
      s.arena.slots.toList ++ [slot, ⟨.link (s.arena.size + 1), span⟩] := by
  simp [State.growLink]

/-- An unknown slot that is unified with the slot before it becomes a link to it. -/
theorem unify_growLink (s : State) (t : Ty) (span₁ span₂ : Span) :
    unify (s.arena.size + 1 : Int) ((s.arena.size + 1 : Nat) + 1 : Int)
        ((s.grow ⟨.known t, span₁⟩).grow ⟨.unknown, span₂⟩) =
      .ok () (s.growLink ⟨.known t, span₁⟩ span₂) := by
  have hx := State.get?_grow_grow s ⟨.known t, span₁⟩ ⟨.unknown, span₂⟩
  have hy := State.get?_grow_new (s.grow ⟨.known t, span₁⟩) ⟨.unknown, span₂⟩
  rw [State.size_grow] at hy
  have hu := Arena.union_of_leads (.root hx fun _ => Content.noConfusion)
    (.root hy fun _ => Content.noConfusion) hx hy
  rw [if_neg (show ¬ (s.arena.size + 1 : Int) = (s.arena.size + 1 : Nat) + 1 by omega)] at hu
  rw [unify_link hu]
  have hset := Arena.setContent_push (s.grow ⟨.known t, span₁⟩).arena.slots ⟨.unknown, span₂⟩
    (.link (s.arena.size + 1 : Int))
  rw [show (s.grow ⟨.known t, span₁⟩).arena.slots.size = s.arena.size + 1 from
    State.size_grow ..] at hset
  rw [show ((s.grow ⟨.known t, span₁⟩).grow ⟨.unknown, span₂⟩).arena =
    ⟨(s.grow ⟨.known t, span₁⟩).arena.slots.push ⟨.unknown, span₂⟩⟩ from rfl, hset]
  rfl

/-- The state with the bindings in which a name has slot `id`. -/
def State.bound (s : State) (name : String) (id : SlotId)
    (bindings : Scopes String (Option SlotId)) : State :=
  { s with bindings, log := s.log.push (.bind name id) }

theorem bindName_ok {s : State} {name : String} {id : Option SlotId}
    {bindings : Scopes String (Option SlotId)} (h : s.bindings.insert name id = .ok bindings) :
    bindName name id s = .ok () { s with bindings } := by
  rw [bindName, h]

theorem bindName_error {s : State} {name : String} {id : Option SlotId} {e : Scopes.Error}
    (h : s.bindings.insert name id = .error e) :
    bindName name id s = .error (.fault (.scopes e)) s := by
  rw [bindName, h]

/-- A `let` makes a slot for its value and a link to it, to which the name is bound. -/
theorem binding_apply (name : Ident) (value : Expr) (span : Span) (s : State) :
    binding rules mode name value span s =
      match expr rules mode value s with
      | .error e s' => .error e s'
      | .ok t s' =>
        match s'.bindings.insert name.name (some (s'.arena.size + 1 + 1)) with
        | .error e => .error (.fault (.scopes e)) (s'.growLink t.slot name.span)
        | .ok bindings =>
          .ok (.bind name t span)
            ((s'.growLink t.slot name.span).bound name.name (s'.arena.size + 1 + 1) bindings) := by
  rw [binding]
  cases ht : expr rules mode value s with
  | error e s' => exact bind_error ht
  | ok t s' =>
    refine (bind_ok ht).trans ?_
    refine (bind_ok (newSlot_apply _ _ s')).trans ?_
    refine (bind_ok (newSlot_apply _ _ _)).trans ?_
    rw [State.size_grow]
    refine (bind_ok (unify_growLink s' t.ty t.span name.span)).trans ?_
    dsimp only
    cases hi : s'.bindings.insert name.name (some (s'.arena.size + 1 + 1)) with
    | error e => exact bind_error (bindName_error (s := s'.growLink t.slot name.span) hi)
    | ok bindings => exact bind_ok (bindName_ok (s := s'.growLink t.slot name.span) hi)

/-- The state at the start of a scope. -/
def State.pushed (s : State) : State :=
  { s with bindings := s.bindings.push, log := s.log.push (.pushScope (s.bindings.depth + 1)) }

/-- The state at the end of a scope, of which the outer frames are left. -/
def State.popped (s : State) (outer : List (Frame String (Option SlotId))) : State :=
  { s with bindings := ⟨outer⟩, log := s.log.push (.popScope outer.length) }

theorem pushScope_apply (s : State) : pushScope s = .ok () s.pushed := rfl

theorem popScope_apply {s : State} {frame : Frame String (Option SlotId)}
    {outer : List (Frame String (Option SlotId))} (h : s.bindings.frames = frame :: outer) :
    popScope s = .ok () (s.popped outer) := by
  rw [popScope, Scopes.pop, h]
  rfl

theorem inScope_ok {α : Type} {x : CheckM α} {s s' : State} {v : α}
    {frame : Frame String (Option SlotId)} {outer : List (Frame String (Option SlotId))}
    (h : x s.pushed = .ok v s') (hf : s'.bindings.frames = frame :: outer) :
    inScope x s = .ok v (s'.popped outer) := by
  refine (bind_ok (pushScope_apply s)).trans ?_
  simp only [tryFinally, tryFinally', Functor.map, EStateM.map, h, popScope_apply hf]

theorem inScope_error {α : Type} {x : CheckM α} {s s' : State} {e : Failure}
    {frame : Frame String (Option SlotId)} {outer : List (Frame String (Option SlotId))}
    (h : x s.pushed = .error e s') (hf : s'.bindings.frames = frame :: outer) :
    inScope x s = .error e (s'.popped outer) := by
  refine (bind_ok (pushScope_apply s)).trans ?_
  simp only [tryFinally, tryFinally', Functor.map, EStateM.map, h, popScope_apply hf]

theorem stmt_expr (e : Expr) (span : Span) (s : State) :
    stmt rules mode (.expr e span) s = mapOk (.expr · span) (expr rules mode e s) := by
  rw [stmt]
  exact bind_pure_apply _ (Typed.Stmt.expr · span) s

theorem stmt_print (e : Expr) (span : Span) (s : State) :
    stmt rules mode (.print e span) s = mapOk (.print · span) (expr rules mode e s) := by
  rw [stmt]
  exact bind_pure_apply _ (Typed.Stmt.print · span) s

theorem stmt_block (body : List Stmt) (span : Span) (s : State) :
    stmt rules mode (.block body span) s =
      mapOk (.block · span) (inScope (statements rules mode body) s) := by
  rw [stmt]
  exact bind_pure_apply _ (Typed.Stmt.block · span) s

theorem stmt_bind (name : Ident) (value : Expr) (span : Span) (s : State) :
    stmt rules mode (.bind name value span) s = binding rules mode name value span s := by
  rw [stmt]

/-- A list of statements is checked in order. Only in `accumulate` mode does it go on after a
diagnostic, which is then recorded. -/
theorem statements_cons (st : Stmt) (rest : List Stmt) (s : State) :
    statements rules mode (st :: rest) s =
      match stmt rules mode st s with
      | .ok typed s' => mapOk (typed :: ·) (statements rules mode rest s')
      | .error e s' =>
        match mode, e with
        | .accumulate, .rejected d =>
          statements rules mode rest { s' with recorded := s'.recorded ++ [d] }
        | _, _ => .error e s' := by
  rw [statements.eq_def]
  cases mode with
  | failFast =>
    cases ht : stmt rules .failFast st s with
    | error e s' => exact bind_error ht
    | ok typed s' => exact (bind_ok ht).trans (bind_pure_apply _ (typed :: ·) s')
  | accumulate =>
    cases ht : stmt rules .accumulate st s with
    | ok typed s' => exact (bind_ok (attempt_ok ht)).trans (bind_pure_apply _ (typed :: ·) s')
    | error e s' =>
      cases e with
      | rejected d => exact bind_ok (attempt_rejected ht)
      | fault f => exact bind_error (attempt_fault ht)

end NumCheck.Check
