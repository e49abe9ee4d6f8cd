import Mathlib.Logic.Equiv.Basic
import NumCheck.Check.Relabel
import NumCheck.Proofs.Modes
import NumCheck.Syntax.MapSpans

/-!
# Labels do not matter

A check copies spans and compares names, and does nothing else with them. So it commutes with every
relabelling that keeps different names different: if the program and the state at the start get
other labels, then all that comes out gets these labels, and nothing else changes. This holds of
every form of expression and of statement, however it ends, and from any state.

Relabellings that make different names equal are left out: a variable could then find a `let` that
was not its own.
-/

namespace NumCheck

/-! ### Scopes with other keys -/

section Keys

variable {κ κ' ν : Type} [DecidableEq κ] [DecidableEq κ'] {g : κ → κ'}

theorem Frame.lookup_mapKeys (hg : Function.Injective g) (frame : Frame κ ν) (key : κ) :
    (Frame.mapKeys g frame).lookup (g key) = frame.lookup key := by
  induction frame with
  | nil => rfl
  | cons entry rest ih =>
    obtain ⟨k, v⟩ := entry
    rw [Frame.mapKeys, List.map_cons, lookup_cons_ite, lookup_cons_ite]
    by_cases hk : key = k
    · rw [if_pos hk, if_pos (congrArg g hk)]
    · rw [if_neg hk, if_neg (hg.ne hk)]
      exact ih

theorem Frame.insert_mapKeys (hg : Function.Injective g) (frame : Frame κ ν) (key : κ)
    (value : ν) :
    Frame.insert (g key) value (Frame.mapKeys g frame) =
      Frame.mapKeys g (Frame.insert key value frame) := by
  induction frame with
  | nil => rfl
  | cons entry rest ih =>
    obtain ⟨k, v⟩ := entry
    rw [Frame.insert, Frame.mapKeys, List.map_cons, Frame.insert]
    by_cases hk : k = key
    · rw [if_pos hk, if_pos (congrArg g hk)]
      rfl
    · rw [if_neg hk, if_neg (hg.ne hk)]
      exact congrArg ((g k, v) :: ·) ih

/-- A key is found where it was. -/
theorem Scopes.get?_mapKeys (hg : Function.Injective g) (s : Scopes κ ν) (key : κ) :
    (s.mapKeys g).get? (g key) = s.get? key := by
  rw [Scopes.get?, Scopes.mapKeys, List.findSome?_map, Scopes.get?]
  congr 1
  funext frame
  exact Frame.lookup_mapKeys hg frame key

theorem Scopes.insert_mapKeys (hg : Function.Injective g) (s : Scopes κ ν) (key : κ) (value : ν) :
    (s.mapKeys g).insert (g key) value = (s.insert key value).map (Scopes.mapKeys g) := by
  obtain ⟨frames⟩ := s
  cases frames with
  | nil => rfl
  | cons frame outer =>
    simp only [Scopes.insert, Scopes.mapKeys, List.map_cons, Frame.insert_mapKeys hg, Except.map]

end Keys

/-! ### Other spans alone, and other names alone -/

theorem Expr.relabel_ofSpans (f : Span → Span) (e : Expr) :
    e.relabel (.ofSpans f) = e.mapSpans f := by
  induction e with
  | var name span => rfl
  | literal value span => rfl
  | prefixed op operand span ih =>
    rw [relabel, mapSpans, ih]
    rfl
  | binary op lhs rhs span ihl ihr =>
    rw [relabel, mapSpans, ihl, ihr]
    rfl
  | stray kind => rfl

mutual
theorem Stmt.relabel_ofSpans (f : Span → Span) : ∀ s : Stmt,
    s.relabel (.ofSpans f) = s.mapSpans f
  | .expr e span => congrArg (Stmt.expr · (f span)) (e.relabel_ofSpans f)
  | .block statements span =>
    congrArg (Stmt.block · (f span)) (Stmt.relabelList_ofSpans f statements)
  | .bind name value span =>
    congrArg (Stmt.bind (name.mapSpan f) · (f span)) (value.relabel_ofSpans f)
  | .print e span => congrArg (Stmt.print · (f span)) (e.relabel_ofSpans f)
  | .stray _ => rfl
theorem Stmt.relabelList_ofSpans (f : Span → Span) : ∀ l : List Stmt,
    Stmt.relabelList (.ofSpans f) l = Stmt.mapSpansList f l
  | [] => rfl
  | s :: rest => congrArg₂ List.cons (s.relabel_ofSpans f) (Stmt.relabelList_ofSpans f rest)
end

theorem Program.relabel_ofSpans (f : Span → Span) (p : Program) :
    p.relabel (.ofSpans f) = p.mapSpans f :=
  congrArg (Program.mk · (f p.span)) (Stmt.relabelList_ofSpans f p.statements)

/-- Slots have no names. -/
theorem Arena.relabel_ofNames (r : String → String) (a : Arena) : a.relabel (.ofNames r) = a :=
  congrArg Arena.mk (Array.map_id' a.slots)

variable (ρ : Relabelling)

/-! ### Arenas about other spans -/

namespace Arena

@[simp] theorem size_relabel (a : Arena) : (a.relabel ρ).size = a.size := Array.size_map

theorem get?_relabel (a : Arena) (id : SlotId) :
    (a.relabel ρ).get? id = (a.get? id).map (·.relabel ρ) := by
  rw [get?, get?]
  split
  · exact Array.getElem?_map
  · rfl

/-- Chains of links do not depend on spans. -/
theorem follow_relabel (a : Arena) (fuel : Nat) (seen : List SlotId) (id : SlotId) :
    (a.relabel ρ).follow fuel seen id = a.follow fuel seen id := by
  induction fuel generalizing seen id with
  | zero => rfl
  | succ fuel ih =>
    rw [follow, follow, get?_relabel]
    cases a.get? id with
    | none => rfl
    | some slot =>
      simp only [Option.map_some, Slot.relabel, ih]

theorem slot_relabel (a : Arena) (id : SlotId) :
    (a.relabel ρ).slot id = (a.slot id).map (·.relabel ρ) := by
  rw [slot, slot, get?_relabel]
  cases a.get? id <;> rfl

theorem rootContent_relabel (a : Arena) (id : SlotId) :
    (a.relabel ρ).rootContent id = a.rootContent id := by
  rw [rootContent, rootContent, root, root, size_relabel, follow_relabel]
  cases a.follow (a.size + 1) [] id with
  | error f => rfl
  | ok r =>
    simp only [bind, Except.bind, slot_relabel]
    cases a.slot r <;> rfl

/-- A slot has the same type, or none for the same reason. -/
theorem resolve_relabel (a : Arena) (id : SlotId) :
    (a.relabel ρ).resolve id = (a.resolve id).mapError (·.relabel ρ) := by
  rw [resolve, resolve, slot_relabel, rootContent_relabel]
  cases a.slot id with
  | error f => rfl
  | ok slot =>
    rcases a.rootContent id with f | c
    · rfl
    · cases c <;> rfl

end Arena

/-! ### Typed trees and diagnostics -/

@[simp] theorem Typed.Expr.ty_relabel (t : Typed.Expr) : (t.relabel ρ).ty = t.ty := by
  cases t <;> rfl

/-- Stray nodes have no span of their own that could be another. -/
theorem Typed.Expr.slot_relabel {t : Typed.Expr} (h : ∀ kind, t ≠ .stray kind) :
    (t.relabel ρ).slot = t.slot.relabel ρ := by
  cases t with
  | stray kind => exact absurd rfl (h kind)
  | var | literal | prefixed | binary => rfl

theorem Typed.Stmt.length_relabelList (l : List Typed.Stmt) :
    (Typed.Stmt.relabelList ρ l).length = l.length := by
  induction l with
  | nil => rfl
  | cons t rest ih => rw [relabelList, List.length_cons, ih, List.length_cons]

theorem Diagnostic.relabelList_append (ds es : List Diagnostic) :
    relabelList ρ (ds ++ es) = relabelList ρ ds ++ relabelList ρ es := by
  induction ds with
  | nil => rfl
  | cons d ds ih => rw [List.cons_append, relabelList, ih, relabelList, List.cons_append]

theorem Diagnostic.combine_relabelList (ds : List Diagnostic) :
    combine (relabelList ρ ds) = (combine ds).map (·.relabel ρ) := by
  rcases ds with _ | ⟨d, _ | ⟨e, es⟩⟩ <;> rfl

namespace Check

/-! ### States -/

namespace State

@[simp] theorem arena_relabel (s : State) : (s.relabel ρ).arena = s.arena.relabel ρ := rfl

@[simp] theorem bindings_relabel (s : State) :
    (s.relabel ρ).bindings = s.bindings.mapKeys ρ.name := rfl

@[simp] theorem recorded_relabel (s : State) :
    (s.relabel ρ).recorded = Diagnostic.relabelList ρ s.recorded := rfl

theorem grow_relabel (s : State) (slot : Slot) :
    (s.relabel ρ).grow (slot.relabel ρ) = (s.grow slot).relabel ρ := by
  simp [grow, relabel, Arena.relabel, Arena.size, Event.relabel]

theorem growLink_relabel (s : State) (slot : Slot) (span : Span) :
    (s.relabel ρ).growLink (slot.relabel ρ) (ρ.span span) = (s.growLink slot span).relabel ρ := by
  simp [growLink, grow, relabel, Arena.relabel, Arena.size, Event.relabel, Slot.relabel]

theorem bound_relabel (s : State) (name : String) (id : SlotId)
    (bindings : Scopes String (Option SlotId)) :
    (s.relabel ρ).bound (ρ.name name) id (bindings.mapKeys ρ.name) =
      (s.bound name id bindings).relabel ρ := by
  simp [bound, relabel, Event.relabel]

theorem pushed_relabel (s : State) : (s.relabel ρ).pushed = s.pushed.relabel ρ := by
  simp [pushed, relabel, Scopes.push, Scopes.mapKeys, Scopes.depth, Frame.mapKeys, Event.relabel]

theorem popped_relabel (s : State) (outer : List (Frame String (Option SlotId))) :
    (s.relabel ρ).popped (outer.map (Frame.mapKeys ρ.name)) = (s.popped outer).relabel ρ := by
  simp [popped, relabel, Scopes.mapKeys, Event.relabel]

theorem record_relabel (s : State) (d : Diagnostic) :
    { s.relabel ρ with recorded := (s.relabel ρ).recorded ++ [d.relabel ρ] } =
      State.relabel ρ { s with recorded := s.recorded ++ [d] } := by
  simp [relabel, Diagnostic.relabelList_append, Diagnostic.relabelList]

theorem log_relabel (s : State) (e : Event) :
    { s.relabel ρ with log := (s.relabel ρ).log.push (e.relabel ρ) } =
      State.relabel ρ { s with log := s.log.push e } := by
  simp [relabel]

end State

/-! ### Steps -/

/-- A result with other labels, where `g` gives them to its value. -/
def relabelResult {α : Type} (g : α → α) :
    EStateM.Result Failure State α → EStateM.Result Failure State α
  | .ok v s => .ok (g v) (s.relabel ρ)
  | .error e s => .error (e.relabel ρ) (s.relabel ρ)

/-- From a state with other labels, step `x'` has the result of step `x` with these labels. -/
def Relabelled {α : Type} (g : α → α) (x x' : CheckM α) : Prop :=
  ∀ s, x' (s.relabel ρ) = relabelResult ρ g (x s)

variable {ρ} in
theorem Relabelled.inScope {α : Type} {g : α → α} {x x' : CheckM α} (h : Relabelled ρ g x x')
    (hx : ∀ s, Confined s (stateOf (x s))) (hx' : ∀ s, Confined s (stateOf (x' s))) :
    Relabelled ρ g (inScope x) (inScope x') := by
  intro s
  rw [inScope_apply (hx s.pushed), inScope_apply (hx' _), State.pushed_relabel, h s.pushed]
  cases x s.pushed with
  | ok v s' => exact congrArg (EStateM.Result.ok (g v)) (s'.popped_relabel ρ s.bindings.frames)
  | error e s' =>
    exact congrArg (EStateM.Result.error (e.relabel ρ)) (s'.popped_relabel ρ s.bindings.frames)

theorem mapOk_relabelResult {α β : Type} {g : α → α} {g' : β → β} {f f' : α → β}
    (h : ∀ v, f' (g v) = g' (f v)) (r : EStateM.Result Failure State α) :
    mapOk f' (relabelResult ρ g r) = relabelResult ρ g' (mapOk f r) := by
  cases r with
  | ok v s => exact congrArg (EStateM.Result.ok · (s.relabel ρ)) (h v)
  | error e s => rfl

theorem Failure.ofArena_relabel (e : Arena.Error) :
    Failure.ofArena (e.relabel ρ) = (Failure.ofArena e).relabel ρ := by
  cases e <;> rfl

variable (rules : Rules) (mode : Mode)

/-! ### Expressions -/

theorem expr_ne_stray {e : Expr} {s s' : State} {t : Typed.Expr}
    (h : expr rules mode e s = .ok t s') (kind : String) : t ≠ .stray kind := by
  rintro rfl
  cases e with
  | var name span =>
    rw [expr_var] at h
    split at h
    · cases h
    · split at h <;> cases h
  | literal value span => cases h
  | prefixed op operand span =>
    rw [expr_prefixed] at h
    split at h
    · cases h
    · split at h
      · cases h
      · split at h <;> cases h
  | binary op lhs rhs span =>
    rw [expr_binary] at h
    split at h
    · cases h
    · split at h
      · cases h
      · split at h <;> cases h
  | stray kind => cases h

theorem operands_eq_ok {x y : CheckM Typed.Expr} {s s' : State} {l r : Typed.Expr}
    (h : operands mode x y s = .ok (l, r) s') : ∃ s₁, x s = .ok l s₁ ∧ y s₁ = .ok r s' := by
  rw [operands_apply] at h
  rcases hx : x s with ⟨l', s₁⟩ | ⟨e, s₁⟩
  · rw [hx] at h
    dsimp only at h
    rcases hy : y s₁ with ⟨r', s₂⟩ | ⟨e, s₂⟩ <;> rw [hy] at h <;> cases h
    exact ⟨s₁, rfl, hy⟩
  · rw [hx] at h
    dsimp only at h
    split at h
    · split at h <;> cases h
    · cases h

variable {ρ}

theorem operands_relabel {x x' y y' : CheckM Typed.Expr}
    (hx : Relabelled ρ (·.relabel ρ) x x') (hy : Relabelled ρ (·.relabel ρ) y y') :
    Relabelled ρ (Prod.map (·.relabel ρ) (·.relabel ρ)) (operands mode x y)
      (operands mode x' y') := by
  intro s
  rw [operands_apply, operands_apply, hx]
  rcases x s with ⟨l, s₁⟩ | ⟨d | f, s₁⟩ <;> simp only [relabelResult, hy s₁]
  · rcases y s₁ with ⟨r, s₂⟩ | ⟨e, s₂⟩ <;> rfl
  · cases mode with
    | failFast => rfl
    | accumulate => rcases y s₁ with ⟨r, s₂⟩ | ⟨e | f, s₂⟩ <;> rfl
  · cases mode <;> rfl

/-- Checking an expression commutes with relabelling. -/
theorem expr_relabel (hρ : Function.Injective ρ.name) (e : Expr) :
    Relabelled ρ (·.relabel ρ) (expr rules mode e) (expr rules mode (e.relabel ρ)) := by
  induction e with
  | var name span =>
    intro s
    rw [Expr.relabel, expr_var, expr_var]
    simp only [Ident.relabel, State.bindings_relabel, State.arena_relabel,
      Scopes.get?_mapKeys hρ, Arena.resolve_relabel]
    cases (s.bindings.get? name.name).join with
    | none => rfl
    | some id =>
      dsimp only
      cases s.arena.resolve id with
      | ok ty => rfl
      | error f =>
        exact congrArg (EStateM.Result.error · (s.relabel ρ)) (Failure.ofArena_relabel ρ f)
  | literal value span => exact fun s => rfl
  | prefixed op operand span ih =>
    intro s
    rw [Expr.relabel, expr_prefixed, expr_prefixed, ih s, Operator.relabel]
    dsimp only
    cases UnaryOp.ofSymbol? op.symbol with
    | none => rfl
    | some lowered =>
      cases ht : expr rules mode operand s with
      | error f s' => rfl
      | ok t s' =>
        have hslot := t.slot_relabel ρ (expr_ne_stray rules mode ht)
        simp only [relabelResult, Typed.Expr.ty_relabel, hslot, State.grow_relabel]
        cases rules.unary lowered t.ty <;> rfl
  | binary op lhs rhs span ihl ihr =>
    intro s
    rw [Expr.relabel, expr_binary, expr_binary, operands_relabel mode ihl ihr s, Operator.relabel]
    dsimp only
    cases BinaryOp.ofSymbol? op.symbol with
    | none => rfl
    | some lowered =>
      cases ht : operands mode (expr rules mode lhs) (expr rules mode rhs) s with
      | error f s' => rfl
      | ok lr s' =>
        obtain ⟨l, r⟩ := lr
        obtain ⟨s₁, hl, hr⟩ := operands_eq_ok mode ht
        have hslotl := l.slot_relabel ρ (expr_ne_stray rules mode hl)
        have hslotr := r.slot_relabel ρ (expr_ne_stray rules mode hr)
        simp only [relabelResult, Prod.map, Typed.Expr.ty_relabel, hslotl, hslotr,
          State.grow_relabel]
        cases (if l.ty = r.ty then rules.binary l.ty r.ty else none) <;> rfl
  | stray kind => exact fun s => rfl

/-! ### Statements -/

/-- A `let` under another name binds that name to the same slot. -/
theorem binding_relabel (hρ : Function.Injective ρ.name) (name : Ident) (value : Expr)
    (span : Span) :
    Relabelled ρ (·.relabel ρ) (binding rules mode name value span)
      (binding rules mode (name.relabel ρ) (value.relabel ρ) (ρ.span span)) := by
  intro s
  rw [binding_apply, binding_apply, expr_relabel rules mode hρ value s]
  cases ht : expr rules mode value s with
  | error f s' => rfl
  | ok t s' =>
    have hslot := t.slot_relabel ρ (expr_ne_stray rules mode ht)
    simp only [relabelResult, Ident.relabel, State.bindings_relabel, State.arena_relabel,
      Arena.size_relabel, Scopes.insert_mapKeys hρ, hslot, State.growLink_relabel]
    cases s'.bindings.insert name.name (some (s'.arena.size + 1 + 1)) with
    | error f => rfl
    | ok bindings =>
      exact congrArg (EStateM.Result.ok _) (State.bound_relabel ρ _ name.name _ bindings)

mutual
/-- Checking a statement commutes with relabelling. -/
theorem stmt_relabel (hρ : Function.Injective ρ.name) : ∀ st : Stmt,
    Relabelled ρ (·.relabel ρ) (stmt rules mode st) (stmt rules mode (st.relabel ρ))
  | .expr e span => fun s => by
    rw [Stmt.relabel, stmt_expr, stmt_expr, expr_relabel rules mode hρ e s]
    exact mapOk_relabelResult ρ (fun _ => by rw [Typed.Stmt.relabel]) _
  | .block body span => fun s => by
    have hbody := (statements_relabel hρ body).inScope (statements_confined rules mode body)
      (statements_confined rules mode _)
    rw [Stmt.relabel, stmt_block, stmt_block, hbody s]
    exact mapOk_relabelResult ρ (fun _ => by rw [Typed.Stmt.relabel]) _
  | .bind name value span => fun s => by
    rw [Stmt.relabel, stmt_bind, stmt_bind]
    exact binding_relabel rules mode hρ name value span s
  | .print e span => fun s => by
    rw [Stmt.relabel, stmt_print, stmt_print, expr_relabel rules mode hρ e s]
    exact mapOk_relabelResult ρ (fun _ => by rw [Typed.Stmt.relabel]) _
  | .stray kind => fun s => by
    rw [Stmt.relabel, stmt]
    rfl
/-- Checking a list of statements commutes with relabelling. -/
theorem statements_relabel (hρ : Function.Injective ρ.name) : ∀ l : List Stmt,
    Relabelled ρ (Typed.Stmt.relabelList ρ) (statements rules mode l)
      (statements rules mode (Stmt.relabelList ρ l))
  | [] => fun s => by
    rw [Stmt.relabelList, statements]
    rfl
  | st :: rest => fun s => by
    have hrest := statements_relabel hρ rest
    rw [Stmt.relabelList, statements_cons, statements_cons, stmt_relabel hρ st s]
    rcases stmt rules mode st s with ⟨typed, s'⟩ | ⟨d | f, s'⟩
    · dsimp only [relabelResult]
      rw [hrest s']
      exact mapOk_relabelResult ρ (fun _ => by rw [Typed.Stmt.relabelList]) _
    · cases mode with
      | failFast => rfl
      | accumulate =>
        -- the rest goes on after the diagnostic, which has been recorded with the other labels
        simp only [relabelResult, Failure.relabel, State.record_relabel, hrest _]
    · cases mode <;> rfl
end

/-! ### Programs -/

/-- **The check commutes with relabelling**, if it keeps different names different. -/
theorem check_relabel (hρ : Function.Injective ρ.name) (p : Program) :
    check rules mode (p.relabel ρ) = (check rules mode p).relabel ρ := by
  have hs := (statements_relabel rules mode hρ p.statements).inScope
    (statements_confined rules mode p.statements) (statements_confined rules mode _) {}
  have hstart : State.relabel ρ {} = {} := by
    simp [State.relabel, Arena.relabel, Scopes.mapKeys, Diagnostic.relabelList]
  rw [hstart] at hs
  rw [check, check, Program.relabel, hs]
  rcases inScope (statements rules mode p.statements) {} with ⟨typed, s⟩ | ⟨d | f, s⟩
  · simp only [relabelResult, State.recorded_relabel, Diagnostic.combine_relabelList,
      State.arena_relabel, Arena.size_relabel, Typed.Stmt.length_relabelList]
    cases Diagnostic.combine s.recorded with
    | some d => rfl
    | none =>
      exact congrArg (Outcome.mk _) (s.log_relabel ρ (.succeeded typed.length s.arena.size))
  · exact congrArg (Outcome.mk _) (s.log_relabel ρ (.failed d))
  · rfl

/-- **Spans are only ever copied.** Whatever is put in place of the spans of a program, the check
has the same outcome with these in place of its spans: in the typed program or in the diagnostic,
in all slots of the arena and in the rest of the state. A fault is the same one. -/
theorem check_mapSpans (f : Span → Span) (p : Program) :
    check rules mode (p.mapSpans f) = (check rules mode p).relabel (.ofSpans f) := by
  rw [← Program.relabel_ofSpans]
  exact check_relabel rules mode Function.injective_id p

/-- **Names matter only up to equality.** If the names of a program are replaced, and different ones
stay different, the check has the same outcome with the new names: in the typed program, or in the
problems of variables that are not bound. The arena stays as it is. -/
theorem check_rename {r : String → String} (hr : Function.Injective r) (p : Program) :
    check rules mode (p.relabel (.ofNames r)) = (check rules mode p).relabel (.ofNames r) ∧
      (check rules mode (p.relabel (.ofNames r))).final.arena =
        (check rules mode p).final.arena := by
  have h : check rules mode (p.relabel (.ofNames r)) = _ := check_relabel rules mode hr p
  refine ⟨h, ?_⟩
  rw [h]
  exact Arena.relabel_ofNames r _

/-- The names `x` and `y` are exchanged. Only one of them is still visible after the block. -/
theorem check_rename_swap :
    let r := Equiv.swap "x" "y"
    let x : Expr := .var ⟨"x", {}⟩ {}
    let y : Expr := .var ⟨"y", {}⟩ {}
    let p : Program := ⟨[.bind ⟨"x", {}⟩ (.literal ⟨0⟩ {}) {}, .block [.bind ⟨"y", {}⟩ x {}] {},
      .print (.binary ⟨"+", {}⟩ y (.var ⟨"z", {}⟩ {}) {}) {}], {}⟩
    Function.Injective r ∧
      (check .standard .accumulate (p.relabel (.ofNames r))).result =
        .ok (.error (.many [.one (.undefinedVariable "x" {}), .one (.undefinedVariable "z" {})])) ∧
      (check .standard .accumulate (p.relabel (.ofNames r))).final.arena =
        (check .standard .accumulate p).final.arena := by
  intro r x y p
  have hr : Function.Injective r := r.injective
  obtain ⟨h, harena⟩ := check_rename .standard .accumulate hr p
  have hp : (check .standard .accumulate p).result = .ok (.error (.many
      [.one (.undefinedVariable "y" {}), .one (.undefinedVariable "z" {})])) :=
    (check_eq_direct .standard .accumulate p).trans rfl
  refine ⟨hr, ?_, harena⟩
  rw [h, Outcome.relabel, hp]
  rfl

end Check

end NumCheck
