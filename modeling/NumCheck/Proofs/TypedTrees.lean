import Mathlib.Tactic.SplitIfs
import NumCheck.Proofs.Modes
import NumCheck.Typed.Erase
import NumCheck.Typed.Nodes

/-!
# What a typed tree tells

The typed tree of an accepted program has the whole check in it. Without its types it is the
program again, so no statement has been left out and no span has been lost. Its nodes tell which
slots the check has made: those of the operands and values, and the links of the names, in the
order in which a walk through the tree comes back from its nodes.

In `accumulate` mode the check goes on without the statements that fail. What it gives at last is
then no typed tree, so it is enough to look at lists of which nothing has been recorded.

Nothing is said of programs that are refused: these have no typed tree, and the slots that their
check has made are not listed.
-/

namespace NumCheck

/-! ### Operators -/

theorem UnaryOp.symbol_of_ofSymbol? {symbol : String} {op : UnaryOp}
    (h : UnaryOp.ofSymbol? symbol = some op) : op.symbol = symbol := by
  simp only [ofSymbol?] at h
  split at h <;> cases h
  rename_i hs
  exact hs.symm

theorem BinaryOp.symbol_of_ofSymbol? {symbol : String} {op : BinaryOp}
    (h : BinaryOp.ofSymbol? symbol = some op) : op.symbol = symbol := by
  simp only [ofSymbol?] at h
  split_ifs at h with hs hs hs hs <;> cases h <;> exact hs.symm

/-- The operator of the expression, if it has one, is of the kind that belongs there. -/
def Typed.Expr.Lowered : Typed.Expr → Prop
  | .var .. | .literal .. => True
  | .prefixed op .. => ∃ lowered, op = .unary lowered
  | .binary op .. => ∃ lowered, op = .binary lowered
  | .stray _ => False

namespace Check

variable (rules : Rules) (mode : Mode)

/-! ### Erasure -/

namespace Direct

/-- An expression without its types is the one that was checked, and symbols have become
operators. -/
theorem expr_erase {env : Env} {e : Expr} {t : Typed.Expr}
    (h : expr rules mode env e = .ok t) : t.erase = e ∧ ∀ n ∈ t.nodes, n.Lowered := by
  induction e generalizing t with
  | var name span =>
    rw [expr] at h
    split at h <;> cases h
    exact ⟨rfl, List.forall_mem_singleton.mpr trivial⟩
  | literal value span =>
    cases h
    exact ⟨rfl, List.forall_mem_singleton.mpr trivial⟩
  | prefixed op operand span ih =>
    rw [expr] at h
    split at h
    · cases h
    · next lowered hop =>
      split at h
      · cases h
      · next t' ht =>
        split at h <;> cases h
        obtain ⟨herase, hnodes⟩ := ih ht
        refine ⟨?_, List.forall_mem_cons.mpr ⟨⟨lowered, rfl⟩, hnodes⟩⟩
        rw [Typed.Expr.erase, herase, Operation.symbol, UnaryOp.symbol_of_ofSymbol? hop]
  | binary op lhs rhs span ihl ihr =>
    rw [expr] at h
    split at h
    · cases h
    · next lowered hop =>
      split at h
      · cases h
      · next l r hboth =>
        split at h <;> cases h
        obtain ⟨hl, hr⟩ := both_eq_ok mode hboth
        obtain ⟨hlerase, hlnodes⟩ := ihl hl
        obtain ⟨hrerase, hrnodes⟩ := ihr hr
        refine ⟨?_, List.forall_mem_cons.mpr
          ⟨⟨lowered, rfl⟩, List.forall_mem_append.mpr ⟨hlnodes, hrnodes⟩⟩⟩
        rw [Typed.Expr.erase, hlerase, hrerase, Operation.symbol,
          BinaryOp.symbol_of_ofSymbol? hop]
  | stray kind => cases h

mutual
/-- A statement of which nothing is recorded is kept whole. -/
theorem stmt_erase : ∀ (st : Stmt) {env : Env} {t : Typed.Stmt},
    stmt rules mode env st = .ok (t, []) → t.erase = st ∧ ∀ n ∈ t.exprNodes, n.Lowered
  | .expr e span, env, t, h | .print e span, env, t, h | .bind name e span, env, t, h => by
    rw [stmt] at h
    obtain ⟨value, hvalue, heq⟩ := map_eq_ok h
    cases heq
    obtain ⟨herase, hnodes⟩ := expr_erase rules mode hvalue
    exact ⟨by rw [Typed.Stmt.erase, herase], hnodes⟩
  | .block body span, env, t, h => by
    rw [stmt] at h
    obtain ⟨⟨typed, ds⟩, hbody, heq⟩ := map_eq_ok h
    cases heq
    obtain ⟨herase, hnodes⟩ := statements_erase body hbody
    exact ⟨by rw [Typed.Stmt.erase, herase], hnodes⟩
  | .stray kind, env, t, h => by
    rw [stmt] at h
    cases h
/-- Statements of which nothing is recorded are all kept, in their order. -/
theorem statements_erase : ∀ (l : List Stmt) {env : Env} {ts : List Typed.Stmt},
    statements rules mode env l = .ok (ts, []) →
      Typed.Stmt.eraseList ts = l ∧ ∀ n ∈ Typed.Stmt.exprNodesList ts, n.Lowered
  | [], env, ts, h => by
    rw [statements] at h
    cases h
    exact ⟨rfl, fun _ hn => by cases hn⟩
  | st :: rest, env, ts, h => by
    rw [statements_cons] at h
    split at h
    · next typed ds hst =>
      obtain ⟨⟨more, es⟩, hrest, heq⟩ := map_eq_ok h
      obtain ⟨rfl, hnone⟩ := Prod.mk.inj heq
      obtain ⟨rfl, rfl⟩ := List.append_eq_nil_iff.mp hnone
      obtain ⟨herase, hnodes⟩ := stmt_erase st hst
      obtain ⟨herest, hnrest⟩ := statements_erase rest hrest
      exact ⟨by rw [Typed.Stmt.eraseList, herase, herest],
        List.forall_mem_append.mpr ⟨hnodes, hnrest⟩⟩
    · split at h
      · -- a statement that is left out is recorded
        obtain ⟨⟨more, es⟩, hrest, heq⟩ := map_eq_ok h
        cases heq
      · cases h
end

end Direct

/-- **A typed tree is the program plus types.** Whatever the rules and the mode, the typed program
of a check without its types is the program that was checked: with the same statements, names,
values, symbols and spans in the same places. In it unary operators stand before an operand, and
binary ones between two. -/
theorem check_erase {p : Program} {typed : Typed.Program}
    (h : (check rules mode p).result = .ok (.ok typed)) :
    typed.erase = p ∧ ∀ e ∈ typed.exprNodes, e.Lowered := by
  rw [check_eq_direct, Direct.check] at h
  split at h
  · next ts ds hs =>
    split at h
    · cases h
    · next hnone =>
      cases h
      rw [combine_eq_none hnone] at hs
      obtain ⟨herase, hnodes⟩ := Direct.statements_erase rules mode p.statements hs
      exact ⟨by rw [Typed.Program.erase, herase], hnodes⟩
  · cases h
  · cases h

/-- Negations of type `Bool`, and a name that keeps that type in a block: `let x = -1;`,
`{ let y = x; }`, `print 2 + 3;`. -/
theorem check_erase_negation :
    let rules := Rules.standard.withUnary [((.unary .neg, .num), ⟨"Bool"⟩)]
    let one : Expr := .literal ⟨0x3ff0000000000000⟩ ⟨9, 10⟩
    let two : Expr := .literal ⟨0x4000000000000000⟩ ⟨33, 34⟩
    let three : Expr := .literal ⟨0x4008000000000000⟩ ⟨37, 38⟩
    let p : Program := ⟨[
      .bind ⟨"x", ⟨4, 5⟩⟩ (.prefixed ⟨"-", ⟨8, 9⟩⟩ one ⟨8, 10⟩) ⟨0, 11⟩,
      .block [.bind ⟨"y", ⟨18, 19⟩⟩ (.var ⟨"x", ⟨22, 23⟩⟩ ⟨22, 23⟩) ⟨14, 24⟩] ⟨12, 26⟩,
      .print (.binary ⟨"+", ⟨35, 36⟩⟩ two three ⟨33, 38⟩) ⟨27, 39⟩], ⟨0, 39⟩⟩
    ∃ typed, (check rules .accumulate p).result = .ok (.ok typed) ∧ typed.erase = p ∧
      ∀ e ∈ typed.exprNodes, e.Lowered := by
  intro rules one two three p
  obtain ⟨typed, h⟩ : ∃ typed, (check rules .accumulate p).result = .ok (.ok typed) :=
    ⟨_, (check_eq_direct rules .accumulate p).trans rfl⟩
  exact ⟨typed, h, check_erase rules .accumulate h⟩

end Check

/-! ### How many slots a tree takes -/

namespace Typed

/-- An operator takes a slot for each of its operands. -/
theorem Expr.length_slots (e : Expr) :
    e.slots.length = e.nodes.countP (·.isPrefixed) + 2 * e.nodes.countP (·.isBinary) := by
  induction e with
  | var name ty span => rfl
  | literal value ty span => rfl
  | prefixed op opSpan operand ty span ih =>
    simp [slots, nodes, isPrefixed, isBinary, ih]
    omega
  | binary op opSpan lhs rhs ty span ihl ihr =>
    simp [slots, nodes, isPrefixed, isBinary, ihl, ihr]
    omega
  | stray kind => rfl

mutual
/-- A `let` takes two slots of its own, wherever it stands. -/
theorem Stmt.length_slots (size : Nat) : ∀ s : Stmt,
    (s.slots size).length = 2 * s.nodes.countP (·.isBind) +
      s.exprNodes.countP (·.isPrefixed) + 2 * s.exprNodes.countP (·.isBinary)
  | .expr e span => by
    simp [slots, nodes, exprNodes, isBind, e.length_slots]
  | .block statements span => by
    simp [slots, nodes, exprNodes, isBind, Stmt.length_slotsList size statements]
  | .bind name value span => by
    simp [slots, nodes, exprNodes, isBind, value.length_slots]
    omega
  | .print e span => by
    simp [slots, nodes, exprNodes, isBind, e.length_slots]
  | .stray kind => rfl
theorem Stmt.length_slotsList (size : Nat) : ∀ l : List Stmt,
    (Stmt.slotsList size l).length = 2 * (Stmt.nodesList l).countP (·.isBind) +
      (Stmt.exprNodesList l).countP (·.isPrefixed) +
      2 * (Stmt.exprNodesList l).countP (·.isBinary)
  | [] => rfl
  | s :: rest => by
    simp only [slotsList, nodesList, exprNodesList, List.length_append, List.countP_append]
    rw [Stmt.length_slotsList _ rest, Stmt.length_slots size s]
    omega
end

end Typed

namespace Check

variable (rules : Rules) (mode : Mode)

/-- **The arena of an accepted program can be read off its typed tree**, whatever the rules and the
mode. Its slots are those that a walk through the tree lists, numbered from 1: after the parts of a
node, a type for each of its operands, or for the value of a `let` and then a link to it for the
name. So there are two for each `let`, one for each prefixed expression and two for each binary
one. -/
theorem check_arena {p : Program} {typed : Typed.Program}
    (h : (check rules mode p).result = .ok (.ok typed)) :
    (check rules mode p).final.arena.slots.toList = Typed.Stmt.slotsList 0 typed.statements ∧
    (∀ id : SlotId, (check rules mode p).final.arena.get? id =
      if 0 < id then (Typed.Stmt.slotsList 0 typed.statements)[(id - 1).toNat]? else none) ∧
    (check rules mode p).final.arena.size = 2 * typed.stmtNodes.countP (·.isBind) +
      typed.exprNodes.countP (·.isPrefixed) + 2 * typed.exprNodes.countP (·.isBinary) := by
  have hslots := check_slots rules mode h
  refine ⟨hslots, fun id => ?_, ?_⟩
  · rw [Arena.get?, ← hslots, Array.getElem?_toList]
  · rw [Arena.size, ← Array.length_toList, hslots]
    exact Typed.Stmt.length_slotsList 0 typed.statements

/-- The value of a `let` in a block, with parts of its own: `let x = 1;`, `{ let x = -(x + x); }`,
`print x;`. -/
theorem check_arena_nested :
    let x (span : Span) : Expr := .var ⟨"x", span⟩ span
    let p : Program := ⟨[.bind ⟨"x", ⟨4, 5⟩⟩ (.literal ⟨0x3ff0000000000000⟩ ⟨8, 9⟩) ⟨0, 10⟩,
      .block [.bind ⟨"x", ⟨17, 18⟩⟩ (.prefixed ⟨"-", ⟨21, 22⟩⟩
        (.binary ⟨"+", ⟨25, 26⟩⟩ (x ⟨23, 24⟩) (x ⟨27, 28⟩) ⟨23, 28⟩) ⟨21, 29⟩) ⟨13, 30⟩] ⟨11, 32⟩,
      .print (x ⟨39, 40⟩) ⟨33, 41⟩], ⟨0, 41⟩⟩
    ∃ typed, (check .standard .failFast p).result = .ok (.ok typed) ∧
      (check .standard .failFast p).final.arena.slots.toList = [⟨.known .num, ⟨8, 9⟩⟩,
        ⟨.link 1, ⟨4, 5⟩⟩, ⟨.known .num, ⟨23, 24⟩⟩, ⟨.known .num, ⟨27, 28⟩⟩,
        ⟨.known .num, ⟨23, 28⟩⟩, ⟨.known .num, ⟨21, 29⟩⟩, ⟨.link 6, ⟨17, 18⟩⟩] ∧
      (check .standard .failFast p).final.arena.size = 2 * 2 + 1 + 2 * 1 := by
  intro x p
  have h : (check .standard .failFast p).result = .ok (.ok _) :=
    (check_eq_direct .standard .failFast p).trans rfl
  obtain ⟨hslots, -, hsize⟩ := check_arena .standard .failFast h
  exact ⟨_, h, hslots, hsize⟩

end Check

end NumCheck
