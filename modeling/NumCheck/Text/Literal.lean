import NumCheck.Text.Quoted

/-!
# Literal values

Simple values that are shown as they would be typed in: nothing, whole numbers, texts and
tuples. Values are equal if they are built alike, so the number 1 is not the text `1`.
-/

namespace NumCheck

/-- A literal value. -/
inductive Literal where
  /-- Nothing. -/
  | none
  /-- A whole number. -/
  | int (n : Int)
  /-- A text. -/
  | text (s : String)
  /-- Values in order. -/
  | tuple (items : List Literal)
  deriving Repr

namespace Literal

mutual
/-- Decide whether two values are equal. -/
def decEq : (a b : Literal) → Decidable (a = b)
  | .none, .none => isTrue rfl
  | .int m, .int n =>
    if h : m = n then isTrue (by rw [h]) else isFalse fun e => h (by injection e)
  | .text s, .text t =>
    if h : s = t then isTrue (by rw [h]) else isFalse fun e => h (by injection e)
  | .tuple xs, .tuple ys =>
    match decEqList xs ys with
    | isTrue h => isTrue (by rw [h])
    | isFalse h => isFalse fun e => h (by injection e)
  | .none, .int _ | .none, .text _ | .none, .tuple _
  | .int _, .none | .int _, .text _ | .int _, .tuple _
  | .text _, .none | .text _, .int _ | .text _, .tuple _
  | .tuple _, .none | .tuple _, .int _ | .tuple _, .text _ => isFalse nofun
/-- Decide whether two lists of values are equal. -/
def decEqList : (xs ys : List Literal) → Decidable (xs = ys)
  | [], [] => isTrue rfl
  | x :: xs, y :: ys =>
    match decEq x y, decEqList xs ys with
    | isTrue h, isTrue hs => isTrue (by rw [h, hs])
    | isFalse h, _ => isFalse fun e => h (by injection e)
    | _, isFalse hs => isFalse fun e => hs (by injection e)
  | [], _ :: _ | _ :: _, [] => isFalse nofun
end

instance : DecidableEq Literal := decEq

mutual
/-- How a value is typed in. A tuple of one value ends with a comma. -/
def render : Literal → String
  | .none => "None"
  | .int n => toString n
  | .text s => Text.quote s
  | .tuple [x] => "(" ++ x.render ++ ",)"
  | .tuple items => "(" ++ ", ".intercalate (renderList items) ++ ")"
/-- How values are typed in. -/
def renderList : List Literal → List String
  | [] => []
  | x :: rest => x.render :: renderList rest
end

end Literal

end NumCheck
