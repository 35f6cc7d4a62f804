import DecisionModel.Expr.Same
import DecisionModel.Proofs.Decimal.Text

/-!
# Literals of a tree

The literals are the leaves of a tree in which values stand. A function on literals is applied to a
tree by replacing each of them, which leaves everything else as it is. So the tree stays the same
tree in the sense of `Expr.same` if every literal does, and two functions one after the other act as
one.

The function of interest here takes the sign from a zero. It is all that a number loses when it is
written and read.
-/

namespace DecisionModel

/-! ## Zeros without a sign -/

namespace Literal

/-- The literal itself, but a zero without its sign. -/
def unsignedZero : Literal → Literal
  | .number n => .number n.unsignedZero
  | .null => .null
  | .bool b => .bool b
  | .string s => .string s

/-- Whether the literal is a zero with a sign. -/
def isSignedZero : Literal → Bool
  | .number n => n.isZero && n.negative
  | .null | .bool _ | .string _ => false

theorem same_unsignedZero (l : Literal) : l.same l.unsignedZero = true := by
  cases l with
  | number n => exact n.same_unsignedZero
  | null | bool | string => simp [same, unsignedZero]

@[simp] theorem unsignedZero_unsignedZero (l : Literal) :
    l.unsignedZero.unsignedZero = l.unsignedZero := by
  cases l with
  | number n => simp [unsignedZero]
  | null | bool | string => rfl

theorem unsignedZero_eq_self_iff {l : Literal} : l.unsignedZero = l ↔ l.isSignedZero = false := by
  cases l with
  | number n =>
    rw [unsignedZero, number.injEq, Decimal.unsignedZero_eq_self_iff]
    rfl
  | null | bool | string => simp [unsignedZero, isSignedZero]

end Literal

/-! ## Trees -/

namespace Expr

mutual

/-- The literals of a tree, from left to right. -/
def literals : Expr → List Literal
  | .literal l => [l]
  | .name _ | .path _ => []
  | .negation _ operand | .unaryTest _ operand => operand.literals
  | .arithmetic _ left right | .comparison _ left right => left.literals ++ right.literals
  | .between value low high => value.literals ++ low.literals ++ high.literals
  | .member value tests => value.literals ++ literalsOfAll tests
  | .interval _ low high _ => low.literals ++ high.literals
  | .unaryTests items _ | .expressions items | .temporal _ items | .list items =>
    literalsOfAll items
  | .invocation function params => function.literals ++ literalsOfAll params
  | .lambda _ body => body.literals

def literalsOfAll : List Expr → List Literal
  | [] => []
  | e :: es => e.literals ++ literalsOfAll es

end

mutual

/-- The tree with a function applied to each of its literals. -/
def mapLiterals (f : Literal → Literal) : Expr → Expr
  | .literal l => .literal (f l)
  | .name n => .name n
  | .path names => .path names
  | .arithmetic op left right => .arithmetic op (left.mapLiterals f) (right.mapLiterals f)
  | .negation op operand => .negation op (operand.mapLiterals f)
  | .comparison op left right => .comparison op (left.mapLiterals f) (right.mapLiterals f)
  | .between value low high =>
    .between (value.mapLiterals f) (low.mapLiterals f) (high.mapLiterals f)
  | .member value tests => .member (value.mapLiterals f) (mapLiteralsOfAll f tests)
  | .interval lowBound low high highBound =>
    .interval lowBound (low.mapLiterals f) (high.mapLiterals f) highBound
  | .unaryTest op operand => .unaryTest op (operand.mapLiterals f)
  | .unaryTests tests negated => .unaryTests (mapLiteralsOfAll f tests) negated
  | .expressions items => .expressions (mapLiteralsOfAll f items)
  | .temporal symbol params => .temporal symbol (mapLiteralsOfAll f params)
  | .invocation function params => .invocation (function.mapLiterals f) (mapLiteralsOfAll f params)
  | .list items => .list (mapLiteralsOfAll f items)
  | .lambda params body => .lambda params (body.mapLiterals f)

def mapLiteralsOfAll (f : Literal → Literal) : List Expr → List Expr
  | [] => []
  | e :: es => e.mapLiterals f :: mapLiteralsOfAll f es

end

variable {f : Literal → Literal}

theorem mapLiteralsOfAll_eq_map (f : Literal → Literal) (es : List Expr) :
    mapLiteralsOfAll f es = es.map (mapLiterals f) := by
  induction es with
  | nil => rfl
  | cons e es ih => rw [mapLiteralsOfAll, ih, List.map_cons]

theorem mapLiteralsOfAll_comp {g : Literal → Literal} {es : List Expr}
    (h : ∀ e ∈ es, (e.mapLiterals f).mapLiterals g = e.mapLiterals (g ∘ f)) :
    mapLiteralsOfAll g (mapLiteralsOfAll f es) = mapLiteralsOfAll (g ∘ f) es := by
  simp only [mapLiteralsOfAll_eq_map, List.map_map]
  exact List.map_congr_left h

/-- Two functions one after the other are applied to a tree as one. -/
theorem mapLiterals_mapLiterals (f g : Literal → Literal) :
    ∀ e : Expr, (e.mapLiterals f).mapLiterals g = e.mapLiterals (g ∘ f)
  | .literal _ | .name _ | .path _ => rfl
  | .negation _ operand | .unaryTest _ operand | .lambda _ operand => by
    simp only [mapLiterals, mapLiterals_mapLiterals f g operand]
  | .arithmetic _ left right | .comparison _ left right | .interval _ left right _ => by
    simp only [mapLiterals, mapLiterals_mapLiterals f g left, mapLiterals_mapLiterals f g right]
  | .between value low high => by
    simp only [mapLiterals, mapLiterals_mapLiterals f g value, mapLiterals_mapLiterals f g low,
      mapLiterals_mapLiterals f g high]
  | .unaryTests items _ | .expressions items | .temporal _ items | .list items => by
    have hitems := mapLiteralsOfAll_comp fun e (he : e ∈ items) =>
      have := List.sizeOf_lt_of_mem he
      mapLiterals_mapLiterals f g e
    simp only [mapLiterals, hitems]
  | .member value items | .invocation value items => by
    have hitems := mapLiteralsOfAll_comp fun e (he : e ∈ items) =>
      have := List.sizeOf_lt_of_mem he
      mapLiterals_mapLiterals f g e
    simp only [mapLiterals, mapLiterals_mapLiterals f g value, hitems]

theorem mapLiteralsOfAll_mapLiteralsOfAll (f g : Literal → Literal) (es : List Expr) :
    mapLiteralsOfAll g (mapLiteralsOfAll f es) = mapLiteralsOfAll (g ∘ f) es :=
  mapLiteralsOfAll_comp fun e _ => mapLiterals_mapLiterals f g e

mutual

theorem same_mapLiterals (h : ∀ l : Literal, l.same (f l) = true) :
    ∀ e : Expr, e.same (e.mapLiterals f) = true
  | .literal l => h l
  | .name _ | .path _ => by simp [same, mapLiterals]
  | .negation _ operand | .unaryTest _ operand | .lambda _ operand => by
    simp [same, mapLiterals, same_mapLiterals h operand]
  | .arithmetic _ left right | .comparison _ left right | .interval _ left right _ => by
    simp [same, mapLiterals, same_mapLiterals h left, same_mapLiterals h right]
  | .between value low high => by
    simp [same, mapLiterals, same_mapLiterals h value, same_mapLiterals h low,
      same_mapLiterals h high]
  | .unaryTests items _ | .expressions items | .temporal _ items | .list items => by
    simp [same, mapLiterals, sameAll_mapLiteralsOfAll h items]
  | .member value items | .invocation value items => by
    simp [same, mapLiterals, same_mapLiterals h value, sameAll_mapLiteralsOfAll h items]

theorem sameAll_mapLiteralsOfAll (h : ∀ l : Literal, l.same (f l) = true) :
    ∀ es : List Expr, sameAll es (mapLiteralsOfAll f es) = true
  | [] => rfl
  | e :: es => by
    simp [sameAll, mapLiteralsOfAll, same_mapLiterals h e, sameAll_mapLiteralsOfAll h es]

end

end Expr

end DecisionModel
