import DecisionModel.Library.Arguments
import DecisionModel.Operator.Number
import DecisionModel.Proofs.Bind

/-!
# Computations that are broken off

A computation is put together from results by `bind` and `map`, so what it may be broken off for is
read off its parts, without a word about the values that they yield. `BreaksFor P` says that there is
no other cause than those in `P`; most computations are `Unbroken`.
-/

namespace DecisionModel

variable {α β : Type} {P Q : Breakdown → Prop}

/-- Whether a computation, if it is broken off at all, is so for a cause of one sort. -/
def BreaksFor (P : Breakdown → Prop) (r : Result α) : Prop :=
  ∀ cause, r = .error (.brokenOff cause) → P cause

/-- A computation that comes to a result or to an error of the language. -/
abbrev Unbroken (r : Result α) : Prop := BreaksFor (fun _ => False) r

/-- An error of the language. -/
abbrev EvalError.Proper (e : EvalError) : Prop := ∀ cause, e ≠ .brokenOff cause

namespace BreaksFor

@[simp] theorem ok (a : α) : BreaksFor P (.ok a) := nofun

theorem error {e : EvalError} (h : e.Proper) : BreaksFor P (.error e : Result α) :=
  fun cause hcause => absurd (Except.error.inj hcause) (h cause)

theorem imp {r : Result α} (h : BreaksFor P r) (hPQ : ∀ cause, P cause → Q cause) :
    BreaksFor Q r :=
  fun cause hcause => hPQ cause (h cause hcause)

theorem bind {r : Result α} {f : α → Result β} (h : BreaksFor P r)
    (hf : ∀ a, r = .ok a → BreaksFor P (f a)) : BreaksFor P (r >>= f) := by
  cases r with
  | ok a => exact hf a rfl
  | error e =>
    rintro cause ⟨⟩
    exact h cause rfl

theorem map {r : Result α} (h : BreaksFor P r) (f : α → β) : BreaksFor P (r.map f) := by
  cases r with
  | ok a => exact ok (f a)
  | error e =>
    rintro cause ⟨⟩
    exact h cause rfl

theorem foldlM {f : β → α → Result β} (h : ∀ b a, BreaksFor P (f b a)) (as : List α) (b : β) :
    BreaksFor P (as.foldlM f b) := by
  induction as generalizing b with
  | nil => exact ok b
  | cons a as ih =>
    rw [List.foldlM_cons]
    exact (h b a).bind fun b _ => ih b

theorem mapM {f : α → Result β} (h : ∀ a, BreaksFor P (f a)) (as : List α) :
    BreaksFor P (as.mapM f) := by
  induction as with
  | nil => exact ok []
  | cons a as ih =>
    rw [List.mapM_cons]
    exact (h a).bind fun b _ => ih.bind fun bs _ => ok (b :: bs)

end BreaksFor

namespace Number

end Number

/-! ## Comparisons -/

namespace Value

theorem unbroken_orderDateTimes (a b : DateTime) : Unbroken (orderDateTimes a b) := by
  unfold orderDateTimes
  split
  · exact .ok _
  · exact .error nofun

theorem unbroken_equals (a b : Value) : Unbroken (a.equals b) := by
  unfold equals
  split
  · exact .ok _
  · split <;> first
      | exact .ok _
      | exact (unbroken_orderDateTimes _ _).map _
      | exact .error nofun

theorem unbroken_order (op : ComparisonOp) (a b : Value) : Unbroken (order op a b) := by
  unfold order
  split
  · exact .ok _
  · split <;> first
      | exact .ok _
      | exact (unbroken_orderDateTimes _ _).map _
      | exact .error nofun

theorem unbroken_compare (op : ComparisonOp) (a b : Value) : Unbroken (compare op a b) := by
  unfold compare
  split
  · exact .ok _
  · split
    · exact (unbroken_equals a b).map _
    · exact (unbroken_equals a b).map _
    · exact (unbroken_order op a b).map _

end Value

/-! ## Arguments -/

theorem unbroken_toWhole (function : String) (number : Decimal) :
    Unbroken (Number.toWhole function number) := by
  unfold Number.toWhole
  split
  · exact .error nofun
  · split
    · exact .ok _
    · exact .error nofun

namespace Library

theorem unbroken_refuse (function : String) (values : List Value) :
    Unbroken (refuse function values : Result α) := .error nofun

theorem unbroken_expectList (function : String) (v : Value) : Unbroken (expectList function v) := by
  cases v with
  | list items => exact .ok items
  | _ => exact unbroken_refuse function _

theorem unbroken_expectNumber (function : String) (v : Value) :
    Unbroken (expectNumber function v) := by
  cases v with
  | number n => exact .ok n
  | _ => exact unbroken_refuse function _

theorem unbroken_expectString (function : String) (v : Value) :
    Unbroken (expectString function v) := by
  cases v with
  | string s => exact .ok s
  | _ => exact unbroken_refuse function _

/-- Many functions hand a missing subject back. -/
theorem breaksFor_unlessMissing {subject : Value} {r : Result Value}
    (h : subject.isMissing = false → BreaksFor P r) :
    BreaksFor P (if subject.isMissing then .ok subject else r) := by
  split
  · exact .ok subject
  · next hthere => exact h (Bool.eq_false_iff.mpr hthere)

end Library
end DecisionModel
