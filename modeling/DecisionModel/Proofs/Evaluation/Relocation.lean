import DecisionModel.Proofs.Evaluation.Names
import DecisionModel.Proofs.Evaluation.Verdict
import DecisionModel.Proofs.Library.Relocation

/-!
# Evaluation elsewhere

An evaluation that takes place at another site, among bindings whose functions were made at other
sites, yields what it yielded, with the functions in it made at other sites. All that is asked of
the map of sites is that it takes no two sites to one, and that from the site of the evaluation on
it moves every site along with the one it was reached from: then whatever is evaluated within the
evaluation moves with it.

As evaluation itself, this is taken through expressions first, with calls left open
(`Expr.evaluateWith_relocate`), and then through calls by induction on how deep they may nest
(`Function.invokeWithin_relocate`).
-/

namespace DecisionModel

variable {ρ : Site → Site}

/-! ## Scopes -/

/-- Whether a map of sites moves everything within a site along with it. -/
def Site.Carries (ρ : Site → Site) (base : Site) : Prop :=
  ∀ site step, base <:+ site → ρ (step :: site) = step :: ρ site

/-- A scope at another site, and its bindings with functions made at other sites. -/
def Scope.relocate (ρ : Site → Site) (s : Scope) : Scope :=
  { s with frames := s.frames.map (Context.relocate ρ), site := ρ s.site }

namespace Scope

/-- Whether none of the functions in the bindings was made within the evaluation that the scope is
for. No function is there before it is made, so this is how evaluations begin. -/
def IsFresh (s : Scope) : Prop :=
  ∀ frame ∈ s.frames, ∀ site ∈ sitesOfEntries frame, ¬s.site <:+ site

variable {s : Scope} {base : Site}

theorem relocate_stepTo (hρ : Site.Carries ρ base) (hs : base <:+ s.site) (step : Step) :
    (s.stepTo step).relocate ρ = (s.relocate ρ).stepTo step := by
  simp only [relocate, stepTo, hρ s.site step hs]

theorem relocate_part (hρ : Site.Carries ρ base) (hs : base <:+ s.site) (index : Nat) :
    (s.part index).relocate ρ = (s.relocate ρ).part index :=
  relocate_stepTo hρ hs (.part index)

theorem relocate_enter (hρ : Site.Carries ρ base) (hs : base <:+ s.site) (frame : Context) :
    (s.enter frame).relocate ρ = (s.relocate ρ).enter (frame.relocate ρ) := by
  have hstep := hρ s.site .body hs
  simp only [relocate, enter, stepTo, push, List.map_cons, hstep]

theorem lookup_relocate (s : Scope) (name : String) :
    (s.relocate ρ).lookup name = (s.lookup name).map (Value.relocate ρ) := by
  have hframes : ∀ frames : List Context,
      (frames.map (Context.relocate ρ)).findSome? (Entries.get? · name) =
        (frames.findSome? (Entries.get? · name)).map (Value.relocate ρ) := by
    intro frames
    induction frames with
    | nil => rfl
    | cons frame frames ih =>
      rw [List.map_cons, List.findSome?_cons, List.findSome?_cons, Context.get?_relocate, ih]
      cases Entries.get? frame name <;> rfl
  rw [lookup, lookup, relocate, hframes]
  cases s.frames.findSome? (Entries.get? · name) with
  | some v => rfl
  | none => cases Builtin.ofName? name <;> rfl

theorem resolve_relocate (s : Scope) (path : List String) :
    (s.relocate ρ).resolve path = (s.resolve path).relocate ρ := by
  cases path with
  | nil => rfl
  | cons name path =>
    rw [resolve, resolve, lookup_relocate, ← Value.follow_relocate]
    cases s.lookup name <;> rfl

theorem cellTest_relocate (s : Scope) (op : ComparisonOp) (operand : Expr) (result : Value) :
    (s.relocate ρ).cellTest op operand (result.relocate ρ) =
      (s.cellTest op operand result).relocate ρ := by
  have hinput : (s.relocate ρ).inputVariable = s.inputVariable := rfl
  unfold cellTest
  rw [hinput]
  cases s.inputVariable.bind operand.argumentNamed? with
  | none => cases result <;> rfl
  | some names =>
    cases result with
    | bool b =>
      cases b with
      | false => rfl
      | true => exact congrArg (Predicate.compare op) (s.resolve_relocate names)
    | _ => rfl

end Scope

theorem bindParams_relocate (bound : Context) (params : List String) (args : List Value) :
    bindParams (bound.relocate ρ) params (args.map (Value.relocate ρ)) =
      (bindParams bound params args).relocate ρ := by
  induction params generalizing bound args with
  | nil => rfl
  | cons name names ih =>
    have hhead : (args.map (Value.relocate ρ)).headD .absent =
        (args.headD .absent).relocate ρ := by
      cases args <;> rfl
    rw [bindParams, bindParams, hhead, Context.insert_relocate, ← List.map_tail, ih]

/-! ## Tests -/

theorem Value.IsVerdict.relocate {v : Value} (h : v.IsVerdict) : v.relocate ρ = v := by
  cases h <;> rfl

/-- A verdict has no functions. -/
theorem relocated_verdict {x : Result Value} (h : ∀ v, x = .ok v → v.IsVerdict) :
    x = x.map (Value.relocate ρ) := by
  cases x with
  | ok v => exact congrArg Except.ok (h v rfl).relocate.symm
  | error e => rfl

namespace Predicate

theorem ofValue_relocate (v : Value) : ofValue (v.relocate ρ) = (ofValue v).relocate ρ := by
  cases v <;> rfl

theorem ofMemberTest_relocate (v : Value) :
    ofMemberTest (v.relocate ρ) = (ofMemberTest v).relocate ρ := by
  cases v with
  | list items =>
    rw [Value.relocate_list, ofMemberTest, ofMemberTest, Predicate.relocate, relocateTests_eq_map,
      List.map_map, List.map_map]
    rfl
  | _ => rfl

theorem anyOf_relocate (values : List Value) :
    anyOf ((values.map (Value.relocate ρ)).map ofValue) =
      (anyOf (values.map ofValue)).relocate ρ := by
  rw [Predicate.relocate, relocateTests_eq_map, List.map_map, List.map_map]
  exact congrArg anyOf (List.map_congr_left fun v _ => ofValue_relocate v)

end Predicate

/-! ## Expressions -/

section Expressions

variable {base : Site} {invoke : Invoke}

/-- What calls come to elsewhere, if they are made within a site. -/
def CallsMove (ρ : Site → Site) (base : Site) (invoke : Invoke) : Prop :=
  ∀ f args (s : Scope), base <:+ s.site →
    invoke (f.relocate ρ) (args.map (Value.relocate ρ)) (s.relocate ρ) =
      (invoke f args s).map (Value.relocate ρ)

/-- What an expression comes to elsewhere, if it stands within a site. -/
def ExprMoves (ρ : Site → Site) (base : Site) (invoke : Invoke) (e : Expr) : Prop :=
  ∀ s : Scope, base <:+ s.site →
    e.evaluateWith invoke (s.relocate ρ) = (e.evaluateWith invoke s).map (Value.relocate ρ)

/-- A part of what is evaluated stands within the same site. -/
theorem ExprMoves.part (hρ : Site.Carries ρ base) {e : Expr} (he : ExprMoves ρ base invoke e)
    {s : Scope} (hs : base <:+ s.site) (index : Nat) :
    e.evaluateWith invoke ((s.relocate ρ).part index) =
      (e.evaluateWith invoke (s.part index)).map (Value.relocate ρ) := by
  rw [← Scope.relocate_part hρ hs]
  exact he _ (hs.trans (List.suffix_cons _ _))

theorem evaluateAll_relocate (hρ : Site.Carries ρ base) {es : List Expr}
    (hes : ∀ e ∈ es, ExprMoves ρ base invoke e) {s : Scope} (hs : base <:+ s.site) (index : Nat) :
    evaluateAll invoke index es (s.relocate ρ) =
      (evaluateAll invoke index es s).map (List.map (Value.relocate ρ)) := by
  induction es generalizing index with
  | nil => rfl
  | cons e es ih =>
    obtain ⟨he, hes⟩ := List.forall_mem_cons.mp hes
    rw [evaluateAll, evaluateAll, he.part hρ hs, ih hes]
    cases e.evaluateWith invoke (s.part index) with
    | error fault => rfl
    | ok v => cases evaluateAll invoke (index + 1) es s <;> rfl

theorem testMember_relocate (hinj : ρ.Injective) (hρ : Site.Carries ρ base) {es : List Expr}
    (hes : ∀ e ∈ es, ExprMoves ρ base invoke e) {s : Scope} (hs : base <:+ s.site)
    (candidate : Value) (index : Nat) {outcome : Value} (houtcome : outcome.IsVerdict) :
    testMember invoke (candidate.relocate ρ) index outcome es (s.relocate ρ) =
      (testMember invoke candidate index outcome es s).map (Value.relocate ρ) := by
  induction es generalizing index outcome with
  | nil => exact congrArg Except.ok houtcome.relocate.symm
  | cons e es ih =>
    obtain ⟨he, hes⟩ := List.forall_mem_cons.mp hes
    rw [testMember, testMember]
    refine relocated_bind_map (he.part hρ hs index) fun v => ?_
    rw [Predicate.ofMemberTest_relocate, Predicate.test_relocate hinj]
    refine relocated_bind fun result => ?_
    have hverdict := Value.isVerdict_or3 outcome result
    dsimp only
    split
    · exact congrArg Except.ok hverdict.relocate.symm
    · exact ih hes (index + 1) hverdict

/-- **An expression comes elsewhere to what it came to, if the calls in it do.** -/
theorem Expr.evaluateWith_relocate (hinj : ρ.Injective) (hρ : Site.Carries ρ base)
    (hcalls : CallsMove ρ base invoke) (e : Expr) : ExprMoves ρ base invoke e := by
  induction e using Expr.induction_on_operands with
  | h e ih =>
    intro s hs
    have hoperand {operand : Expr} (h : operand ∈ e.operands) (index : Nat) :=
      (ih operand h).part hρ hs index
    cases e with
    | literal l =>
      unfold evaluateWith
      cases l <;> rfl
    | name n =>
      unfold evaluateWith
      exact congrArg Except.ok (s.resolve_relocate [n])
    | path ns =>
      unfold evaluateWith
      exact congrArg Except.ok (s.resolve_relocate ns)
    | arithmetic op left right =>
      unfold evaluateWith
      refine relocated_bind_map (hoperand (by simp [operands]) 1) fun b =>
        relocated_bind_map (hoperand (by simp [operands]) 0) fun a => ?_
      rw [Value.arithmetic_relocate]
      exact Value.arithmetic_relocated op a b
    | negation op operand =>
      unfold evaluateWith
      exact relocated_bind_map (hoperand (by simp [operands]) 1) Value.negate_relocate
    | comparison op left right =>
      unfold evaluateWith
      refine relocated_bind_map (hoperand (by simp [operands]) 0) fun a =>
        relocated_bind_map (hoperand (by simp [operands]) 1) fun b => ?_
      rw [Value.compare_relocate hinj]
      exact relocated_verdict fun _ => Value.isVerdict_of_compare
    | between value low high =>
      unfold evaluateWith
      -- The two ends are parts of a part.
      have hends : base <:+ (s.part 1).site := hs.trans (List.suffix_cons _ _)
      rw [← Scope.relocate_part hρ hs 1]
      refine relocated_bind_map (hoperand (by simp [operands]) 0) fun v =>
        relocated_bind_map ((ih low (by simp [operands])).part hρ hends 0) fun a =>
        relocated_bind_map ((ih high (by simp [operands])).part hρ hends 1) fun b => ?_
      rw [Value.compare_relocate hinj, Value.compare_relocate hinj]
      exact relocated_bind fun above => relocated_bind fun below =>
        congrArg Except.ok (Value.isVerdict_and3 above below).relocate.symm
    | member value tests =>
      unfold evaluateWith
      exact relocated_bind_map (hoperand (by simp [operands]) 0) fun candidate =>
        testMember_relocate hinj hρ (fun e he => ih e (by simp [operands, he])) hs candidate 1
          (.bool false)
    | interval lowBound low high highBound =>
      unfold evaluateWith
      exact relocated_bind_map (hoperand (by simp [operands]) 0) fun a =>
        relocated_bind_map (hoperand (by simp [operands]) 1) fun b => rfl
    | unaryTest op operand =>
      unfold evaluateWith
      refine relocated_bind_map (hoperand (by simp [operands]) 0) fun result => ?_
      rw [Scope.cellTest_relocate]
      rfl
    | unaryTests tests negated =>
      unfold evaluateWith
      cases tests with
      | nil => rfl
      | cons test tests =>
        refine relocated_bind_map (evaluateAll_relocate hρ ih hs 1) fun values => ?_
        rw [Predicate.anyOf_relocate]
        cases negated <;> rfl
    | expressions items =>
      unfold evaluateWith
      exact relocated_bind_map (evaluateAll_relocate hρ ih hs 0) fun values =>
        congrArg Except.ok (Value.relocate_list values).symm
    | temporal symbol params =>
      unfold evaluateWith
      cases Builtin.ofName? symbol with
      | none => rfl
      | some b =>
        refine relocated_bind_map (evaluateAll_relocate hρ ih hs 0) fun args => ?_
        rw [List.any_map, Builtin.call_relocate hinj]
        simp only [Function.comp_def, Value.isAbsent_relocate]
        split <;> rfl
    | invocation function params =>
      unfold evaluateWith
      refine relocated_bind_map (hoperand (by simp [operands]) 0) fun callee => ?_
      cases callee with
      | absent => rfl
      | function f =>
        have hparams := fun e he => ih e (List.mem_cons_of_mem function he)
        exact relocated_bind_map (evaluateAll_relocate hρ hparams hs 1) fun args =>
          hcalls f args s hs
      | _ => rfl
    | list items =>
      unfold evaluateWith
      exact relocated_bind_map (evaluateAll_relocate hρ ih hs 0) fun values =>
        congrArg Except.ok (Value.relocate_list values).symm
    | lambda params body =>
      unfold evaluateWith
      rfl

end Expressions

/-! ## Calls -/

section Calls

variable {base : Site} (hinj : ρ.Injective) (hρ : Site.Carries ρ base)
include hinj hρ

/-- **A call comes elsewhere to what it came to.** -/
theorem Function.invokeWithin_relocate (calls : Nat) :
    CallsMove ρ base (Function.invokeWithin calls) := by
  induction calls with
  | zero =>
    intro f args s hs
    cases f with
    | builtin b =>
      unfold invokeWithin
      exact b.call_relocate hinj args
    | _ => rfl
  | succ calls ih =>
    intro f args s hs
    have hinner : base <:+ (s.enter []).site := hs.trans (List.suffix_cons _ _)
    cases f with
    | builtin b =>
      unfold invokeWithin
      exact b.call_relocate hinj args
    | lambda identity params body =>
      have hbody := body.evaluateWith_relocate hinj hρ ih
        (s.enter (bindParams [] params args)) hinner
      rw [Scope.relocate_enter hρ hs, ← bindParams_relocate] at hbody
      unfold invokeWithin
      exact hbody
    | decision identity name body =>
      have hbody := body.evaluateWith_relocate hinj hρ ih (s.enter []) hinner
      rw [Scope.relocate_enter hρ hs] at hbody
      unfold invokeWithin
      refine relocated_bind_map hbody fun result => ?_
      cases result with
      | function f =>
        -- What the body yields is called in the scope of the body.
        have hcall := ih f args ((s.enter []).stepTo .result)
          (hinner.trans (List.suffix_cons _ _))
        rw [Scope.relocate_stepTo hρ hinner, Scope.relocate_enter hρ hs] at hcall
        exact hcall
      | _ => rfl

/-- **An evaluation comes elsewhere to what it came to.** -/
theorem Expr.evaluate_relocate (e : Expr) {s : Scope} (hs : base <:+ s.site) :
    e.evaluate (s.relocate ρ) = (e.evaluate s).map (Value.relocate ρ) :=
  e.evaluateWith_relocate hinj hρ (Function.invokeWithin_relocate hinj hρ _) s hs

theorem Expr.evaluateTest_relocate (e : Expr) {s : Scope} (hs : base <:+ s.site) :
    e.evaluateTest (s.relocate ρ) = (e.evaluateTest s).map (Predicate.relocate ρ) := by
  rw [evaluateTest, evaluateTest, e.evaluate_relocate hinj hρ hs]
  cases e.evaluate s with
  | error fault => rfl
  | ok v => exact congrArg Except.ok (Predicate.ofValue_relocate v)

end Calls

end DecisionModel
