import DecisionModel.Evaluation
import DecisionModel.Proofs.Evaluation.Library

/-!
# Two evaluations side by side

One expression is evaluated in two scopes. The scopes need not be the same: it is enough that they
give the names the same values which can come up at all. These are the names of the expression, and
those of the bodies of functions that are called on the way. Since a body sees the bindings of its
callers, no set of scopes can say which names that will be, but the values can: a *view* fixes the
names that count, and every function that either evaluation gets hold of must stay within them.

The second evaluation may also have more calls at its disposal than the first. Then the first one
may give up where the second goes on; otherwise they come to the same.

What the first evaluation yields, the second `Follows`. The relation is taken through expressions
without a word about what calls do (`View.evaluateWith_follows`), and then through calls by
induction on how deep they may nest (`View.invokeWithin_follows`).
-/

namespace DecisionModel

/-- Whether a result is the refusal of a call that would nest too deep. -/
def GivesUp {α : Type} (r : Result α) : Prop :=
  ∃ function limit, r = .error (.callDepthExceeded function limit)

/-- The same scope at a site. -/
def Scope.atSite (s : Scope) (site : Site) : Scope := { s with site }

/-- Whether calls are made in the evaluation of an expression, apart from those in the bodies of
functions that it calls. -/
inductive Expr.Calls : Expr → Prop where
  | here (function : Expr) (params : List Expr) : Calls (.invocation function params)
  | within {e operand : Expr} : operand ∈ e.operands → Calls operand → Calls e

/-- How two evaluations are looked at. -/
structure View where
  /-- The names that both give the same value. -/
  names : String → Prop
  /-- Whether the first evaluation may stop at its limit. -/
  mayGiveUp : Prop

namespace View

variable {w : View}

/-- Whether a function looks nothing up but the names that count. -/
def Covers (w : View) (f : Function) : Prop := ∀ n ∈ f.names, w.names n

theorem covers_builtin (b : Builtin) : w.Covers (.builtin b) := by
  simp [Covers, Function.names]

/-! ## Results -/

section Results

variable {α β : Type} {P : α → Prop} {Q : β → Prop}

/-- The second result is the first one, and the value has a property, unless the first evaluation
gave up. -/
def Follows (w : View) (P : α → Prop) (x y : Result α) : Prop :=
  (w.mayGiveUp ∧ GivesUp x) ∨ (y = x ∧ ∀ a, x = .ok a → P a)

theorem Follows.refl {x : Result α} (h : ∀ a, x = .ok a → P a) : w.Follows P x x :=
  .inr ⟨rfl, h⟩

theorem Follows.ok {a : α} (h : P a) : w.Follows P (.ok a) (.ok a) :=
  .refl fun _ ha => Except.ok.inj ha ▸ h

theorem Follows.error (e : EvalError) : w.Follows P (.error e) (.error e) := .refl nofun

theorem Follows.bind {x y : Result α} {f g : α → Result β} (hxy : w.Follows P x y)
    (hfg : ∀ a, P a → w.Follows Q (f a) (g a)) : w.Follows Q (x >>= f) (y >>= g) := by
  obtain ⟨hgive, function, limit, rfl⟩ | ⟨rfl, hP⟩ := hxy
  · exact .inl ⟨hgive, function, limit, rfl⟩
  · cases y with
    | ok a => exact hfg a (hP a rfl)
    | error e => exact Follows.error e

/-- Where neither evaluation may give up, they come to the same. -/
theorem Follows.eq {x y : Result α} (h : w.Follows P x y) (hgive : ¬(w.mayGiveUp ∧ GivesUp x)) :
    y = x :=
  (h.resolve_left hgive).1

end Results

/-! ## Scopes -/

/-- The names that count are bound alike, to values whose functions stay within them. -/
structure Alike (w : View) (s s' : Scope) : Prop where
  inputVariable : s'.inputVariable = s.inputVariable
  lookup : ∀ n, w.names n → s'.lookup n = s.lookup n
  covered : ∀ n, w.names n → ∀ v, s.lookup n = some v → v.Only w.Covers
  limit : w.mayGiveUp ∨ s'.limit = s.limit

theorem lookup_push (s : Scope) (frame : Context) (n : String) :
    (s.push frame).lookup n = (Entries.get? frame n).or (s.lookup n) := by
  simp only [Scope.lookup, Scope.push, List.findSome?_cons]
  cases Entries.get? frame n <;> rfl

variable {s s' : Scope}

/-- The view in which all names count. -/
def everything (mayGiveUp : Prop) : View := ⟨fun _ => True, mayGiveUp⟩

theorem Alike.push (hs : w.Alike s s') (frame : Context)
    (hframe : ∀ n v, Entries.get? frame n = some v → v.Only w.Covers) :
    w.Alike (s.push frame) (s'.push frame) where
  inputVariable := hs.inputVariable
  lookup n hn := by simp only [lookup_push, hs.lookup n hn]
  covered n hn v hv := by
    rw [lookup_push] at hv
    cases hget : Entries.get? frame n with
    | none =>
      rw [hget] at hv
      exact hs.covered n hn v hv
    | some other =>
      rw [hget] at hv
      cases hv
      exact hframe n v hget
  limit := hs.limit

theorem Alike.forColumn (hs : w.Alike s s') (name : Option String) :
    w.Alike (s.forColumn name) (s'.forColumn name) :=
  have hpush := hs.push [] nofun
  ⟨rfl, hpush.lookup, hpush.covered, hpush.limit⟩

theorem Alike.enter (hs : w.Alike s s') (frame : Context)
    (hframe : ∀ n v, Entries.get? frame n = some v → v.Only w.Covers) :
    w.Alike (s.enter frame) (s'.enter frame) :=
  have hpush := hs.push frame hframe
  ⟨hpush.inputVariable, hpush.lookup, hpush.covered, hpush.limit⟩

theorem Alike.resolve (hs : w.Alike s s') {path : List String}
    (hpath : ∀ n ∈ path.take 1, w.names n) : s'.resolve path = s.resolve path := by
  cases path with
  | nil => rfl
  | cons n path => simp only [Scope.resolve, hs.lookup n (hpath n (by simp))]

theorem Alike.only_resolve (hs : w.Alike s s') {path : List String}
    (hpath : ∀ n ∈ path.take 1, w.names n) : (s.resolve path).Only w.Covers := by
  cases path with
  | nil => exact Value.only_absent
  | cons n path =>
    refine Value.only_follow ?_ path
    cases hv : s.lookup n with
    | none => exact Value.only_absent
    | some v => exact hs.covered n (hpath n (by simp)) v hv

theorem Alike.cellTest (hs : w.Alike s s') (operand : Expr)
    (hnames : ∀ n ∈ operand.names, w.names n) (op : ComparisonOp) (result : Value) :
    s'.cellTest op operand result = s.cellTest op operand result := by
  unfold Scope.cellTest
  rw [hs.inputVariable]
  cases htext : s.inputVariable.bind operand.argumentNamed? with
  | none => cases result <;> rfl
  | some path =>
    obtain ⟨text, -, hpath⟩ := Option.bind_eq_some_iff.mp htext
    have hresolve : s'.resolve path = s.resolve path :=
      hs.resolve fun n hn => hnames n (Expr.mem_names_of_argumentNamed? hpath hn)
    cases result with
    | bool b =>
      cases b with
      | false => rfl
      | true => exact congrArg (Predicate.compare op) hresolve
    | _ => rfl

theorem get?_bindParams {P : Value → Prop} (hP : P .absent) {params : List String}
    {args : List Value} {bound : Context} (hargs : ∀ v ∈ args, P v)
    (hbound : ∀ n v, Entries.get? bound n = some v → P v) {n : String} {v : Value}
    (h : Entries.get? (bindParams bound params args) n = some v) : P v := by
  induction params generalizing bound args with
  | nil => exact hbound n v h
  | cons param params ih =>
    refine ih (fun v hv => hargs v (List.mem_of_mem_tail hv)) (fun m u hu => ?_) h
    rw [Entries.get?_insert] at hu
    split at hu
    · cases hu
      cases args with
      | nil => exact hP
      | cons arg args => exact hargs arg (by simp)
    · exact hbound m u hu

/-! ## Expressions -/

/-- What calls of covered functions come to, wherever they are made in two scopes. -/
def CallsFollow (w : View) (invoke invoke' : Invoke) (s s' : Scope) : Prop :=
  ∀ f args site, w.Covers f → (∀ v ∈ args, v.Only w.Covers) →
    w.Follows (·.Only w.Covers) (invoke f args (s.atSite site)) (invoke' f args (s'.atSite site))

/-- What an expression comes to, wherever it stands in two scopes. -/
def ExprFollows (w : View) (invoke invoke' : Invoke) (s s' : Scope) (e : Expr) : Prop :=
  ∀ site, w.Follows (·.Only w.Covers) (e.evaluateWith invoke (s.atSite site))
    (e.evaluateWith invoke' (s'.atSite site))

variable {invoke invoke' : Invoke}

theorem evaluateAll_follows {es : List Expr}
    (hes : ∀ e ∈ es, w.ExprFollows invoke invoke' s s' e) (index : Nat) (site : Site) :
    w.Follows (∀ v ∈ ·, v.Only w.Covers) (evaluateAll invoke index es (s.atSite site))
      (evaluateAll invoke' index es (s'.atSite site)) := by
  induction es generalizing index with
  | nil => exact .ok (by simp)
  | cons e es ih =>
    obtain ⟨he, hes⟩ := List.forall_mem_cons.mp hes
    unfold evaluateAll
    exact (he _).bind fun v hv => (ih hes _).bind fun vs hvs =>
      .ok (List.forall_mem_cons.mpr ⟨hv, hvs⟩)

theorem testMember_follows {es : List Expr}
    (hes : ∀ e ∈ es, w.ExprFollows invoke invoke' s s' e) (candidate : Value) (index : Nat)
    {outcome : Value} (houtcome : outcome.Only w.Covers) (site : Site) :
    w.Follows (·.Only w.Covers) (testMember invoke candidate index outcome es (s.atSite site))
      (testMember invoke' candidate index outcome es (s'.atSite site)) := by
  induction es generalizing index outcome with
  | nil => exact .ok houtcome
  | cons e es ih =>
    obtain ⟨he, hes⟩ := List.forall_mem_cons.mp hes
    unfold testMember
    refine (he _).bind fun v _ => Follows.bind (.refl fun _ _ => trivial) fun result _ => ?_
    dsimp only
    split
    · exact .ok (Value.only_or3 _ _)
    · exact ih hes _ (Value.only_or3 _ _)

/-- **Two evaluations of an expression in scopes that are alike come to the same, if the calls in
it do.** -/
theorem evaluateWith_follows (hs : w.Alike s s') {e : Expr} (hnames : ∀ n ∈ e.names, w.names n)
    (hcalls : e.Calls → w.CallsFollow invoke invoke' s s') :
    w.ExprFollows invoke invoke' s s' e := by
  induction e using Expr.induction_on_operands with
  | h e ih =>
    -- The operands stand in the same two scopes, at sites of their own.
    have hoperand : ∀ operand ∈ e.operands, w.ExprFollows invoke invoke' s s' operand :=
      fun operand h => ih operand h
        (fun n hn => hnames n (Expr.mem_names_of_operand h hn)) fun hc => hcalls (.within h hc)
    intro site
    cases e with
    | literal l =>
      unfold Expr.evaluateWith
      cases l <;> exact .ok (by simp [Literal.toValue])
    | name n =>
      unfold Expr.evaluateWith
      have hpath : ∀ m ∈ [n].take 1, w.names m := fun m hm => hnames m hm
      exact .inr ⟨congrArg _ (hs.resolve hpath), only_ok.mpr (hs.only_resolve hpath)⟩
    | path ns =>
      unfold Expr.evaluateWith
      exact .inr ⟨congrArg _ (hs.resolve hnames), only_ok.mpr (hs.only_resolve hnames)⟩
    | arithmetic op left right =>
      unfold Expr.evaluateWith
      exact (hoperand right (by simp [Expr.operands]) _).bind fun b _ =>
        (hoperand left (by simp [Expr.operands]) _).bind fun a _ =>
        .refl (Value.only_arithmetic op a b)
    | negation op operand =>
      unfold Expr.evaluateWith
      exact (hoperand operand (by simp [Expr.operands]) _).bind fun v _ =>
        .refl (Value.only_negate v)
    | comparison op left right =>
      unfold Expr.evaluateWith
      exact (hoperand left (by simp [Expr.operands]) _).bind fun a _ =>
        (hoperand right (by simp [Expr.operands]) _).bind fun b _ =>
        .refl (Value.only_compare op a b)
    | between value low high =>
      unfold Expr.evaluateWith
      exact (hoperand value (by simp [Expr.operands]) _).bind fun v _ =>
        (hoperand low (by simp [Expr.operands]) _).bind fun a _ =>
        (hoperand high (by simp [Expr.operands]) _).bind fun b _ =>
        .refl (only_bind fun _ _ => only_bind fun _ _ => only_ok.mpr (Value.only_and3 _ _))
    | member value tests =>
      unfold Expr.evaluateWith
      exact (hoperand value (by simp [Expr.operands]) _).bind fun candidate _ =>
        testMember_follows (fun e he => hoperand e (by simp [Expr.operands, he])) candidate 1
          (Value.only_bool false) site
    | interval lowBound low high highBound =>
      unfold Expr.evaluateWith
      exact (hoperand low (by simp [Expr.operands]) _).bind fun a _ =>
        (hoperand high (by simp [Expr.operands]) _).bind fun b _ =>
        .ok (Value.only_predicate _)
    | unaryTest op operand =>
      unfold Expr.evaluateWith
      refine (hoperand operand (by simp [Expr.operands]) _).bind fun result _ => ?_
      -- The test may look the input variable up once more, as an argument of the operand.
      have htest : (s'.atSite site).cellTest (op.getD .eq) operand result =
          (s.atSite site).cellTest (op.getD .eq) operand result :=
        hs.cellTest operand hnames _ _
      rw [htest]
      exact .ok (Value.only_predicate _)
    | unaryTests tests negated =>
      unfold Expr.evaluateWith
      cases tests with
      | nil => exact .ok (Value.only_predicate _)
      | cons test tests =>
        exact (evaluateAll_follows hoperand 1 site).bind fun _ _ =>
          .ok (Value.only_predicate _)
    | expressions items =>
      unfold Expr.evaluateWith
      exact (evaluateAll_follows hoperand 0 site).bind fun vs hvs => .ok (Value.only_list.mpr hvs)
    | temporal symbol params =>
      unfold Expr.evaluateWith
      cases Builtin.ofName? symbol with
      | none => exact .error _
      | some b =>
        refine (evaluateAll_follows hoperand 0 site).bind fun args hargs => ?_
        split
        · exact .ok Value.only_absent
        · exact .refl (Builtin.only_call b hargs)
    | invocation function params =>
      unfold Expr.evaluateWith
      refine (hoperand function (by simp [Expr.operands]) _).bind fun callee hcallee => ?_
      cases callee with
      | absent => exact .ok Value.only_absent
      | function f =>
        have hparams := fun e he => hoperand e (List.mem_cons_of_mem function he)
        exact (evaluateAll_follows hparams 1 site).bind fun args hargs =>
          hcalls (.here function params) f args site (Value.only_function.mp hcallee) hargs
      | _ => exact .error _
    | list items =>
      unfold Expr.evaluateWith
      exact (evaluateAll_follows hoperand 0 site).bind fun vs hvs => .ok (Value.only_list.mpr hvs)
    | lambda params body =>
      unfold Expr.evaluateWith
      -- The body is not evaluated here, but wherever the function is called its names count.
      exact .ok (Value.only_function.mpr hnames)

/-! ## Calls -/

/-- **Two calls in scopes that are alike come to the same, where the second one may nest further
calls as deep as the first.** -/
theorem invokeWithin_follows {calls calls' : Nat} (hle : calls ≤ calls')
    (heq : w.mayGiveUp ∨ calls' = calls) (hs : w.Alike s s') :
    w.CallsFollow (Function.invokeWithin calls) (Function.invokeWithin calls') s s' := by
  induction calls generalizing calls' s s' with
  | zero =>
    intro f args site hf hargs
    cases f with
    | builtin b =>
      unfold Function.invokeWithin
      exact .refl (Builtin.only_call b hargs)
    | _ =>
      -- The first side gives up, and so does the second unless it has calls left.
      obtain hgive | rfl := heq
      · exact .inl ⟨hgive, _, _, rfl⟩
      · obtain hgive | hlimit := hs.limit
        · exact .inl ⟨hgive, _, _, rfl⟩
        · have htooDeep (name : String) :
              (s'.atSite site).tooDeep name = (s.atSite site).tooDeep name :=
            congrArg (EvalError.callDepthExceeded name) hlimit
          unfold Function.invokeWithin
          rw [htooDeep]
          exact .error _
  | succ calls ih =>
    obtain ⟨calls', rfl⟩ : ∃ n, calls' = n + 1 := ⟨calls' - 1, by omega⟩
    have hcalls {s s' : Scope} (hs : w.Alike s s') :
        w.CallsFollow (Function.invokeWithin calls) (Function.invokeWithin calls') s s' :=
      ih (Nat.le_of_succ_le_succ hle) (heq.imp_right Nat.succ.inj) hs
    intro f args site hf hargs
    cases f with
    | builtin b =>
      unfold Function.invokeWithin
      exact .refl (Builtin.only_call b hargs)
    | lambda identity params body =>
      unfold Function.invokeWithin
      have hinner := hs.enter (bindParams [] params args) fun _ _ =>
        get?_bindParams Value.only_absent hargs (by simp)
      exact evaluateWith_follows hinner hf (fun _ => hcalls hinner) (.body :: site)
    | decision identity name body =>
      unfold Function.invokeWithin
      have hinner := hs.enter [] nofun
      refine (evaluateWith_follows hinner hf (fun _ => hcalls hinner) (.body :: site)).bind
        fun result hresult => ?_
      cases result with
      | function f =>
        -- What the body yields is called in the scope of the body.
        exact hcalls hinner f args (.result :: .body :: site) (Value.only_function.mp hresult) hargs
      | _ => exact .ok hresult

/-- **Two evaluations in scopes that are alike come to the same.** -/
theorem evaluate_follows (hs : w.Alike s s') (hle : s.callsLeft ≤ s'.callsLeft)
    (heq : w.mayGiveUp ∨ s'.callsLeft = s.callsLeft) (hsite : s'.site = s.site) {e : Expr}
    (hnames : ∀ n ∈ e.names, w.names n) :
    w.Follows (·.Only w.Covers) (e.evaluate s) (e.evaluate s') := by
  have h := evaluateWith_follows hs hnames (fun _ => invokeWithin_follows hle heq hs) s.site
  have hs' : s'.atSite s.site = s' := by rw [← hsite]; rfl
  rw [hs'] at h
  exact h

end View
end DecisionModel
