import DecisionModel.Expr.Json
import DecisionModel.Proofs.Expr.Literals

/-!
# Trees read back

A tree is written as a record that has its kind and a field for each of its parts. Reading finds the
kind, whether it expects a name or a choice among the kinds, and asks for the fields by the names
under which they were written. So what comes back differs from what was written by no more than the
literals do, and these come back as they are, but for the sign of a zero.
-/

namespace DecisionModel

/-! ## Names and choices -/

namespace Json

/-- A list reads back if every member of it does. -/
theorem mapM_map {α β : Type} {write : α → Json} {read? : Json → Option β} {g : α → β}
    {items : List α} (h : ∀ item ∈ items, read? (write item) = some (g item)) :
    (items.map write).mapM read? = some (items.map g) := by
  induction items with
  | nil => rfl
  | cons item items ih =>
    rw [List.map_cons, List.mapM_cons, h item List.mem_cons_self,
      ih fun other hother => h other (List.mem_cons_of_mem _ hother)]
    rfl

theorem strings?_stringsToJson (names : List String) :
    (Expr.stringsToJson names).strings? = some names := by
  have hnames : (names.map Json.string).mapM string? = some (names.map id) :=
    mapM_map fun _ _ => rfl
  rwa [List.map_id] at hnames

end Json

namespace ArithmeticOp

theorem fromInner?_symbol (op : ArithmeticOp) : fromInner? (.string op.symbol) = some op := by
  cases op <;> rfl

end ArithmeticOp

namespace ComparisonOp

theorem fromInner?_symbol (op : ComparisonOp) : fromInner? (.string op.symbol) = some op := by
  cases op <;> rfl

end ComparisonOp

namespace Bound

theorem fromInner?_name (bound : Bound) : fromInner? (.string bound.name) = some bound := by
  cases bound <;> rfl

end Bound

namespace Literal

theorem fromJson?_toJson (l : Literal) : fromJson? l.toJson = some l.unsignedZero := by
  cases l with
  | null => rfl
  | bool b => rfl
  | string s => rfl
  | number n =>
    show (Decimal.ofLiteral? (.string n.toText)).map Literal.number = _
    rw [Decimal.ofLiteral?, Decimal.read_toText]
    rfl

/-- The sign of a zero is written. -/
theorem toJson_unsignedZero_eq_iff {l : Literal} :
    l.unsignedZero.toJson = l.toJson ↔ l.isSignedZero = false := by
  cases l with
  | null | bool | string => simp [unsignedZero, isSignedZero]
  | number n =>
    rw [← unsignedZero_eq_self_iff]
    simp [unsignedZero, toJson, Decimal.toText_unsignedZero_eq_iff]

end Literal

namespace Expr

/-! ## Records -/

theorem read_json (json : Json) : (read json).json = json := by
  cases json <;> rw [read]

theorem exprs?_array (items : List Json) :
    (read (.array items)).exprs? = (readAll items).mapM (·.expr?) := by
  rw [read]

theorem map_fst_readFields (fields : List (String × Json)) :
    (readFields fields).map (·.1) = fields.map (·.1) := by
  induction fields with
  | nil => rfl
  | cons field fields ih => rw [readFields, List.map_cons, ih, List.map_cons]

/-- The JSON value is a record, with the kind as its first field and only there, and its other
fields read as the expression. -/
def Describes (json : Json) (e : Expr) : Prop :=
  ∃ kind fields, json = record kind fields ∧ "type" ∉ fields.map (·.1) ∧
    ofKind? kind (.named (readFields fields)) = some e

variable {json : Json} {e : Expr} {kindOf? : Json → Option String}

theorem ofParts?_record {kind : String} {fields : List (String × Json)}
    (hkind : kindOf? (.string kind) = some kind) (htype : "type" ∉ fields.map (·.1)) :
    ofParts? kindOf? (.named (readFields (("type", .string kind) :: fields))) =
      ofKind? kind (.named (readFields fields)) := by
  rw [← map_fst_readFields] at htype
  have hothers : ∀ field ∈ readFields fields, field.1 ≠ "type" :=
    fun field hfield hname => htype (List.mem_map.mpr ⟨field, hfield, hname⟩)
  have hnone : (readFields fields).filter (·.1 == "type") = [] :=
    List.filter_eq_nil_iff.mpr fun field hfield => by simp [hothers field hfield]
  have hall : (readFields fields).filter (·.1 != "type") = readFields fields :=
    List.filter_eq_self.mpr fun field hfield => by simp [hothers field hfield]
  simp [ofParts?, Json.Parts.split?, Json.Parts.field?, readFields, hnone, hall, read, hkind]

namespace Describes

theorem expr? (h : Describes json e) : (read json).expr? = some e := by
  obtain ⟨kind, fields, rfl, htype, he⟩ := h
  rw [record, read, ofInnerParts?, ofParts?_record rfl htype, he]

theorem fromJson? (h : Describes json e) : Expr.fromJson? json = some e := by
  obtain ⟨kind, fields, rfl, htype, he⟩ := h
  rw [record, Expr.fromJson?, ofParts?_record rfl htype, he]

/-- A record is something. -/
theorem optional? (h : Describes json e) : Expr.optional? (some (read json)) = some (some e) := by
  have he := h.expr?
  obtain ⟨kind, fields, rfl, -, -⟩ := h
  rw [Expr.optional?, read_json, record]
  dsimp only
  rw [← record, he]
  rfl

end Describes

/-! ## Trees -/

mutual

theorem describes_toJson : ∀ e : Expr, Describes e.toJson (e.mapLiterals .unsignedZero)
  | .literal l => by
    refine ⟨"Literal", _, rfl, by simp, ?_⟩
    show (do return Expr.literal (← Literal.fromJson? (read l.toJson).json)) = _
    rw [read_json, l.fromJson?_toJson]
    rfl
  | .name n => ⟨"Name", _, rfl, by simp, rfl⟩
  | .path names => by
    refine ⟨"QualifiedName", _, rfl, by simp, ?_⟩
    show (do return Expr.path (← (read (stringsToJson names)).json.strings?)) = _
    rw [read_json, Json.strings?_stringsToJson]
    rfl
  | .arithmetic op left right => by
    refine ⟨"ArithmeticExpression", _, rfl, by simp, ?_⟩
    show (do
      let op ← ArithmeticOp.fromInner? (.string op.symbol)
      match ← optional? (some (read left.toJson)) with
      | some left => return Expr.arithmetic op left (← (read right.toJson).expr?)
      | none => return Expr.negation op (← (read right.toJson).expr?)) = _
    rw [op.fromInner?_symbol, (describes_toJson left).optional?, (describes_toJson right).expr?]
    rfl
  | .negation op operand => by
    refine ⟨"ArithmeticExpression", _, rfl, by simp, ?_⟩
    show (do
      let op ← ArithmeticOp.fromInner? (.string op.symbol)
      match ← optional? none with
      | some left => return Expr.arithmetic op left (← (read operand.toJson).expr?)
      | none => return Expr.negation op (← (read operand.toJson).expr?)) = _
    rw [op.fromInner?_symbol, (describes_toJson operand).expr?]
    rfl
  | .comparison op left right => by
    refine ⟨"ComparisonExpression", _, rfl, by simp, ?_⟩
    show (do
      return Expr.comparison (← ComparisonOp.fromInner? (.string op.symbol))
        (← (read left.toJson).expr?) (← (read right.toJson).expr?)) = _
    rw [op.fromInner?_symbol, (describes_toJson left).expr?, (describes_toJson right).expr?]
    rfl
  | .between value low high => by
    refine ⟨"Between", _, rfl, by simp, ?_⟩
    show (do
      return Expr.between (← (read value.toJson).expr?) (← (read low.toJson).expr?)
        (← (read high.toJson).expr?)) = _
    rw [(describes_toJson value).expr?, (describes_toJson low).expr?, (describes_toJson high).expr?]
    rfl
  | .member value tests => by
    refine ⟨"In", _, rfl, by simp, ?_⟩
    show (do
      return Expr.member (← (read value.toJson).expr?)
        (← (read (.array (toJsonAll tests))).exprs?)) = _
    rw [(describes_toJson value).expr?, exprs?_toJsonAll tests]
    rfl
  | .interval lowBound low high highBound => by
    refine ⟨"Interval", _, rfl, by simp, ?_⟩
    show (do
      return Expr.interval (← Bound.fromInner? (.string lowBound.name)) (← (read low.toJson).expr?)
        (← (read high.toJson).expr?) (← Bound.fromInner? (.string highBound.name))) = _
    rw [lowBound.fromInner?_name, highBound.fromInner?_name, (describes_toJson low).expr?,
      (describes_toJson high).expr?]
    rfl
  | .unaryTest none operand => by
    refine ⟨"SimplePositiveUnaryTest", _, rfl, by simp, ?_⟩
    show (do return Expr.unaryTest (← optionalOp? none) (← (read operand.toJson).expr?)) = _
    rw [(describes_toJson operand).expr?]
    rfl
  | .unaryTest (some op) operand => by
    refine ⟨"SimplePositiveUnaryTest", _, rfl, by simp, ?_⟩
    show (do
      return Expr.unaryTest (← (ComparisonOp.fromInner? (.string op.symbol)).map some)
        (← (read operand.toJson).expr?)) = _
    rw [op.fromInner?_symbol, (describes_toJson operand).expr?]
    rfl
  | .unaryTests tests negated => by
    refine ⟨"SimpleUnaryTests", _, rfl, by simp, ?_⟩
    show (do
      return Expr.unaryTests (← (read (.array (toJsonAll tests))).exprs?) negated) = _
    rw [exprs?_toJsonAll tests]
    rfl
  | .expressions items => by
    refine ⟨"SimpleExpressions", _, rfl, by simp, ?_⟩
    show (do return Expr.expressions (← (read (.array (toJsonAll items))).exprs?)) = _
    rw [exprs?_toJsonAll items]
    rfl
  | .temporal symbol params => by
    refine ⟨"DateTimeLiteral", _, rfl, by simp, ?_⟩
    show (do return Expr.temporal symbol (← (read (.array (toJsonAll params))).exprs?)) = _
    rw [exprs?_toJsonAll params]
    rfl
  | .invocation function params => by
    refine ⟨"FunctionInvocation", _, rfl, by simp, ?_⟩
    show (do
      let params ← (read (.array (toJsonAll params))).exprs?
      return Expr.invocation (← (read function.toJson).expr?) params) = _
    rw [exprs?_toJsonAll params, (describes_toJson function).expr?]
    rfl
  | .list items => by
    refine ⟨"List", _, rfl, by simp, ?_⟩
    show (do return Expr.list (← (read (.array (toJsonAll items))).exprs?)) = _
    rw [exprs?_toJsonAll items]
    rfl
  | .lambda params body => by
    refine ⟨"FunctionDefinition", _, rfl, by simp, ?_⟩
    show (do
      return Expr.lambda (← (read (stringsToJson params)).json.strings?)
        (← (read body.toJson).expr?)) = _
    rw [read_json, Json.strings?_stringsToJson, (describes_toJson body).expr?]
    rfl

theorem exprs?_toJsonAll : ∀ es : List Expr,
    (read (.array (toJsonAll es))).exprs? = some (mapLiteralsOfAll .unsignedZero es)
  | [] => by rfl
  | e :: es => by
    have hes := exprs?_toJsonAll es
    rw [exprs?_array] at hes ⊢
    rw [toJsonAll, readAll, List.mapM_cons, (describes_toJson e).expr?, hes]
    rfl

end

/-- **A tree reads back from its JSON form** with all its digits and decimals, but without the signs
of zeros. -/
theorem fromJson?_toJson (e : Expr) : fromJson? e.toJson = some (e.mapLiterals .unsignedZero) :=
  (describes_toJson e).fromJson?

theorem toJsonAll_eq_map (es : List Expr) : toJsonAll es = es.map toJson := by
  induction es with
  | nil => rfl
  | cons e es ih => rw [toJsonAll, ih, List.map_cons]

theorem listFromJson?_toJsonAll (es : List Expr) :
    listFromJson? (.array (toJsonAll es)) = some (mapLiteralsOfAll .unsignedZero es) := by
  rw [toJsonAll_eq_map, mapLiteralsOfAll_eq_map]
  exact Json.mapM_map fun e _ => e.fromJson?_toJson

/-! ## Writing again -/

theorem toJsonAll_eq_iff_of_forall {f : Literal → Literal} {es : List Expr}
    (h : ∀ e ∈ es,
      (e.mapLiterals f).toJson = e.toJson ↔ ∀ l ∈ e.literals, (f l).toJson = l.toJson) :
    toJsonAll (mapLiteralsOfAll f es) = toJsonAll es ↔
      ∀ l ∈ literalsOfAll es, (f l).toJson = l.toJson := by
  induction es with
  | nil => simp [mapLiteralsOfAll, literalsOfAll]
  | cons e es ih =>
    obtain ⟨he, hes⟩ := List.forall_mem_cons.mp h
    simp [mapLiteralsOfAll, literalsOfAll, toJsonAll, or_imp, forall_and, he, ih hes]

/-- A tree is written as before exactly if all its literals are. -/
theorem toJson_mapLiterals_eq_iff {f : Literal → Literal} : ∀ e : Expr,
    (e.mapLiterals f).toJson = e.toJson ↔ ∀ l ∈ e.literals, (f l).toJson = l.toJson
  | .literal _ | .name _ | .path _ => by simp [mapLiterals, literals, toJson, record]
  | .negation _ operand | .unaryTest none operand | .unaryTest (some _) operand
  | .lambda _ operand => by
    simp [mapLiterals, literals, toJson, record, toJson_mapLiterals_eq_iff operand]
  | .arithmetic _ left right | .comparison _ left right | .interval _ left right _ => by
    simp [mapLiterals, literals, toJson, record, or_imp, forall_and,
      toJson_mapLiterals_eq_iff left, toJson_mapLiterals_eq_iff right]
  | .between value low high => by
    simp [mapLiterals, literals, toJson, record, or_imp, forall_and,
      toJson_mapLiterals_eq_iff value, toJson_mapLiterals_eq_iff low,
      toJson_mapLiterals_eq_iff high]
  | .unaryTests items _ | .expressions items | .temporal _ items | .list items => by
    have hitems := toJsonAll_eq_iff_of_forall fun e (he : e ∈ items) =>
      have := List.sizeOf_lt_of_mem he
      toJson_mapLiterals_eq_iff (f := f) e
    simp [mapLiterals, literals, toJson, record, hitems]
  | .member value items | .invocation value items => by
    have hitems := toJsonAll_eq_iff_of_forall fun e (he : e ∈ items) =>
      have := List.sizeOf_lt_of_mem he
      toJson_mapLiterals_eq_iff (f := f) e
    simp [mapLiterals, literals, toJson, record, or_imp, forall_and,
      toJson_mapLiterals_eq_iff value, hitems]

theorem toJsonAll_mapLiteralsOfAll_eq_iff {f : Literal → Literal} (es : List Expr) :
    toJsonAll (mapLiteralsOfAll f es) = toJsonAll es ↔
      ∀ l ∈ literalsOfAll es, (f l).toJson = l.toJson :=
  toJsonAll_eq_iff_of_forall fun e _ => toJson_mapLiterals_eq_iff e

end Expr

end DecisionModel
