import DecisionModel.Document
import DecisionModel.Proofs.Expr.Json
import Mathlib.Data.List.Forall2

/-!
# Documents read back

A document is written with all its fields, those included that were not given when it was read, so
reading it again finds the decisions as they are. Only its trees may come back changed, and they are
the same trees: a zero with a sign loses the sign. No digits read as such a zero, but an exponent
that moves all digits of a negative number out of it leaves one behind.
-/

namespace DecisionModel

variable {f : Literal → Literal}

namespace Rule

/-- The literals of all entries. -/
def literals (r : Rule) : List Literal :=
  Expr.literalsOfAll r.inputEntries ++ Expr.literalsOfAll r.outputEntries

def mapLiterals (f : Literal → Literal) (r : Rule) : Rule :=
  ⟨Expr.mapLiteralsOfAll f r.inputEntries, Expr.mapLiteralsOfAll f r.outputEntries⟩

/-- The same entries in the same places. -/
def same (r r' : Rule) : Bool :=
  Expr.sameAll r.inputEntries r'.inputEntries && Expr.sameAll r.outputEntries r'.outputEntries

theorem same_mapLiterals (h : ∀ l : Literal, l.same (f l) = true) (r : Rule) :
    r.same (r.mapLiterals f) = true := by
  rw [same, mapLiterals, Expr.sameAll_mapLiteralsOfAll h, Expr.sameAll_mapLiteralsOfAll h]
  rfl

theorem mapLiterals_mapLiterals (h : ∀ l, f (f l) = f l) (r : Rule) :
    (r.mapLiterals f).mapLiterals f = r.mapLiterals f := by
  have hcomp : f ∘ f = f := funext h
  simp only [mapLiterals, Expr.mapLiteralsOfAll_mapLiteralsOfAll, hcomp]

theorem fromJson?_toJson (r : Rule) : fromJson? r.toJson = some (r.mapLiterals .unsignedZero) := by
  show (do
    return Rule.mk (← Expr.listFromJson? (.array (Expr.toJsonAll r.inputEntries)))
      (← Expr.listFromJson? (.array (Expr.toJsonAll r.outputEntries)))) = _
  rw [Expr.listFromJson?_toJsonAll, Expr.listFromJson?_toJsonAll]
  rfl

theorem toJson_mapLiterals_eq_iff (r : Rule) :
    (r.mapLiterals f).toJson = r.toJson ↔ ∀ l ∈ r.literals, (f l).toJson = l.toJson := by
  simp [toJson, mapLiterals, literals, or_imp, forall_and,
    Expr.toJsonAll_mapLiteralsOfAll_eq_iff]

end Rule

namespace DecisionDocument

/-- The literals of the inputs and of all rules. -/
def literals (d : DecisionDocument) : List Literal :=
  Expr.literalsOfAll d.inputs ++ d.rules.flatMap Rule.literals

def mapLiterals (f : Literal → Literal) (d : DecisionDocument) : DecisionDocument :=
  { d with inputs := Expr.mapLiteralsOfAll f d.inputs, rules := d.rules.map (Rule.mapLiterals f) }

/-- The same decision: equal texts and names, and the same trees. -/
structure Same (d d' : DecisionDocument) : Prop where
  id : d.id = d'.id
  hitPolicy : d.hitPolicy = d'.hitPolicy
  required : d.required = d'.required
  inputs : Expr.sameAll d.inputs d'.inputs = true
  outputs : d.outputs = d'.outputs
  rules : List.Forall₂ (fun r r' => Rule.same r r' = true) d.rules d'.rules

theorem same_mapLiterals (h : ∀ l : Literal, l.same (f l) = true) (d : DecisionDocument) :
    d.Same (d.mapLiterals f) where
  id := rfl
  hitPolicy := rfl
  required := rfl
  inputs := Expr.sameAll_mapLiteralsOfAll h d.inputs
  outputs := rfl
  rules := List.forall₂_map_right_iff.mpr (List.forall₂_same.mpr fun r _ => r.same_mapLiterals h)

theorem mapLiterals_mapLiterals (h : ∀ l, f (f l) = f l) (d : DecisionDocument) :
    (d.mapLiterals f).mapLiterals f = d.mapLiterals f := by
  have hcomp : f ∘ f = f := funext h
  simp only [mapLiterals, List.map_map, Expr.mapLiteralsOfAll_mapLiteralsOfAll, hcomp,
    Function.comp_def, Rule.mapLiterals_mapLiterals h]

theorem fromJson?_toJson (d : DecisionDocument) :
    fromJson? d.toJson = some (d.mapLiterals .unsignedZero) := by
  show (do
    return DecisionDocument.mk d.id d.hitPolicy
      (← (Expr.stringsToJson d.required).strings?)
      (← Expr.listFromJson? (.array (Expr.toJsonAll d.inputs)))
      (← (Expr.stringsToJson d.outputs).strings?)
      (← (d.rules.map Rule.toJson).mapM Rule.fromJson?)) = _
  rw [Json.strings?_stringsToJson, Json.strings?_stringsToJson, Expr.listFromJson?_toJsonAll,
    Json.mapM_map fun r _ => r.fromJson?_toJson]
  rfl

theorem toJson_mapLiterals_eq_iff (d : DecisionDocument) :
    (d.mapLiterals f).toJson = d.toJson ↔ ∀ l ∈ d.literals, (f l).toJson = l.toJson := by
  rw [literals, List.forall_mem_append, List.forall_mem_flatMap]
  simp [toJson, mapLiterals, Expr.toJsonAll_mapLiteralsOfAll_eq_iff, Rule.toJson_mapLiterals_eq_iff]

end DecisionDocument

namespace Document

def literals (d : Document) : List Literal := d.decisions.flatMap DecisionDocument.literals

def mapLiterals (f : Literal → Literal) (d : Document) : Document :=
  ⟨d.decisions.map (DecisionDocument.mapLiterals f)⟩

theorem fromJson?_toJson (d : Document) :
    fromJson? d.toJson = some (d.mapLiterals .unsignedZero) := by
  show (do
    return Document.mk
      (← (d.decisions.map DecisionDocument.toJson).mapM DecisionDocument.fromJson?)) = _
  rw [Json.mapM_map fun decision _ => decision.fromJson?_toJson]
  rfl

theorem toJson_mapLiterals_eq_iff (d : Document) :
    (d.mapLiterals f).toJson = d.toJson ↔ ∀ l ∈ d.literals, (f l).toJson = l.toJson := by
  rw [literals, List.forall_mem_flatMap]
  simp [toJson, mapLiterals, DecisionDocument.toJson_mapLiterals_eq_iff]

theorem mapLiterals_mapLiterals (h : ∀ l, f (f l) = f l) (d : Document) :
    (d.mapLiterals f).mapLiterals f = d.mapLiterals f := by
  simp only [mapLiterals, List.map_map, Function.comp_def,
    DecisionDocument.mapLiterals_mapLiterals h]

/-- **Trees and documents read back from their JSON form.** What comes back is the same tree or has
the same decisions: at most a zero has lost its sign. From then on the form does not change, and it
is the first one unless there is a zero with a sign. -/
theorem json_form_reads_back :
    (∀ e : Expr, Expr.fromJson? e.toJson = some (e.mapLiterals .unsignedZero) ∧
      e.same (e.mapLiterals .unsignedZero) = true) ∧
    ∀ d : Document, ∃ d', fromJson? d.toJson = some d' ∧ d' = d.mapLiterals .unsignedZero ∧
      List.Forall₂ DecisionDocument.Same d.decisions d'.decisions ∧
      fromJson? d'.toJson = some d' ∧
      (d'.toJson = d.toJson ↔ ∀ l ∈ d.literals, l.isSignedZero = false) := by
  refine ⟨fun e => ⟨e.fromJson?_toJson, Expr.same_mapLiterals Literal.same_unsignedZero e⟩,
    fun d => ⟨_, d.fromJson?_toJson, rfl, ?_, ?_, ?_⟩⟩
  · exact List.forall₂_map_right_iff.mpr
      (List.forall₂_same.mpr fun decision _ => decision.same_mapLiterals Literal.same_unsignedZero)
  · rw [fromJson?_toJson, mapLiterals_mapLiterals Literal.unsignedZero_unsignedZero]
  · simp only [toJson_mapLiterals_eq_iff, Literal.toJson_unsignedZero_eq_iff]

/-- The document of a single rule that puts out what the entry says. -/
def rateDocument (entry : Json) : Json :=
  .object [("decisions", .array [rateDecision entry])]
where
  rateDecision (entry : Json) : Json :=
    .object [
      ("id", .string "rate"), ("hit_policy", .string "FIRST"), ("required_decisions", .array []),
      ("inputs", .array []), ("outputs", .array [.string "rate"]),
      ("rules", .array [rateRule entry])]
  rateRule (entry : Json) : Json :=
    .object [("input_entries", .array []), ("output_entries", .array [entry])]

/-- What the document is read as. -/
def rate (e : Expr) : Document := ⟨[⟨"rate", "FIRST", [], [], ["rate"], [⟨[], [e]⟩]⟩]⟩

theorem fromJson?_rateDocument {entry : Json} {e : Expr} (h : Expr.fromJson? entry = some e) :
    fromJson? (rateDocument entry) = some (rate e) := by
  have hrule : Rule.fromJson? (rateDocument.rateRule entry) = some ⟨[], [e]⟩ := by
    show (do return Rule.mk [] (← [entry].mapM Expr.fromJson?)) = _
    rw [List.mapM_cons, h]
    rfl
  have hdecision : DecisionDocument.fromJson? (rateDocument.rateDecision entry) =
      some ⟨"rate", "FIRST", [], [], ["rate"], [⟨[], [e]⟩]⟩ := by
    show (do
      return DecisionDocument.mk "rate" "FIRST" [] [] ["rate"] (← [_].mapM Rule.fromJson?)) = _
    rw [List.mapM_cons, hrule]
    rfl
  show (do return Document.mk (← [_].mapM DecisionDocument.fromJson?)) = _
  rw [List.mapM_cons, hdecision]
  rfl

def numberEntry (number : String) : Json :=
  Expr.record "Literal" [("value", .object [("kind", .string "number"), ("value", .string number)])]

/-- The exponent moves the only digit out, and the sign stays until it is read from the text. -/
theorem sign_of_zero_lost :
    ∃ d d', fromJson? (rateDocument (numberEntry "-0.1e-28")) = some d ∧
      d.toJson = rateDocument (numberEntry "-0.0000000000000000000000000000") ∧
      fromJson? d.toJson = some d' ∧
      d'.toJson = rateDocument (numberEntry "0.0000000000000000000000000000") ∧
      d'.toJson ≠ d.toJson := by
  let zero (negative : Bool) : Expr := .number ⟨negative, 0, 28, by decide, by decide⟩
  have hsigned : (rate (zero true)).toJson =
      rateDocument (numberEntry "-0.0000000000000000000000000000") := rfl
  have hunsigned : (rate (zero false)).toJson =
      rateDocument (numberEntry "0.0000000000000000000000000000") := rfl
  have hread : fromJson? (rate (zero true)).toJson = some (rate (zero false)) :=
    (rate (zero true)).fromJson?_toJson
  refine ⟨rate (zero true), rate (zero false), fromJson?_rateDocument rfl, hsigned, hread,
    hunsigned, ?_⟩
  rw [hsigned, hunsigned]
  simp [rateDocument, rateDocument.rateDecision, rateDocument.rateRule, numberEntry, Expr.record]

end Document

end DecisionModel
