import DecisionModel.Decision.Error

/-!
# Decision sets

Decisions that require one another's results. In a set every id stands for one decision, every
required decision is there, and no decision requires itself, not even through others. The three
conditions are checked in this order when a set is built, and a set carries the proof that they
were.
-/

namespace DecisionModel

structure Decision where
  id : String
  table : Table
  /-- The ids of the decisions whose results the table may use. -/
  required : List String

namespace Decision

def find? (decisions : List Decision) (id : String) : Option Decision :=
  decisions.find? (·.id == id)

/-! ## Checks -/

/-- The first id that another decision before it has already. -/
def repeatedId? (seen : List String) : List Decision → Option String
  | [] => none
  | d :: decisions =>
    if seen.contains d.id then some d.id else repeatedId? (d.id :: seen) decisions

/-- The first required id that no decision has. -/
def unknownId? (decisions : List Decision) : Option String :=
  (decisions.flatMap (·.required)).find? fun id => (find? decisions id).isNone

/-- Goes through the requirements of a decision and through theirs, and answers the decisions that
are known not to lead into a circle. `path` holds the decisions that led here, in reverse. Paths of
distinct decisions are no longer than `steps`, so it never runs out. -/
def visit (decisions : List Decision) :
    (steps : Nat) → (path visited : List String) → String → Except DecisionError (List String)
  | 0, _, visited, _ => .ok visited
  | steps + 1, path, visited, id =>
    if visited.contains id then .ok visited
    else if path.contains id then
      .error (.cyclicDependency (id :: (path.takeWhile (· != id)).reverse ++ [id]))
    else match find? decisions id with
      | none => .ok visited
      | some d => do
        let visited ← d.required.foldlM (visit decisions steps (id :: path)) visited
        return id :: visited

/-- The ids in their order. -/
def sortedIds (decisions : List Decision) : List String :=
  (decisions.map (·.id)).mergeSort (fun a b => decide (a ≤ b))

/-- Looks for a circle from every decision, in the order of the ids. -/
def checkAcyclic (decisions : List Decision) : Except DecisionError Unit := do
  let _ ← (sortedIds decisions).foldlM (visit decisions (decisions.length + 1) []) []

/-- What keeps decisions from forming a set. -/
def check (decisions : List Decision) : Except DecisionError Unit :=
  match repeatedId? [] decisions with
  | some id => .error (.duplicateId id)
  | none => match unknownId? decisions with
    | some id => .error (.unknownDecision id)
    | none => checkAcyclic decisions

end Decision

/-! ## Sets -/

structure DecisionSet where
  decisions : List Decision
  /-- How deep calls may nest within an expression. -/
  callLimit : Nat
  checked : Decision.check decisions = .ok ()

namespace DecisionSet

def new (decisions : List Decision) : Except DecisionError DecisionSet :=
  match h : Decision.check decisions with
  | .ok () => .ok ⟨decisions, Scope.defaultLimit, h⟩
  | .error e => .error e

def withCallLimit (set : DecisionSet) (limit : Nat) : DecisionSet := { set with callLimit := limit }

def get? (set : DecisionSet) (id : String) : Option Decision := Decision.find? set.decisions id

def size (set : DecisionSet) : Nat := set.decisions.length

def ids (set : DecisionSet) : List String := Decision.sortedIds set.decisions

end DecisionSet

end DecisionModel
