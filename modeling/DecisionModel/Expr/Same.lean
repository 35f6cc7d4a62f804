import DecisionModel.Expr.Basic

/-!
# Sameness of expressions

Whether two expressions are the same tree. Only the decimals of a number literal do not count: `1.0`
and `1` are the same literal.
-/

namespace DecisionModel

def Literal.same : Literal → Literal → Bool
  | .number a, .number b => a.same b
  | a, b => a == b

namespace Expr

mutual

def same : Expr → Expr → Bool
  | .literal a, .literal b => a.same b
  | .name a, .name b => a == b
  | .path a, .path b => a == b
  | .arithmetic o a b, .arithmetic o' a' b' => o == o' && a.same a' && b.same b'
  | .negation o a, .negation o' a' => o == o' && a.same a'
  | .comparison o a b, .comparison o' a' b' => o == o' && a.same a' && b.same b'
  | .between a b c, .between a' b' c' => a.same a' && b.same b' && c.same c'
  | .member a ts, .member a' ts' => a.same a' && sameAll ts ts'
  | .interval l a b h, .interval l' a' b' h' => l == l' && a.same a' && b.same b' && h == h'
  | .unaryTest o a, .unaryTest o' a' => o == o' && a.same a'
  | .unaryTests ts n, .unaryTests ts' n' => sameAll ts ts' && n == n'
  | .expressions es, .expressions es' => sameAll es es'
  | .temporal s ps, .temporal s' ps' => s == s' && sameAll ps ps'
  | .invocation f ps, .invocation f' ps' => f.same f' && sameAll ps ps'
  | .list es, .list es' => sameAll es es'
  | .lambda ps b, .lambda ps' b' => ps == ps' && b.same b'
  | _, _ => false

def sameAll : List Expr → List Expr → Bool
  | [], [] => true
  | a :: as, b :: bs => a.same b && sameAll as bs
  | _, _ => false

end

end Expr

end DecisionModel
