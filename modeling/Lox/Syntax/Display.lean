import Lox.Syntax.Tree

namespace Lox

/-!
# Syntax tree text

Expressions written in fully parenthesized form with the operator first.
-/

/-- The text of a literal in a syntax tree; a string stands without quotes. -/
def Literal.display : Literal → String
  | .nil => "nil"
  | .bool true => "true"
  | .bool false => "false"
  | .number value => value.literalText
  | .string contents => contents

namespace Expr

mutual

/-- The text of an expression. -/
def display : Expr → String
  | .literal value => value.display
  | .grouping inner => "(group " ++ inner.display ++ ")"
  | .unary operator _ operand =>
      "(" ++ operator.spelling ++ " " ++ operand.display ++ ")"
  | .binary operator _ left right =>
      "(" ++ operator.spelling ++ " " ++ left.display ++ " " ++ right.display
        ++ ")"
  | .logical operator left right =>
      "(" ++ operator.spelling ++ " " ++ left.display ++ " " ++ right.display
        ++ ")"
  | .reference occurrence => occurrence.name.text
  | .assign target value =>
      "(= " ++ target.name.text ++ " " ++ value.display ++ ")"
  | .call callee arguments _ =>
      "(call " ++ callee.display ++ displayEach arguments ++ ")"
  | .property object name => "(. " ++ name.text ++ " " ++ object.display ++ ")"
  | .setProperty object name value =>
      "(= . " ++ name.text ++ " " ++ object.display ++ " " ++ value.display
        ++ ")"
  | .this _ _ => receiverName
  | .super _ _ method => "(super " ++ method.text ++ ")"

/-- The texts of expressions, each after a space. -/
def displayEach : List Expr → String
  | [] => ""
  | first :: rest => " " ++ first.display ++ displayEach rest

end

end Expr

end Lox
