/- source: internal/utils/slurmconstraint/slurmconstraint.go
   digest: Feature expressions of jobs, combined with a feature that is required. -/

import SlurmBridge.Node.Configuration

set_option autoImplicit false

namespace SlurmBridge.Slurm.Constraint

open Node.Configuration (trimSpace)

structure ExpressionShape where
  topLevelOr : Bool
  hasParens : Bool
  hasBrackets : Bool
  countOutsideBrackets : Bool
  deriving DecidableEq, Repr

structure Scan where
  shape : ExpressionShape
  paren : Nat
  bracket : Nat
  deriving DecidableEq, Repr

def Scan.start : Scan := ⟨⟨false, false, false, false⟩, 0, 0⟩

/-- One character of an expression; an error is the reason why Slurm's grammar has no place for it. -/
def Scan.step (s : Scan) (c : Char) : Except String Scan :=
  match c with
  | '(' =>
    if s.paren ≥ 1 then .error "Slurm does not allow nested parentheses"
    else .ok { s with shape := { s.shape with hasParens := true }, paren := s.paren + 1 }
  | ')' => if s.paren = 0 then .error "unbalanced parentheses" else .ok { s with paren := s.paren - 1 }
  | '[' =>
    if s.paren > 0 then .error "Slurm does not allow brackets inside parentheses"
    else if s.shape.hasBrackets then .error "Slurm allows only one set of brackets"
    else .ok { s with shape := { s.shape with hasBrackets := true }, bracket := s.bracket + 1 }
  | ']' => if s.bracket = 0 then .error "unbalanced brackets" else .ok { s with bracket := s.bracket - 1 }
  | '|' =>
    if s.paren = 0 ∧ s.bracket = 0 then .ok { s with shape := { s.shape with topLevelOr := true } } else .ok s
  | '*' => if s.bracket = 0 then .ok { s with shape := { s.shape with countOutsideBrackets := true } } else .ok s
  | _ => .ok s

def analyze (constraints : String) : Except String ExpressionShape :=
  let report (reason : String) : String := "constraint " ++ constraints.quote ++ ": " ++ reason
  match constraints.toList.foldlM Scan.step .start with
  | .error reason => .error (report reason)
  | .ok s =>
    if s.paren ≠ 0 then .error (report "unbalanced parentheses")
    else if s.bracket ≠ 0 then .error (report "unbalanced brackets")
    else .ok s.shape

/-- An expression that requires a feature and otherwise means the same. -/
def compose (required constraints : String) : Except String String :=
  let constraints := trimSpace constraints
  if constraints = "" ∨ constraints = required then
    .ok required
  else
    match analyze constraints with
    | .error text => .error text
    | .ok shape =>
      if shape.countOutsideBrackets then
        .error ("constraint " ++ constraints.quote ++
          ": a feature count outside square brackets cannot be combined with the required feature " ++
          required.quote ++ "; move the count into brackets, for example " ++
          ("[" ++ required ++ "*N&" ++ constraints ++ "]").quote)
      else if !shape.topLevelOr then
        .ok (required ++ "&" ++ constraints)
      else if shape.hasParens || shape.hasBrackets then
        .error ("constraint " ++ constraints.quote ++
          ": an OR outside parentheses cannot be combined with the required feature " ++ required.quote ++
          " when the expression also uses parentheses or brackets, because Slurm does not allow nested grouping; " ++
          "rewrite it with a single level of grouping, for example " ++ "(a&b)|c -> [a&b|c] or a&(b|c)".quote)
      else
        .ok (required ++ "&(" ++ constraints ++ ")")

end SlurmBridge.Slurm.Constraint
