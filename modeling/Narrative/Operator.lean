/-!
# Operators

Comparisons make conditions, assignments make operations, and connectives join conditions.  Each
operator has one token.
-/

namespace Narrative

/-- The operators of conditions. -/
inductive Comparison where
  | equal
  | greater
  | less
  | greaterEqual
  | lessEqual
  | unequal
  | member
  | notMember
deriving DecidableEq, Inhabited

namespace Comparison

/-- All comparisons, in the order in which they are looked for. -/
def all : List Comparison :=
  [equal, greater, less, greaterEqual, lessEqual, unequal, member, notMember]

/-- The token of a comparison. -/
def token : Comparison → String
  | equal => "=="
  | greater => ">"
  | less => "<"
  | greaterEqual => ">="
  | lessEqual => "<="
  | unequal => "!="
  | member => "IN"
  | notMember => "NOT IN"

/-- The comparison of a token. -/
def ofToken? (token : String) : Option Comparison :=
  all.find? fun c => c.token == token

end Comparison

/-- The operators of operations. -/
inductive Assignment where
  | set
  | add
  | subtract
  | divide
  | remainder
  | multiply
  | append
  | remove
deriving DecidableEq, Inhabited

namespace Assignment

/-- All assignments, in the order in which they are looked for. -/
def all : List Assignment :=
  [set, add, subtract, divide, remainder, multiply, append, remove]

/-- The token of an assignment. -/
def token : Assignment → String
  | set => "="
  | add => "+="
  | subtract => "-="
  | divide => "/="
  | remainder => "%="
  | multiply => "*="
  | append => "APPEND TO"
  | remove => "REMOVE FROM"

/-- The assignment of a token. -/
def ofToken? (token : String) : Option Assignment :=
  all.find? fun a => a.token == token

/-- Every assignment but the plain one needs a value to work on. -/
def isCompound : Assignment → Bool
  | set => false
  | _ => true

end Assignment

/-- The connectives of groups of conditions. -/
inductive Connective where
  | and
  | or
deriving DecidableEq, Inhabited

namespace Connective

/-- Both connectives. -/
def all : List Connective :=
  [and, or]

/-- The token of a connective. -/
def token : Connective → String
  | and => "AND"
  | or => "OR"

/-- The connective of a token. -/
def ofToken? (token : String) : Option Connective :=
  all.find? fun c => c.token == token

end Connective

/-- An operator of a statement. -/
inductive Operator where
  | comparison (operator : Comparison)
  | assignment (operator : Assignment)
deriving DecidableEq, Inhabited

namespace Operator

/-- All operators, in the order in which they are looked for. -/
def all : List Operator :=
  Comparison.all.map comparison ++ Assignment.all.map assignment

/-- The token of an operator. -/
def token : Operator → String
  | comparison c => c.token
  | assignment a => a.token

end Operator

end Narrative
