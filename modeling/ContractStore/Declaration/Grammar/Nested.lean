import ContractStore.Declaration.Grammar.Item
import ContractStore.Declaration.Grammar.Statement
import ContractStore.Declaration.Grammar.Type

/-!
The grammar for forms that contain one another up to some depth, and for all that some tokens can
hold.
-/
namespace ContractStore.Grammar
open Reading

/-- Recognises forms up to `depth` readers inside one another. -/
def nested : (depth : Nat) → Grammar
  | 0 => empty
  | depth + 1 =>
    { type := fun plus place => (nested depth).readType plus place
      bound := fun place => (nested depth).readBound place
      pattern := fun place => (nested depth).readPattern place
      expression := fun braces place => (nested depth).readExpression braces place
      operand := fun braces place => (nested depth).readOperand braces place
      leading := fun place => (nested depth).readLeading place
      statements := fun place => (nested depth).readStatements place
      item := fun place => (nested depth).readItem place }

/-- The grammar for some tokens. Between two readers inside one another lies at least a bracket, or
one of the few steps from a block to an operand. -/
def forTokens (tokens : List Token) : Grammar := nested (4 * (Token.charsAll tokens).length + 8)

/-- What a reader shows of some tokens. If it cannot read them all, they stay as they are. -/
def shownAs (reader : Grammar → Reading Unit) (tokens : List Token) : List Token :=
  contents (reader (forTokens tokens)) tokens

def typeTokens (tokens : List Token) : List Token := shownAs (fun g => g.type true) tokens

end ContractStore.Grammar
