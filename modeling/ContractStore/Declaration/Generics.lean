import ContractStore.Declaration.Grammar.Nested
import ContractStore.Declaration.Token.Arranged
import ContractStore.Declaration.Token.Source

/-!
Generic parameters: a type is used with the names of its parameters, without their bounds and
defaults. Lifetimes come first, whatever the order of declaration.
-/
namespace ContractStore

inductive GenericParam where
  | lifetime (name : String)
  | named (name : String)
  deriving DecidableEq, Repr

namespace GenericParam

def name : GenericParam → String
  | lifetime n => n
  | named n => n

def token : GenericParam → Token
  | lifetime n => .lifetime n
  | named n => .word n

def ofTokens : List Token → Option GenericParam
  | .mark "#" _ :: .group .square _ :: rest => ofTokens rest
  | .lifetime n :: _ => some (lifetime n)
  | .word "const" :: .word n :: _ => some (named n)
  | .word n :: _ => some (named n)
  | _ => none

end GenericParam

structure Generics where
  params : List GenericParam
  trailingComma : Bool
  deriving DecidableEq, Repr

namespace Generics

def none : Generics := ⟨[], false⟩

def ofText (source : String) : Generics :=
  match (Token.ofSource? source).map (Grammar.shownAs Grammar.generics) with
  | some [.group .params inner] =>
    ⟨(Token.items inner).filterMap GenericParam.ofTokens, Token.endsInComma inner⟩
  | _ => none

def arguments (g : Generics) : String :=
  if g.params.isEmpty then ""
  else
    let comma := Token.mark "," false
    let separated := (g.params.map GenericParam.token).intersperse comma
    Token.shown [.group .angle (separated ++ if g.trailingComma then [comma] else [])]

end Generics
end ContractStore
